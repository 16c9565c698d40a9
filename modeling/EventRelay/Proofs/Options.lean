import EventRelay.Proofs.Cookies
import EventRelay.Settings.Options

/-!
# What can be set

Options are read one after the other, and each changes the settings by the values that it was
given. A property that the defaults have and that every option keeps is therefore one of
whatever is read (`CommandLine.read_keeps`), however options, values and variables of the
environment are mixed.

For the list of origins this tells which lists there can be: all those that are not empty and
whose texts have no comma (`Settings.origins_iff`).
-/

namespace EventRelay

namespace CommandLine

theorem bind_eq_ok {ε α β : Type} {x : Except ε α} {f : α → Except ε β} {b : β} :
    (x >>= f) = .ok b ↔ ∃ a, x = .ok a ∧ f a = .ok b := by
  cases x with
  | error e => exact ⟨nofun, fun ⟨_, hx, _⟩ => nomatch hx⟩
  | ok a =>
      constructor
      · exact fun hf => ⟨a, rfl, hf⟩
      · rintro ⟨a', hx, hf⟩
        obtain rfl := Except.ok.inj hx
        exact hf

variable {σ : Type} {P : σ → Prop} {flags : List (Flag σ)} {f : Flag σ} {p p' : Progress σ}

/-- The option keeps a property of the settings, whatever values it is given. -/
def Flag.Keeps (f : Flag σ) (P : σ → Prop) : Prop :=
  ∀ values s s', values ≠ [] → f.apply values s = .ok s' → P s → P s'

theorem Flag.set_eq_ok {values : List String} {s s' : σ} (hset : f.set values s = .ok s') :
    f.apply values s = .ok s' := by
  unfold set at hset
  split at hset
  · next happly =>
      obtain rfl := Except.ok.inj hset
      exact happly
  all_goals cases hset

namespace Progress

/-- The settings so far have the property, and the option whose value is still to be looked at
keeps it. -/
structure Keeps (p : Progress σ) (P : σ → Prop) : Prop where
  settings : P p.settings
  waiting : ∀ f value, p.waiting = some (f, value) → f.Keeps P

theorem Keeps.take (hp : p.Keeps P) (hf : f.Keeps P) {value : String}
    (htake : p.take f value = .ok p') : p'.Keeps P := by
  unfold Progress.take at htake
  split at htake
  · cases htake
  · obtain ⟨s, hset, hread⟩ := bind_eq_ok.mp htake
    obtain rfl := Except.ok.inj hread
    exact ⟨hf _ _ _ (by simp) (Flag.set_eq_ok hset) hp.settings, hp.waiting⟩

theorem Keeps.resolve (hp : p.Keeps P) (hresolve : p.resolve = .ok p') : p'.Keeps P := by
  unfold Progress.resolve at hresolve
  split at hresolve
  · obtain rfl := Except.ok.inj hresolve
    exact hp
  · cases hresolve
  · next f value hwaits =>
      have hp' : ({ p with waiting := none } : Progress σ).Keeps P := ⟨hp.settings, nofun⟩
      exact hp'.take (hp.waiting f _ hwaits) hresolve

theorem Keeps.enter (hp : p.Keeps P) (hf : f.Keeps P) (henter : p.enter f = .ok p') :
    p'.Keeps P := by
  obtain ⟨q, hresolve, hread⟩ := bind_eq_ok.mp henter
  have hq := hp.resolve hresolve
  split at hread
  · exact hq.take hf hread
  · obtain rfl := Except.ok.inj hread
    refine ⟨hq.settings, ?_⟩
    rintro f' value ⟨⟩
    exact hf

theorem Keeps.attach (hp : p.Keeps P) (hf : f.Keeps P) {value : String}
    (hattach : p.attach f value = .ok p') : p'.Keeps P := by
  obtain ⟨q, hresolve, hread⟩ := bind_eq_ok.mp hattach
  exact (hp.resolve hresolve).take hf hread

/-- Help and version are no settings. -/
theorem ask_ne_ok (o : Outcome) : p.ask o ≠ .ok p' := by
  intro hask
  obtain ⟨q, -, hread⟩ := bind_eq_ok.mp hask
  cases hread

variable (hflags : ∀ f ∈ flags, f.Keeps P)

include hflags

theorem Keeps.long (hp : p.Keeps P) {name : String} {value : Option String}
    (hlong : p.long flags name value = .ok p') : p'.Keeps P := by
  unfold Progress.long at hlong
  split at hlong
  · next f hfind => exact hp.enter (hflags f (List.mem_of_find?_eq_some hfind)) hlong
  · next f value hfind =>
      split at hlong
      · exact hp.attach (hflags f (List.mem_of_find?_eq_some hfind)) hlong
      · cases hlong
  · split at hlong
    · exact absurd hlong (ask_ne_ok _)
    · split at hlong
      · exact absurd hlong (ask_ne_ok _)
      · cases hlong
  · split at hlong <;> cases hlong

theorem Keeps.cluster {cs : List Char} (hp : p.Keeps P) (hcluster : p.cluster flags cs = .ok p') :
    p'.Keeps P := by
  induction cs generalizing p with
  | nil =>
      obtain rfl := Except.ok.inj hcluster
      exact hp
  | cons c rest ih =>
      unfold Progress.cluster at hcluster
      split at hcluster
      · next f hfind =>
          have hf := hflags f (List.mem_of_find?_eq_some hfind)
          split at hcluster
          · split at hcluster
            · exact hp.enter hf hcluster
            · exact hp.attach hf hcluster
            · exact hp.attach hf hcluster
          · obtain ⟨q, henter, hrest⟩ := bind_eq_ok.mp hcluster
            exact ih (hp.enter hf henter) hrest
      · split at hcluster
        · exact absurd hcluster (ask_ne_ok _)
        · split at hcluster
          · exact absurd hcluster (ask_ne_ok _)
          · cases hcluster

omit hflags in
theorem Keeps.word (hp : p.Keeps P) {argument : String} (hword : p.word argument = .ok p') :
    p'.Keeps P := by
  unfold Progress.word at hword
  split at hword
  · next f hwaits =>
      obtain rfl := Except.ok.inj hword
      refine ⟨hp.settings, ?_⟩
      rintro _ value ⟨⟩
      exact hp.waiting _ _ hwaits
  · cases hword

theorem Keeps.step (hp : p.Keeps P) {argument : String} (hstep : p.step flags argument = .ok p') :
    p'.Keeps P := by
  unfold Progress.step at hstep
  split at hstep
  · cases hstep
  · split at hstep
    · obtain rfl := Except.ok.inj hstep
      exact ⟨hp.settings, hp.waiting⟩
    · exact hp.long hflags hstep
    · exact hp.cluster hflags hstep
    · exact hp.word hstep

omit hflags in
theorem Keeps.consult {env : String → Option String} (hp : p.Keeps P) (hf : f.Keeps P)
    (hconsult : p.consult env f = .ok p') : p'.Keeps P := by
  unfold Progress.consult at hconsult
  split at hconsult
  · exact hp.take hf hconsult
  · obtain rfl := Except.ok.inj hconsult
    exact hp

omit hflags in
/-- What each step keeps is kept by all of them. -/
theorem Keeps.foldlM {α : Type} {step : Progress σ → α → Except Outcome (Progress σ)} {as : List α}
    (hstep : ∀ a ∈ as, ∀ q q', q.Keeps P → step q a = .ok q' → q'.Keeps P) (hp : p.Keeps P)
    (hfold : as.foldlM step p = .ok p') : p'.Keeps P := by
  induction as generalizing p with
  | nil =>
      obtain rfl := Except.ok.inj hfold
      exact hp
  | cons a as ih =>
      obtain ⟨ha, hrest⟩ := List.forall_mem_cons.mp hstep
      rw [List.foldlM_cons] at hfold
      obtain ⟨q, hq, hfold⟩ := bind_eq_ok.mp hfold
      exact ih hrest (ha p q hp hq) hfold

end Progress

/-- A long option with an attached value. -/
theorem Progress.step_long {name value : List Char} (hopen : p.trailing = false) (hne : name ≠ [])
    (hname : '=' ∉ name) : p.step flags (String.ofList ('-' :: '-' :: (name ++ '=' :: value)))
      = p.long flags (String.ofList name) (some (String.ofList value)) := by
  have hall : ∀ c ∈ name, decide (c ≠ '=') = true := fun c hc =>
    decide_eq_true fun e => hname (e ▸ hc)
  have htake : (name ++ '=' :: value).takeWhile (· ≠ '=') = name := by
    rw [List.takeWhile_append_of_pos hall]
    simp
  unfold Progress.step
  rw [hopen, if_neg Bool.false_ne_true, String.toList_ofList]
  split
  · next h => simp [hne] at h
  · next option _ h =>
      obtain rfl : name ++ '=' :: value = option := by simpa using h
      rw [htake]
      dsimp only
      rw [if_pos (by simp), List.drop_left]
      rfl
  · next c rest _ hc h => exact absurd (List.cons.inj (List.cons.inj h).2).1.symm hc
  · next h => exact absurd rfl (h _ _)

/-- An environment without variables changes nothing. -/
theorem Progress.foldlM_consult (flags : List (Flag σ)) (p : Progress σ) :
    flags.foldlM (Progress.consult fun _ => none) p = .ok p := by
  induction flags with
  | nil => rfl
  | cons f flags ih =>
      have hconsult : p.consult (fun _ => none) f = .ok p := by
        unfold Progress.consult
        split
        · next hnone => cases hnone
        · rfl
      rw [List.foldlM_cons, hconsult]
      exact ih

/-- **What every option keeps is kept**, whatever the arguments and the environment are. -/
theorem read_keeps (hflags : ∀ f ∈ flags, f.Keeps P) {env : String → Option String} {defaults s : σ}
    {arguments : List String} (hread : read flags env defaults arguments = .ok s)
    (hdefaults : P defaults) : P s := by
  obtain ⟨p, hargs, hread⟩ := bind_eq_ok.mp hread
  obtain ⟨q, hresolve, hread⟩ := bind_eq_ok.mp hread
  obtain ⟨r, henv, hread⟩ := bind_eq_ok.mp hread
  obtain rfl := Except.ok.inj hread
  have hstart : ({ settings := defaults } : Progress σ).Keeps P := ⟨hdefaults, nofun⟩
  have hp := hstart.foldlM (fun _ _ _ _ hq hstep => hq.step hflags hstep) hargs
  have hq := hp.resolve hresolve
  exact (hq.foldlM (fun f hf _ _ hr hconsult => hr.consult (hflags f hf) hconsult) henv).settings

end CommandLine

namespace Settings

open CommandLine (Flag Progress bind_eq_ok)

/-- Lists of origins as they come from the command line and the environment. -/
def Listable (texts : List String) : Prop := texts ≠ [] ∧ ∀ text ∈ texts, ',' ∉ text.toList

theorem listable_flatMap {values : List String} (hne : values ≠ []) :
    Listable (values.flatMap fun value => Text.split ',' value) := by
  obtain ⟨value, values, rfl⟩ := List.exists_cons_of_ne_nil hne
  refine ⟨?_, ?_⟩
  · rw [List.flatMap_cons, Text.split]
    refine List.append_ne_nil_of_left_ne_nil ?_ _
    rw [Ne, List.map_eq_nil_iff]
    exact Text.splitChars_ne_nil ',' value.toList
  · intro text htext
    obtain ⟨value', -, htext⟩ := List.mem_flatMap.mp htext
    obtain ⟨part, hpart, rfl⟩ := List.mem_map.mp htext
    rw [String.toList_ofList]
    exact Text.not_mem_of_mem_splitChars hpart

/-- What is set by a value of another option leaves the list of origins alone. -/
theorem origins_of_map {α : Type} {value : Except CommandLine.ValueFault α}
    {set : Settings → α → Settings}
    {s s' : Settings} (hset : ∀ s a, (set s a).allowedOrigins = s.allowedOrigins)
    (hread : value.map (set s) = .ok s') : s'.allowedOrigins = s.allowedOrigins := by
  cases value with
  | error fault => cases hread
  | ok a =>
      obtain rfl := Except.ok.inj hread
      exact hset s a

theorem option_keeps {α : Type} {P : List String → Prop} {long : String} {short : Option Char}
    {kind : String → Except CommandLine.ValueFault α} {set : Settings → α → Settings}
    (hset : ∀ s a, (set s a).allowedOrigins = s.allowedOrigins) :
    (option long short kind set).Keeps fun s => P s.allowedOrigins := by
  intro values s s' _ happly hs
  show P s'.allowedOrigins
  rwa [origins_of_map hset happly]

theorem options_keep : ∀ f ∈ options, f.Keeps fun s => Listable s.allowedOrigins := by
  simp only [options, List.forall_mem_cons]
  refine ⟨?origins, ?_, ?_, ?_, ?_, ?_, ?_, ?_, ?_, ?_, ?_, ?_, ?_, ?_, ?_, ?binding, nofun⟩
  case origins =>
    intro values s s' hne happly _
    obtain rfl := Except.ok.inj happly
    exact listable_flatMap hne
  case binding =>
    intro values s s' _ happly hs
    have hset : ∀ (s : Settings) (v : Bool),
        ({ s with strictBinding := v } : Settings).allowedOrigins = s.allowedOrigins :=
        fun _ _ => rfl
    show Listable s'.allowedOrigins
    rwa [origins_of_map hset happly]
  all_goals exact option_keeps fun _ _ => rfl

/-- The list of origins in one text, as it is given on the command line. -/
def listed (texts : List String) : List Char := [','].intercalate (texts.map String.toList)

theorem split_listed {texts : List String} (hlist : Listable texts) :
    Text.split ',' (String.ofList (listed texts)) = texts := by
  have hparts : ∀ part ∈ texts.map String.toList, ',' ∉ part := by
    intro part hpart
    obtain ⟨text, htext, rfl⟩ := List.mem_map.mp hpart
    exact hlist.2 text htext
  rw [Text.split, String.toList_ofList, listed,
    Text.splitChars_intercalate (by simpa using hlist.1) hparts, List.map_map]
  exact (List.map_congr_left fun text _ => String.ofList_toList).trans (List.map_id texts)

/-- Every such list can be asked for. -/
theorem read_listed {texts : List String} (hlist : Listable texts) :
    read (fun _ => none)
        [String.ofList ('-' :: '-' :: ("allowed-origins".toList ++ '=' :: listed texts))]
      = .ok { allowedOrigins := texts } := by
  let p : Progress Settings :=
    { settings := { allowedOrigins := texts }
      given := [("allowed-origins", [String.ofList (listed texts)])] }
  have hfind : options.find? (·.long == "allowed-origins") = options.head? := rfl
  have hlong : Progress.long options { settings := ({} : Settings) } "allowed-origins"
      (some (String.ofList (listed texts))) = .ok p := by
    unfold Progress.long
    rw [hfind]
    simp only [options, List.head?_cons, Option.isSome_some, if_true]
    simp [p, Progress.attach, Progress.resolve, Progress.take,
      Flag.set, bind, Except.bind, split_listed hlist]
  refine bind_eq_ok.mpr ⟨p, ?_, bind_eq_ok.mpr ⟨p, rfl,
    bind_eq_ok.mpr ⟨p, Progress.foldlM_consult _ _, rfl⟩⟩⟩
  rw [List.foldlM_cons, Progress.step_long rfl (by simp) (by simp), String.ofList_toList,
    hlong]
  rfl

/-- **The lists of origins that there can be.** The command line and the environment together
accept exactly the lists that are not empty and whose texts have no comma. -/
theorem origins_iff (texts : List String) :
    (∃ env arguments s, read env arguments = .ok s ∧ s.allowedOrigins = texts) ↔
      Listable texts := by
  constructor
  · rintro ⟨env, arguments, s, hread, rfl⟩
    exact CommandLine.read_keeps options_keep hread ⟨by decide, by decide +kernel⟩
  · intro hlist
    exact ⟨_, _, _, read_listed hlist, rfl⟩

end Settings

end EventRelay
