import EventRelay.Program
import EventRelay.Proofs.Options
import EventRelay.Proofs.Serving

/-!
# Pages of other origins, and the list of them

The list of origins may have texts in it that cannot be sent as a field value: they are reported
and left out (`OriginPolicy.isOrigin_iff` says which they are). Pages of the others may read
answers, and of no more (`App.answer_origin`).

A wildcard can be sent, and so it is not left out; yet it cannot stand in a list, and is found
only when the server has taken its address. `Program.run` then ends in a crash, whatever else is
in the list, where a failure to take the address is reported and ends the run in good order.
-/

namespace EventRelay

namespace Http

/-! ## The fields of responses -/

namespace Response

variable {β : Type}

/-- The values of a field. -/
def all (r : Response β) (name : String) : List String :=
  r.headers.filterMap fun field => if field.1 = name then some field.2 else none

theorem all_eq_nil {r : Response β} {name : String} (hother : name ∉ r.headers.map Prod.fst) :
    r.all name = [] := by
  refine List.filterMap_eq_nil_iff.mpr fun field hfield => if_neg ?_
  rintro rfl
  exact hother (List.mem_map_of_mem hfield)

/-- Fields that are added are put in their places among the others. -/
theorem all_withFields (r : Response β) (fields : List (String × String)) (name : String) :
    ((r.withFields fields).all name).Perm
      (r.all name
        ++ fields.filterMap fun field => if field.1 = name then some field.2 else none) := by
  rw [all, withFields, all, ← List.filterMap_append]
  exact (List.mergeSort_perm _ _).filterMap _

end Response

end Http

/-! ## Policies -/

namespace OriginPolicy

variable {texts : List String} {p : OriginPolicy} {h : Http.Headers} {origin : String}

theorem isOrigin_iff (text : String) : isOrigin text = true ↔
    ∀ c ∈ text.toList, 32 ≤ c.toNat ∧ c.toNat ≠ 127 ∨ c.toNat = 9 := by
  rw [isOrigin, Http.isFieldValue_encode, List.all_eq_true]
  exact forall₂_congr fun c _ => Http.isValueChar_iff c

/-- A wildcard is the only text that keeps a list from being one. -/
theorem ofTexts?_eq (texts : List String) : ofTexts? texts
    = if wildcardOrigin ∈ texts then none else some ⟨texts.filter isOrigin⟩ := by
  have hwildcard :
      (texts.filter isOrigin).contains wildcardOrigin = true ↔ wildcardOrigin ∈ texts := by
    have hvalid : isOrigin wildcardOrigin = true := by decide +kernel
    rw [List.contains_iff_mem, List.mem_filter, hvalid]
    exact and_iff_left rfl
  simp only [ofTexts?, hwildcard]

/-- The origin that a page comes from is named as allowed exactly if it is in the list. -/
theorem allowed?_iff : p.allowed? h = some origin ↔
    (h.all "origin").head? = some (Utf8.encode origin) ∧ origin ∈ p.origins := by
  rw [allowed?, Option.bind_eq_some_iff]
  constructor
  · rintro ⟨bytes, hbytes, hfound⟩
    have hsame := List.find?_some hfound
    rw [beq_iff_eq] at hsame
    exact ⟨hsame ▸ hbytes, List.mem_of_find?_eq_some hfound⟩
  · rintro ⟨hbytes, hlisted⟩
    refine ⟨_, hbytes, ?_⟩
    cases hfound : p.origins.find? fun text => Utf8.encode text == Utf8.encode origin with
    | none => simpa using List.find?_eq_none.mp hfound origin hlisted
    | some text =>
        have hsame := List.find?_some hfound
        rw [beq_iff_eq] at hsame
        rw [Utf8.encode_injective hsame]

theorem fields_origin (p : OriginPolicy) (h : Http.Headers) (beforehand : Bool) :
    ((p.fields h beforehand).filterMap fun field =>
      if field.1 = "access-control-allow-origin" then some field.2 else none)
      = (p.allowed? h).toList := by
  unfold fields
  cases beforehand <;> cases p.allowed? h <;> simp

end OriginPolicy

/-! ## Answers -/

namespace App

/-- The field that names the origin whose pages may read an answer. -/
def originField : String := "access-control-allow-origin"

theorem streamHeaders_origin (a : App) (secure : Bool) (id : SessionId) :
    originField ∉ (a.streamHeaders secure id).2.map Prod.fst := by
  unfold streamHeaders
  dsimp only
  split <;> simp only [originField, sessionHeader, List.map_append, List.map_cons,
    List.map_nil] <;> decide

theorem plain_origin (status : Nat) (text : String) :
    originField ∉ (Http.Response.plain status text : Response).headers.map Prod.fst := by
  show originField ∉ ["content-length", "content-type"]
  decide

theorem openStream_origin (a : App) (r : Http.Request) (draws : List Draw) :
    originField ∉ (a.openStream r draws).2.headers.map Prod.fst := by
  unfold openStream
  split
  · exact plain_origin _ _
  · dsimp only
    split
    · exact plain_origin _ _
    · split
      · exact streamHeaders_origin _ _ _
      · exact plain_origin _ _
      · exact plain_origin _ _

/-- No path is answered with the name of an origin. -/
theorem handle_origin (a : App) (r : Http.Request) (draws : List Draw) :
    originField ∉ (a.handle r draws).2.headers.map Prod.fst := by
  have hroute : ∀ handler, route? r.uri.path = some handler →
      originField ∉ (handler a r draws).2.headers.map Prod.fst := by
    intro handler hhandler
    unfold route? at hhandler
    split at hhandler
    · obtain rfl := Option.some.inj hhandler
      exact plain_origin _ _
    · obtain rfl := Option.some.inj hhandler
      exact a.openStream_origin r draws
    · obtain rfl := Option.some.inj hhandler
      show originField ∉ ["content-length", "content-type"]
      decide
    · cases hhandler
  unfold handle
  split
  · exact List.not_mem_nil
  · next handler hhandler =>
      split
      · exact hroute handler hhandler
      · split
        · dsimp only
          have hnames := hroute handler hhandler
          unfold withoutBody
          split <;> exact hnames
        · show originField ∉ ["allow", "content-length"]
          decide

/-- An answer names an origin as allowed if the page comes from one that is in the list. -/
theorem answer_origin (a : App) (p : OriginPolicy) (r : Http.Request) (draws : List Draw) :
    (a.answer p r draws).2.all originField = (p.allowed? r.headers).toList := by
  unfold answer
  split
  · exact p.fields_origin r.headers true
  · dsimp only
    have hperm := (a.handle r draws).2.all_withFields (p.fields r.headers false) originField
    rw [Http.Response.all_eq_nil (a.handle_origin r draws), List.nil_append] at hperm
    have hfields : ((p.fields r.headers false).filterMap fun field =>
        if field.1 = originField then some field.2 else none) = (p.allowed? r.headers).toList :=
      p.fields_origin r.headers false
    rw [hfields] at hperm
    cases hallowed : p.allowed? r.headers with
    | none =>
        rw [hallowed] at hperm
        exact List.perm_nil.mp hperm
    | some origin =>
        rw [hallowed] at hperm
        exact List.perm_singleton.mp hperm

/-! ## Starting to serve -/

/-- What a server reports before it serves. -/
def reports (a : App) : List Notice :=
  .listening a.settings.address :: OriginPolicy.notices a.settings.allowedOrigins

theorem foldl_note_journal (notices : List Notice) (a : App) :
    (notices.foldl note a).broker.journal = notices.reverse ++ a.broker.journal := by
  induction notices generalizing a with
  | nil => rfl
  | cons n notices ih =>
      rw [List.foldl_cons, ih, List.reverse_cons, List.append_assoc]
      rfl

/-- The address is taken and everything reported before a wildcard is found. -/
theorem serve_none (a : App) : a.serve none = (a.reports.foldl note a,
    if wildcardOrigin ∈ a.settings.allowedOrigins then .error .wildcard
    else .ok ⟨a.settings.allowedOrigins.filter OriginPolicy.isOrigin⟩) := by
  unfold serve
  dsimp only
  rw [OriginPolicy.ofTexts?_eq]
  by_cases hwildcard : wildcardOrigin ∈ a.settings.allowedOrigins
  · rw [if_pos hwildcard, if_pos hwildcard]
    rfl
  · rw [if_neg hwildcard, if_neg hwildcard]
    rfl

end App

namespace Program

open OriginPolicy

variable {settings : Settings} {now : Nat} {app : App}

/-- What is reported up to the point where the server serves. -/
def preamble (settings : Settings) (app : App) : List Notice :=
  .starting settings.environment.name settings.sessionTtl
    :: (app.broker.journal.reverse ++ app.reports)

theorem takeNotices_reports (app : App) : (takeNotices (app.reports.foldl App.note app)).1
    = app.broker.journal.reverse ++ app.reports := by
  show (app.reports.foldl App.note app).broker.journal.reverse = _
  rw [App.foldl_note_journal, List.reverse_append, List.reverse_reverse]

theorem run_of_listable (hstart : App.start settings now = .ok app)
    (hlist : wildcardOrigin ∉ settings.allowedOrigins) :
    run settings now none =
      { notices := preamble settings app
        course := .serves (takeNotices (app.reports.foldl App.note app)).2
          ⟨settings.allowedOrigins.filter isOrigin⟩ } := by
  have hsettings := (App.start_eq_ok.mp hstart).1
  unfold run preamble
  rw [hstart]
  dsimp only
  rw [App.serve_none, hsettings, if_neg hlist]
  dsimp only
  rw [takeNotices_reports]

theorem run_of_wildcard (hstart : App.start settings now = .ok app)
    (hlist : wildcardOrigin ∈ settings.allowedOrigins) :
    run settings now none = .crash (preamble settings app) wildcardMessage := by
  have hsettings := (App.start_eq_ok.mp hstart).1
  unfold run preamble
  rw [hstart]
  dsimp only
  rw [App.serve_none, hsettings, if_pos hlist]
  dsimp only
  rw [takeNotices_reports]
  rfl

/-- **Bad origins are skipped, and a wildcard is fatal.** The command line and the environment
accept every list that is not empty and whose texts have no comma, and no other.

If there is no wildcard in it, the server serves. Its list has the texts that may be sent as a
field value, in order; each of the others has been reported, in order, after the address. An
answer names an origin as allowed if and only if the page comes from it and it is in that list.

If there is a wildcard anywhere in it, the process gives up after it has taken the address and
reported all of that. -/
theorem skips_origins_unless_wildcard (hstart : App.start settings now = .ok app) :
    (∀ texts, (∃ env arguments s, Settings.read env arguments = .ok s ∧ s.allowedOrigins = texts) ↔
      Settings.Listable texts) ∧
    (wildcardOrigin ∉ settings.allowedOrigins → ∃ app' p,
      run settings now none = { notices := preamble settings app, course := .serves app' p } ∧
      p.origins = settings.allowedOrigins.filter isOrigin ∧
      ∀ a r draws, (App.answer a p r draws).2.all App.originField = (p.allowed? r.headers).toList ∧
        ∀ origin, p.allowed? r.headers = some origin ↔
          (r.headers.all "origin").head? = some (Utf8.encode origin) ∧
            origin ∈ settings.allowedOrigins ∧ isOrigin origin = true) ∧
    (wildcardOrigin ∈ settings.allowedOrigins →
      run settings now none = .crash (preamble settings app) wildcardMessage) := by
  refine ⟨Settings.origins_iff, ?_, run_of_wildcard hstart⟩
  intro hlist
  refine ⟨_, _, run_of_listable hstart hlist, rfl, ?_⟩
  intro a r draws
  refine ⟨a.answer_origin _ r draws, fun origin => ?_⟩
  rw [allowed?_iff, List.mem_filter]

/-- A text with a line break is no origin, and the server serves without it. -/
theorem skips_origins_unless_wildcard_line_break : ∃ app app' p,
    App.start { allowedOrigins := ["http://a.example", "two\nlines"] } 0 = .ok app ∧
    (run { allowedOrigins := ["http://a.example", "two\nlines"] } 0 none).course
      = .serves app' p ∧
    p.origins = ["http://a.example"] := by
  let settings : Settings := { allowedOrigins := ["http://a.example", "two\nlines"] }
  obtain ⟨app, hstart⟩ : ∃ app, App.start settings 0 = .ok app := App.starts_iff.mpr (by decide)
  obtain ⟨-, hserves, -⟩ := skips_origins_unless_wildcard hstart
  obtain ⟨app', p, hrun, horigins, -⟩ := hserves (by decide +kernel)
  refine ⟨app, app', p, hstart, congrArg Run.course hrun, horigins.trans ?_⟩
  decide +kernel

/-- The command line accepts a wildcard next to an origin. The process has taken its address when
it gives up. -/
theorem wildcard_among_origins : ∃ settings app,
    Settings.read (fun _ => none) ["--allowed-origins", "http://a.example,*"] = .ok settings ∧
    App.start settings 0 = .ok app ∧ .listening settings.address ∈ (run settings 0 none).notices ∧
    (run settings 0 none).code? = some crashCode := by
  let settings : Settings := { allowedOrigins := ["http://a.example", "*"] }
  have hread : Settings.read (fun _ => none) ["--allowed-origins", "http://a.example,*"]
      = .ok settings := by
    rfl
  obtain ⟨app, hstart⟩ : ∃ app, App.start settings 0 = .ok app := App.starts_iff.mpr (by decide)
  have hrun := run_of_wildcard hstart (by decide +kernel)
  have hsettings := (App.start_eq_ok.mp hstart).1
  refine ⟨settings, app, hread, hstart, ?_, ?_⟩
  · rw [hrun]
    show _ ∈ preamble settings app
    rw [preamble, App.reports, hsettings]
    simp
  · rw [hrun]
    rfl

end Program

end EventRelay
