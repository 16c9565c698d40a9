import EventRelay.Clock
import EventRelay.Http.Wire
import EventRelay.Proofs.Cookies

/-!
# The cookie in a browser

A browser reads the text of a `set-cookie` field, keeps the cookie for as long as it was told
from the time at which it was told, and sends it with its other cookies until then
(`Cookie.sent?`, `Cookie.Brought`). What it reads is the session's cookie again if its name can
be told from what stands around it (`Cookie.Keepable`). A request presents the session exactly
if the browser still has the cookie, under its name, and the field that carries it can be read
(`Cookie.Brought.presented_iff`).
-/

namespace EventRelay

/-! ## Bytes below 128 -/

namespace Utf8

theorem mem_encodeChar {b : UInt8} (hb : b < 0x80) {c : Char} :
    b ∈ String.utf8EncodeChar c ↔ c = Char.ofNat b.toNat := by
  rcases Nat.lt_or_ge c.toNat 128 with hc | hc
  · rw [encodeChar_ascii hc, List.mem_singleton]
    constructor
    · rintro rfl
      rw [UInt8.toNat_ofNat_of_lt' (Nat.lt_trans hc (by decide)), Char.ofNat_toNat]
    · rintro rfl
      rw [toNat_char, UInt8.ofNat_toNat]
  · refine iff_of_false (fun hmem => ?_) ?_
    · exact absurd hb (UInt8.not_lt.mpr ((encodeChar_high hc).2 b hmem))
    · rintro rfl
      rw [toNat_char] at hc
      exact absurd (UInt8.lt_iff_toNat_lt.mp hb) (Nat.not_lt.mpr hc)

/-- A byte of ASCII is in a text where its character is. -/
theorem mem_encode {b : UInt8} (hb : b < 0x80) {s : String} :
    b ∈ encode s ↔ Char.ofNat b.toNat ∈ s.toList := by
  simp only [encode, List.mem_flatMap, mem_encodeChar hb, exists_eq_right]

/-- A byte of ASCII comes first if its character does. -/
theorem head?_encode {b : UInt8} (hb : b < 0x80) {s : String} (hfirst : (encode s).head? = some b) :
    s.toList.head? = some (Char.ofNat b.toNat) := by
  rw [encode] at hfirst
  cases hs : s.toList with
  | nil =>
      rw [hs] at hfirst
      cases hfirst
  | cons c cs =>
      have hne : String.utf8EncodeChar c ≠ [] := by
        rcases Nat.lt_or_ge c.toNat 128 with hc | hc
        · rw [encodeChar_ascii hc]
          exact List.cons_ne_nil _ _
        · exact (encodeChar_high hc).1
      rw [hs, List.flatMap_cons, List.head?_append_of_ne_nil _ hne] at hfirst
      rw [(mem_encodeChar hb).mp (List.mem_of_mem_head? hfirst)]
      rfl

end Utf8

theorem Text.mem_of_mem_splitChars {sep c : Char} :
    ∀ {cs part : List Char}, part ∈ splitChars sep cs → c ∈ part → c ∈ cs
  | [], part, hpart, hc => by
      rw [splitChars, List.mem_singleton] at hpart
      exact hpart ▸ hc
  | d :: rest, part, hpart, hc => by
      rw [splitChars] at hpart
      split at hpart
      · rcases List.mem_cons.mp hpart with rfl | hpart
        · cases hc
        · exact List.mem_cons_of_mem _ (mem_of_mem_splitChars hpart hc)
      · split at hpart
        · next hnil => exact absurd hnil (splitChars_ne_nil sep rest)
        · next first others hsplit =>
            rcases List.mem_cons.mp hpart with rfl | hpart
            · rcases List.mem_cons.mp hc with rfl | hc
              · exact List.mem_cons_self ..
              · exact List.mem_cons_of_mem _
                  (mem_of_mem_splitChars (hsplit ▸ List.mem_cons_self ..) hc)
            · exact List.mem_cons_of_mem _
                (mem_of_mem_splitChars (hsplit ▸ List.mem_cons_of_mem _ hpart) hc)

namespace Http

/-- A cookie as a browser keeps it. -/
structure Cookie where
  name : String
  value : String
  /-- For how many seconds it is kept, if that was said. -/
  maxAge : Option Nat
  deriving Repr, DecidableEq

namespace Cookie

/-! ## What a browser is told -/

/-- Characters without the spaces and tabs at both ends. -/
def strip (cs : List Char) : List Char := (cs.dropWhile Wire.isPadding).rdropWhile Wire.isPadding

/-- What stands before the first `=`, and what after it. -/
def halves (part : List Char) : List Char × List Char :=
  (strip (part.takeWhile (· ≠ '=')), strip (part.dropWhile (· ≠ '=')).tail)

/-- The seconds in an attribute that says how long the cookie is to be kept. -/
def maxAge? (said : List Char) : Option Nat :=
  let (name, value) := halves said
  if name.map Char.toLower = "max-age".toList ∧ value ≠ [] ∧ value.all Char.isDigit then
    some (Nat.ofDigitChars 10 value 0)
  else none

/-- The cookie in the text of a `set-cookie` field: a name and a value in the first part, and
then attributes, of which the last one of a kind counts. Without a name there is no cookie. -/
def ofText? (text : String) : Option Cookie :=
  match Text.splitChars ';' text.toList with
  | [] => none
  | first :: attributes =>
    let (name, value) := halves first
    if '=' ∈ first ∧ name ≠ [] then
      some
        { name := String.ofList name
          value := String.ofList value
          maxAge := (attributes.filterMap maxAge?).getLast? }
    else none

/-- The cookie that a browser sends at the time `now` if it was told the text at the time
`since`. -/
def sent? (text : String) (since now : Nat) : Option Cookie :=
  (ofText? text).filter fun k => k.maxAge.all fun age => now < since + Duration.ofSeconds age

/-- A name that can be told from what stands around it. -/
structure Keepable (name : String) : Prop where
  nonempty : name ≠ ""
  first : ∀ c ∈ name.toList.head?, Wire.isPadding c = false
  last : ∀ c ∈ name.toList.getLast?, Wire.isPadding c = false
  separators : '=' ∉ name.toList ∧ ';' ∉ name.toList

variable {text name id : String} {k : Cookie} {cs part : List Char}

theorem mem_strip {c : Char} (hc : c ∈ strip cs) : c ∈ cs :=
  (List.dropWhile_suffix _).subset ((List.rdropWhile_prefix _ _).subset hc)

theorem strip_ends (cs : List Char) : (∀ c ∈ (strip cs).head?, Wire.isPadding c = false) ∧
    ∀ c ∈ (strip cs).getLast?, Wire.isPadding c = false := by
  constructor
  · intro c hc
    obtain ⟨rest, hrest⟩ := List.rdropWhile_prefix Wire.isPadding (cs.dropWhile Wire.isPadding)
    have hfirst : (cs.dropWhile Wire.isPadding).head? = some c := by
      rw [← hrest]
      exact List.mem_head?_append_of_mem_head? hc
    have hnot := List.head?_dropWhile_not Wire.isPadding cs
    rw [hfirst] at hnot
    simpa using hnot
  · intro c hc
    have hne : strip cs ≠ [] := by
      rintro hnil
      rw [hnil] at hc
      cases hc
    have hlast : ¬ Wire.isPadding ((strip cs).getLast hne) = true :=
      List.rdropWhile_last_not _ _ hne
    rw [List.getLast?_eq_some_getLast hne] at hc
    obtain rfl := Option.some.inj hc
    simpa using hlast

theorem strip_of_ends (hfirst : ∀ c ∈ cs.head?, Wire.isPadding c = false)
    (hlast : ∀ c ∈ cs.getLast?, Wire.isPadding c = false) : strip cs = cs := by
  have hdrop : cs.dropWhile Wire.isPadding = cs := by
    cases cs with
    | nil => rfl
    | cons c cs => exact List.dropWhile_cons_of_neg (by simp [hfirst c rfl])
  rw [strip, hdrop, List.rdropWhile_eq_self_iff]
  intro hne
  simp [hlast _ (List.getLast?_eq_some_getLast hne)]

theorem strip_of_none (hcs : ∀ c ∈ cs, Wire.isPadding c = false) : strip cs = cs :=
  strip_of_ends (fun c hc => hcs c (List.mem_of_mem_head? hc))
    fun c hc => hcs c (List.mem_of_mem_getLast? hc)

theorem halves_append {before : List Char} (hsep : '=' ∉ before) (after : List Char) :
    halves (before ++ '=' :: after) = (strip before, strip after) := by
  have hall : ∀ c ∈ before, decide (c ≠ '=') = true := fun c hc =>
    decide_eq_true fun e => hsep (e ▸ hc)
  rw [halves, List.takeWhile_append_of_pos hall, List.dropWhile_append_of_pos hall]
  simp

/-- What the name and the value of a kept cookie are made of. -/
theorem told_by (hk : ofText? text = some k) : ∃ first ∈ Text.splitChars ';' text.toList,
    k.name.toList = (halves first).1 ∧ k.value.toList = (halves first).2 ∧
    (halves first).1 ≠ [] := by
  unfold ofText? at hk
  cases hsplit : Text.splitChars ';' text.toList with
  | nil => exact absurd hsplit (Text.splitChars_ne_nil _ _)
  | cons first attributes =>
      rw [hsplit] at hk
      dsimp only at hk
      split at hk
      · next hnamed =>
          obtain rfl := Option.some.inj hk
          exact ⟨first, List.mem_cons_self .., String.toList_ofList, String.toList_ofList, hnamed.2⟩
      · cases hk

theorem mem_halves {c : Char} : (c ∈ (halves part).1 → c ∈ part ∧ c ≠ '=') ∧
    (c ∈ (halves part).2 → c ∈ part) := by
  constructor
  · intro hc
    have hmem := mem_strip hc
    exact ⟨(List.takeWhile_prefix _).subset hmem, by simpa using List.mem_takeWhile_imp hmem⟩
  · intro hc
    exact (List.dropWhile_suffix _).subset (List.mem_of_mem_tail (mem_strip hc))

/-- A cookie is kept under a name that can be told. -/
theorem keepable_of_told (hk : ofText? text = some k) : Keepable k.name := by
  obtain ⟨first, hfirst, hname, -, hne⟩ := told_by hk
  have hends := strip_ends (first.takeWhile (· ≠ '='))
  refine ⟨?_, ?_, ?_, ?_, ?_⟩
  · rintro hempty
    rw [hempty] at hname
    exact hne hname.symm
  · rw [hname]
    exact hends.1
  · rw [hname]
    exact hends.2
  · rw [hname]
    exact fun hmem => (mem_halves.1 hmem).2 rfl
  · rw [hname]
    exact fun hmem => Text.not_mem_of_mem_splitChars hfirst (mem_halves.1 hmem).1

/-! ## The session's cookie -/

/-- The attributes of the session's cookie. -/
def attributes (maxAge : Nat) (secure : Bool) : List (List Char) :=
  [" Path=/".toList, " Max-Age=".toList ++ Nat.toDigits 10 maxAge, " HttpOnly".toList,
    " SameSite=Strict".toList] ++ if secure then [" Secure".toList] else []

theorem sessionCookie_toList (name id : String) (maxAge : Nat) (secure : Bool) :
    (sessionCookie name id maxAge secure).toList = [';'].intercalate
      ((name.toList ++ '=' :: id.toList) :: attributes maxAge secure) := by
  have htext : ∀ s : String, toString s = s := fun _ => rfl
  cases secure <;> simp [sessionCookie, attributes, htext, List.intercalate_cons_cons]

theorem not_mem_attributes (maxAge : Nat) (secure : Bool) :
    ∀ part ∈ attributes maxAge secure, ';' ∉ part := by
  have hdigits : ';' ∉ Nat.toDigits 10 maxAge := fun hmem => by
    cases Nat.isDigit_of_mem_toDigits (by decide) (by decide) hmem
  have hage : ';' ∉ " Max-Age=".toList ++ Nat.toDigits 10 maxAge := by
    rw [List.mem_append, not_or]
    exact ⟨by decide, hdigits⟩
  have hfirst : ∀ part ∈ [" Path=/".toList, " Max-Age=".toList ++ Nat.toDigits 10 maxAge,
      " HttpOnly".toList, " SameSite=Strict".toList], ';' ∉ part :=
    List.forall_mem_cons.mpr ⟨by decide, List.forall_mem_cons.mpr ⟨hage, by decide⟩⟩
  intro part hpart
  rcases List.mem_append.mp hpart with hpart | hpart
  · exact hfirst part hpart
  · split at hpart
    · obtain rfl := List.mem_singleton.mp hpart
      decide
    · cases hpart

theorem maxAge?_attributes (maxAge : Nat) (secure : Bool) :
    (attributes maxAge secure).filterMap maxAge? = [maxAge] := by
  have hage : maxAge? (" Max-Age=".toList ++ Nat.toDigits 10 maxAge) = some maxAge := by
    have hdigits : ∀ c ∈ Nat.toDigits 10 maxAge, c.isDigit = true := fun c =>
      Nat.isDigit_of_mem_toDigits (by decide) (by decide)
    have hstrip : strip (Nat.toDigits 10 maxAge) = Nat.toDigits 10 maxAge := by
      refine strip_of_none fun c hc => ?_
      have hdigit := hdigits c hc
      by_contra hpadding
      rw [Bool.not_eq_false, Wire.isPadding, Bool.or_eq_true, decide_eq_true_eq, decide_eq_true_eq]
        at hpadding
      rcases hpadding with rfl | rfl <;> cases hdigit
    have hhalves : halves (" Max-Age=".toList ++ Nat.toDigits 10 maxAge)
        = ("Max-Age".toList, Nat.toDigits 10 maxAge) := by
      have hsep : '=' ∉ " Max-Age".toList := by decide
      have heq := halves_append hsep (Nat.toDigits 10 maxAge)
      rw [hstrip] at heq
      exact heq
    rw [maxAge?, hhalves]
    dsimp only
    rw [if_pos ⟨by decide, Nat.toDigits_ne_nil, List.all_eq_true.mpr hdigits⟩,
      Nat.ofDigitChars_ten_toDigits]
  have hothers : maxAge? " Path=/".toList = none ∧ maxAge? " HttpOnly".toList = none ∧
      maxAge? " SameSite=Strict".toList = none ∧ maxAge? " Secure".toList = none := by decide
  obtain ⟨hpath, honly, hsite, hsecure⟩ := hothers
  cases secure <;>
    simp only [attributes, List.cons_append, List.nil_append, List.filterMap_cons, hpath, hage,
      honly, hsite, hsecure, List.filterMap_nil, if_true, Bool.false_eq_true, if_false]

theorem not_padding_token (hid : isToken id = true) :
    ∀ c ∈ id.toList, Wire.isPadding c = false := by
  intro c hc
  rw [isToken, Bool.and_eq_true] at hid
  have hblank := (isTokenChar_plain (List.all_eq_true.mp hid.2 c hc)).2.1
  by_contra hpadding
  rw [Bool.not_eq_false, Wire.isPadding, Bool.or_eq_true, decide_eq_true_eq, decide_eq_true_eq]
    at hpadding
  rcases hpadding with rfl | rfl <;> cases hblank

/-- **The session's cookie is kept as it was meant**, if its name can be told. -/
theorem ofText?_sessionCookie (hname : Keepable name) (hid : isToken id = true) (maxAge : Nat)
    (secure : Bool) :
    ofText? (sessionCookie name id maxAge secure) = some ⟨name, id, some maxAge⟩ := by
  have htoken := hid
  rw [isToken, Bool.and_eq_true] at htoken
  have hparts : Text.splitChars ';' (sessionCookie name id maxAge secure).toList
      = (name.toList ++ '=' :: id.toList) :: attributes maxAge secure := by
    rw [sessionCookie_toList, Text.splitChars_intercalate (List.cons_ne_nil _ _)]
    refine List.forall_mem_cons.mpr ⟨?_, not_mem_attributes maxAge secure⟩
    rw [List.mem_append, List.mem_cons, not_or, not_or]
    refine ⟨hname.separators.2, by decide, fun hmem => ?_⟩
    exact (isTokenChar_plain (List.all_eq_true.mp htoken.2 _ hmem)).2.2.2 rfl
  have hstrip : strip name.toList = name.toList := strip_of_ends hname.first hname.last
  have hne : name.toList ≠ [] := fun hnil => hname.nonempty (String.toList_eq_nil_iff.mp hnil)
  rw [ofText?, hparts]
  dsimp only
  rw [halves_append hname.separators.1, hstrip, strip_of_none (not_padding_token hid),
    if_pos ⟨List.mem_append_right _ (List.mem_cons_self ..), hne⟩, maxAge?_attributes,
    String.ofList_toList, String.ofList_toList]
  rfl

end Cookie

/-! ## What a browser sends -/

namespace CookiePair

variable {p : CookiePair} {k : Cookie} {text : String}

/-- The pair is what a browser sends for a cookie. -/
def Carries (p : CookiePair) (k : Cookie) : Prop :=
  p.name = Utf8.encode k.name ∧ p.value = Utf8.encode k.value

instance (p : CookiePair) (k : Cookie) : Decidable (p.Carries k) :=
  inferInstanceAs (Decidable (_ ∧ _))

/-- The pair of a cookie can be told from what stands around it. -/
theorem Carries.wf (hp : p.Carries k) (hk : Cookie.ofText? text = some k)
    (htext : isFieldValue (Utf8.encode text) = true) : p.Wf := by
  obtain ⟨first, hfirst, hname, hvalue, -⟩ := Cookie.told_by hk
  obtain ⟨-, hstarts, -, hequals, hsemicolon⟩ := Cookie.keepable_of_told hk
  rw [isFieldValue_encode, List.all_eq_true] at htext
  refine ⟨?_, ?_, ?_, ?_⟩
  · intro b hb
    rw [hp.1] at hb
    have hnot : ∀ c : Char, Wire.isPadding c = true → k.name.toList.head? ≠ some c := by
      intro c hc hhead
      cases hc.symm.trans (hstarts c hhead)
    refine ⟨?_, ?_⟩
    · rintro rfl
      exact hnot _ (by decide) (Utf8.head?_encode (by decide) hb)
    · rintro rfl
      exact hnot _ (by decide) (Utf8.head?_encode (by decide) hb)
  · rw [hp.1, Utf8.mem_encode (by decide), Utf8.mem_encode (by decide)]
    exact ⟨hequals, hsemicolon⟩
  · rw [hp.2, Utf8.mem_encode (by decide), hvalue]
    exact fun hmem => Text.not_mem_of_mem_splitChars hfirst (Cookie.mem_halves.2 hmem)
  · rw [hp.1, hp.2, isFieldValue, List.all_append, Bool.and_eq_true, ← isFieldValue, ← isFieldValue,
      isFieldValue_encode, isFieldValue_encode, List.all_eq_true, List.all_eq_true, hname, hvalue]
    exact ⟨fun c hc => htext c (Text.mem_of_mem_splitChars hfirst (Cookie.mem_halves.1 hc).1),
      fun c hc => htext c (Text.mem_of_mem_splitChars hfirst (Cookie.mem_halves.2 hc))⟩

end CookiePair

namespace Cookie

variable {text name id : String} {k : Cookie} {since now maxAge : Nat} {secure : Bool}
  {fields : List (List CookiePair)} {h : Headers}

/-- The `cookie` fields of a request that a browser sends at the time `now` if it was told the
text at the time `since`: the cookie, if it is still kept, among others with other names. -/
structure Brought (text : String) (since now : Nat) (name : String)
    (fields : List (List CookiePair)) : Prop where
  nonempty : ∀ ps ∈ fields, ps ≠ []
  sent : ∀ k ∈ sent? text since now, ∃ ps ∈ fields, ∃ p ∈ ps, p.Carries k
  pairs : ∀ ps ∈ fields, ∀ p ∈ ps, (∃ k ∈ sent? text since now, p.Carries k) ∨
    p.name ≠ Utf8.encode name ∧ p.Wf

/-- A pair with the name of the session's cookie is the one that was kept for it. -/
theorem Brought.session (hb : Brought (sessionCookie name id maxAge secure) since now name fields)
    (hid : isToken id = true) {ps : List CookiePair} (hps : ps ∈ fields) {p : CookiePair}
    (hp : p ∈ ps) (hn : p.name = Utf8.encode name) : Keepable name ∧ p.value = Utf8.encode id ∧
      now < since + Duration.ofSeconds maxAge := by
  rcases hb.pairs ps hps p hp with ⟨k, hk, hcarries⟩ | ⟨hother, -⟩
  · obtain ⟨htold, hlasts⟩ := Option.filter_eq_some_iff.mp hk
    obtain rfl : k.name = name := Utf8.encode_injective (hcarries.1.symm.trans hn)
    have hkeep := keepable_of_told htold
    rw [ofText?_sessionCookie hkeep hid] at htold
    obtain ⟨-, rfl, hage⟩ := (Cookie.mk.injEq ..).mp (Option.some.inj htold)
    rw [← hage, Option.all_some, decide_eq_true_eq] at hlasts
    exact ⟨hkeep, hcarries.2, hlasts⟩
  · exact absurd hn hother

/-- A field with the cookie is sent only while the cookie is kept. -/
theorem Brought.kept (hb : Brought (sessionCookie name id maxAge secure) since now name fields)
    (hid : isToken id = true) (hlegible : CookiePair.Legible name fields) :
    now < since + Duration.ofSeconds maxAge ∧ Keepable name := by
  obtain ⟨ps, hps, ⟨p, hp, hn⟩, -⟩ := hlegible
  obtain ⟨hkeep, -, hlasts⟩ := hb.session hid hps hp hn
  exact ⟨hlasts, hkeep⟩

/-- **When a browser presents its session**: if it still has the cookie, under its name, and the
field that carries the cookie can be read, or else if the session's header names it. -/
theorem Brought.presented_iff
    (hb : Brought (sessionCookie name id maxAge secure) since now name fields)
    (hvalid : isFieldValue (Utf8.encode (sessionCookie name id maxAge secure)) = true)
    (hid : isToken id = true) (hfields : h.all "cookie" = fields.map CookiePair.field) :
    Arrival.presentedSession name h = some id ↔
      (now < since + Duration.ofSeconds maxAge ∧ Keepable name ∧ CookiePair.Legible name fields) ∨
        h.text? sessionHeader = some id := by
  have hwf : ∀ ps ∈ fields, ps ≠ [] ∧ ∀ p ∈ ps, p.Wf := by
    refine fun ps hps => ⟨hb.nonempty ps hps, fun p hp => ?_⟩
    rcases hb.pairs ps hps p hp with ⟨k, hk, hcarries⟩ | ⟨-, hwf⟩
    · exact hcarries.wf (Option.filter_eq_some_iff.mp hk).1 hvalid
    · exact hwf
  obtain ⟨hfound, hlost⟩ := Headers.cookie?_eq hid hfields hwf fun ps hps p hp hn =>
    (hb.session hid hps hp hn).2.1
  by_cases hlegible : CookiePair.Legible name fields
  · have hpresented : Arrival.presentedSession name h = some id := by
      rw [Arrival.presentedSession, hfound hlegible]
      rfl
    obtain ⟨hlasts, hkeep⟩ := hb.kept hid hlegible
    exact iff_of_true hpresented (Or.inl ⟨hlasts, hkeep, hlegible⟩)
  · rw [Arrival.presentedSession, hlost hlegible]
    exact (or_iff_right fun hall => hlegible hall.2.2).symm

end Cookie

end Http

end EventRelay
