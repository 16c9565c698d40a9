import EventRelay.App.Routes
import EventRelay.Proofs.FieldText

/-!
# Cookies of others

A browser sends the session's cookie among those of other applications on the same host, in one
`cookie` field or in several. A field is cut into its pairs again (`CookiePair.read`), and the
pair with the session's name is found wherever it stands, if its field can be read at all
(`Headers.cookie?_eq`). The other pairs matter for that alone: a byte outside ASCII in one of
them makes the field unreadable, and the session's pair is lost with it.
-/

namespace EventRelay

/-! ## Cutting and trimming -/

namespace Text

theorem splitChars_of_not_mem {sep : Char} : ∀ {cs : List Char}, sep ∉ cs → splitChars sep cs = [cs]
  | [], _ => rfl
  | c :: rest, hsep => by
      rw [List.mem_cons, not_or] at hsep
      rw [splitChars, if_neg fun e => hsep.1 e.symm, splitChars_of_not_mem hsep.2]

theorem splitChars_append {sep : Char} : ∀ {cs : List Char}, sep ∉ cs → ∀ rest : List Char,
    splitChars sep (cs ++ sep :: rest) = cs :: splitChars sep rest
  | [], _, rest => by rw [List.nil_append, splitChars, if_pos rfl]
  | c :: cs, hsep, rest => by
      rw [List.mem_cons, not_or] at hsep
      rw [List.cons_append, splitChars, if_neg fun e => hsep.1 e.symm, splitChars_append hsep.2]

/-- What was put together with a separator is cut into its parts again. -/
theorem splitChars_intercalate {sep : Char} {parts : List (List Char)} (hne : parts ≠ [])
    (hsep : ∀ part ∈ parts, sep ∉ part) : splitChars sep ([sep].intercalate parts) = parts := by
  induction parts with
  | nil => exact absurd rfl hne
  | cons part parts ih =>
      obtain ⟨hpart, hrest⟩ := List.forall_mem_cons.mp hsep
      cases parts with
      | nil => rw [List.intercalate_singleton, splitChars_of_not_mem hpart]
      | cons next parts =>
          rw [List.intercalate_cons_cons, List.append_assoc, List.singleton_append,
            splitChars_append hpart, ih nofun hrest]

theorem splitOnce?_append {sep : Char} {before : List Char} (hsep : sep ∉ before)
    (after : List Char) :
    splitOnce? sep (String.ofList (before ++ sep :: after))
      = some (String.ofList before, String.ofList after) := by
  have hall : ∀ c ∈ before, decide (c ≠ sep) = true := fun c hc =>
    decide_eq_true fun e => hsep (e ▸ hc)
  have htake : (before ++ sep :: after).takeWhile (· ≠ sep) = before := by
    rw [List.takeWhile_append_of_pos hall]
    simp
  simp only [splitOnce?, String.toList_ofList, htake, List.drop_left]

/-- The blanks in front go up to the first character that is none. -/
theorem trimChars_append {blanks cs : List Char} (hblanks : ∀ c ∈ blanks, isBlank c = true)
    (hcs : ∀ c, cs.head? = some c → isBlank c = false) :
    trimChars (blanks ++ cs) = cs.rdropWhile isBlank := by
  have hdrop : cs.dropWhile isBlank = cs := by
    cases cs with
    | nil => rfl
    | cons c cs => exact List.dropWhile_cons_of_neg (by simp [hcs c rfl])
  rw [trimChars, List.dropWhile_append_of_pos hblanks, hdrop]
  rfl

/-- Taking blanks off the end stops at a character that is none. -/
theorem rdropWhile_append {c : Char} (hc : isBlank c = false) (before after : List Char) :
    (before ++ c :: after).rdropWhile isBlank = before ++ c :: after.rdropWhile isBlank := by
  induction after using List.reverseRecOn with
  | nil => rw [List.rdropWhile_concat_neg _ _ _ (by simp [hc]), List.rdropWhile_nil]
  | append_singleton after x ih =>
      rw [← List.cons_append, ← List.append_assoc, List.rdropWhile_concat,
        List.rdropWhile_concat, ih]
      split
      · rfl
      · simp

/-- Blanks at the end of a text without blanks are all that is taken off. -/
theorem rdropWhile_padded {cs blanks : List Char} (hcs : ∀ c ∈ cs, isBlank c = false)
    (hblanks : ∀ c ∈ blanks, isBlank c = true) : (cs ++ blanks).rdropWhile isBlank = cs := by
  induction blanks using List.reverseRecOn with
  | nil =>
      rw [List.append_nil, List.rdropWhile_eq_self_iff]
      intro hne
      simp [hcs _ (List.getLast_mem hne)]
  | append_singleton blanks x ih =>
      rw [← List.append_assoc, List.rdropWhile_concat_pos _ _ _ (hblanks x (by simp)),
        ih fun c hc => hblanks c (List.mem_append_left _ hc)]

end Text

/-! ## Pairs -/

namespace Http

/-- A cookie as it stands in a field, with the blanks around it. -/
structure CookiePair where
  before : Nat := 0
  name : Bytes
  value : Bytes
  after : Nat := 0

namespace CookiePair

def bytes (p : CookiePair) : Bytes :=
  List.replicate p.before 0x20 ++ (p.name ++ 0x3D :: (p.value ++ List.replicate p.after 0x20))

/-- The pair can be told from what stands around it: the name does not begin with a blank, and
neither has in it what ends it. All bytes may stand in a field. -/
structure Wf (p : CookiePair) : Prop where
  first : ∀ b ∈ p.name.head?, b ≠ 0x20 ∧ b ≠ 0x09
  name : 0x3D ∉ p.name ∧ 0x3B ∉ p.name
  value : 0x3B ∉ p.value
  valid : isFieldValue (p.name ++ p.value) = true

instance (p : CookiePair) : Decidable p.Wf :=
  decidable_of_iff ((∀ b ∈ p.name.head?, b ≠ 0x20 ∧ b ≠ 0x09) ∧ (0x3D ∉ p.name ∧ 0x3B ∉ p.name) ∧
      0x3B ∉ p.value ∧ isFieldValue (p.name ++ p.value) = true)
    ⟨fun ⟨hfirst, hname, hvalue, hvalid⟩ => ⟨hfirst, hname, hvalue, hvalid⟩,
      fun hp => ⟨hp.first, hp.name, hp.value, hp.valid⟩⟩

/-- All of the pair is ASCII. -/
def Plain (p : CookiePair) : Prop := ∀ b ∈ p.name ++ p.value, b < 0x80

instance (p : CookiePair) : Decidable p.Plain := inferInstanceAs (Decidable (∀ b ∈ _, _))

/-- A field with some pairs in it. -/
def field (ps : List CookiePair) : Bytes := [0x3B].intercalate (ps.map bytes)

/-- The name and the value that are told from a pair. -/
def told (p : CookiePair) : String × String :=
  (String.ofList (Utf8.chars p.name),
    String.ofList ((Utf8.chars p.value ++ List.replicate p.after ' ').rdropWhile Text.isBlank))

variable {p : CookiePair} {ps : List CookiePair}

theorem chars_bytes (p : CookiePair) : Utf8.chars p.bytes = List.replicate p.before ' '
    ++ (Utf8.chars p.name ++ '=' :: (Utf8.chars p.value ++ List.replicate p.after ' ')) := by
  simp only [bytes, Utf8.chars, List.map_append, List.map_cons, List.map_replicate]
  rfl

theorem Wf.textByte (hp : p.Wf) (hplain : p.Plain) :
    ∀ b ∈ p.name ++ p.value, isTextByte b = true := by
  intro b hb
  have hvalid := List.all_eq_true.mp hp.valid b hb
  have hascii : b.toNat < 128 := UInt8.lt_iff_toNat_lt.mp (hplain b hb)
  simp only [isValueByte, Bool.or_eq_true, Bool.and_eq_true, decide_eq_true_eq, beq_iff_eq,
    UInt8.le_iff_toNat_le, ne_eq, ← UInt8.toNat_inj] at hvalid
  rw [isTextByte_iff]
  simp only [UInt8.reduceToNat] at hvalid
  omega

/-- Of the bytes of a text, two are blanks. -/
theorem isBlank_char {b : UInt8} (htext : isTextByte b = true) (hne : b ≠ 0x20 ∧ b ≠ 0x09) :
    Text.isBlank (Char.ofNat b.toNat) = false := by
  rw [isTextByte_iff] at htext
  simp only [ne_eq, ← UInt8.toNat_inj, UInt8.reduceToNat] at hne
  simp only [Text.isBlank, Utf8.toNat_char, Bool.or_eq_false_iff, Bool.and_eq_false_iff,
    decide_eq_false_iff_not, beq_eq_false_iff_ne]
  omega

/-- What is told from a pair that was written. -/
theorem Wf.read (hp : p.Wf) (hplain : p.Plain) :
    Text.splitOnce? '=' (Text.trim (String.ofList (Utf8.chars p.bytes))) = some p.told := by
  have hsep : '=' ∉ Utf8.chars p.name := fun hmem => hp.name.1 (Utf8.mem_chars.mp hmem)
  have hblanks : ∀ c ∈ List.replicate p.before ' ', Text.isBlank c = true := by
    intro c hc
    rw [List.eq_of_mem_replicate hc]
    rfl
  have hfirst : ∀ rest c, (Utf8.chars p.name ++ '=' :: rest).head? = some c →
      Text.isBlank c = false := by
    intro rest c hc
    cases hname : p.name with
    | nil =>
        rw [hname] at hc
        obtain rfl := Option.some.inj hc
        rfl
    | cons b name =>
        rw [hname] at hc
        obtain rfl := Option.some.inj hc
        refine isBlank_char (hp.textByte hplain b ?_) (hp.first b (by rw [hname]; rfl))
        rw [hname]
        exact List.mem_append_left _ (List.mem_cons_self ..)
  rw [Text.trim, String.toList_ofList, chars_bytes, Text.trimChars_append hblanks (hfirst _),
    Text.rdropWhile_append rfl, Text.splitOnce?_append hsep]
  rfl

/-! ## Fields -/

theorem field_cons_cons (p q : CookiePair) (ps : List CookiePair) :
    field (p :: q :: ps) = p.bytes ++ 0x3B :: field (q :: ps) := by
  rw [field, List.map_cons, List.map_cons, List.intercalate_cons_cons, List.append_assoc]
  rfl

theorem chars_field (ps : List CookiePair) :
    Utf8.chars (field ps) = [';'].intercalate (ps.map fun p => Utf8.chars p.bytes) := by
  induction ps with
  | nil => rfl
  | cons p ps ih =>
      cases ps with
      | nil => simp [field]
      | cons q ps =>
          rw [List.map_cons] at ih
          rw [field_cons_cons, Utf8.chars_append, List.map_cons, List.map_cons,
            List.intercalate_cons_cons, List.append_assoc, ← ih]
          rfl

theorem all_text_bytes (p : CookiePair) :
    p.bytes.all isTextByte = (p.name ++ p.value).all isTextByte := by
  have hblank : isTextByte 0x20 = true := rfl
  have hequals : isTextByte 0x3D = true := rfl
  simp [bytes, List.all_append, hblank, hequals]

theorem Wf.plain_iff (hp : p.Wf) : p.bytes.all isTextByte = true ↔ p.Plain := by
  rw [all_text_bytes]
  exact ⟨fun htext => ascii_of_text htext, fun hplain => List.all_eq_true.mpr (hp.textByte hplain)⟩

/-- A field can be read if all of its pairs are plain. -/
theorem all_text_field (hwf : ∀ p ∈ ps, p.Wf) :
    (field ps).all isTextByte = true ↔ ∀ p ∈ ps, p.Plain := by
  induction ps with
  | nil => simp [field]
  | cons p ps ih =>
      obtain ⟨hp, hps⟩ := List.forall_mem_cons.mp hwf
      cases ps with
      | nil => simp [field, ← hp.plain_iff]
      | cons q ps =>
          have hsemicolon : isTextByte 0x3B = true := rfl
          rw [field_cons_cons, List.all_append, List.all_cons, hsemicolon, Bool.true_and,
            Bool.and_eq_true, hp.plain_iff, ih hps, List.forall_mem_cons (l := q :: ps)]

theorem Wf.not_mem_bytes (hp : p.Wf) : ';' ∉ Utf8.chars p.bytes := by
  have hsemicolon : (';' : Char) = Char.ofNat (0x3B : UInt8).toNat := rfl
  rw [hsemicolon, Utf8.mem_chars]
  simp only [bytes, List.mem_append, List.mem_cons, List.mem_replicate]
  rintro (⟨-, hblank⟩ | hname | hequals | hvalue | ⟨-, hblank⟩)
  · exact absurd hblank (by decide)
  · exact hp.name.2 hname
  · exact absurd hequals (by decide)
  · exact hp.value hvalue
  · exact absurd hblank (by decide)

/-- A field is cut into its pairs again. -/
theorem read_field (hne : ps ≠ []) (hwf : ∀ p ∈ ps, p.Wf) (hplain : ∀ p ∈ ps, p.Plain) :
    ((Text.split ';' (String.ofList (Utf8.chars (field ps)))).filterMap fun pair =>
      Text.splitOnce? '=' (Text.trim pair)) = ps.map told := by
  have hparts : Text.splitChars ';' (Utf8.chars (field ps))
      = ps.map fun p => Utf8.chars p.bytes := by
    rw [chars_field, Text.splitChars_intercalate (by simpa using hne)]
    intro part hpart
    obtain ⟨p, hp, rfl⟩ := List.mem_map.mp hpart
    exact (hwf p hp).not_mem_bytes
  rw [Text.split, String.toList_ofList, hparts, List.map_map, List.filterMap_map,
    ← List.filterMap_eq_map]
  refine List.filterMap_congr ?_
  intro p hp
  simp only [Function.comp_apply]
  exact (hwf p hp).read (hplain p hp)

/-! ## The session's pair -/

/-- The pair is the one that is set for the session, or one with another name. -/
def Among (name : String) (id : SessionId) (p : CookiePair) : Prop :=
  p.name = Utf8.encode name ∧ p.value = Utf8.encode id ∨ p.name ≠ Utf8.encode name ∧ p.Wf

instance (name : String) (id : SessionId) (p : CookiePair) : Decidable (p.Among name id) :=
  inferInstanceAs (Decidable (_ ∨ _))

/-- The session's pair stands in a field that is plain all over. -/
def Legible (name : String) (fields : List (List CookiePair)) : Prop :=
  ∃ ps ∈ fields, (∃ p ∈ ps, p.name = Utf8.encode name) ∧ ∀ p ∈ ps, p.Plain

instance (name : String) (fields : List (List CookiePair)) : Decidable (Legible name fields) :=
  inferInstanceAs (Decidable (∃ ps ∈ fields, _))

/-- The pair of two texts, after a blank. -/
def ofTexts (name value : String) : CookiePair :=
  { before := 1, name := Utf8.encode name, value := Utf8.encode value }

end CookiePair

theorem isTokenChar_iff (c : Char) : isTokenChar c = true ↔
    c.isAlphanum = true ∨ c ∈ "!#$%&'*+-.^_`|~".toList := by
  simp [isTokenChar]

/-- Characters of tokens are visible, and none of them ends or separates anything. -/
theorem isTokenChar_plain {c : Char} (hc : isTokenChar c = true) :
    isTextChar c = true ∧ Text.isBlank c = false ∧ c ≠ '=' ∧ c ≠ ';' := by
  rcases (isTokenChar_iff c).mp hc with halnum | hsign
  · have hrange : 48 ≤ c.toNat ∧ c.toNat ≤ 57 ∨ 65 ≤ c.toNat ∧ c.toNat ≤ 122 := by
      simp only [Char.isAlphanum, Char.isAlpha, Char.isUpper, Char.isLower, Char.isDigit,
        Bool.or_eq_true, Bool.and_eq_true, decide_eq_true_eq, ge_iff_le,
        UInt32.le_iff_toNat_le] at halnum
      simp only [Char.toNat]
      rcases halnum with (⟨hlow, hhigh⟩ | ⟨hlow, hhigh⟩) | ⟨hlow, hhigh⟩
      · exact Or.inr ⟨hlow, hhigh.trans (by decide)⟩
      · exact Or.inr ⟨Nat.le_trans (by decide) hlow, hhigh⟩
      · exact Or.inl ⟨hlow, hhigh⟩
    have hne : ∀ d : Char, d.toNat = 59 ∨ d.toNat = 61 → c ≠ d := by
      rintro d hd rfl
      omega
    refine ⟨(isTextChar_iff c).mpr (by omega), ?_, hne '=' (Or.inr rfl), hne ';' (Or.inl rfl)⟩
    simp only [Text.isBlank, Bool.or_eq_false_iff, Bool.and_eq_false_iff, decide_eq_false_iff_not,
      beq_eq_false_iff_ne]
    omega
  · have hsigns : ("!#$%&'*+-.^_`|~".toList.all fun c =>
        isTextChar c && !Text.isBlank c && c != '=' && c != ';') = true := by decide
    simpa [and_assoc] using List.all_eq_true.mp hsigns c hsign

variable {s : String}

theorem text_of_token (hs : isToken s = true) : s.toList.all isTextChar = true := by
  rw [isToken, Bool.and_eq_true] at hs
  exact List.all_eq_true.mpr fun c hc => (isTokenChar_plain (List.all_eq_true.mp hs.2 c hc)).1

/-- The bytes of a token are its characters. -/
theorem char_of_mem_token (hs : isToken s = true) {b : UInt8} (hb : b ∈ Utf8.encode s) :
    isTokenChar (Char.ofNat b.toNat) = true := by
  rw [← Utf8.mem_chars, chars_encode (text_of_token hs)] at hb
  rw [isToken, Bool.and_eq_true] at hs
  exact List.all_eq_true.mp hs.2 _ hb

theorem isFieldValue_token (hs : isToken s = true) : isFieldValue (Utf8.encode s) = true := by
  rw [isFieldValue_encode]
  refine List.all_eq_true.mpr fun c hc => ?_
  have htext := (isTextChar_iff c).mp (List.all_eq_true.mp (text_of_token hs) c hc)
  exact (isValueChar_iff c).mpr (by omega)

theorem not_mem_token (hs : isToken s = true) {b : UInt8}
    (hb : isTokenChar (Char.ofNat b.toNat) = false) : b ∉ Utf8.encode s :=
  fun hmem => Bool.false_ne_true (hb.symm.trans (char_of_mem_token hs hmem))

namespace CookiePair

variable {p : CookiePair} {name : String} {id : SessionId}

theorem Among.wf (hp : p.Among name id) (hname : isToken name = true) (hid : isToken id = true) :
    p.Wf := by
  rcases hp with ⟨hn, hv⟩ | ⟨-, hwf⟩
  · refine ⟨?_, ?_, ?_, ?_⟩
    · intro b hb
      rw [hn] at hb
      have hmem := List.mem_of_mem_head? hb
      refine ⟨?_, ?_⟩
      · rintro rfl
        exact not_mem_token hname (by decide) hmem
      · rintro rfl
        exact not_mem_token hname (by decide) hmem
    · rw [hn]
      exact ⟨not_mem_token hname (by decide), not_mem_token hname (by decide)⟩
    · rw [hv]
      exact not_mem_token hid (by decide)
    · rw [hn, hv, isFieldValue, List.all_append, Bool.and_eq_true]
      exact ⟨isFieldValue_token hname, isFieldValue_token hid⟩
  · exact hwf

/-- The name that is told from a plain pair is the one that was written. -/
theorem Wf.told_fst_iff (hp : p.Wf) (hplain : p.Plain) :
    p.told.1 = name ↔ p.name = Utf8.encode name := by
  have hname : ∀ b ∈ p.name, b ∈ p.name ++ p.value := fun b hb => List.mem_append_left _ hb
  constructor
  · rintro rfl
    exact (Utf8.encode_chars fun b hb => hplain b (hname b hb)).symm
  · intro hn
    have htext : name.toList.all isTextChar = true := by
      rw [← all_isTextByte_encode, ← hn]
      exact List.all_eq_true.mpr fun b hb => hp.textByte hplain b (hname b hb)
    rw [told, hn, chars_encode htext, String.ofList_toList]

/-- The value that is told from a pair is a token if it was one. -/
theorem told_snd (hvalue : p.value = Utf8.encode id) (hid : isToken id = true) : p.told.2 = id := by
  have hchars : Utf8.chars (Utf8.encode id) = id.toList := chars_encode (text_of_token hid)
  have htoken := hid
  rw [isToken, Bool.and_eq_true] at htoken
  rw [told, hvalue, hchars, Text.rdropWhile_padded, String.ofList_toList]
  · exact fun c hc => (isTokenChar_plain (List.all_eq_true.mp htoken.2 c hc)).2.1
  · intro c hc
    rw [List.eq_of_mem_replicate hc]
    rfl

end CookiePair

namespace Headers

variable {h : Headers} {name : String} {id : SessionId} {fields : List (List CookiePair)}

/-- The pairs that are told from the `cookie` fields that can be read. -/
def cookiePairs (h : Headers) : List (String × String) :=
  ((h.all "cookie").filterMap fieldText?).flatMap fun value =>
    (Text.split ';' value).filterMap fun pair => Text.splitOnce? '=' (Text.trim pair)

theorem mem_cookiePairs (hfields : h.all "cookie" = fields.map CookiePair.field)
    (hwf : ∀ ps ∈ fields, ps ≠ [] ∧ ∀ p ∈ ps, p.Wf) {pair : String × String} :
    pair ∈ h.cookiePairs ↔
      ∃ ps ∈ fields, (∀ p ∈ ps, p.Plain) ∧ ∃ p ∈ ps, p.told = pair := by
  rw [cookiePairs, hfields, List.mem_flatMap]
  constructor
  · rintro ⟨value, hvalue, hpair⟩
    obtain ⟨bytes, hbytes, htext⟩ := List.mem_filterMap.mp hvalue
    obtain ⟨ps, hps, rfl⟩ := List.mem_map.mp hbytes
    obtain ⟨hne, hpairs⟩ := hwf ps hps
    rw [fieldText?_eq] at htext
    split at htext
    · next hall =>
        have hplain := (CookiePair.all_text_field hpairs).mp hall
        obtain rfl := Option.some.inj htext
        rw [CookiePair.read_field hne hpairs hplain] at hpair
        exact ⟨ps, hps, hplain, List.mem_map.mp hpair⟩
    · cases htext
  · rintro ⟨ps, hps, hplain, hpair⟩
    obtain ⟨hne, hpairs⟩ := hwf ps hps
    have htext : fieldText? (CookiePair.field ps)
        = some (String.ofList (Utf8.chars (CookiePair.field ps))) := by
      rw [fieldText?_eq, if_pos ((CookiePair.all_text_field hpairs).mpr hplain)]
    refine ⟨_, List.mem_filterMap.mpr ⟨_, List.mem_map_of_mem hps, htext⟩, ?_⟩
    rw [CookiePair.read_field hne hpairs hplain]
    exact List.mem_map.mpr hpair

/-- The session's id is found if its pair can be read, whatever other pairs there are. -/
theorem cookie?_eq (hid : isToken id = true)
    (hfields : h.all "cookie" = fields.map CookiePair.field)
    (hwf : ∀ ps ∈ fields, ps ≠ [] ∧ ∀ p ∈ ps, p.Wf)
    (hvalue : ∀ ps ∈ fields, ∀ p ∈ ps, p.name = Utf8.encode name → p.value = Utf8.encode id) :
    (CookiePair.Legible name fields → h.cookie? name = some id) ∧
    (¬ CookiePair.Legible name fields → h.cookie? name = none) := by
  have hcookie : h.cookie? name
      = (h.cookiePairs.find? fun pair => pair.1 == name && pair.2 != "").map (·.2) := rfl
  rw [hcookie]
  cases hfind : h.cookiePairs.find? fun pair => pair.1 == name && pair.2 != "" with
  | none =>
      refine ⟨?_, fun _ => rfl⟩
      rintro ⟨ps, hps, ⟨p, hp, hn⟩, hplain⟩
      have hmiss := List.find?_eq_none.mp hfind p.told
        ((mem_cookiePairs hfields hwf).mpr ⟨ps, hps, hplain, p, hp, rfl⟩)
      have htold := CookiePair.told_snd (hvalue ps hps p hp hn) hid
      rw [isToken, Bool.and_eq_true] at hid
      refine absurd ?_ hmiss
      rw [(((hwf ps hps).2 p hp).told_fst_iff (hplain p hp)).mpr hn, htold, beq_self_eq_true,
        Bool.true_and, bne_iff_ne]
      exact of_decide_eq_true hid.1
  | some pair =>
      have hmatch := List.find?_some hfind
      simp only [Bool.and_eq_true, beq_iff_eq] at hmatch
      obtain ⟨ps, hps, hplain, p, hp, rfl⟩ :=
        (mem_cookiePairs hfields hwf).mp (List.mem_of_find?_eq_some hfind)
      have hn := (((hwf ps hps).2 p hp).told_fst_iff (hplain p hp)).mp hmatch.1
      have htold := CookiePair.told_snd (hvalue ps hps p hp hn) hid
      refine ⟨fun _ => congrArg some htold, ?_⟩
      exact fun hlost => absurd ⟨ps, hps, ⟨p, hp, hn⟩, hplain⟩ hlost

end Headers

end Http

/-! ## Requests with the session's cookie -/

/-- A session id is a token. -/
theorem SessionId.isToken_ofNat (n : Nat) : Http.isToken (SessionId.ofNat n) = true := by
  have hdigit : ∀ k < 16, Http.isTokenChar (Nat.digitChar k) = true := by decide
  rw [Http.isToken, Bool.and_eq_true, SessionId.ofNat, String.toList_ofList]
  refine ⟨?_, ?_⟩
  · refine decide_eq_true fun hempty => ?_
    have hlength := congrArg (fun s : String => s.toList.length) hempty
    simp [hexDigits] at hlength
  · refine List.all_eq_true.mpr fun c hc => ?_
    obtain ⟨place, -, rfl⟩ := List.mem_map.mp hc
    exact hdigit _ (Nat.mod_lt _ (by decide))

/-- What a browser keeps of the cookie is the name and the session's id. -/
theorem sessionCookie_pair {name : String} {id : SessionId} (hname : Http.isToken name = true)
    (hid : Http.isToken id = true) (maxAge : Nat) (secure : Bool) :
    (Text.split ';' (sessionCookie name id maxAge secure)).head? = some (name ++ "=" ++ id) := by
  have hcookie : sessionCookie name id maxAge secure = name ++ "=" ++ id ++ ("; Path=/; Max-Age="
      ++ (toString maxAge ++ "; HttpOnly; SameSite=Strict"
        ++ if secure then "; Secure" else "")) := by
    simp [sessionCookie, String.append_assoc, toString]
  have hattributes : "; Path=/; Max-Age=".toList = ';' :: " Path=/; Max-Age=".toList := by decide
  have htoken : ∀ {s : String}, Http.isToken s = true → ';' ∉ s.toList := by
    intro s hs hmem
    rw [Http.isToken, Bool.and_eq_true] at hs
    exact absurd (List.all_eq_true.mp hs.2 _ hmem) (by decide)
  have hno : ';' ∉ (name ++ "=" ++ id).toList := by
    simp [String.toList_append, htoken hname, htoken hid]
  rw [Text.split, hcookie, String.toList_append, String.toList_append (s := "; Path=/; Max-Age="),
    hattributes, List.cons_append, Text.splitChars_append hno, List.map_cons, List.head?_cons,
    String.ofList_toList]

namespace Arrival

variable {h : Http.Headers} {name : String} {fields : List (List Http.CookiePair)}

/-- **The session's cookie among others.** Let the `cookie` fields of a request be made of
pairs, each of them the one that was set for the session or one with another name. If one of
the fields with the session's pair is plain all over, the request presents the session, whatever
the other pairs and the session header are. If none is, the cookie is not found, and the session
header counts. -/
theorem finds_cookie (hname : Http.isToken name = true) (n maxAge : Nat) (secure : Bool)
    (hfields : h.all "cookie" = fields.map Http.CookiePair.field)
    (hamong : ∀ ps ∈ fields, ps ≠ [] ∧ ∀ p ∈ ps, p.Among name (SessionId.ofNat n)) :
    (Text.split ';' (sessionCookie name (SessionId.ofNat n) maxAge secure)).head?
      = some (name ++ "=" ++ SessionId.ofNat n) ∧
    (Http.CookiePair.Legible name fields →
      h.cookie? name = some (SessionId.ofNat n) ∧
        presentedSession name h = some (SessionId.ofNat n)) ∧
    (¬ Http.CookiePair.Legible name fields →
      h.cookie? name = none ∧ presentedSession name h = h.text? sessionHeader) := by
  have hid := SessionId.isToken_ofNat n
  obtain ⟨hfound, hlost⟩ := Http.Headers.cookie?_eq hid hfields
    (fun ps hps => ⟨(hamong ps hps).1, fun p hp => ((hamong ps hps).2 p hp).wf hname hid⟩)
    (fun ps hps p hp hn => ((hamong ps hps).2 p hp).elim And.right fun hother => absurd hn hother.1)
  refine ⟨sessionCookie_pair hname hid maxAge secure, ?_, ?_⟩
  · intro hlegible
    rw [presentedSession, hfound hlegible]
    exact ⟨rfl, rfl⟩
  · intro hillegible
    rw [presentedSession, hlost hillegible]
    exact ⟨rfl, rfl⟩

/-- Two `cookie` fields. The first has the session's cookie, and the second one that cannot be
read. -/
def twoCookies : Http.Headers :=
  [("cookie", Http.CookiePair.field
      [.ofTexts "theme" "dark=1", .ofTexts "sse_session" (SessionId.ofNat 5)]),
    (sessionHeader, Utf8.encode "other"),
    ("cookie", Http.CookiePair.field [.ofTexts "city" "Orléans"])]

/-- The session is presented, and not the one in the header. -/
theorem finds_cookie_first :
    presentedSession "sse_session" twoCookies = some (SessionId.ofNat 5) := by
  have hfields : twoCookies.all "cookie"
      = [[.ofTexts "theme" "dark=1", .ofTexts "sse_session" (SessionId.ofNat 5)],
          [.ofTexts "city" "Orléans"]].map Http.CookiePair.field := rfl
  exact ((finds_cookie (by decide) 5 86400 false hfields (by decide +kernel)).2.1
    (by decide +kernel)).2

/-- Another application's cookie has an accent in its value, and stands in the same field: the
session's cookie is not found. -/
theorem cookie_lost_to_accent :
    (∀ p ∈ [.ofTexts "city" "Orléans", .ofTexts "sse_session" (SessionId.ofNat 5)],
      Http.CookiePair.Among "sse_session" (SessionId.ofNat 5) p) ∧
    presentedSession "sse_session" [("cookie", Http.CookiePair.field
      [.ofTexts "city" "Orléans", .ofTexts "sse_session" (SessionId.ofNat 5)])] = none := by
  decide +kernel

end Arrival

end EventRelay
