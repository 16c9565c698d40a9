import Mathlib
import EventRelay.Http.Header

/-!
# Field values as text

A text may be sent as a field value unless it has control characters in it
(`Http.isFieldValue_encode`). A field value is read as text if its bytes are visible
characters of ASCII, blanks and tabs. Each of these bytes is a character then
(`Http.fieldText?_eq`). A text can be read from the field it was written into exactly if it
has no other characters (`Http.fieldText?_encode`): one character outside ASCII, and nothing
of the value is read.
-/

namespace EventRelay

/-! ## Bytes of ASCII -/

namespace Utf8

/-- Each byte as the character with its number. -/
def chars (bytes : Bytes) : List Char := bytes.map fun b => Char.ofNat b.toNat

theorem chars_append (as bs : Bytes) : chars (as ++ bs) = chars as ++ chars bs := List.map_append

theorem toNat_char (b : UInt8) : (Char.ofNat b.toNat).toNat = b.toNat := by
  have hvalid : b.toNat.isValidChar := Or.inl (Nat.lt_trans b.toNat_lt (by decide))
  rw [Char.ofNat, dif_pos hvalid]
  rfl

theorem char_injective : Function.Injective fun b : UInt8 => Char.ofNat b.toNat := by
  intro b b' heq
  have hnat := congrArg Char.toNat heq
  simp only [toNat_char] at hnat
  exact UInt8.toNat_inj.mp hnat

theorem mem_chars {bytes : Bytes} {b : UInt8} : Char.ofNat b.toNat ∈ chars bytes ↔ b ∈ bytes := by
  rw [chars, List.mem_map]
  constructor
  · rintro ⟨b', hb', heq⟩
    exact char_injective heq ▸ hb'
  · exact fun hb => ⟨b, hb, rfl⟩

theorem lead?_ascii {b : UInt8} (hb : b < 0x80) : lead? b = some (0, 0, 0) := if_pos hb

theorem read_ascii {bytes : Bytes} (hascii : ∀ b ∈ bytes, b < 0x80) :
    read bytes = (chars bytes).map some := by
  induction bytes with
  | nil => rw [read]; rfl
  | cons b bytes ih =>
      obtain ⟨hb, hrest⟩ := List.forall_mem_cons.mp hascii
      rw [read, lead?_ascii hb]
      simp only [following, List.length_nil, if_true, List.drop_zero, ih hrest]
      rfl

theorem decode_ascii {bytes : Bytes} (hascii : ∀ b ∈ bytes, b < 0x80) :
    decode bytes = String.ofList (chars bytes) := by
  rw [decode, read_ascii hascii, List.map_map]
  congr 1
  exact List.map_id _

theorem encodeChar_ascii {c : Char} (hc : c.toNat < 128) :
    String.utf8EncodeChar c = [UInt8.ofNat c.toNat] := by
  have hval : c.val.toNat ≤ 127 := Nat.le_of_lt_succ hc
  simp only [String.utf8EncodeChar, hval, if_true]
  rfl

/-- A character outside ASCII has a byte outside ASCII, and has no other bytes. -/
theorem encodeChar_high {c : Char} (hc : 128 ≤ c.toNat) :
    String.utf8EncodeChar c ≠ [] ∧ ∀ b ∈ String.utf8EncodeChar c, 0x80 ≤ b := by
  have hval : ¬ c.val.toNat ≤ 127 := Nat.not_le_of_lt hc
  have hbyte : ∀ n : Nat, 128 ≤ n → n < 256 → 0x80 ≤ UInt8.ofNat n := by
    intro n hlow hhigh
    rw [UInt8.le_iff_toNat_le, UInt8.toNat_ofNat_of_lt' hhigh]
    exact hlow
  simp only [String.utf8EncodeChar, hval, if_false]
  split
  · exact ⟨List.cons_ne_nil _ _, List.forall_mem_cons.mpr ⟨hbyte _ (by omega) (by omega),
      List.forall_mem_singleton.mpr (hbyte _ (by omega) (by omega))⟩⟩
  · split
    · exact ⟨List.cons_ne_nil _ _, List.forall_mem_cons.mpr ⟨hbyte _ (by omega) (by omega),
        List.forall_mem_cons.mpr ⟨hbyte _ (by omega) (by omega),
        List.forall_mem_singleton.mpr (hbyte _ (by omega) (by omega))⟩⟩⟩
    · exact ⟨List.cons_ne_nil _ _, List.forall_mem_cons.mpr ⟨hbyte _ (by omega) (by omega),
        List.forall_mem_cons.mpr ⟨hbyte _ (by omega) (by omega),
        List.forall_mem_cons.mpr ⟨hbyte _ (by omega) (by omega),
        List.forall_mem_singleton.mpr (hbyte _ (by omega) (by omega))⟩⟩⟩⟩

theorem encode_injective : Function.Injective encode := by
  intro s s' hbytes
  refine String.toByteArray_inj.mp ?_
  rw [← String.utf8Encode_toList, ← String.utf8Encode_toList]
  exact congrArg List.toByteArray hbytes

/-- Bytes of ASCII are the text of their characters. -/
theorem encode_chars {bytes : Bytes} (hascii : ∀ b ∈ bytes, b < 0x80) :
    encode (String.ofList (chars bytes)) = bytes := by
  rw [encode, String.toList_ofList]
  induction bytes with
  | nil => rfl
  | cons b bytes ih =>
      obtain ⟨hb, hrest⟩ := List.forall_mem_cons.mp hascii
      have hlow : (Char.ofNat b.toNat).toNat < 128 := by
        rw [toNat_char]
        exact UInt8.lt_iff_toNat_lt.mp hb
      rw [chars, List.map_cons, List.flatMap_cons, encodeChar_ascii hlow, toNat_char,
        UInt8.ofNat_toNat]
      exact congrArg (b :: ·) (ih hrest)

end Utf8

namespace Http

/-! ## Values that may be sent -/

/-- The characters of texts that may be sent as a field value: all but the control characters of
ASCII, and of these the tab. -/
def isValueChar (c : Char) : Bool := (32 ≤ c.toNat && c.toNat != 127) || c.toNat == 9

theorem isValueByte_iff (b : UInt8) : isValueByte b = true ↔
    32 ≤ b.toNat ∧ b.toNat ≠ 127 ∨ b.toNat = 9 := by
  simp only [isValueByte, Bool.or_eq_true, Bool.and_eq_true, decide_eq_true_eq, beq_iff_eq,
    UInt8.le_iff_toNat_le, ← UInt8.toNat_inj, ne_eq]
  rfl

theorem isValueChar_iff (c : Char) : isValueChar c = true ↔
    32 ≤ c.toNat ∧ c.toNat ≠ 127 ∨ c.toNat = 9 := by
  simp [isValueChar]

theorem all_isValueByte_encodeChar (c : Char) :
    (String.utf8EncodeChar c).all isValueByte = isValueChar c := by
  rw [Bool.eq_iff_iff, isValueChar_iff, List.all_eq_true]
  rcases Nat.lt_or_ge c.toNat 128 with hc | hc
  · rw [Utf8.encodeChar_ascii hc, List.forall_mem_singleton, isValueByte_iff,
      UInt8.toNat_ofNat_of_lt' (Nat.lt_trans hc (by decide))]
  · refine iff_of_true (fun b hb => (isValueByte_iff b).mpr ?_) (by omega)
    have hhigh : 128 ≤ b.toNat := UInt8.le_iff_toNat_le.mp ((Utf8.encodeChar_high hc).2 b hb)
    omega

theorem isFieldValue_encode (s : String) :
    isFieldValue (Utf8.encode s) = s.toList.all isValueChar := by
  rw [isFieldValue, Utf8.encode, List.all_flatMap]
  exact congrArg s.toList.all (funext all_isValueByte_encodeChar)

/-! ## Readable values -/

/-- The characters of texts that a field value is read as. -/
def isTextChar (c : Char) : Bool := (32 ≤ c.toNat && c.toNat < 127) || c.toNat == 9

theorem ascii_of_text {value : Bytes} (htext : value.all isTextByte = true) :
    ∀ b ∈ value, b < 0x80 := by
  intro b hb
  have hbyte := List.all_eq_true.mp htext b hb
  simp only [isTextByte, Bool.or_eq_true, Bool.and_eq_true, decide_eq_true_eq, beq_iff_eq] at hbyte
  rcases hbyte with ⟨-, hlt⟩ | rfl
  · exact UInt8.lt_trans hlt (by decide)
  · decide

theorem fieldText?_eq (value : Bytes) : fieldText? value
    = if value.all isTextByte then some (String.ofList (Utf8.chars value)) else none := by
  unfold fieldText?
  split
  · next htext => rw [Utf8.decode_ascii (ascii_of_text htext)]
  · rfl

theorem isTextByte_iff (b : UInt8) : isTextByte b = true ↔
    32 ≤ b.toNat ∧ b.toNat < 127 ∨ b.toNat = 9 := by
  simp only [isTextByte, Bool.or_eq_true, Bool.and_eq_true, decide_eq_true_eq, beq_iff_eq,
    UInt8.le_iff_toNat_le, UInt8.lt_iff_toNat_lt, ← UInt8.toNat_inj]
  rfl

theorem isTextChar_iff (c : Char) : isTextChar c = true ↔
    32 ≤ c.toNat ∧ c.toNat < 127 ∨ c.toNat = 9 := by
  simp [isTextChar]

theorem all_isTextByte_encodeChar (c : Char) :
    (String.utf8EncodeChar c).all isTextByte = isTextChar c := by
  rw [Bool.eq_iff_iff, isTextChar_iff, List.all_eq_true]
  rcases Nat.lt_or_ge c.toNat 128 with hc | hc
  · rw [Utf8.encodeChar_ascii hc, List.forall_mem_singleton, isTextByte_iff,
      UInt8.toNat_ofNat_of_lt' (Nat.lt_trans hc (by decide))]
  · obtain ⟨hne, hhigh⟩ := Utf8.encodeChar_high hc
    obtain ⟨b, hb⟩ := List.exists_mem_of_ne_nil _ hne
    refine iff_of_false (fun hall => ?_) (by omega)
    have hbyte := (isTextByte_iff b).mp (hall b hb)
    have hlow : 128 ≤ b.toNat := UInt8.le_iff_toNat_le.mp (hhigh b hb)
    omega

theorem all_isTextByte_encode (s : String) :
    (Utf8.encode s).all isTextByte = s.toList.all isTextChar := by
  rw [Utf8.encode, List.all_flatMap]
  exact congrArg s.toList.all (funext all_isTextByte_encodeChar)

theorem chars_encode {s : String} (htext : s.toList.all isTextChar = true) :
    Utf8.chars (Utf8.encode s) = s.toList := by
  rw [Utf8.encode]
  generalize s.toList = cs at htext ⊢
  induction cs with
  | nil => rfl
  | cons c cs ih =>
      rw [List.all_cons, Bool.and_eq_true, isTextChar_iff] at htext
      obtain ⟨hc, hrest⟩ := htext
      have hascii : c.toNat < 128 := by omega
      rw [List.flatMap_cons, Utf8.encodeChar_ascii hascii, List.singleton_append, Utf8.chars,
        List.map_cons, UInt8.toNat_ofNat_of_lt' (Nat.lt_trans hascii (by decide)), Char.ofNat_toNat]
      exact congrArg (c :: ·) (ih hrest)

/-- **A text is read from the field it was written into**, or nothing is. -/
theorem fieldText?_encode (s : String) :
    fieldText? (Utf8.encode s) = if s.toList.all isTextChar then some s else none := by
  rw [fieldText?_eq, all_isTextByte_encode]
  split
  · next htext => rw [chars_encode htext, String.ofList_toList]
  · rfl

end Http

end EventRelay
