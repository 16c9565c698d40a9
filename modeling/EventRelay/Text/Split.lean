/-!
# Parts of a text

A text is cut at every occurrence of one character, or at the first. The
stretches between the cuts do not contain the character
(`not_mem_of_mem_splitChars`), and with it between them they are the text again
(`intercalate_splitChars`).
-/

namespace EventRelay.Text

/-- The stretches between occurrences of `sep`, one more than there are
occurrences. -/
def splitChars (sep : Char) : List Char → List (List Char)
  | [] => [[]]
  | c :: rest =>
    if c = sep then [] :: splitChars sep rest
    else
      match splitChars sep rest with
      | [] => [[c]]
      | part :: parts => (c :: part) :: parts

theorem splitChars_ne_nil (sep : Char) : ∀ cs : List Char, splitChars sep cs ≠ []
  | [] => by simp [splitChars]
  | c :: rest => by
      rw [splitChars]
      split
      · simp
      · split <;> simp

/-- No stretch contains the character the text is cut at. -/
theorem not_mem_of_mem_splitChars {sep : Char} :
    ∀ {cs part : List Char}, part ∈ splitChars sep cs → sep ∉ part
  | [], part, h => by
      rw [splitChars, List.mem_singleton] at h
      simp [h]
  | c :: rest, part, h => by
      rw [splitChars] at h
      split at h
      · rcases List.mem_cons.mp h with rfl | h
        · simp
        · exact not_mem_of_mem_splitChars h
      · next hc =>
          split at h
          · next hnil => exact (splitChars_ne_nil sep rest hnil).elim
          · next first others hsplit =>
              have hrest : ∀ p ∈ first :: others, sep ∉ p := fun p hp =>
                not_mem_of_mem_splitChars (hsplit ▸ hp)
              rcases List.mem_cons.mp h with rfl | h
              · have hne : sep ≠ c := fun e => hc e.symm
                simp [hne, hrest first (List.mem_cons_self ..)]
              · exact hrest part (List.mem_cons_of_mem _ h)

/-- Put together again, the stretches are the text. -/
theorem intercalate_splitChars (sep : Char) :
    ∀ cs : List Char, [sep].intercalate (splitChars sep cs) = cs
  | [] => rfl
  | c :: rest => by
      have ih := intercalate_splitChars sep rest
      rw [splitChars]
      cases hsplit : splitChars sep rest with
      | nil => exact (splitChars_ne_nil sep rest hsplit).elim
      | cons first others =>
          rw [hsplit] at ih
          by_cases hc : c = sep
          · rw [if_pos hc, List.intercalate_cons_cons, ih, hc]
            rfl
          · rw [if_neg hc]
            cases others with
            | nil => simp_all
            | cons second others => simp_all [List.intercalate_cons_cons]

/-- The stretches of a text between occurrences of `sep`. -/
def split (sep : Char) (s : String) : List String :=
  (splitChars sep s.toList).map String.ofList

/-- The text before the first `sep` and the text after it, if there is one. -/
def splitOnce? (sep : Char) (s : String) : Option (String × String) :=
  let cs := s.toList
  let before := cs.takeWhile (· ≠ sep)
  match cs.drop before.length with
  | [] => none
  | _ :: after => some (String.ofList before, String.ofList after)

end EventRelay.Text
