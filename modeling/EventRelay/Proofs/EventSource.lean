import EventRelay.EventStream

/-!
# The reader of an event stream

What a browser makes of the text of an event stream. The text is cut into lines; a line
names a field and gives its value, and an empty line ends an event, which the page gets if
the event had a `data` field. The reader keeps the last event id it was given, and sends
it along when it reconnects.

The second half reads what `Frame.text` writes: its lines are those of the frames
(`Frame.linesFrom_text`), and each does what its `FrameLine` says (`FrameLine.line_text`).
-/

namespace EventRelay

/-- An event as a page gets it. -/
structure Incoming where
  type : String
  data : String
  lastEventId : EventId
  deriving Repr, DecidableEq

/-- What the reader of a stream does. -/
inductive Heard where
  | event (i : Incoming)
  /-- The delay before reconnecting is set, in milliseconds. -/
  | retry (delay : Nat)
  deriving Repr, DecidableEq

/-- The reader of an event stream, between two lines. -/
structure EventSource where
  type : List Char := []
  /-- The values of the `data` fields, each with a line feed after it. -/
  data : List Char := []
  /-- The value of the last `id` field. -/
  id : List Char := []
  /-- What `id` was when the last event ended. -/
  lastEventId : List Char := []
  deriving Repr, DecidableEq

namespace EventSource

/-! ## Lines -/

/-- The lines of a text that continues `line`. A line ends with a carriage return and a
line feed, or with one of them; what follows the last end is no line. -/
def linesFrom (line : List Char) : List Char → List (List Char)
  | [] => []
  | '\r' :: '\n' :: rest => line :: linesFrom [] rest
  | c :: rest =>
    if c = '\r' ∨ c = '\n' then line :: linesFrom [] rest else linesFrom (line ++ [c]) rest

/-- The lines of a text. A byte order mark in front is not part of it. -/
def lines (text : String) : List (List Char) :=
  match text.toList with
  | '\uFEFF' :: rest => linesFrom [] rest
  | cs => linesFrom [] cs

/-- The name of a field, and its value without the space after the colon. -/
def field (line : List Char) : List Char × List Char :=
  (line.takeWhile (· ≠ ':'),
    match line.dropWhile (· ≠ ':') with
    | ':' :: ' ' :: value => value
    | ':' :: value => value
    | _ => [])

/-! ## Reading -/

/-- The end of an event. -/
def dispatch (s : EventSource) : EventSource × List Heard :=
  ({ id := s.id, lastEventId := s.id },
    if s.data = [] then []
    else [.event {
      type := if s.type = [] then "message" else String.ofList s.type
      data := String.ofList s.data.dropLast
      lastEventId := String.ofList s.id }])

/-- Fields that are not known are ignored, and so are an id with a null character and a
delay that is no number. -/
def set (s : EventSource) (name value : List Char) : EventSource × List Heard :=
  if name = "event".toList then ({ s with type := value }, [])
  else if name = "data".toList then ({ s with data := s.data ++ value ++ ['\n'] }, [])
  else if name = "id".toList then (if '\x00' ∈ value then s else { s with id := value }, [])
  else if name = "retry".toList then
    (s, if value ≠ [] ∧ value.all Char.isDigit then [.retry (Nat.ofDigitChars 10 value 0)] else [])
  else (s, [])

/-- One line. A line that begins with a colon is a comment. -/
def line (s : EventSource) : List Char → EventSource × List Heard
  | [] => s.dispatch
  | ':' :: _ => (s, [])
  | l => s.set (field l).1 (field l).2

/-- Lines, one after the other. -/
def read (s : EventSource) : List (List Char) → EventSource × List Heard
  | [] => (s, [])
  | l :: rest => (((s.line l).1.read rest).1, (s.line l).2 ++ ((s.line l).1.read rest).2)

/-- What the reader makes of the text of a stream. -/
def ofText (text : String) : EventSource × List Heard := ({} : EventSource).read (lines text)

variable {s : EventSource}

theorem read_append (ls ls' : List (List Char)) (s : EventSource) :
    s.read (ls ++ ls')
      = (((s.read ls).1.read ls').1, (s.read ls).2 ++ ((s.read ls).1.read ls').2) := by
  induction ls generalizing s with
  | nil => rfl
  | cons l ls ih => simp [read, ih]

theorem linesFrom_append {l : List Char} (hcr : '\r' ∉ l) (hlf : '\n' ∉ l) (line rest : List Char) :
    linesFrom line (l ++ '\n' :: rest) = (line ++ l) :: linesFrom [] rest := by
  induction l generalizing line with
  | nil => simp [linesFrom]
  | cons c l ih =>
      rw [List.mem_cons, not_or] at hcr hlf
      have hc : c ≠ '\r' := fun e => hcr.1 e.symm
      have hc' : c ≠ '\n' := fun e => hlf.1 e.symm
      rw [List.cons_append, linesFrom, if_neg (by simp [hc, hc']), ih hcr.2 hlf.2]
      · simp
      · rintro rest' rfl
        exact absurd rfl hc

theorem linesFrom_lines {ls : List (List Char)} (h : ∀ l ∈ ls, '\r' ∉ l ∧ '\n' ∉ l) :
    linesFrom [] (ls.flatMap (· ++ ['\n'])) = ls := by
  induction ls with
  | nil => rfl
  | cons l ls ih =>
      obtain ⟨hl, hls⟩ := List.forall_mem_cons.mp h
      rw [List.flatMap_cons, List.append_assoc, List.singleton_append, linesFrom_append hl.1 hl.2,
        List.nil_append, ih hls]

theorem field_append {name : List Char} (hname : ':' ∉ name) (value : List Char) :
    field (name ++ ':' :: ' ' :: value) = (name, value) := by
  have hall : ∀ c ∈ name, decide (c ≠ ':') = true := fun c hc =>
    decide_eq_true fun e => hname (e ▸ hc)
  rw [field, List.takeWhile_append_of_pos hall, List.dropWhile_append_of_pos hall]
  simp

theorem line_field {name : List Char} (hne : name ≠ []) (hname : ':' ∉ name) (value : List Char) :
    s.line (name ++ ':' :: ' ' :: value) = s.set name value := by
  have hfield := field_append hname value
  cases name with
  | nil => exact absurd rfl hne
  | cons c name =>
      rw [List.cons_append] at hfield ⊢
      rw [line, hfield]
      · exact nofun
      · rintro rest ⟨⟩
        exact hname (List.mem_cons_self ..)

end EventSource

/-! ## The lines of a frame -/

namespace FrameLine

/-- The field that a line is for. A comment has none. -/
def name : FrameLine → String
  | .retry _ => "retry"
  | .comment _ => ""
  | .id _ => "id"
  | .event _ => "event"
  | .data _ => "data"

def value : FrameLine → String
  | .retry delay => toString delay
  | .comment v => v
  | .id v => v
  | .event v => v
  | .data v => v

theorem toList_text (l : FrameLine) :
    l.text.toList = l.name.toList ++ ':' :: ' ' :: l.value.toList := by
  have htext : l.text = l.name ++ ": " ++ l.value := by
    cases l <;> simp [text, name, value, toString]
  simp [htext, String.toList_append]

/-- The line can be written: its value is one line, and an id has no null character. -/
def Writable (l : FrameLine) : Prop :=
  '\r' ∉ l.value.toList ∧ '\n' ∉ l.value.toList ∧ (l.name = "id" → '\x00' ∉ l.value.toList)

/-- What a line does to a reader. -/
def heard (s : EventSource) : FrameLine → EventSource × List Heard
  | .retry delay => (s, [.retry delay])
  | .comment _ => (s, [])
  | .id v => ({ s with id := v.toList }, [])
  | .event v => ({ s with type := v.toList }, [])
  | .data v => ({ s with data := s.data ++ v.toList ++ ['\n'] }, [])

theorem Writable.one_line {l : FrameLine} (hl : l.Writable) :
    '\r' ∉ l.text.toList ∧ '\n' ∉ l.text.toList := by
  obtain ⟨hcr, hlf, -⟩ := hl
  rw [toList_text]
  cases l <;> simp_all [name]

/-- A line that can be written is read as it was meant. -/
theorem line_text (s : EventSource) {l : FrameLine} (hl : l.Writable) :
    s.line l.text.toList = l.heard s := by
  rw [toList_text]
  cases l with
  | retry delay =>
      have hdigits : ∀ c ∈ Nat.toDigits 10 delay, c.isDigit = true := fun c =>
        Nat.isDigit_of_mem_toDigits (by decide) (by decide)
      rw [EventSource.line_field (by simp [name]) (by simp [name])]
      simpa [EventSource.set, name, value, heard, Nat.toDigits_ne_nil,
        Nat.ofDigitChars_ten_toDigits]
        using hdigits
  | comment v => rfl
  | id v =>
      have hnull : '\x00' ∉ v.toList := hl.2.2 rfl
      rw [EventSource.line_field (by simp [name]) (by simp [name])]
      simp [EventSource.set, name, value, heard, hnull]
  | event v =>
      rw [EventSource.line_field (by simp [name]) (by simp [name])]
      simp [EventSource.set, name, value, heard]
  | data v =>
      rw [EventSource.line_field (by simp [name]) (by simp [name])]
      simp [EventSource.set, name, value, heard]

end FrameLine

namespace Frame

/-- The lines of a frame, with the empty one at its end. -/
def lines (f : Frame) : List (List Char) := f.map (·.text.toList) ++ [[]]

theorem toList_text (f : Frame) : f.text.toList = f.lines.flatMap (· ++ ['\n']) := by
  simp [text, lines, String.toList_append, String.toList_join, List.flatMap_map]

theorem one_line {f : Frame} (hf : ∀ l ∈ f, l.Writable) : ∀ l ∈ f.lines, '\r' ∉ l ∧ '\n' ∉ l := by
  intro l hl
  rcases List.mem_append.mp hl with hl | hl
  · obtain ⟨l, hmem, rfl⟩ := List.mem_map.mp hl
    exact (hf l hmem).one_line
  · obtain rfl := List.mem_singleton.mp hl
    exact ⟨List.not_mem_nil, List.not_mem_nil⟩

/-- Frames that can be written are cut into their lines again. -/
theorem linesFrom_text {fs : List Frame} (hfs : ∀ f ∈ fs, ∀ l ∈ f, l.Writable) :
    EventSource.linesFrom [] (String.join (fs.map text)).toList = fs.flatMap lines := by
  have htext : (String.join (fs.map text)).toList = (fs.flatMap lines).flatMap (· ++ ['\n']) := by
    simp [String.toList_join, List.flatMap_map, List.flatMap_assoc, toList_text]
  rw [htext, EventSource.linesFrom_lines]
  intro l hl
  obtain ⟨f, hf, hl⟩ := List.mem_flatMap.mp hl
  exact one_line (hfs f hf) l hl

end Frame

end EventRelay
