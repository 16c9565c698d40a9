import EventRelay.Proofs.EventSource

/-!
# What is written to a stream is what a page gets

The frames of a sequence of events, read as a browser reads them, are the events again: one
for each event that has a payload, in order, under its type and with its text, and with the
id of the last event that may be named. An event without a payload has no `data` line, so no
page gets it (`payload_needed`); its id is remembered all the same.
-/

namespace EventRelay

/-! ## Texts in one line and in several -/

namespace Text

/-- The text stands in one line, and has no null character. -/
def Clean (s : String) : Prop := '\r' ∉ s.toList ∧ '\n' ∉ s.toList ∧ '\x00' ∉ s.toList

instance (s : String) : Decidable (Clean s) := inferInstanceAs (Decidable (_ ∧ _ ∧ _))

/-- The text with a line feed at the end of each line: a carriage return before a line feed
goes, and any other becomes a line feed. -/
def withLineFeeds (cs : List Char) : List Char :=
  ((cs.zip (cs.tail.map some ++ [none])).filter fun p => p.1 ≠ '\r' || p.2 ≠ some '\n').map
    fun p => if p.1 = '\r' then '\n' else p.1

theorem withLineFeeds_cons (c : Char) (cs : List Char) : withLineFeeds (c :: cs)
    = (if c = '\r' ∧ cs.head? = some '\n' then [] else [if c = '\r' then '\n' else c])
      ++ withLineFeeds cs := by
  cases cs with
  | nil => by_cases hc : c = '\r' <;> simp [withLineFeeds, hc]
  | cons d rest =>
      by_cases hc : c = '\r' <;> by_cases hd : d = '\n' <;> simp [withLineFeeds, hc, hd]

theorem flatMap_feed {parts : List (List Char)} (hne : parts ≠ []) :
    parts.flatMap (· ++ ['\n']) = ['\n'].intercalate parts ++ ['\n'] := by
  induction parts with
  | nil => exact absurd rfl hne
  | cons part parts ih =>
      cases parts with
      | nil => simp
      | cons next parts => rw [List.flatMap_cons, ih nofun, List.intercalate_cons_cons]; simp

end Text

namespace Frame

theorem isFieldSafe_iff (s : String) : isFieldSafe s = true ↔ Text.Clean s := by
  simp only [isFieldSafe, List.all_eq_true, Text.Clean, Bool.and_eq_true, decide_eq_true_eq]
  constructor
  · intro h
    exact ⟨fun hc => (h _ hc).1.1 rfl, fun hc => (h _ hc).1.2 rfl, fun hc => (h _ hc).2 rfl⟩
  · rintro ⟨hcr, hlf, hnull⟩ c hc
    exact ⟨⟨fun e => hcr (e ▸ hc), fun e => hlf (e ▸ hc)⟩, fun e => hnull (e ▸ hc)⟩

theorem normalizeLineEndings_eq (cs : List Char) :
    normalizeLineEndings cs = Text.withLineFeeds cs := by
  fun_induction normalizeLineEndings cs with
  | case1 => rfl
  | case2 rest ih => simp [Text.withLineFeeds_cons, ih]
  | case3 c rest hnot ih =>
      have hkept : ¬ (c = '\r' ∧ rest.head? = some '\n') := by
        rintro ⟨rfl, hhead⟩
        obtain ⟨rest', rfl⟩ := List.head?_eq_some_iff.mp hhead
        exact hnot rest' rfl rfl
      simp [Text.withLineFeeds_cons, hkept, ih]

theorem normalizeLineEndings_clean (cs : List Char) : '\r' ∉ normalizeLineEndings cs := by
  fun_induction normalizeLineEndings cs with
  | case1 => exact List.not_mem_nil
  | case2 rest ih => simp [ih]
  | case3 c rest hnot ih =>
      rw [List.mem_cons, not_or]
      refine ⟨?_, ih⟩
      split
      · decide
      · next hc => exact fun e => hc e.symm

/-! ## Frames -/

theorem mem_dataLines {text : String} {l : FrameLine} (hl : l ∈ dataLines text) :
    ∃ part ∈ Text.splitChars '\n' (normalizeLineEndings text.toList),
      l = .data (String.ofList part) := by
  unfold dataLines at hl
  split at hl
  · cases hl
  · obtain ⟨part, hpart, rfl⟩ := List.mem_map.mp hl
    exact ⟨part, hpart, rfl⟩

theorem dataLines_writable {text : String} {l : FrameLine} (hl : l ∈ dataLines text) :
    l.Writable := by
  obtain ⟨part, hpart, rfl⟩ := mem_dataLines hl
  have hlf := Text.not_mem_of_mem_splitChars hpart
  refine ⟨?_, by rwa [FrameLine.value, String.toList_ofList], by simp [FrameLine.name]⟩
  rw [FrameLine.value, String.toList_ofList]
  intro hcr
  have hmem : '\r'
      ∈ (Text.splitChars '\n' (normalizeLineEndings text.toList)).flatMap (· ++ ['\n']) :=
    List.mem_flatMap.mpr ⟨part, hpart, List.mem_append_left _ hcr⟩
  rw [Text.flatMap_feed (Text.splitChars_ne_nil _ _), Text.intercalate_splitChars] at hmem
  rcases List.mem_append.mp hmem with hmem | hmem
  · exact normalizeLineEndings_clean _ hmem
  · simp at hmem

theorem retry_writable (delay : Nat) : (FrameLine.retry delay).Writable := by
  have hdigits : ∀ c ∈ (toString delay).toList, c.isDigit = true := by
    simpa using fun c => Nat.isDigit_of_mem_toDigits (b := 10) (n := delay) (by decide) (by decide)
  exact ⟨fun h => absurd (hdigits _ h) (by decide), fun h => absurd (hdigits _ h) (by decide),
    by simp [FrameLine.name]⟩

theorem replayed_writable : (FrameLine.comment "replayed").Writable :=
  ⟨by decide, by decide, by simp [FrameLine.name]⟩

theorem id_writable {v : String} (hv : Text.Clean v) : (FrameLine.id v).Writable :=
  ⟨hv.1, hv.2.1, fun _ => hv.2.2⟩

theorem event_writable {v : String} (hv : Text.Clean v) : (FrameLine.event v).Writable :=
  ⟨hv.1, hv.2.1, by simp [FrameLine.name]⟩

/-- Every line of a frame can be written. -/
theorem ofEvent_writable (e : Event) (hint : Option Nat) : ∀ l ∈ ofEvent e hint, l.Writable := by
  intro l hl
  simp only [ofEvent, List.mem_append, Option.mem_toList, Option.map_eq_some_iff,
    List.mem_ite_nil_right, List.mem_singleton, Bool.and_eq_true, isFieldSafe_iff] at hl
  rcases hl with (((⟨delay, -, rfl⟩ | ⟨-, rfl⟩) | ⟨⟨-, hid⟩, rfl⟩) | ⟨htype, rfl⟩) | hdata
  · exact retry_writable delay
  · exact replayed_writable
  · exact id_writable hid
  · exact event_writable htype
  · exact dataLines_writable hdata

/-- No field but `data` stands in a frame twice. -/
theorem ofEvent_nodup (e : Event) (hint : Option Nat) :
    (((ofEvent e hint).map FrameLine.name).filter (· ≠ "data")).Nodup := by
  have hdata : ((dataLines e.text).map FrameLine.name).filter (· ≠ "data") = [] := by
    rw [List.filter_eq_nil_iff]
    intro name hname
    obtain ⟨l, hl, rfl⟩ := List.mem_map.mp hname
    obtain ⟨part, -, rfl⟩ := mem_dataLines hl
    simp [FrameLine.name]
  have hsub : (((ofEvent e hint).map FrameLine.name).filter (· ≠ "data")).Sublist
      (["retry"] ++ [""] ++ ["id"] ++ ["event"] ++ []) := by
    simp only [ofEvent, List.map_append, List.filter_append, hdata]
    refine (((List.Sublist.append ?_ ?_).append ?_).append ?_).append (.refl _)
    · cases hint <;> simp [FrameLine.name]
    · split <;> simp [FrameLine.name]
    · split <;> simp [FrameLine.name]
    · split <;> simp [FrameLine.name]
  exact hsub.nodup (by decide)

end Frame

/-! ## Events -/

namespace Event

/-- The type under which a page gets the event. -/
def pageType (e : Event) : String := if Text.Clean e.type ∧ e.type ≠ "" then e.type else "message"

/-- The last event id after the event, if it was `last` before. -/
def idAfter (last : EventId) (e : Event) : EventId :=
  if e.isControl = false ∧ Text.Clean e.id then e.id else last

/-- The event as a page gets it. -/
def incoming (last : EventId) (e : Event) : Incoming :=
  { type := e.pageType
    data := String.ofList (Text.withLineFeeds e.text.toList)
    lastEventId := e.idAfter last }

theorem text_eq_empty (e : Event) : e.text = "" ↔ e.payload = [] := by
  have hread : ∀ bytes : Bytes, Utf8.read bytes = [] ↔ bytes = [] := by
    intro bytes
    cases bytes with
    | nil => simp [Utf8.read]
    | cons b rest => rw [Utf8.read]; split <;> simp
  rw [text, Utf8.decode, ← String.toList_inj, String.toList_ofList, ← hread e.payload]
  simp

end Event

namespace EventStream

/-- What a page gets of a sequence of events. -/
def received (last : EventId) : List Event → List Incoming
  | [] => []
  | e :: rest =>
    (if e.payload = [] then [] else [e.incoming last]) ++ received (e.idAfter last) rest

end EventStream

namespace EventSource

/-- A reader between two events. -/
def resting (last : EventId) : EventSource := { id := last.toList, lastEventId := last.toList }

theorem read_writable (s : EventSource) {l : FrameLine} (hl : l.Writable) :
    s.read [l.text.toList] = l.heard s := by
  simp [read, FrameLine.line_text s hl]

theorem read_data {parts : List (List Char)}
    (hall : ∀ part ∈ parts, (FrameLine.data (String.ofList part)).Writable) (s : EventSource) :
    s.read (parts.map fun part => (FrameLine.data (String.ofList part)).text.toList)
      = ({ s with data := s.data ++ parts.flatMap (· ++ ['\n']) }, []) := by
  induction parts generalizing s with
  | nil => simp [read]
  | cons part parts ih =>
      obtain ⟨hpart, hrest⟩ := List.forall_mem_cons.mp hall
      simp [read, FrameLine.line_text s hpart, FrameLine.heard, ih hrest]

theorem read_dataLines (s : EventSource) (text : String) :
    s.read ((Frame.dataLines text).map (·.text.toList))
      = ({ s with data :=
            s.data ++ if text = "" then [] else Text.withLineFeeds text.toList ++ ['\n'] },
          []) := by
  by_cases hempty : text = ""
  · simp [Frame.dataLines, hempty, read]
  · have hall : ∀ l ∈ Frame.dataLines text, l.Writable := fun l => Frame.dataLines_writable
    rw [Frame.dataLines, if_neg hempty] at hall ⊢
    rw [List.map_map, ← Frame.normalizeLineEndings_eq]
    refine (read_data (fun part hpart => hall _ (List.mem_map_of_mem hpart)) s).trans ?_
    rw [Text.flatMap_feed (Text.splitChars_ne_nil _ _), Text.intercalate_splitChars, if_neg hempty]

variable (s : EventSource)

theorem read_hint (hint : Option Nat) :
    s.read ((hint.map FrameLine.retry).toList.map (·.text.toList))
      = (s, (hint.map Heard.retry).toList) := by
  cases hint with
  | none => rfl
  | some delay => exact read_writable s (Frame.retry_writable delay)

theorem read_comment (replayed : Bool) :
    s.read ((if replayed then [FrameLine.comment "replayed"] else []).map (·.text.toList))
      = (s, []) := by
  cases replayed with
  | false => rfl
  | true => exact read_writable s Frame.replayed_writable

theorem read_id (e : Event) :
    s.read ((if !e.isControl && Frame.isFieldSafe e.id then [FrameLine.id e.id] else []).map
        (·.text.toList))
      = ({ s with id := if e.isControl = false ∧ Text.Clean e.id then e.id.toList else s.id },
        []) := by
  by_cases hnamed : e.isControl = false ∧ Text.Clean e.id
  · rw [if_pos (by simpa [Frame.isFieldSafe_iff] using hnamed), if_pos hnamed]
    exact read_writable s (Frame.id_writable hnamed.2)
  · rw [if_neg (by simpa [Frame.isFieldSafe_iff] using hnamed), if_neg hnamed]
    rfl

theorem read_type (type : String) :
    s.read ((if Frame.isFieldSafe type then [FrameLine.event type] else []).map (·.text.toList))
      = ({ s with type := if Text.Clean type then type.toList else s.type }, []) := by
  by_cases hclean : Text.Clean type
  · rw [if_pos ((Frame.isFieldSafe_iff _).mpr hclean), if_pos hclean]
    exact read_writable s (Frame.event_writable hclean)
  · rw [if_neg (mt (Frame.isFieldSafe_iff _).mp hclean), if_neg hclean]
    rfl

/-- A frame makes the reader hear its event. -/
theorem read_frame (last : EventId) (e : Event) (hint : Option Nat) :
    (resting last).read (Frame.ofEvent e hint).lines
      = (resting (e.idAfter last),
        (hint.map Heard.retry).toList
          ++ if e.payload = [] then [] else [.event (e.incoming last)]) := by
  have hid : (if e.isControl = false ∧ Text.Clean e.id then e.id.toList else last.toList)
      = (e.idAfter last).toList := by
    rw [Event.idAfter, apply_ite String.toList]
  rw [Frame.lines, Frame.ofEvent]
  simp only [List.map_append, read_append, read_hint, read_comment, read_id, read_type,
    read_dataLines, Event.text_eq_empty, resting, hid]
  by_cases hempty : e.payload = []
  · simp [read, line, dispatch, hempty]
  · by_cases hclean : Text.Clean e.type <;> by_cases hname : e.type = ""
      <;> simp [read, line, dispatch, hempty, hclean, hname, Event.incoming, Event.pageType]

theorem read_frames (last : EventId) (events : List Event) :
    (resting last).read ((events.map fun e => Frame.ofEvent e none).flatMap Frame.lines)
      = (resting (events.foldl Event.idAfter last),
          (EventStream.received last events).map .event) := by
  induction events generalizing last with
  | nil => rfl
  | cons e events ih =>
      rw [List.map_cons, List.flatMap_cons, read_append, read_frame, ih]
      by_cases he : e.payload = [] <;> simp [EventStream.received, he]

end EventSource

namespace EventStream

theorem length_received (last : EventId) (events : List Event) :
    (received last events).length = (events.filter fun e => e.payload ≠ []).length := by
  induction events generalizing last with
  | nil => rfl
  | cons e events ih => by_cases he : e.payload = [] <;> simp [received, he, ih]

/-- A stream has no byte order mark in front, so its lines are those of its frames. -/
theorem lines_framesOf (retry : Nat) (events : List Event) :
    EventSource.lines (String.join ((framesOf (some retry) events).map Frame.text))
      = (framesOf (some retry) events).flatMap Frame.lines := by
  have hwritable : ∀ f ∈ framesOf (some retry) events, ∀ l ∈ f, l.Writable := by
    intro f hf
    cases events with
    | nil => cases hf
    | cons e events =>
        rcases List.mem_cons.mp hf with rfl | hf
        · exact Frame.ofEvent_writable e _
        · obtain ⟨e', -, rfl⟩ := List.mem_map.mp hf
          exact Frame.ofEvent_writable e' _
  rw [← Frame.linesFrom_text hwritable, EventSource.lines]
  split
  · next rest hmark =>
      cases events with
      | nil => simp [framesOf] at hmark
      | cons e events =>
          simp [framesOf, Frame.toList_text, Frame.lines, Frame.ofEvent, FrameLine.toList_text,
            FrameLine.name, String.toList_join] at hmark
  · rfl

/-- **What is written is what is read.** -/
theorem read_back (retry : Nat) (events : List Event) :
    (∀ e hint, (∀ l ∈ Frame.ofEvent e hint, l.Writable) ∧
      (((Frame.ofEvent e hint).map FrameLine.name).filter (· ≠ "data")).Nodup) ∧
    EventSource.ofText (String.join ((framesOf (some retry) events).map Frame.text))
      = (EventSource.resting (events.foldl Event.idAfter ""),
        if events = [] then [] else .retry retry :: (received "" events).map .event) ∧
    ((received "" events).length = events.length ↔ ∀ e ∈ events, e.payload ≠ []) := by
  refine ⟨fun e hint => ⟨Frame.ofEvent_writable e hint, Frame.ofEvent_nodup e hint⟩, ?_, ?_⟩
  · rw [EventSource.ofText, lines_framesOf]
    cases events with
    | nil => rfl
    | cons e events =>
        have hfirst := EventSource.read_frame "" e (some retry)
        have hrest := EventSource.read_frames (e.idAfter "") events
        have hstart : EventSource.resting "" = {} := rfl
        rw [hstart] at hfirst
        rw [framesOf, List.flatMap_cons, EventSource.read_append, hfirst, hrest]
        by_cases he : e.payload = [] <;> simp [received, he]
  · rw [length_received, List.length_filter_eq_length_iff]
    simp

/-- An event without a payload is written, and no page gets it. -/
theorem payload_needed :
    EventSource.ofText
      (String.join ((framesOf (some 3000) [{ id := "i", type := "t", payload := [] }]).map
      Frame.text)) = (EventSource.resting "i", [.retry 3000]) := by
  decide +kernel

end EventStream

end EventRelay
