import EventRelay.App.Arrival
import EventRelay.Proofs.FieldText
import EventRelay.Proofs.RoundTrip

/-!
# The last event id on its way back

A browser keeps the id that it has read from a frame and sends it along when it reconnects.
What it has read is the id of the event (`Frame.idRead_ofEvent`). What the request is taken to
present is that id again only if a header field can carry it: the field is read as text of
ASCII or not at all, and blanks around it are taken off (`Arrival.presents_iff`).
-/

namespace EventRelay

namespace Frame

/-- The id that a reader knows after the text of a frame, if it knew `last` before. -/
def idRead (last : EventId) (f : Frame) : EventId :=
  String.ofList
    ((EventSource.resting last).read (EventSource.linesFrom [] f.text.toList)).1.lastEventId

theorem idRead_ofEvent (last : EventId) (e : Event) (hint : Option Nat) :
    idRead last (ofEvent e hint) = e.idAfter last := by
  have hlines : EventSource.linesFrom [] (ofEvent e hint).text.toList = (ofEvent e hint).lines := by
    simpa [String.toList_join] using
      linesFrom_text (List.forall_mem_singleton.mpr (ofEvent_writable e hint))
  rw [idRead, hlines, EventSource.read_frame, EventSource.resting, String.ofList_toList]

end Frame

namespace Arrival

variable {h : Http.Headers} {id : EventId}

/-- What a request presents that carries an id in its header. -/
theorem presentedEvent_carried (hfirst : (h.all lastEventIdHeader).head? = some (Utf8.encode id))
    (q : StreamQuery) : presentedEvent h q
      = if id.toList.all Http.isTextChar = true ∧ Text.trim id ≠ "" then some (Text.trim id)
        else q.lastEventId.filter (· ≠ "") := by
  rw [presentedEvent, Http.Headers.text?, hfirst, Option.bind_some, Http.fieldText?_encode]
  by_cases htext : id.toList.all Http.isTextChar = true
  · by_cases hblank : Text.trim id = ""
    · simp [htext, hblank, Option.filter]
    · simp [htext, hblank, Option.filter]
  · simp [htext]

/-- **The last event id comes back as it was sent, if a header can carry it.** Let a reader
take the id from the frame of an event that is named there, and send it back. Then the request
presents the id of the event, whatever else stands in it, exactly if the id has only characters
that a header is read with and no blanks around it. Blanks are taken off; an id with any other
character is passed over, as if nothing had been sent. -/
theorem presents_iff {e : Event} (hnamed : e.isControl = false) (hclean : Text.Clean e.id)
    (hne : e.id ≠ "") (last : EventId) (hint : Option Nat)
    (hecho : (h.all lastEventIdHeader).head?
      = some (Utf8.encode (Frame.idRead last (Frame.ofEvent e hint)))) :
    Frame.idRead last (Frame.ofEvent e hint) = e.id ∧
    (∀ q, presentedEvent h q
      = if e.id.toList.all Http.isTextChar = true ∧ Text.trim e.id ≠ "" then some (Text.trim e.id)
        else q.lastEventId.filter (· ≠ "")) ∧
    ((∀ q, presentedEvent h q = some e.id) ↔
      e.id.toList.all Http.isTextChar = true ∧ Text.trim e.id = e.id) := by
  have hread : Frame.idRead last (Frame.ofEvent e hint) = e.id := by
    rw [Frame.idRead_ofEvent, Event.idAfter, if_pos ⟨hnamed, hclean⟩]
  rw [hread] at hecho
  have hpresented := presentedEvent_carried hecho
  refine ⟨hread, hpresented, ?_⟩
  constructor
  · intro hall
    have hquery := hall {}
    rw [hpresented] at hquery
    split at hquery
    · next hcarried => exact ⟨hcarried.1, Option.some.inj hquery⟩
    · cases hquery
  · rintro ⟨htext, htrim⟩ q
    rw [hpresented, htrim, if_pos ⟨htext, hne⟩]

/-- The header of a browser that has read the frame of an event first. -/
def echo (e : Event) : Http.Headers :=
  [(lastEventIdHeader, Utf8.encode (Frame.idRead "" (Frame.ofEvent e (some 3000))))]

/-- An id of letters and digits comes back, and the id in the query does not count. -/
theorem presents_plain :
    presentedEvent (echo ⟨"evt-9", "news", [], false⟩) { lastEventId := some "evt-1" }
      = some "evt-9" :=
  (presents_iff (e := ⟨"evt-9", "news", [], false⟩) (by decide) (by decide) (by decide) ""
    (some 3000)
    rfl).2.2.mpr ⟨by decide, by decide⟩ _

/-- An id with an accent is read from its frame and does not come back: it is passed over, and
if there is an older id in the query that one counts. A blank in front of an id goes. -/
theorem accent_passed_over :
    Text.Clean "é" ∧ Frame.idRead "" (Frame.ofEvent ⟨"é", "news", [], false⟩ (some 3000)) = "é" ∧
    presentedEvent (echo ⟨"é", "news", [], false⟩) {} = none ∧
    presentedEvent (echo ⟨"é", "news", [], false⟩) { lastEventId := some "evt-1" } = some "evt-1" ∧
    presentedEvent (echo ⟨" a", "news", [], false⟩) {} = some "a" := by
  decide +kernel

end Arrival

end EventRelay
