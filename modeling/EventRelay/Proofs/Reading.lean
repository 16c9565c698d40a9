import EventRelay.Proofs.Run

/-!
# What the client of a session has read

All that a client does can be seen in the past of a run: `heard id past` is what was
read from the session since it was made, over all its connections, and `lastRead` the
id that a client presents when it comes back. `Orderly id past` says that the client
does present it, and that producers name their events apart.

Control events carry no data: they are read, but a client does not take their ids for
a place to resume at. Whether they count where events are compared is the parameter
`control` of what follows.
-/

namespace EventRelay

namespace Event

/-- Whether an event counts. Control events do if `control` says so. -/
def counts (control : Bool) (e : Event) : Bool := control || !e.isControl

@[simp] theorem isControl_asReplay (e : Event) : e.asReplay.isControl = e.isControl := rfl

theorem counts_of_plain {e : Event} (hplain : e.isControl = false) (control : Bool) :
    e.counts control = true := by
  simp [counts, hplain]

end Event

/-- The id of the last event read that carried data. -/
def lastRead (es : List Event) : Option EventId :=
  (es.filter fun e => !e.isControl).getLast?.map (·.id)

theorem lastRead_concat (es : List Event) (e : Event) :
    lastRead (es ++ [e]) = if e.isControl then lastRead es else some e.id := by
  rw [lastRead, List.filter_append]
  cases hc : e.isControl with
  | true => simp [hc, lastRead]
  | false => simp [hc]

theorem mem_of_lastRead {es : List Event} {id : EventId} (h : lastRead es = some id) :
    ∃ e ∈ es, e.isControl = false ∧ e.id = id := by
  obtain ⟨e, hlast, hid⟩ := Option.map_eq_some_iff.mp h
  obtain ⟨hmem, hplain⟩ := List.mem_filter.mp (List.mem_of_getLast? hlast)
  exact ⟨e, hmem, by simpa using hplain, hid⟩

/-! ## The past of a run -/

namespace Occurrence

variable (o : Occurrence)

/-- The session was made here. -/
def begins (id : SessionId) : Bool :=
  match o.outcome with
  | .admitted c => c.session == id && !c.reconnected
  | _ => false

/-- The event that was read from the session here. -/
def heard? (id : SessionId) : Option Event :=
  match o.act, o.outcome with
  | .read c, .reading (.event e) => if c.session = id then some e else none
  | _, _ => none

/-- The message that was dispatched here. -/
def message? : Option Message :=
  match o.act with
  | .dispatch m => some m
  | _ => none

/-- The names that came up here: of the event that was dispatched and, if control
events count, of the greeting that was made. -/
def names (control : Bool) : List EventId :=
  match o.act with
  | .dispatch m => [m.event.id]
  | .register g => if control then [g.greeting] else []
  | _ => []

/-- The registration with which a client came back to the session here. -/
def comeback? (id : SessionId) : Option Registration :=
  match o.act, o.outcome with
  | .register g, .admitted c => if c.session = id ∧ c.reconnected = true then some g else none
  | _, _ => none

end Occurrence

/-- The events read from a session since it was made, in order. -/
def heard (id : SessionId) : List Occurrence → List Event
  | [] => []
  | o :: past => if o.begins id then [] else heard id past ++ (o.heard? id).toList

/-- The messages dispatched, the latest first. -/
def sent (past : List Occurrence) : List Message := past.filterMap Occurrence.message?

def names (control : Bool) (past : List Occurrence) : List EventId :=
  past.flatMap (Occurrence.names · control)

/-- Whenever a client came back to the session, it presented the last event that it
had read. -/
def Faithful (id : SessionId) : List Occurrence → Prop
  | [] => True
  | o :: past =>
    (∀ g ∈ o.comeback? id, g.lastEventId = lastRead (heard id past)) ∧ Faithful id past

instance Faithful.decide (id : SessionId) : ∀ past, Decidable (Faithful id past)
  | [] => isTrue trivial
  | o :: past =>
    have := Faithful.decide id past
    inferInstanceAs (Decidable
      ((∀ g ∈ o.comeback? id, g.lastEventId = lastRead (heard id past)) ∧ Faithful id past))

/-- The names of events are there and told apart, no message goes to the session
twice, and its clients are faithful. If control events count, their names are told
apart as well, and they are sent to live clients only. -/
structure Orderly (control : Bool) (id : SessionId) (past : List Occurrence) : Prop where
  distinct : (names control past).Nodup
  filled : "" ∉ names control past
  once : ∀ m ∈ sent past, m.scope.copies id ≤ 1
  transient : control = true → ∀ m ∈ sent past, m.event.isControl = true → m.scope = .live
  faithful : Faithful id past

instance (control : Bool) (id : SessionId) (past : List Occurrence) :
    Decidable (Orderly control id past) :=
  decidable_of_iff ((names control past).Nodup ∧ "" ∉ names control past ∧
      (∀ m ∈ sent past, m.scope.copies id ≤ 1) ∧
      (control = true → ∀ m ∈ sent past, m.event.isControl = true → m.scope = .live) ∧
      Faithful id past)
    ⟨fun ⟨h₁, h₂, h₃, h₄, h₅⟩ => ⟨h₁, h₂, h₃, h₄, h₅⟩,
      fun h => ⟨h.distinct, h.filled, h.once, h.transient, h.faithful⟩⟩

/-! ## Going back by one step -/

variable {control : Bool} {id : SessionId} {o : Occurrence} {past : List Occurrence}

theorem heard_cons (hbegins : o.begins id = false) :
    heard id (o :: past) = heard id past ++ (o.heard? id).toList := by
  rw [heard, hbegins]
  rfl

theorem mem_sent_cons {m : Message} (hmem : m ∈ sent past) : m ∈ sent (o :: past) := by
  rw [sent, List.mem_filterMap] at hmem ⊢
  obtain ⟨o', ho', hm⟩ := hmem
  exact ⟨o', List.mem_cons_of_mem o ho', hm⟩

theorem Orderly.tail (hord : Orderly control id (o :: past)) : Orderly control id past where
  distinct := (List.nodup_append.mp hord.distinct).2.1
  filled hmem := hord.filled (List.mem_append_right _ hmem)
  once m hmem := hord.once m (mem_sent_cons hmem)
  transient hcontrol m hmem := hord.transient hcontrol m (mem_sent_cons hmem)
  faithful := hord.faithful.2

/-- A name that comes up is new. -/
theorem Orderly.fresh (hord : Orderly control id (o :: past)) {x : EventId}
    (hx : x ∈ o.names control) : x ∉ names control past := by
  intro hmem
  exact (List.nodup_append.mp hord.distinct).2.2 x hx x hmem rfl

end EventRelay
