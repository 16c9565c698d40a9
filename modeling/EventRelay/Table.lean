import EventRelay.Identity

/-!
# Tables keyed by session

Sessions and live clients are both kept in a table from session ids to values,
a list of entries of which the first with a given id counts. What a look-up sees
after a change is said by `get?_put` and `get?_erase`; a table built from `[]` has
each id at most once (`nodup_put`, `nodup_erase`).
-/

namespace EventRelay

/-- Values by session id. -/
abbrev Table (α : Type) := List (SessionId × α)

namespace Table

variable {α : Type}

def get? (t : Table α) (id : SessionId) : Option α := List.lookup id t

def contains (t : Table α) (id : SessionId) : Bool := (get? t id).isSome

/-- The table with `a` under `id`, in the place of an earlier value if there is one. -/
def put (id : SessionId) (a : α) : Table α → Table α
  | [] => [(id, a)]
  | (key, b) :: rest => if key = id then (id, a) :: rest else (key, b) :: put id a rest

/-- The table without `id`. -/
def erase (t : Table α) (id : SessionId) : Table α := t.filter fun entry => entry.1 != id

def ids (t : Table α) : List SessionId := t.map (·.1)

/-! ## What a look-up sees -/

theorem get?_cons (key id : SessionId) (a : α) (t : Table α) :
    get? ((key, a) :: t) id = if id = key then some a else get? t id := by
  by_cases h : id = key
  · simp [get?, h]
  · simp [get?, List.lookup_cons, h, beq_eq_false_iff_ne.mpr h]

theorem get?_put (id key : SessionId) (a : α) :
    ∀ t : Table α, get? (put id a t) key = if key = id then some a else get? t key
  | [] => get?_cons id key a []
  | (other, b) :: rest => by
      by_cases h : other = id
      · rw [put, if_pos h, get?_cons, get?_cons, h]
        split <;> rfl
      · rw [put, if_neg h, get?_cons, get?_cons, get?_put id key a rest]
        by_cases hk : key = other
        · rw [if_pos hk, if_pos hk, if_neg (fun e => h (hk.symm.trans e))]
        · rw [if_neg hk, if_neg hk]

theorem get?_erase (id key : SessionId) :
    ∀ t : Table α, get? (erase t id) key = if key = id then none else get? t key
  | [] => by split <;> rfl
  | (other, b) :: rest => by
      have ih := get?_erase id key rest
      rw [erase] at ih ⊢
      by_cases h : other = id
      · rw [List.filter_cons_of_neg (by simp [h]), ih, get?_cons, h]
        split <;> rfl
      · rw [List.filter_cons_of_pos (by simp [h]), get?_cons, get?_cons, ih]
        by_cases hk : key = other
        · rw [if_pos hk, if_pos hk, if_neg (fun e => h (hk.symm.trans e))]
        · rw [if_neg hk, if_neg hk]

theorem get?_isSome (id : SessionId) : ∀ t : Table α, (get? t id).isSome ↔ id ∈ ids t
  | [] => by simp [get?, ids]
  | (key, b) :: rest => by
      rw [get?_cons, ids, List.map_cons, List.mem_cons]
      by_cases h : id = key
      · simp [h]
      · rw [if_neg h, get?_isSome id rest]
        simp [h, ids]

/-! ## Tables without repetitions -/

/-- A value is put in the place of the one before it, or at the end. -/
theorem ids_put (id : SessionId) (a : α) :
    ∀ t : Table α, ids (put id a t) = if id ∈ ids t then ids t else ids t ++ [id]
  | [] => rfl
  | (key, b) :: rest => by
      have ih := ids_put id a rest
      by_cases h : key = id
      · simp [put, ids, h]
      · have h' : id ≠ key := fun e => h e.symm
        by_cases hm : id ∈ ids rest
        · simp_all [put, ids]
        · simp_all [put, ids]

theorem ids_erase (t : Table α) (id : SessionId) :
    ids (erase t id) = (ids t).filter (· != id) := by
  rw [ids, erase, ids, List.filter_map]
  rfl

theorem nodup_put {t : Table α} (h : (ids t).Nodup) (id : SessionId) (a : α) :
    (ids (put id a t)).Nodup := by
  rw [ids_put]
  split
  · exact h
  · next hm =>
      rw [List.nodup_append]
      exact ⟨h, by simp, fun x hx y hy e => hm (List.mem_singleton.mp hy ▸ e ▸ hx)⟩

theorem nodup_erase {t : Table α} (h : (ids t).Nodup) (id : SessionId) :
    (ids (erase t id)).Nodup := by
  rw [ids_erase]
  exact h.filter _

end Table

end EventRelay
