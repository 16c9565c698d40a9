import Mathlib
import EventRelay.Table

/-!
# Tables seen through their look-ups

More of what a look-up sees: after every value was changed (`get?_mapValues`), and
after entries were dropped by value (`get?_filter`). In a table without repetitions
an entry is in the list exactly if a look-up finds it (`mem_iff_get?`), so the lists
that loops over a table produce can be read through look-ups too.
-/

namespace EventRelay.Table

variable {α β : Type}

theorem mem_ids_of_get? {t : Table α} {id : SessionId} {a : α} (h : get? t id = some a) :
    id ∈ ids t := (get?_isSome id t).mp (h ▸ rfl)

theorem get?_eq_none_iff {t : Table α} {id : SessionId} : get? t id = none ↔ id ∉ ids t := by
  rw [← get?_isSome, Option.not_isSome_iff_eq_none]

theorem mem_of_get? {t : Table α} {id : SessionId} {a : α} (h : get? t id = some a) :
    (id, a) ∈ t := by
  induction t with
  | nil => simp [get?] at h
  | cons entry rest ih =>
      obtain ⟨key, b⟩ := entry
      rw [get?_cons] at h
      split at h
      · next heq =>
          obtain rfl := Option.some.inj h
          exact heq ▸ List.mem_cons_self ..
      · exact List.mem_cons_of_mem _ (ih h)

theorem get?_of_mem {t : Table α} (hnd : (ids t).Nodup) {id : SessionId} {a : α}
    (h : (id, a) ∈ t) : get? t id = some a := by
  induction t with
  | nil => exact (List.not_mem_nil h).elim
  | cons entry rest ih =>
      obtain ⟨key, b⟩ := entry
      obtain ⟨hkey, hrest⟩ := List.nodup_cons.mp hnd
      rw [get?_cons]
      rcases List.mem_cons.mp h with heq | hmem
      · obtain ⟨rfl, rfl⟩ := Prod.mk.injEq .. |>.mp heq
        exact if_pos rfl
      · have hin : id ∈ ids rest := List.mem_map_of_mem hmem
        rw [if_neg (fun e : id = key => hkey (e ▸ hin))]
        exact ih hrest hmem

theorem mem_iff_get? {t : Table α} (hnd : (ids t).Nodup) {id : SessionId} {a : α} :
    (id, a) ∈ t ↔ get? t id = some a :=
  ⟨get?_of_mem hnd, mem_of_get?⟩

/-! ## Changing every value -/

theorem get?_mapValues (f : SessionId → α → β) (key : SessionId) (t : Table α) :
    get? (t.map fun entry => (entry.1, f entry.1 entry.2)) key = (get? t key).map (f key) := by
  induction t with
  | nil => rfl
  | cons entry rest ih =>
      obtain ⟨other, a⟩ := entry
      rw [List.map_cons, get?_cons, get?_cons, ih]
      split
      · next h => rw [h]; rfl
      · rfl

theorem ids_mapValues (f : SessionId → α → β) (t : Table α) :
    ids (t.map fun entry => (entry.1, f entry.1 entry.2)) = ids t := by
  rw [ids, List.map_map]
  rfl

/-! ## Dropping entries by value -/

theorem ids_filter_sublist (p : SessionId × α → Bool) (t : Table α) :
    List.Sublist (ids (t.filter p)) (ids t) := List.filter_sublist.map _

theorem get?_filter (p : SessionId × α → Bool) {t : Table α} (hnd : (ids t).Nodup)
    (key : SessionId) : get? (t.filter p) key = (get? t key).filter fun a => p (key, a) := by
  have hnd' : (ids (t.filter p)).Nodup := hnd.sublist (ids_filter_sublist p t)
  refine Option.ext fun a => ?_
  rw [Option.filter_eq_some_iff, ← mem_iff_get? hnd', ← mem_iff_get? hnd, List.mem_filter]

end EventRelay.Table
