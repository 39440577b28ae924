import Mathlib.Data.List.Infix

/-!
# A queue that drops its oldest element

A queue of bounded capacity.  An element is written at its end, and when the queue is full its first
element goes; elements are taken from its front.

`Relays` says what has become of all elements written so far.  Those taken and those in the queue come in
the order in which they were written, and the last `capacity` of all are among them: what was dropped is
older than that.
-/

set_option autoImplicit false

namespace DropOldest

variable {α : Type}

/-- The queue after a write. -/
def write (capacity : ℕ) (queue : List α) (x : α) : List α :=
  if queue.length < capacity then queue ++ [x] else queue.tail ++ [x]

theorem mem_write {capacity : ℕ} {queue : List α} {x : α} : x ∈ write capacity queue x := by
  unfold write
  split <;> exact List.mem_append_right _ List.mem_cons_self

/-- What has been written, what was taken, and what is in the queue. -/
structure Relays (capacity : ℕ) (written taken queue : List α) : Prop where
  ordered : (taken ++ queue).Sublist written
  newest : queue <:+ written
  length_le : queue.length ≤ capacity
  latest : ∀ x ∈ written.drop (written.length - capacity), x ∈ taken ∨ x ∈ queue
  all : written.length ≤ capacity → taken ++ queue = written

/-- The last elements after one more. -/
theorem mem_latest_concat {l : List α} {x y : α} {n : ℕ}
    (h : y ∈ (l ++ [x]).drop ((l ++ [x]).length - n)) : y ∈ l.drop (l.length - n) ∨ y = x := by
  rw [List.length_append, List.length_singleton, List.drop_append] at h
  rcases List.mem_append.mp h with h | h
  · exact .inl (List.drop_subset_drop_left l (by omega) h)
  · exact .inr (List.mem_singleton.mp (List.mem_of_mem_drop h))

namespace Relays

variable {capacity : ℕ} {written taken queue : List α} {x : α}

theorem nil : Relays capacity ([] : List α) [] [] where
  ordered := .slnil
  newest := List.suffix_rfl
  length_le := Nat.zero_le _
  latest := by simp
  all := fun _ => rfl

/-- An element goes to the end of a queue that is not full. -/
theorem append (h : Relays capacity written taken queue) (hlt : queue.length < capacity) :
    Relays capacity (written ++ [x]) taken (queue ++ [x]) where
  ordered := by
    rw [← List.append_assoc]
    exact h.ordered.append (List.Sublist.refl _)
  newest := by
    obtain ⟨front, rfl⟩ := h.newest
    exact ⟨front, (List.append_assoc _ _ _).symm⟩
  length_le := by
    rw [List.length_append, List.length_singleton]
    omega
  latest := by
    intro y hy
    rcases mem_latest_concat hy with hy | rfl
    · exact (h.latest y hy).imp_right (List.mem_append_left _)
    · exact .inr (List.mem_append_right _ List.mem_cons_self)
  all := by
    intro hle
    rw [List.length_append, List.length_singleton] at hle
    rw [← List.append_assoc, h.all (by omega)]

/-- The first element of a full queue goes. -/
theorem drop {first : α} (h : Relays capacity written taken (first :: queue))
    (hfull : (first :: queue).length = capacity) :
    Relays capacity (written ++ [x]) taken (queue ++ [x]) where
  ordered := by
    rw [← List.append_assoc]
    refine List.Sublist.append ?_ (List.Sublist.refl _)
    exact ((List.Sublist.refl _).append (List.sublist_cons_self _ _)).trans h.ordered
  newest := by
    obtain ⟨front, rfl⟩ := h.newest
    exact ⟨front ++ [first], by simp⟩
  length_le := by
    rw [List.length_append, List.length_singleton]
    exact hfull.le
  latest := by
    obtain ⟨front, rfl⟩ := h.newest
    -- the queue has the last elements, and the first of them is no longer one
    have hlast : (front ++ first :: queue ++ [x]).drop
        ((front ++ first :: queue ++ [x]).length - capacity) = queue ++ [x] := by
      have hlength : (front ++ first :: queue ++ [x]).length - capacity = (front ++ [first]).length := by
        simp only [List.length_append, List.length_cons, List.length_nil] at hfull ⊢
        omega
      have hsplit : front ++ first :: queue ++ [x] = (front ++ [first]) ++ (queue ++ [x]) := by simp
      rw [hlength, hsplit, List.drop_left]
    rw [hlast]
    exact fun y hy => .inr hy
  all := by
    intro hle
    have hlength := h.newest.length_le
    rw [List.length_append, List.length_singleton] at hle
    omega

/-- **A write.** -/
theorem write (h : Relays capacity written taken queue) (hcapacity : 0 < capacity) :
    Relays capacity (written ++ [x]) taken (DropOldest.write capacity queue x) := by
  unfold DropOldest.write
  split
  · next hlt => exact h.append hlt
  · next hfull =>
      have hlength := h.length_le
      cases queue with
      | nil => exact absurd hcapacity hfull
      | cons first queue => exact h.drop (by omega)

/-- An element is taken. -/
theorem take (h : Relays capacity written taken (x :: queue)) :
    Relays capacity written (taken ++ [x]) queue where
  ordered := by
    rw [List.append_assoc]
    exact h.ordered
  newest := (List.suffix_cons x queue).trans h.newest
  length_le := (Nat.le_succ _).trans h.length_le
  latest := by
    intro y hy
    rcases h.latest y hy with hy | hy
    · exact .inl (List.mem_append_left _ hy)
    · rcases List.mem_cons.mp hy with rfl | hy
      · exact .inl (List.mem_append_right _ List.mem_cons_self)
      · exact .inr hy
  all := by
    intro hle
    rw [List.append_assoc]
    exact h.all hle

end Relays

end DropOldest
