import Mathlib.Data.Finset.Card
import Mathlib.Data.List.Range

/-!
# Seen for the first time

`List.eraseDups` keeps of a list what is seen for the first time.  A list of numbers is *progressive* when
0, 1, 2, … are seen for the first time in this order.  It stays so when a number is appended that was seen
before or is the next one; how many were seen bounds what may be appended.
-/

set_option autoImplicit false

namespace FirstSeen

variable {α β : Type} [DecidableEq α] [DecidableEq β]

theorem eraseDups_concat (l : List α) (a : α) :
    (l ++ [a]).eraseDups = if a ∈ l then l.eraseDups else l.eraseDups ++ [a] := by
  rw [List.eraseDups_append]
  by_cases ha : a ∈ l
  · simp [List.removeAll, ha]
  · simp [List.removeAll, ha, List.eraseDups_cons]

/-- Renaming does not change what is seen for the first time, if it keeps things apart. -/
theorem eraseDups_map {f : α → β} {l : List α} (hf : Set.InjOn f {a | a ∈ l}) :
    (l.map f).eraseDups = l.eraseDups.map f := by
  induction l using List.reverseRecOn with
  | nil => rfl
  | append_singleton l a ih =>
      have hinit : Set.InjOn f {a | a ∈ l} := hf.mono fun b hb => List.mem_append_left _ hb
      have hmem : f a ∈ l.map f ↔ a ∈ l := by
        constructor
        · intro h
          obtain ⟨b, hb, heq⟩ := List.mem_map.mp h
          have hab := hf (List.mem_append_left _ hb) (List.mem_append_right _ List.mem_cons_self) heq
          exact hab ▸ hb
        · exact List.mem_map_of_mem
      rw [List.map_append, List.map_singleton, eraseDups_concat, eraseDups_concat, ih hinit]
      by_cases ha : a ∈ l
      · rw [if_pos ha, if_pos (hmem.mpr ha)]
      · rw [if_neg ha, if_neg (hmem.not.mpr ha), List.map_append, List.map_singleton]

/-- Different elements of a list are no more than those seen for the first time. -/
theorem length_le {l l' : List α} (hnodup : l'.Nodup) (hsubset : ∀ a ∈ l', a ∈ l) :
    l'.length ≤ l.eraseDups.length := by
  calc
    l'.length = l'.toFinset.card := (List.toFinset_card_of_nodup hnodup).symm
    _ ≤ l.eraseDups.toFinset.card := by
      apply Finset.card_le_card
      intro a ha
      exact List.mem_toFinset.mpr (List.mem_eraseDups.mpr (hsubset a (List.mem_toFinset.mp ha)))
    _ ≤ l.eraseDups.length := List.toFinset_card_le _

/-- The first numbers are seen in their order. -/
def Progressive (l : List ℕ) : Prop := l.eraseDups = List.range l.eraseDups.length

namespace Progressive

variable {l : List ℕ}

theorem nil : Progressive [] := rfl

theorem mem_iff (h : Progressive l) {i : ℕ} : i ∈ l ↔ i < l.eraseDups.length := by
  rw [← List.mem_eraseDups, h, List.mem_range, List.length_range]

/-- The next number, if it is not one from before. -/
theorem concat (h : Progressive l) {i : ℕ} (hi : i ≤ l.eraseDups.length) : Progressive (l ++ [i]) := by
  unfold Progressive
  rw [eraseDups_concat]
  by_cases hmem : i ∈ l
  · rw [if_pos hmem]
    exact h
  · have hnext : i = l.eraseDups.length := by
      rw [h.mem_iff] at hmem
      omega
    rw [if_neg hmem, List.length_append, List.length_singleton, List.range_succ, ← h, hnext]

/-- If all numbers are below a bound, so is how many are seen. -/
theorem length_le_of_lt (h : Progressive l) {n : ℕ} (hn : ∀ i ∈ l, i < n) : l.eraseDups.length ≤ n := by
  by_contra hlt
  exact absurd (hn n (h.mem_iff.mpr (not_le.mp hlt))) (lt_irrefl n)

end Progressive

theorem length_le_concat (l : List α) (a : α) : l.eraseDups.length ≤ (l ++ [a]).eraseDups.length := by
  rw [eraseDups_concat]
  split
  · exact le_refl _
  · rw [List.length_append]
    exact Nat.le_add_right _ _

end FirstSeen
