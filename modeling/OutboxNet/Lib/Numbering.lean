import Mathlib.Data.Finset.Sort
import Mathlib.Order.Interval.Finset.Nat

/-!
# Consecutive numbers

A list of numbers is *numbered* when its elements are the numbers from 1 to its length, each once, in
any order.  Counting the elements then gives the number that comes next.  Numbering survives an append
of the next number, and the removal of a tail: whenever a number goes, the larger ones go with it.
-/

set_option autoImplicit false

/-- The elements are 1, …, length. -/
def Numbered (l : List ℕ) : Prop := l.Perm (List.range' 1 l.length)

namespace Numbered

variable {l : List ℕ}

theorem nil : Numbered [] := List.Perm.refl _

theorem mem_iff (h : Numbered l) {i : ℕ} : i ∈ l ↔ 1 ≤ i ∧ i ≤ l.length := by
  rw [List.Perm.mem_iff h, List.mem_range'_1]
  omega

theorem nodup (h : Numbered l) : l.Nodup := (List.Perm.nodup_iff h).mpr List.nodup_range'

/-- The next number is not in use. -/
theorem next_not_mem (h : Numbered l) : l.length + 1 ∉ l := by
  rw [h.mem_iff]
  omega

/-- One more, with the next number. -/
theorem concat (h : Numbered l) : Numbered (l ++ [l.length + 1]) := by
  have hrange : List.range' 1 (l.length + 1) = List.range' 1 l.length ++ [l.length + 1] := by
    rw [List.range'_1_concat, Nat.add_comm 1 l.length]
  rw [Numbered, List.length_append, List.length_singleton, hrange]
  exact List.Perm.append_right _ h

/-- A list without repetitions that contains, with a number, the smaller ones. -/
theorem of_downward (hnodup : l.Nodup) (hpos : ∀ i ∈ l, 1 ≤ i)
    (hdown : ∀ i ∈ l, ∀ j, 1 ≤ j → j < i → j ∈ l) : Numbered l := by
  -- the largest number is the length
  have hset : l.toFinset = Finset.Icc 1 (l.toFinset.sup id) := by
    ext i
    rw [List.mem_toFinset, Finset.mem_Icc]
    constructor
    · intro hi
      exact ⟨hpos i hi, Finset.le_sup (f := id) (List.mem_toFinset.mpr hi)⟩
    · rintro ⟨hge, hle⟩
      have hne : l.toFinset.Nonempty := by
        rw [Finset.nonempty_iff_ne_empty]
        intro hempty
        rw [hempty, Finset.sup_empty] at hle
        exact absurd (hge.trans hle) (by simp)
      obtain ⟨m, hm, hmax⟩ := Finset.exists_mem_eq_sup _ hne id
      rw [hmax] at hle
      rw [List.mem_toFinset] at hm
      rcases Nat.lt_or_eq_of_le hle with hlt | heq
      · exact hdown m hm i hge hlt
      · rw [heq]
        exact hm
  have hlength : l.length = l.toFinset.sup id := by
    rw [← List.toFinset_card_of_nodup hnodup]
    conv_lhs => rw [hset]
    simp
  refine (List.perm_ext_iff_of_nodup hnodup List.nodup_range').mpr fun i => ?_
  rw [← List.mem_toFinset, hset, Finset.mem_Icc, List.mem_range'_1, hlength]
  omega

/-- What is left when, with an element, those with larger numbers go too. -/
theorem filter {α : Type} {xs : List α} {f : α → ℕ} (h : Numbered (xs.map f)) {keep : α → Bool}
    (hkeep : ∀ a ∈ xs, ∀ b ∈ xs, f a < f b → keep b = true → keep a = true) :
    Numbered ((xs.filter keep).map f) := by
  refine of_downward (h.nodup.sublist (List.filter_sublist.map f)) ?_ ?_
  · intro i hi
    obtain ⟨a, ha, rfl⟩ := List.mem_map.mp hi
    exact (h.mem_iff.mp (List.mem_map_of_mem (List.mem_filter.mp ha).1)).1
  · intro i hi j hge hlt
    obtain ⟨b, hb, rfl⟩ := List.mem_map.mp hi
    obtain ⟨hbmem, hbkeep⟩ := List.mem_filter.mp hb
    have hle := (h.mem_iff.mp (List.mem_map_of_mem hbmem)).2
    obtain ⟨a, ha, rfl⟩ := List.mem_map.mp (h.mem_iff.mpr ⟨hge, hlt.le.trans hle⟩)
    exact List.mem_map_of_mem (List.mem_filter.mpr ⟨ha, hkeep a ha b hbmem hlt hbkeep⟩)

end Numbered
