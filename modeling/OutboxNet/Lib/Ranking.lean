import Mathlib.Data.List.Sort

/-!
# The first elements of a sorted list

A list is sorted by a key, elements with equal keys keeping their order.  An element is among the first
`n` of the result exactly when fewer than `n` elements come *ahead* of it: those with a smaller key, and
those with the same key that stand before it.
-/

set_option autoImplicit false

namespace Ranking

variable {α : Type} {l : List α} {a b : α}

/-- Two elements stand one way or the other. -/
theorem pair_sublist_total (ha : a ∈ l) (hb : b ∈ l) (hne : a ≠ b) :
    [a, b].Sublist l ∨ [b, a].Sublist l := by
  obtain ⟨p, q, rfl⟩ := List.append_of_mem ha
  rcases List.mem_append.mp hb with hb | hb
  · right
    exact (List.singleton_sublist.mpr hb).append (List.singleton_sublist.mpr List.mem_cons_self)
  · left
    have hq : b ∈ q := (List.mem_cons.mp hb).resolve_left hne.symm
    exact ((List.singleton_sublist.mpr hq).cons_cons a).trans (List.sublist_append_right p (a :: q))

/-- In a list without repetitions, not both ways. -/
theorem pair_sublist_asymm (hnodup : l.Nodup) (hab : [a, b].Sublist l) : ¬ [b, a].Sublist l := by
  induction l with
  | nil => exact fun _ => nomatch hab
  | cons c l ih =>
      intro hba
      have hc : c ∉ l := (List.nodup_cons.mp hnodup).1
      cases hab with
      | cons _ hab =>
          cases hba with
          | cons _ hba => exact ih (List.nodup_cons.mp hnodup).2 hab hba
          | cons_cons _ hba => exact hc (hab.subset (List.mem_cons_of_mem _ List.mem_cons_self))
      | cons_cons _ hab =>
          cases hba with
          | cons _ hba => exact hc (hba.subset (List.mem_cons_of_mem _ List.mem_cons_self))
          | cons_cons _ hba => exact hc (hba.subset List.mem_cons_self)

variable {κ : Type} [LinearOrder κ] {key : α → κ}

/-- `a` comes ahead of `b` when `l` is sorted. -/
def Ahead (key : α → κ) (l : List α) (a b : α) : Prop :=
  key a < key b ∨ key a = key b ∧ [a, b].Sublist l

/-- **Being ahead is standing before in the sorted list.** -/
theorem ahead_iff (hnodup : l.Nodup) (ha : a ∈ l) (hb : b ∈ l) :
    Ahead key l a b ↔ [a, b].Sublist (l.insertionSort fun a b : α => key a ≤ key b) := by
  have hsorted := List.pairwise_insertionSort (fun a b : α => key a ≤ key b) l
  have hnodup' : (l.insertionSort fun a b : α => key a ≤ key b).Nodup :=
    (List.perm_insertionSort _ l).nodup_iff.mpr hnodup
  have hmem : a ∈ l.insertionSort (fun a b : α => key a ≤ key b) ∧
      b ∈ l.insertionSort fun a b : α => key a ≤ key b :=
    ⟨(List.mem_insertionSort _).mpr ha, (List.mem_insertionSort _).mpr hb⟩
  have hstays : ∀ {a b : α}, key a ≤ key b → [a, b].Sublist l →
      [a, b].Sublist (l.insertionSort fun a b : α => key a ≤ key b) := fun hle h =>
    List.pair_sublist_insertionSort hle h
  constructor
  · rintro (hlt | ⟨heq, hsub⟩)
    · have hne : a ≠ b := fun h => absurd hlt (by rw [h]; exact lt_irrefl _)
      rcases pair_sublist_total hmem.1 hmem.2 hne with h | h
      · exact h
      · exact absurd (hsorted.forall_sublist h) (not_le.mpr hlt)
    · exact hstays heq.le hsub
  · intro h
    have hne : a ≠ b := hnodup'.forall_sublist h
    rcases lt_or_eq_of_le (hsorted.forall_sublist h) with hlt | heq
    · exact .inl hlt
    · refine .inr ⟨heq, (pair_sublist_total ha hb hne).resolve_right fun hba => ?_⟩
      exact pair_sublist_asymm hnodup' h (hstays heq.ge hba)

section Rank

variable [DecidableEq α]

instance (l : List α) (a b : α) : Decidable (Ahead key l a b) := by
  unfold Ahead
  infer_instance

/-- The number of elements ahead of `b`. -/
def rank (key : α → κ) (l : List α) (b : α) : ℕ := l.countP fun a => decide (Ahead key l a b)

/-- **Who is among the first `n`.** -/
theorem mem_take_insertionSort (hnodup : l.Nodup) (hb : b ∈ l) {n : ℕ} :
    b ∈ (l.insertionSort fun a b : α => key a ≤ key b).take n ↔ rank key l b < n := by
  have hperm := List.perm_insertionSort (fun a b : α => key a ≤ key b) l
  have hmem : b ∈ l.insertionSort fun a b : α => key a ≤ key b := (List.mem_insertionSort _).mpr hb
  -- the sorted list falls into what stands before `b` and what stands after it
  obtain ⟨p, q, hsplit⟩ := List.append_of_mem hmem
  have hnodup' : (p ++ b :: q).Nodup := by
    rw [← hsplit]
    exact hperm.nodup_iff.mpr hnodup
  have hin : ∀ a ∈ p ++ b :: q, a ∈ l := fun a ha => by
    rw [← hsplit] at ha
    exact (List.mem_insertionSort _).mp ha
  have hahead : ∀ a ∈ p ++ b :: q, Ahead key l a b ↔ [a, b].Sublist (p ++ b :: q) := fun a ha => by
    rw [ahead_iff hnodup (hin a ha) hb, hsplit]
  have hbefore : ∀ a ∈ p, Ahead key l a b := fun a ha =>
    (hahead a (List.mem_append_left _ ha)).mpr
      ((List.singleton_sublist.mpr ha).append (List.singleton_sublist.mpr List.mem_cons_self))
  have hafter : ∀ a ∈ b :: q, ¬ Ahead key l a b := by
    intro a ha h
    have hab := (hahead a (List.mem_append_right _ ha)).mp h
    have hne : a ≠ b := hnodup'.forall_sublist hab
    have hq : a ∈ q := (List.mem_cons.mp ha).resolve_left hne
    exact pair_sublist_asymm hnodup' hab (((List.singleton_sublist.mpr hq).cons_cons b).trans
      (List.sublist_append_right p (b :: q)))
  have hrank : rank key l b = p.length := by
    calc rank key l b
        = (p ++ b :: q).countP fun a => decide (Ahead key l a b) := by
          rw [← hsplit]
          exact (hperm.countP_eq _).symm
      _ = p.length + 0 := by
          rw [List.countP_append, List.countP_eq_length.mpr fun a ha => decide_eq_true (hbefore a ha),
            List.countP_eq_zero.mpr fun a ha h => hafter a ha (of_decide_eq_true h)]
  have hnot : b ∉ p := by
    intro hp
    exact hafter b List.mem_cons_self (hbefore b hp)
  rw [hsplit] at hmem ⊢
  rw [List.mem_take_iff_idxOf_lt hmem, List.idxOf_append_of_notMem hnot, List.idxOf_cons_self, hrank]
  omega

end Rank

end Ranking
