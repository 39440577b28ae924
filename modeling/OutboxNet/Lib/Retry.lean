import Mathlib.Data.ENat.Lattice

/-!
# Trying again until it succeeds

Tries numbered from 1, made one in each round until one has succeeded or a budget is used up.  How many
have been made after some rounds, and whether one has succeeded, is decided by the number of the first
successful try, which is infinite when there is none.
-/

set_option autoImplicit false

/-- The number of the first successful try. -/
noncomputable def firstSuccess (ok : ℕ → Bool) : ℕ∞ :=
  ⨅ (k : ℕ) (_ : 1 ≤ k ∧ ok k = true), (k : ℕ∞)

theorem firstSuccess_le_iff {ok : ℕ → Bool} {n : ℕ} :
    firstSuccess ok ≤ n ↔ ∃ k, 1 ≤ k ∧ k ≤ n ∧ ok k = true := by
  constructor
  · intro h
    by_contra hnone
    have hlarge : ((n + 1 : ℕ) : ℕ∞) ≤ firstSuccess ok := by
      refine le_iInf₂ fun k hk => Nat.cast_le.mpr ?_
      by_contra hlt
      exact hnone ⟨k, hk.1, by omega, hk.2⟩
    have := Nat.cast_le.mp (hlarge.trans h)
    omega
  · rintro ⟨k, hk, hle, hok⟩
    exact (iInf₂_le k ⟨hk, hok⟩).trans (Nat.cast_le.mpr hle)

/-- The tries made so far, and whether one has succeeded. -/
structure Tries where
  made : ℕ
  succeeded : Bool
deriving DecidableEq, Repr

namespace Tries

variable (ok : ℕ → Bool) (budget : ℕ)

/-- Before the first round. -/
def zero : Tries := ⟨0, false⟩

/-- After one more round. -/
def next (t : Tries) : Tries :=
  if t.succeeded || budget ≤ t.made then t else ⟨t.made + 1, ok (t.made + 1)⟩

/-- After `n` rounds. -/
def after (n : ℕ) : Tries := (next ok budget)^[n] zero

@[simp] theorem after_zero : after ok budget 0 = zero := rfl

theorem after_succ (n : ℕ) : after ok budget (n + 1) = next ok budget (after ok budget n) :=
  Function.iterate_succ_apply' ..

variable {ok budget}

theorem next_of_succeeded {t : Tries} (h : t.succeeded = true) : next ok budget t = t := by
  simp [next, h]

theorem next_of_exhausted {t : Tries} (h : budget ≤ t.made) : next ok budget t = t := by
  simp [next, h]

theorem next_of_try {t : Tries} (h : t.succeeded = false) (hlt : t.made < budget) :
    next ok budget t = ⟨t.made + 1, ok (t.made + 1)⟩ := by
  simp [next, h, Nat.not_le.mpr hlt]

variable (ok budget) in
/-- What holds after `n` rounds: all tries but the last have failed, and without a success one has been
made in each round, up to the budget. -/
theorem after_spec (n : ℕ) :
    (∀ k, 1 ≤ k → k ≤ (after ok budget n).made → ok k = true →
      k = (after ok budget n).made ∧ (after ok budget n).succeeded = true) ∧
    ((after ok budget n).succeeded = true →
      1 ≤ (after ok budget n).made ∧ ok (after ok budget n).made = true) ∧
    (after ok budget n).made ≤ min n budget ∧
    ((after ok budget n).succeeded = false → (after ok budget n).made = min n budget) := by
  induction n with
  | zero => simp [zero]; omega
  | succ n ih =>
      rw [after_succ]
      generalize after ok budget n = t at ih
      obtain ⟨hfailed, hlast, hle, hfull⟩ := ih
      -- a try is made only if none has succeeded and the budget is not used up
      cases hs : t.succeeded with
      | true =>
          rw [next_of_succeeded hs]
          refine ⟨hfailed, hlast, by omega, fun h => ?_⟩
          rw [hs] at h
          cases h
      | false =>
          by_cases hlt : t.made < budget
          · rw [next_of_try hs hlt]
            have hmade := hfull hs
            refine ⟨fun k hk hle' hok => ?_, fun hok => ⟨by simp, hok⟩, by simp only; omega,
              fun _ => by simp only; omega⟩
            by_cases heq : k = t.made + 1
            · subst heq
              exact ⟨rfl, hok⟩
            · have := (hfailed k hk (by simp only at hle'; omega) hok).2
              rw [hs] at this
              cases this
          · rw [next_of_exhausted (not_lt.mp hlt)]
            exact ⟨hfailed, hlast, by omega, fun _ => by have := hfull hs; omega⟩

/-- Whether a try has succeeded after `n` rounds. -/
theorem after_succeeded {n : ℕ} :
    (after ok budget n).succeeded = true ↔ firstSuccess ok ≤ (min n budget : ℕ) := by
  obtain ⟨hfailed, hlast, hle, hfull⟩ := after_spec ok budget n
  rw [firstSuccess_le_iff]
  constructor
  · intro h
    exact ⟨_, (hlast h).1, hle, (hlast h).2⟩
  · rintro ⟨k, hk, hle', hok⟩
    by_contra hs
    have hs : (after ok budget n).succeeded = false := by simpa using hs
    rw [← hfull hs] at hle'
    rw [(hfailed k hk hle' hok).2] at hs
    cases hs

/-- How many tries have been made after `n` rounds. -/
theorem after_made (n : ℕ) :
    ((after ok budget n).made : ℕ∞) = min (firstSuccess ok) (min n budget : ℕ) := by
  obtain ⟨hfailed, hlast, hle, hfull⟩ := after_spec ok budget n
  cases hs : (after ok budget n).succeeded with
  | true =>
      rw [min_eq_left (after_succeeded.mp hs)]
      refine le_antisymm ?_ (firstSuccess_le_iff.mpr ⟨_, (hlast hs).1, le_rfl, (hlast hs).2⟩)
      -- an earlier success would have been the last try
      refine le_iInf₂ fun k hk => Nat.cast_le.mpr ?_
      by_contra hlt
      have := (hfailed k hk.1 (by omega) hk.2).1
      omega
  | false =>
      have hlarge : ((min n budget : ℕ) : ℕ∞) ≤ firstSuccess ok := by
        by_contra hlt
        rw [after_succeeded.mpr (not_le.mp hlt).le] at hs
        cases hs
      rw [min_eq_right hlarge, hfull hs]

/-- The tries that are final, since one has succeeded or the bound `b` is reached: as many as it takes
within the bound. -/
theorem after_final {n b : ℕ} (hle : min n budget ≤ b)
    (h : (after ok budget n).succeeded = true ∨ min n budget = b) :
    ((after ok budget n).made : ℕ∞) = min (firstSuccess ok) b ∧
      ((after ok budget n).succeeded = true ↔ firstSuccess ok ≤ b) := by
  rw [after_made, after_succeeded]
  rcases h with hs | rfl
  · have hfirst := after_succeeded.mp hs
    have hbound : firstSuccess ok ≤ b := hfirst.trans (Nat.cast_le.mpr hle)
    rw [min_eq_left hfirst, min_eq_left hbound]
    exact ⟨rfl, iff_of_true hfirst hbound⟩
  · exact ⟨rfl, Iff.rfl⟩

end Tries
