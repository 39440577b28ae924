import Mathlib.Algebra.Order.Monoid.Defs
import Mathlib.Algebra.Order.Monoid.Unbundled.Pow
import Mathlib.Data.List.Sort

/-!
# List scheduling

Items that take given times are run in order on a number of slots; each takes the slot that falls free
first.  The finish times are monotone in the times the items take, so the longest run is the one in which
all take as long as they may; there the items go round by round, a slot each.
-/

set_option autoImplicit false

namespace ListSchedule

variable {τ : Type} [LinearOrder τ]

/-! ## Sorted lists -/

/-- Sorted lists stay in order, place by place, when a larger item goes into the larger one. -/
theorem forall₂_orderedInsert {l l' : List τ} (h : List.Forall₂ (· ≤ ·) l l')
    (hl : l.Pairwise (· ≤ ·)) (hl' : l'.Pairwise (· ≤ ·)) {x x' : τ} (hx : x ≤ x') :
    List.Forall₂ (· ≤ ·) (l.orderedInsert (· ≤ ·) x) (l'.orderedInsert (· ≤ ·) x') := by
  induction h generalizing x x' with
  | nil => exact .cons hx .nil
  | @cons y y' l l' hy h ih =>
      obtain ⟨hfirst, hsorted⟩ := List.pairwise_cons.mp hl
      obtain ⟨hfirst', hsorted'⟩ := List.pairwise_cons.mp hl'
      have ih := fun {x x' : τ} => @ih hsorted hsorted' x x'
      -- the rest of a sorted list, as an insert of its head
      have hhead : l.orderedInsert (· ≤ ·) y = y :: l := by
        cases l with
        | nil => rfl
        | cons z l => exact if_pos (hfirst z List.mem_cons_self)
      have hhead' : l'.orderedInsert (· ≤ ·) y' = y' :: l' := by
        cases l' with
        | nil => rfl
        | cons z l' => exact if_pos (hfirst' z List.mem_cons_self)
      rw [List.orderedInsert_cons, List.orderedInsert_cons]
      by_cases hle : x ≤ y
      · by_cases hle' : x' ≤ y'
        · rw [if_pos hle, if_pos hle']
          exact .cons hx (.cons hy h)
        · rw [if_pos hle, if_neg hle', ← hhead]
          exact .cons (hle.trans hy) (ih (hy.trans (not_le.mp hle').le))
      · by_cases hle' : x' ≤ y'
        · rw [if_neg hle, if_pos hle', ← hhead']
          exact .cons ((not_le.mp hle).le.trans hx) (ih (hx.trans hle'))
        · rw [if_neg hle, if_neg hle']
          exact .cons hy (ih hx)

/-- An item that is no smaller than any goes to the end of a sorted list of two values. -/
theorem orderedInsert_replicate {u x : τ} (hle : u ≤ x) (a b : ℕ) :
    (List.replicate a u ++ List.replicate b x).orderedInsert (· ≤ ·) x =
      List.replicate a u ++ List.replicate (b + 1) x := by
  induction a with
  | zero =>
      cases b with
      | zero => rfl
      | succ b => exact if_pos le_rfl
  | succ a ih =>
      show (u :: (List.replicate a u ++ List.replicate b x)).orderedInsert (· ≤ ·) x = _
      rw [List.orderedInsert_cons]
      split
      · next hxu =>
          rw [le_antisymm hle hxu, ← List.replicate_add, ← List.replicate_succ, ← List.replicate_succ,
            ← List.replicate_add]
          congr 1
          omega
      · rw [ih]
        rfl

theorem le_foldr_max {l : List τ} {x : τ} (hx : x ∈ l) (b : τ) : x ≤ l.foldr max b := by
  induction l with
  | nil => cases hx
  | cons y l ih =>
      rcases List.mem_cons.mp hx with rfl | hx
      · exact le_max_left _ _
      · exact (ih hx).trans (le_max_right _ _)

theorem foldr_max_le {l : List τ} {b c : τ} (hb : b ≤ c) (h : ∀ x ∈ l, x ≤ c) : l.foldr max b ≤ c := by
  induction l with
  | nil => exact hb
  | cons y l ih =>
      exact max_le (h y List.mem_cons_self) (ih fun x hx => h x (List.mem_cons_of_mem y hx))

/-! ## Schedules -/

variable [AddCommMonoid τ]

/-- The finish times of items on slots that fall free at the times `free`, the earliest first. -/
def finishes : List τ → List τ → List τ
  | f :: free, d :: durations =>
      (f + d) :: finishes (free.orderedInsert (· ≤ ·) (f + d)) durations
  | _, _ => []

theorem finishes_nil (free : List τ) : finishes free [] = [] := by
  cases free <;> rfl

/-- The finish times of the items of a loop that starts at time 0. -/
def loopFinishes (slots : ℕ) (durations : List τ) : List τ :=
  finishes (List.replicate slots 0) durations

/-- When a loop ends. -/
def makespan (slots : ℕ) (durations : List τ) : τ :=
  (loopFinishes slots durations).foldr max 0

/-- The number of rounds in which `n` items pass `slots` slots. -/
def rounds (slots n : ℕ) : ℕ := (n + slots - 1) / slots

/-! ## Monotonicity -/

variable [IsOrderedAddMonoid τ]

/-- **Finish times are monotone.** -/
theorem finishes_mono {durations durations' : List τ} (hd : List.Forall₂ (· ≤ ·) durations durations')
    {free free' : List τ} (hf : List.Forall₂ (· ≤ ·) free free') (hsorted : free.Pairwise (· ≤ ·))
    (hsorted' : free'.Pairwise (· ≤ ·)) :
    List.Forall₂ (· ≤ ·) (finishes free durations) (finishes free' durations') := by
  induction hd generalizing free free' with
  | nil => cases hf <;> exact .nil
  | cons hd hds ih =>
      cases hf with
      | nil => exact .nil
      | cons hy hf =>
          have hfinish := add_le_add hy hd
          have hrest := (List.pairwise_cons.mp hsorted).2
          have hrest' := (List.pairwise_cons.mp hsorted').2
          exact .cons hfinish (ih (forall₂_orderedInsert hf hrest hrest' hfinish)
            (hrest.orderedInsert _ _) (hrest'.orderedInsert _ _))

/-! ## Items that all take the same time -/

/-- The free times in the middle of a round: `k` slots have passed it. -/
def midRound (slots q k : ℕ) (duration : τ) : List τ :=
  List.replicate (slots - k) (q • duration) ++ List.replicate k ((q + 1) • duration)

/-- The finish times of equal items, from the middle of a round on. -/
theorem finishes_midRound {slots : ℕ} {duration : τ} (hd : 0 ≤ duration) (n q k : ℕ) (hk : k < slots) :
    finishes (midRound slots q k duration) (List.replicate n duration) =
      (List.range n).map fun i => ((q * slots + k + i) / slots + 1) • duration := by
  induction n generalizing q k with
  | zero => exact finishes_nil _
  | succ n ih =>
      have hslots : 0 < slots := Nat.zero_lt_of_lt hk
      have hle : q • duration ≤ (q + 1) • duration := nsmul_le_nsmul_left hd (Nat.le_succ q)
      have hhead : midRound slots q k duration =
          q • duration :: (List.replicate (slots - (k + 1)) (q • duration) ++
            List.replicate k ((q + 1) • duration)) := by
        rw [midRound, show slots - k = slots - (k + 1) + 1 by omega]
        rfl
      have hnow : (q * slots + k + 0) / slots = q := by
        rw [Nat.add_zero, Nat.mul_comm, Nat.mul_add_div hslots, Nat.div_eq_of_lt hk, Nat.add_zero]
      have hnext : finishes (midRound slots q (k + 1) duration) (List.replicate n duration) =
          (List.range n).map fun i => ((q * slots + k + (i + 1)) / slots + 1) • duration := by
        by_cases hlast : k + 1 = slots
        · -- the round is over
          have hround : midRound slots q (k + 1) duration = midRound slots (q + 1) 0 duration := by
            rw [midRound, midRound, hlast, Nat.sub_self, Nat.sub_zero]
            exact (List.append_nil _).symm
          rw [hround, ih (q + 1) 0 hslots]
          refine List.map_congr_left fun i _ => ?_
          rw [show (q + 1) * slots + 0 + i = q * slots + k + (i + 1) by rw [Nat.succ_mul]; omega]
        · rw [ih q (k + 1) (by omega)]
          refine List.map_congr_left fun i _ => ?_
          rw [show q * slots + (k + 1) + i = q * slots + k + (i + 1) by omega]
      rw [hhead, List.replicate_succ, finishes, ← succ_nsmul, orderedInsert_replicate hle,
        List.range_succ_eq_map, List.map_cons, hnow, List.map_map]
      exact congrArg _ hnext

/-- **Equal items go round by round.** -/
theorem loopFinishes_replicate {slots : ℕ} (hslots : 0 < slots) {duration : τ} (hd : 0 ≤ duration)
    (n : ℕ) : loopFinishes slots (List.replicate n duration) =
      (List.range n).map fun i => (i / slots + 1) • duration := by
  have hstart : midRound slots 0 0 duration = List.replicate slots 0 := by
    rw [midRound, zero_nsmul, Nat.sub_zero]
    exact List.append_nil _
  rw [loopFinishes, ← hstart, finishes_midRound hd n 0 0 hslots]
  refine List.map_congr_left fun i _ => ?_
  rw [Nat.zero_mul, Nat.zero_add]

/-! ## How long a loop takes -/

/-- **Every item of a loop is done within its rounds**, when none takes longer than `duration`. -/
theorem loopFinishes_le {slots : ℕ} (hslots : 0 < slots) {duration : τ} (hd : 0 ≤ duration)
    {durations : List τ} (hle : ∀ d ∈ durations, d ≤ duration) {n : ℕ} (hn : durations.length ≤ n)
    {x : τ} (hx : x ∈ loopFinishes slots durations) : x ≤ rounds slots n • duration := by
  have hmono : List.Forall₂ (· ≤ ·) (loopFinishes slots durations)
      (loopFinishes slots (List.replicate durations.length duration)) := by
    have hequal : List.Forall₂ (· ≤ ·) durations (List.replicate durations.length duration) := by
      clear hn hx
      induction durations with
      | nil => exact .nil
      | cons d durations ih =>
          exact .cons (hle d List.mem_cons_self) (ih fun d hd => hle d (List.mem_cons_of_mem _ hd))
    have hsorted : (List.replicate slots (0 : τ)).Pairwise (· ≤ ·) :=
      List.pairwise_replicate.mpr (.inr le_rfl)
    exact finishes_mono hequal (List.forall₂_refl _) hsorted hsorted
  rw [loopFinishes_replicate hslots hd] at hmono
  -- the item at the same place when all take the same time
  obtain ⟨i, hi, rfl⟩ := List.getElem_of_mem hx
  have hlength := hmono.length_eq
  rw [List.length_map, List.length_range] at hlength
  have hplace : (loopFinishes slots durations)[i] ≤ (i / slots + 1) • duration := by
    simpa using List.Forall₂.get hmono hi (by rw [List.length_map, List.length_range]; omega)
  refine hplace.trans (nsmul_le_nsmul_left hd ?_)
  rw [rounds, Nat.succ_le_iff, Nat.div_lt_iff_lt_mul hslots]
  have hround : n + slots - 1 < (n + slots - 1) / slots * slots + slots := Nat.lt_div_mul_add hslots
  omega

/-- A loop ends within its rounds. -/
theorem makespan_le {slots : ℕ} (hslots : 0 < slots) {duration : τ} (hd : 0 ≤ duration)
    {durations : List τ} (hle : ∀ d ∈ durations, d ≤ duration) {n : ℕ} (hn : durations.length ≤ n) :
    makespan slots durations ≤ rounds slots n • duration :=
  foldr_max_le (nsmul_nonneg hd _) fun _ hx => loopFinishes_le hslots hd hle hn hx

/-- The last of equal items is done when its rounds are over. -/
theorem rounds_mem_loopFinishes {slots : ℕ} (hslots : 0 < slots) {duration : τ} (hd : 0 ≤ duration)
    {n : ℕ} (hn : 0 < n) :
    rounds slots n • duration ∈ loopFinishes slots (List.replicate n duration) := by
  rw [loopFinishes_replicate hslots hd, List.mem_map]
  refine ⟨n - 1, List.mem_range.mpr (by omega), ?_⟩
  have hrounds : rounds slots n = (n - 1) / slots + 1 := by
    rw [rounds, show n + slots - 1 = n - 1 + slots by omega, Nat.add_div_right _ hslots]
  rw [hrounds]

/-- **A loop of equal items takes its rounds.** -/
theorem makespan_replicate {slots : ℕ} (hslots : 0 < slots) {duration : τ} (hd : 0 ≤ duration)
    (n : ℕ) : makespan slots (List.replicate n duration) = rounds slots n • duration := by
  refine le_antisymm (makespan_le hslots hd (fun d h => (List.eq_of_mem_replicate h).le)
    (by rw [List.length_replicate])) ?_
  rcases Nat.eq_zero_or_pos n with rfl | hn
  · rw [rounds, Nat.zero_add, Nat.div_eq_of_lt (by omega), zero_nsmul, List.replicate_zero, makespan,
      loopFinishes, finishes_nil]
    exact le_refl (0 : τ)
  · have hlast := rounds_mem_loopFinishes hslots hd hn
    exact le_foldr_max hlast 0

end ListSchedule
