import Mathlib.Data.List.Infix

/-!
# A queue that is pushed and popped

Values are pushed at the end and popped from the front; a pop of the empty queue does nothing.  What is left
are the last values that were pushed, and how many they are can be told without running the queue: at least
`n` are left exactly when some tail of the operations has `n` more pushes than pops.
-/

set_option autoImplicit false

namespace PushPop

/-- An operation on a queue, or on something else. -/
inductive Op (α : Type) : Type
  | push (a : α)
  | pop
  | skip
deriving DecidableEq, Repr

variable {α : Type}

namespace Op

def apply (queue : List α) : Op α → List α
  | .push a => queue ++ [a]
  | .pop => queue.tail
  | .skip => queue

/-- The value an operation pushes. -/
def pushed? : Op α → Option α
  | .push a => some a
  | _ => none

def isPop : Op α → Bool
  | .pop => true
  | _ => false

end Op

/-- The queue after some operations. -/
def run (ops : List (Op α)) : List α := ops.foldl Op.apply []

/-- The values that are pushed. -/
def pushed (ops : List (Op α)) : List α := ops.filterMap Op.pushed?

@[simp] theorem run_concat (ops : List (Op α)) (op : Op α) : run (ops ++ [op]) = op.apply (run ops) := by
  simp [run]

@[simp] theorem pushed_concat (ops : List (Op α)) (op : Op α) :
    pushed (ops ++ [op]) = pushed ops ++ op.pushed?.toList := by
  cases op <;> simp [pushed, Op.pushed?]

/-- **What is left was pushed last.** -/
theorem run_suffix (ops : List (Op α)) : run ops <:+ pushed ops := by
  induction ops using List.reverseRecOn with
  | nil => exact List.suffix_rfl
  | append_singleton ops op ih =>
      rw [run_concat, pushed_concat]
      cases op with
      | push a =>
          obtain ⟨before, hbefore⟩ := ih
          refine ⟨before, ?_⟩
          show before ++ (run ops ++ [a]) = pushed ops ++ [a]
          rw [← List.append_assoc, hbefore]
      | pop =>
          show (run ops).tail <:+ pushed ops ++ []
          rw [List.append_nil]
          exact (List.tail_suffix _).trans ih
      | skip =>
          show run ops <:+ pushed ops ++ []
          rw [List.append_nil]
          exact ih

/-- Some tail of the operations has `n` more pushes than pops. -/
def Surplus (n : ℕ) (ops : List (Op α)) : Prop :=
  ∃ after, after <:+ ops ∧ n + after.countP Op.isPop ≤ (pushed after).length

theorem surplus_zero (ops : List (Op α)) : Surplus 0 ops := ⟨[], List.nil_suffix, le_rfl⟩

/-- A tail of the operations is empty, or ends in the last one. -/
theorem surplus_concat {n : ℕ} {ops : List (Op α)} {op : Op α} : Surplus n (ops ++ [op]) ↔
    n = 0 ∨ ∃ after, after <:+ ops ∧ n + after.countP Op.isPop + (if op.isPop then 1 else 0) ≤
      (pushed after).length + op.pushed?.toList.length := by
  unfold Surplus
  constructor
  · rintro ⟨after, hafter, hle⟩
    rcases List.suffix_concat_iff.mp hafter with rfl | ⟨front, rfl, hfront⟩
    · left
      simpa [pushed] using hle
    · right
      refine ⟨front, hfront, ?_⟩
      rw [List.countP_append, List.countP_singleton, pushed_concat, List.length_append] at hle
      omega
  · rintro (rfl | ⟨after, hafter, hle⟩)
    · exact surplus_zero _
    · refine ⟨after ++ [op], List.suffix_concat_iff.mpr (.inr ⟨after, rfl, hafter⟩), ?_⟩
      rw [List.countP_append, List.countP_singleton, pushed_concat, List.length_append]
      omega

/-- **How many are left.** -/
theorem le_length_run_iff {n : ℕ} {ops : List (Op α)} : n ≤ (run ops).length ↔ Surplus n ops := by
  induction ops using List.reverseRecOn generalizing n with
  | nil =>
      constructor
      · intro hle
        obtain rfl : n = 0 := Nat.le_zero.mp hle
        exact surplus_zero []
      · rintro ⟨after, hafter, hle⟩
        rw [List.suffix_nil.mp hafter] at hle
        exact (Nat.le_add_right _ _).trans hle
  | append_singleton ops op ih =>
      rw [surplus_concat, run_concat]
      cases op with
      | push a =>
          show n ≤ (run ops ++ [a]).length ↔ _
          rw [List.length_append]
          cases n with
          | zero => simp
          | succ n =>
              have hlen : n + 1 ≤ (run ops).length + [a].length ↔ n ≤ (run ops).length :=
                Nat.add_le_add_iff_right
              rw [hlen, ih]
              simp only [Surplus, Op.isPop, Op.pushed?, Option.toList_some, List.length_singleton]
              constructor
              · rintro ⟨after, hafter, hle⟩
                exact .inr ⟨after, hafter, by simp; omega⟩
              · rintro (hzero | ⟨after, hafter, hle⟩)
                · omega
                · exact ⟨after, hafter, by simp at hle; omega⟩
      | pop =>
          show n ≤ (run ops).tail.length ↔ _
          rw [List.length_tail]
          cases n with
          | zero => simp
          | succ n =>
              have hlen : n + 1 ≤ (run ops).length - 1 ↔ n + 1 + 1 ≤ (run ops).length := by omega
              rw [hlen, ih]
              simp only [Surplus, Op.isPop, Op.pushed?, Option.toList_none, List.length_nil]
              constructor
              · rintro ⟨after, hafter, hle⟩
                exact .inr ⟨after, hafter, by simp; omega⟩
              · rintro (hzero | ⟨after, hafter, hle⟩)
                · omega
                · exact ⟨after, hafter, by simp at hle; omega⟩
      | skip =>
          show n ≤ (run ops).length ↔ _
          rw [ih]
          cases n with
          | zero => simp [surplus_zero]
          | succ n => simp [Surplus, Op.isPop, Op.pushed?]

/-- The last value left. -/
theorem getLast?_run {ops : List (Op α)} {a : α} :
    (run ops).getLast? = some a ↔ (pushed ops).getLast? = some a ∧ Surplus 1 ops := by
  obtain ⟨before, hbefore⟩ := run_suffix ops
  rw [← le_length_run_iff, ← hbefore, List.getLast?_append]
  cases hrun : run ops with
  | nil => simp
  | cons b queue => simp

end PushPop
