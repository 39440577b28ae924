import Mathlib.Algebra.Group.Nat.Defs
import OutboxNet.Core.Options
import OutboxNet.Lib.Table

/-!
# What the database and the driver do with values

Both database providers send statements to SQL Server.  What a statement does depends on a few things
that are not in the repository: the collation of the database, how a client-side time is fitted into a
`datetimeoffset(3)` column, and what `(int)timeout.TotalSeconds` gives for a time-out of many years.
They are the fields of a `Deployment`, with what is documented about them.
-/

set_option autoImplicit false

namespace OutboxNet

/-- The two database providers. -/
inductive Provider : Type
  | directSql | efCore
deriving DecidableEq, Repr

/-- An instant rounded to milliseconds, as the server stores it in a `datetimeoffset(3)` column. -/
def round3 (t : DateTimeOffset) : DateTimeOffset := (t + 5000) / 10000 * 10000

/-- An instant cut to milliseconds. -/
def trunc3 (t : DateTimeOffset) : DateTimeOffset := t / 10000 * 10000

structure Deployment where
  provider : Provider
  /-- The sort key of a string: the database takes two strings for equal when they have the same. -/
  collation : Text → Text
  /-- What is stored for an instant sent by the client: the driver cuts it or the server rounds it. -/
  clientTime : DateTimeOffset → DateTimeOffset
  clientTime_spec : ∀ t, clientTime t = round3 t ∨ clientTime t = trunc3 t
  /-- `(int)timeout.TotalSeconds`.  The conversion goes through a `double`; it is the whole number of
  seconds for durations of up to seventeen years, and some 32-bit number beyond. -/
  castSeconds : TimeSpan → ℤ
  castSeconds_spec : ∀ t, t.natAbs < 2 ^ 29 * 10000000 → castSeconds t = t.tdiv ticksPerSecond
  castSeconds_range : ∀ t, -int32Max - 1 ≤ castSeconds t ∧ castSeconds t ≤ int32Max

namespace Deployment

variable (dep : Deployment)

/-- `a = b` in the database, for two strings. -/
def sameText (a b : Text) : Bool := dep.collation a = dep.collation b

/-- `a = b OR (a IS NULL AND b IS NULL)`. -/
def sameKey : Option Text → Option Text → Bool
  | some a, some b => dep.sameText a b
  | none, none => true
  | _, _ => false

@[simp] theorem sameText_self (a : Text) : dep.sameText a a = true := by
  simp [sameText]

/-- A deployment with a binary collation, rounding on the server, and a saturating conversion. -/
def binary (provider : Provider) : Deployment where
  provider := provider
  collation := id
  clientTime := round3
  clientTime_spec _ := .inl rfl
  castSeconds t := max (-int32Max - 1) (min int32Max (t.tdiv ticksPerSecond))
  castSeconds_spec t ht := by
    have h : (t.tdiv ticksPerSecond).natAbs < 2 ^ 29 := by
      rw [Int.natAbs_tdiv]
      exact Nat.div_lt_of_lt_mul (by rw [Nat.mul_comm]; exact ht)
    simp only [int32Max]
    omega
  castSeconds_range t := by
    simp only [int32Max]
    omega

theorem sameText_iff {a b : Text} : dep.sameText a b = true ↔ dep.collation a = dep.collation b := by
  simp [sameText]

end Deployment

/-- What a parameter of type `nvarchar(n)` with an explicit size sends. -/
def nvarchar (n : ℕ) (s : Text) : Text := s.take n

/-- `DATEADD(SECOND, n, t)`; an instant out of range is an error. -/
def dateAddSeconds (n : ℤ) (t : DateTimeOffset) : Option DateTimeOffset :=
  let t' := t + n * ticksPerSecond
  if 0 ≤ t' ∧ t' ≤ maxTicks then some t' else none

end OutboxNet
