import Mathlib.Algebra.Order.Field.Rat
import Mathlib.Data.Rat.Floor
import OutboxNet.Core.Options

/-!
# Retry policies

`ExponentialBackoffRetryPolicy` over exact rationals: the rounding of the `double` arithmetic of the source
is not modelled, its conversions back to ticks and their overflow checks are.  `doublePolicy` throws besides
where a product of doubles is not a number.
-/

set_option autoImplicit false

namespace OutboxNet

/-- `IRetryPolicy.GetNextDelay`: the delay before the next attempt, or none when there is to be no
further one.  The second argument is the random number in [0, 1) the policy may draw. -/
structure RetryPolicy where
  getNextDelay : ℤ → ℚ → Except Exn (Option TimeSpan)

/-- A policy that grants as many retries as its limit: there is no delay from the limit on, and before it
there is one, or the policy throws. -/
structure RetryPolicy.Limits (policy : RetryPolicy) (limit : ℤ) : Prop where
  none_of_le : ∀ retryCount draw, limit ≤ retryCount → policy.getNextDelay retryCount draw = .ok none
  ne_none_of_lt : ∀ retryCount draw, retryCount < limit →
    policy.getNextDelay retryCount draw ≠ .ok none

/-- `TimeSpan.MaxValue`. -/
def TimeSpan.max : ℤ := 9223372036854775807

/-- The exception of a conversion that leaves the range of `TimeSpan`. -/
def Exn.timeSpanOverflow : Exn :=
  ⟨false, text "TimeSpan overflowed because the duration is too long."⟩

/-- The exception of a conversion of what is not a number. -/
def Exn.timeSpanNaN : Exn :=
  ⟨false, text "TimeSpan does not accept floating point Not-a-Number values."⟩

/-- The exception of an addition that leaves the range of dates. -/
def Exn.dateOutOfRange : Exn :=
  ⟨false, text "The added or subtracted value results in an un-representable DateTime. (Parameter 'value')"⟩

/-- `TimeSpan.TotalMilliseconds`. -/
def totalMilliseconds (t : TimeSpan) : ℚ := t / 10000

/-- `TimeSpan.FromMilliseconds`, for a number that is not negative. -/
def fromMilliseconds (ms : ℚ) : Except Exn TimeSpan :=
  if ms * 10000 ≤ TimeSpan.max then .ok ⌊ms * 10000⌋ else .error .timeSpanOverflow

/-- `DateTimeOffset.Add`. -/
def addTime (t : DateTimeOffset) (d : TimeSpan) : Except Exn DateTimeOffset :=
  if 0 ≤ t + d ∧ t + d ≤ maxTicks then .ok (t + d) else .error .dateOutOfRange

namespace ExponentialBackoff

/-- `ShouldRetry`. -/
def shouldRetry (options : RetryPolicyOptions) (retryCount : ℤ) : Bool :=
  retryCount < options.maxRetries

/-- The delay before jitter, in milliseconds. -/
def cappedDelayMs (options : RetryPolicyOptions) (retryCount : ℤ) : ℚ :=
  min (totalMilliseconds options.baseDelay * 2 ^ retryCount) (totalMilliseconds options.maxDelay)

/-- The delay with jitter, in milliseconds. -/
def finalDelayMs (options : RetryPolicyOptions) (retryCount : ℤ) (draw : ℚ) : ℚ :=
  let capped := cappedDelayMs options retryCount
  let jitter := capped * options.jitterFactor * (draw * 2 - 1)
  max 0 (capped + jitter)

/-- `GetNextDelay`. -/
def getNextDelay (options : RetryPolicyOptions) (retryCount : ℤ) (draw : ℚ) :
    Except Exn (Option TimeSpan) :=
  if shouldRetry options retryCount then
    (fromMilliseconds (finalDelayMs options retryCount draw)).map some
  else .ok none

/-- `ExponentialBackoffRetryPolicy`. -/
def policy (options : RetryPolicyOptions) : RetryPolicy := ⟨getNextDelay options⟩

/-- Without a retry left there is no delay; with one left there is a delay, or the conversion to
ticks overflows. -/
theorem getNextDelay_cases (options : RetryPolicyOptions) (retryCount : ℤ) (draw : ℚ) :
    (options.maxRetries ≤ retryCount ∧ getNextDelay options retryCount draw = .ok none) ∨
    (retryCount < options.maxRetries ∧
      ((∃ delay, getNextDelay options retryCount draw = .ok (some delay)) ∨
        getNextDelay options retryCount draw = .error .timeSpanOverflow)) := by
  unfold getNextDelay shouldRetry
  by_cases h : retryCount < options.maxRetries
  · right
    refine ⟨h, ?_⟩
    rw [if_pos (decide_eq_true h)]
    unfold fromMilliseconds
    split
    · exact .inl ⟨_, rfl⟩
    · exact .inr rfl
  · left
    refine ⟨not_lt.mp h, ?_⟩
    rw [if_neg (by simpa using h)]

theorem policy_limits (options : RetryPolicyOptions) : (policy options).Limits options.maxRetries where
  none_of_le retryCount draw hle := by
    rcases getNextDelay_cases options retryCount draw with ⟨-, hnone⟩ | ⟨hlt, -⟩
    · exact hnone
    · omega
  ne_none_of_lt retryCount draw hlt hnone := by
    rcases getNextDelay_cases options retryCount draw with ⟨hle, -⟩ | ⟨-, ⟨delay, hsome⟩ | hthrew⟩
    · omega
    · cases hsome.symm.trans hnone
    · cases hthrew.symm.trans hnone

/-! ## In double precision -/

/-- Whether `BaseDelay * Math.Pow(2, retryCount)` is not a number: the power is infinite from 1024 on, and
its product with zero is none. -/
def notANumber (options : RetryPolicyOptions) (retryCount : ℤ) : Bool :=
  options.baseDelay = 0 && 1024 ≤ retryCount

/-- `GetNextDelay` as it is computed in double precision, for delays that are not negative; rounding is
left out. -/
def getNextDelayDouble (options : RetryPolicyOptions) (retryCount : ℤ) (draw : ℚ) :
    Except Exn (Option TimeSpan) :=
  if shouldRetry options retryCount && notANumber options retryCount then .error .timeSpanNaN
  else getNextDelay options retryCount draw

/-- `ExponentialBackoffRetryPolicy` in double precision. -/
def doublePolicy (options : RetryPolicyOptions) : RetryPolicy := ⟨getNextDelayDouble options⟩

/-- Where the product is a number, it is the exact one that is converted. -/
theorem getNextDelayDouble_eq {options : RetryPolicyOptions} {retryCount : ℤ}
    (h : notANumber options retryCount = false) (draw : ℚ) :
    getNextDelayDouble options retryCount draw = getNextDelay options retryCount draw := by
  rw [getNextDelayDouble, h, Bool.and_false, if_neg Bool.false_ne_true]

theorem doublePolicy_limits (options : RetryPolicyOptions) :
    (doublePolicy options).Limits options.maxRetries where
  none_of_le retryCount draw hle := by
    have hno : shouldRetry options retryCount = false := decide_eq_false (not_lt.mpr hle)
    show getNextDelayDouble options retryCount draw = _
    rw [getNextDelayDouble, hno, Bool.false_and, if_neg Bool.false_ne_true]
    exact (policy_limits options).none_of_le retryCount draw hle
  ne_none_of_lt retryCount draw hlt hnone := by
    cases hnumber : notANumber options retryCount with
    | true =>
        have hyes : shouldRetry options retryCount = true := decide_eq_true hlt
        have hthrew : getNextDelayDouble options retryCount draw = .error .timeSpanNaN := by
          rw [getNextDelayDouble, hyes, hnumber, Bool.and_self, if_pos rfl]
        cases hthrew.symm.trans hnone
    | false =>
        have hsame := getNextDelayDouble_eq hnumber draw
        exact (policy_limits options).ne_none_of_lt retryCount draw hlt (hsame.symm.trans hnone)

end ExponentialBackoff

end OutboxNet
