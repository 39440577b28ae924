import Mathlib.Tactic.FieldSimp
import Mathlib.Tactic.Linarith
import Mathlib.Tactic.NormNum
import Mathlib.Tactic.Ring
import OutboxNet.Processor.Pipeline

/-!
# The schedule of retries

`GetNextDelay` doubles the base delay with every retry, caps it and moves it by a random share of
itself.  The jitter comes after the cap, so that the delay may exceed `MaxDelay`; and neither the cap
nor the options keep it within the range of `TimeSpan` or of dates.  A delay that leaves one of them is
an exception out of `HandleMessageFailureAsync`, before the retry is counted.
-/

set_option autoImplicit false

namespace OutboxNet

/-! ## Jitter -/

/-- `x`, moved by up to the share `j` of it; the draw from [0, 1) says how far. -/
def jittered (x j draw : ℚ) : ℚ := x + x * j * (draw * 2 - 1)

section

variable {x j draw : ℚ}

theorem jittered_half (x j : ℚ) : jittered x j (1 / 2) = x := by
  unfold jittered
  ring

theorem jittered_zero (x j : ℚ) : jittered x j 0 = x * (1 - j) := by
  unfold jittered
  ring

theorem le_jittered (hx : 0 ≤ x) (hj : 0 ≤ j) (hdraw : 0 ≤ draw) :
    x * (1 - j) ≤ jittered x j draw := by
  have hxj : 0 ≤ x * j * draw := mul_nonneg (mul_nonneg hx hj) hdraw
  calc x * (1 - j) ≤ x * (1 - j) + 2 * (x * j * draw) := by linarith
    _ = jittered x j draw := by unfold jittered; ring

theorem jittered_le (hx : 0 ≤ x) (hj : 0 ≤ j) (hdraw : draw < 1) :
    jittered x j draw ≤ x * (1 + j) := by
  have hxj : 0 ≤ x * j * (1 - draw) := mul_nonneg (mul_nonneg hx hj) (by linarith)
  calc jittered x j draw ≤ jittered x j draw + 2 * (x * j * (1 - draw)) := by linarith
    _ = x * (1 + j) := by unfold jittered; ring

/-- The upper end is not attained, unless there is nothing to move. -/
theorem jittered_lt_iff {b : ℚ} (hx : 0 ≤ x) (hj : 0 ≤ j) :
    (∀ draw, 0 ≤ draw → draw < 1 → jittered x j draw < b) ↔ x < b ∧ x * (1 + j) ≤ b := by
  constructor
  · intro h
    have hhalf : x < b := by
      have := h (1 / 2) (by norm_num) (by norm_num)
      rwa [jittered_half] at this
    refine ⟨hhalf, ?_⟩
    by_contra hlt
    rw [not_le] at hlt
    -- otherwise some draw lands on the bound itself
    have hxj : 0 < x * j := by linarith
    have hpos : 0 < (b - x) / (x * j) := div_pos (by linarith) hxj
    have hone : (b - x) / (x * j) < 1 := by
      rw [div_lt_one hxj]
      linarith
    have hbound := h (((b - x) / (x * j) + 1) / 2) (by linarith) (by linarith)
    have heq : jittered x j (((b - x) / (x * j) + 1) / 2) = b := by
      unfold jittered
      calc x + x * j * (((b - x) / (x * j) + 1) / 2 * 2 - 1) = x + x * j * ((b - x) / (x * j)) := by
            ring
        _ = b := by
            rw [mul_div_cancel₀ _ hxj.ne']
            ring
    rw [heq] at hbound
    exact lt_irrefl b hbound
  · rintro ⟨hlt, hle⟩ draw - h1
    rcases (mul_nonneg hx hj).lt_or_eq with hxj | hxj
    · have hmove : x * j * (draw * 2 - 1) < x * j * 1 :=
        mul_lt_mul_of_pos_left (by linarith) hxj
      unfold jittered
      linarith
    · unfold jittered
      rw [← hxj, zero_mul, add_zero]
      exact hlt

end

namespace ExponentialBackoff

/-! ## The delay -/

/-- Options a host can mean. -/
structure Sensible (options : RetryPolicyOptions) : Prop where
  baseDelay : 0 ≤ options.baseDelay
  maxDelay : 0 ≤ options.maxDelay
  jitter_nonneg : 0 ≤ options.jitterFactor
  jitter_le_one : options.jitterFactor ≤ 1

/-- The delay before jitter, in ticks: `min (BaseDelay * 2 ^ r) MaxDelay`. -/
def cap (options : RetryPolicyOptions) (r : ℤ) : ℚ :=
  min ((options.baseDelay : ℚ) * 2 ^ r) options.maxDelay

/-- A number of ticks within the jitter around the cap. -/
def Within (options : RetryPolicyOptions) (r : ℤ) (ticks : ℚ) : Prop :=
  cap options r * (1 - options.jitterFactor) ≤ ticks ∧
    ticks ≤ cap options r * (1 + options.jitterFactor)

variable {options : RetryPolicyOptions} {r : ℤ}

theorem cap_nonneg (h : Sensible options) (r : ℤ) : 0 ≤ cap options r := by
  have hbase : (0 : ℚ) ≤ options.baseDelay := by exact_mod_cast h.baseDelay
  have hmax : (0 : ℚ) ≤ options.maxDelay := by exact_mod_cast h.maxDelay
  exact le_min (mul_nonneg hbase (zpow_nonneg (by norm_num) r)) hmax

/-- The cap does not decrease. -/
theorem cap_mono (h : Sensible options) {r' : ℤ} (hr : r ≤ r') : cap options r ≤ cap options r' := by
  have hbase : (0 : ℚ) ≤ options.baseDelay := by exact_mod_cast h.baseDelay
  apply min_le_min_right
  apply mul_le_mul_of_nonneg_left _ hbase
  exact zpow_le_zpow_right₀ (by norm_num) hr

/-- The cap is a whole number of ticks. -/
theorem cap_eq_int (options : RetryPolicyOptions) (hr : 0 ≤ r) : ∃ n : ℤ, cap options r = n := by
  obtain ⟨k, rfl⟩ := Int.eq_ofNat_of_zero_le hr
  refine ⟨min (options.baseDelay * 2 ^ k) options.maxDelay, ?_⟩
  unfold cap
  push_cast
  rw [zpow_natCast]

theorem cappedDelayMs_eq (options : RetryPolicyOptions) (r : ℤ) :
    cappedDelayMs options r = cap options r / 10000 := by
  unfold cappedDelayMs cap totalMilliseconds
  rw [← min_div_div_right (by norm_num), div_mul_eq_mul_div]

/-- What `GetNextDelay` converts, in ticks. -/
theorem finalDelayMs_ticks (h : Sensible options) {draw : ℚ} (hdraw : 0 ≤ draw) :
    finalDelayMs options r draw * 10000 = jittered (cap options r) options.jitterFactor draw := by
  have hcap := cap_nonneg h r
  have hle := le_jittered hcap h.jitter_nonneg hdraw
  have hlow : 0 ≤ cap options r * (1 - options.jitterFactor) :=
    mul_nonneg hcap (by linarith [h.jitter_le_one])
  have heq : cappedDelayMs options r + cappedDelayMs options r * options.jitterFactor *
      (draw * 2 - 1) = jittered (cap options r) options.jitterFactor draw / 10000 := by
    rw [cappedDelayMs_eq]
    unfold jittered
    ring
  show max 0 (cappedDelayMs options r + cappedDelayMs options r * options.jitterFactor *
    (draw * 2 - 1)) * 10000 = _
  -- the jitter is not more than the delay, so the maximum with 0 does nothing
  rw [heq, max_eq_right (by linarith), div_mul_cancel₀ _ (by norm_num)]

theorem finalDelayMs_within (h : Sensible options) {draw : ℚ} (h0 : 0 ≤ draw) (h1 : draw < 1) :
    Within options r (finalDelayMs options r draw * 10000) := by
  rw [finalDelayMs_ticks h h0]
  exact ⟨le_jittered (cap_nonneg h r) h.jitter_nonneg h0,
    jittered_le (cap_nonneg h r) h.jitter_nonneg h1⟩

/-- A delay that is returned is the exact one in whole ticks. -/
theorem getNextDelay_eq_some {draw : ℚ} {delay : TimeSpan}
    (h : getNextDelay options r draw = .ok (some delay)) :
    delay = ⌊finalDelayMs options r draw * 10000⌋ := by
  unfold getNextDelay at h
  split at h
  · unfold fromMilliseconds at h
    split at h
    · cases h
      rfl
    · cases h
  · cases h

/-- **One draw.** There is a delay, and a date it leads to, when the exact delay ends before the last
tick of the calendar has passed. -/
theorem delay_defined_iff (h : Sensible options) (hr : r < options.maxRetries) {now : DateTimeOffset}
    (hnow : 0 ≤ now) {draw : ℚ} (hdraw : 0 ≤ draw) :
    (∃ delay next, getNextDelay options r draw = .ok (some delay) ∧ addTime now delay = .ok next) ↔
      jittered (cap options r) options.jitterFactor draw < maxTicks - now + 1 := by
  have hticks := finalDelayMs_ticks (r := r) h hdraw
  have hnonneg : 0 ≤ jittered (cap options r) options.jitterFactor draw :=
    (mul_nonneg (cap_nonneg h r) (by linarith [h.jitter_le_one])).trans
      (le_jittered (cap_nonneg h r) h.jitter_nonneg hdraw)
  generalize jittered (cap options r) options.jitterFactor draw = f at hticks hnonneg ⊢
  constructor
  · rintro ⟨delay, next, hdelay, hadd⟩
    have hfloor := getNextDelay_eq_some hdelay
    rw [hticks] at hfloor
    unfold addTime at hadd
    split at hadd
    · next hin =>
        have hle : delay ≤ maxTicks - now := le_sub_iff_add_le'.mpr hin.2
        calc f < ⌊f⌋ + 1 := Int.lt_floor_add_one f
          _ = (delay : ℚ) + 1 := by rw [hfloor]
          _ ≤ maxTicks - now + 1 := by
              have : (delay : ℚ) ≤ maxTicks - now := by exact_mod_cast hle
              linarith
    · cases hadd
  · intro hlt
    have hfloor : ⌊f⌋ < maxTicks - now + 1 := by
      rw [Int.floor_lt]
      exact_mod_cast hlt
    have hfloor0 : 0 ≤ ⌊f⌋ := Int.floor_nonneg.mpr hnonneg
    -- a date lies within `TimeSpan`
    have hspan : f ≤ TimeSpan.max := by
      have hnow' : (0 : ℚ) ≤ now := by exact_mod_cast hnow
      have hmax : (maxTicks : ℚ) + 1 ≤ TimeSpan.max := by
        norm_num [maxTicks, TimeSpan.max]
      linarith
    have hdelay : getNextDelay options r draw = .ok (some ⌊f⌋) := by
      unfold getNextDelay shouldRetry fromMilliseconds
      rw [if_pos (decide_eq_true hr), hticks, if_pos hspan]
      rfl
    refine ⟨⌊f⌋, now + ⌊f⌋, hdelay, ?_⟩
    have hle : ⌊f⌋ ≤ maxTicks - now := Int.lt_add_one_iff.mp hfloor
    unfold addTime
    rw [if_pos ⟨add_nonneg hnow hfloor0, le_sub_iff_add_le'.mp hle⟩]

/-- The largest delay the jitter makes of the cap leads to a date: the cap itself does, and the upper
end, which no draw attains, comes at most one tick after the last date. -/
def InCalendar (options : RetryPolicyOptions) (r : ℤ) (now : DateTimeOffset) : Prop :=
  cap options r ≤ maxTicks - now ∧
    cap options r * (1 + options.jitterFactor) ≤ maxTicks - now + 1

/-- **All draws.** -/
theorem delays_defined_iff (h : Sensible options) (h0 : 0 ≤ r) (hr : r < options.maxRetries)
    {now : DateTimeOffset} (hnow : 0 ≤ now) :
    (∀ draw, 0 ≤ draw → draw < 1 → ∃ delay next,
      getNextDelay options r draw = .ok (some delay) ∧ addTime now delay = .ok next) ↔
      InCalendar options r now := by
  have hcap : cap options r < maxTicks - now + 1 ↔ cap options r ≤ maxTicks - now := by
    obtain ⟨n, hn⟩ := cap_eq_int options h0
    rw [hn]
    norm_cast
    exact Int.lt_add_one_iff
  unfold InCalendar
  rw [← hcap, ← jittered_lt_iff (cap_nonneg h r) h.jitter_nonneg]
  constructor
  · intro hdefined draw hdraw hlt
    exact (delay_defined_iff h hr hnow hdraw).mp (hdefined draw hdraw hlt)
  · intro hbound draw hdraw hlt
    exact (delay_defined_iff h hr hnow hdraw).mpr (hbound draw hdraw hlt)

end ExponentialBackoff

/-! ## The failure handler -/

/-- The answers the failure handler can get at time `now`. -/
def Call.AnsweredAt (now : DateTimeOffset) : (c : Call) → c.Ans → Prop
  | .nextDouble, (draw : ℚ) => 0 ≤ draw ∧ draw < 1
  | .utcNow, (t : DateTimeOffset) => t = now
  | _, _ => True

namespace Pipeline

open ExponentialBackoff

variable {p : Pipeline} {message : OutboxMessage} {lockedBy : Text} {error : Option Text}

/-- The failure handler comes to its `IncrementRetryAsync` when every draw leads to a delay and to a
date. -/
theorem handleMessageFailureAsync_mustReach {now : DateTimeOffset} :
    (p.handleMessageFailureAsync message lockedBy error).run.MustReach (Call.AnsweredAt now)
        (fun c => ∃ nextRetryAt, c = .incrementRetry message.id lockedBy nextRetryAt error) ↔
      ∀ draw, 0 ≤ draw → draw < 1 → ∃ delay next,
        p.retryPolicy.getNextDelay message.retryCount draw = .ok (some delay) ∧
          addTime now delay = .ok next := by
  rw [handleMessageFailureAsync_run]
  constructor
  · intro h draw h0 h1
    rcases h with ⟨_, hno⟩ | h
    · cases hno
    replace h := h draw ⟨h0, h1⟩
    beta_reduce at h
    cases hdelay : p.retryPolicy.getNextDelay message.retryCount draw with
    | error e =>
        rw [hdelay] at h
        exact h.elim
    | ok delay =>
        rw [hdelay] at h
        rcases delay with _ | delay
        · -- a refused dead-letter ends the handler
          rcases h with ⟨_, hno⟩ | h
          · cases hno
          · exact (h (Except.ok false) trivial).elim
        · rcases h with ⟨_, hno⟩ | h
          · cases hno
          replace h := h now rfl
          beta_reduce at h
          cases hnext : addTime now delay with
          | error e =>
              simp only [hnext] at h
              exact h.elim
          | ok next => exact ⟨delay, next, rfl, hnext⟩
  · intro h
    refine .inr fun draw hdraw => ?_
    obtain ⟨delay, next, hdelay, hnext⟩ := h draw hdraw.1 hdraw.2
    beta_reduce
    rw [hdelay]
    refine .inr fun utcNow hutcNow => ?_
    obtain rfl : utcNow = now := hutcNow
    beta_reduce
    rw [hnext]
    exact .inl ⟨next, rfl⟩

/-- What is asked of the schedule of a retry at time `now`: the caps do not decrease; and for every
draw there is a delay, the exact one in whole ticks, within the jitter around the cap, and a date it
leads to; so that the failure handler comes to its `IncrementRetryAsync`. -/
structure SchedulesRetry (p : Pipeline) (options : RetryPolicyOptions) (message : OutboxMessage)
    (lockedBy : Text) (error : Option Text) (now : DateTimeOffset) : Prop where
  monotone : ∀ r r', 0 ≤ r → r ≤ r' → cap options r ≤ cap options r'
  defined : ∀ draw, 0 ≤ draw → draw < 1 → ∃ delay next,
    p.retryPolicy.getNextDelay message.retryCount draw = .ok (some delay) ∧
    delay = ⌊finalDelayMs options message.retryCount draw * 10000⌋ ∧
    Within options message.retryCount (finalDelayMs options message.retryCount draw * 10000) ∧
    addTime now delay = .ok next
  reaches : (p.handleMessageFailureAsync message lockedBy error).run.MustReach (Call.AnsweredAt now)
    fun c => ∃ nextRetryAt, c = .incrementRetry message.id lockedBy nextRetryAt error

/-- A retry is scheduled when every draw leads to a delay and to a date. -/
theorem schedulesRetry_of_defined {options : RetryPolicyOptions} (hsensible : Sensible options)
    (hpolicy : p.retryPolicy = ExponentialBackoff.policy options) {now : DateTimeOffset} :
    p.SchedulesRetry options message lockedBy error now ↔
      ∀ draw, 0 ≤ draw → draw < 1 → ∃ delay next,
        getNextDelay options message.retryCount draw = .ok (some delay) ∧
          addTime now delay = .ok next := by
  constructor
  · intro h draw hdraw hlt
    obtain ⟨delay, next, hdelay, -, -, hnext⟩ := h.defined draw hdraw hlt
    rw [hpolicy] at hdelay
    exact ⟨delay, next, hdelay, hnext⟩
  · intro h
    refine ⟨fun r r' _ hr => cap_mono hsensible hr, ?_, ?_⟩
    · intro draw hdraw hlt
      obtain ⟨delay, next, hdelay, hnext⟩ := h draw hdraw hlt
      refine ⟨delay, next, ?_, getNextDelay_eq_some hdelay,
        finalDelayMs_within hsensible hdraw hlt, hnext⟩
      rw [hpolicy]
      exact hdelay
    · rw [handleMessageFailureAsync_mustReach, hpolicy]
      exact h

/-- The delays in whole ticks keep within the bounds when the lower bound is a whole number. -/
theorem delays_within_iff {options : RetryPolicyOptions} {r : ℤ} (hsensible : Sensible options)
    (hdefined : ∃ delay, getNextDelay options r 0 = .ok (some delay)) :
    (∀ (draw : ℚ) (delay : TimeSpan), 0 ≤ draw → draw < 1 →
        getNextDelay options r draw = .ok (some delay) → Within options r delay) ↔
      ∃ n : ℤ, cap options r * (1 - options.jitterFactor) = n := by
  constructor
  · -- the draw 0 gives the lower end
    intro hwithin
    obtain ⟨delay, hdelay⟩ := hdefined
    have hfloor := getNextDelay_eq_some hdelay
    have hlow := (hwithin 0 delay le_rfl (by norm_num) hdelay).1
    rw [finalDelayMs_ticks hsensible le_rfl, jittered_zero] at hfloor
    refine ⟨delay, le_antisymm hlow ?_⟩
    rw [hfloor]
    exact Int.floor_le _
  · rintro ⟨n, hn⟩ draw delay hdraw hlt hdelay
    have hwithin := finalDelayMs_within (r := r) hsensible hdraw hlt
    have hfloor := getNextDelay_eq_some hdelay
    constructor
    · -- a whole number below the exact delay is below its whole part
      rw [hn, hfloor]
      exact_mod_cast Int.le_floor.mpr (hn ▸ hwithin.1)
    · rw [hfloor]
      exact (Int.floor_le _).trans hwithin.2

/-- **Retries are scheduled exactly within the calendar.** Read on the delays `GetNextDelay` returns,
whole numbers of ticks, the lower bound asks besides that the lower end is one. -/
theorem schedulesRetry_iff {options : RetryPolicyOptions} (hsensible : Sensible options)
    (hpolicy : p.retryPolicy = ExponentialBackoff.policy options) (h0 : 0 ≤ message.retryCount)
    (hmax : message.retryCount < options.maxRetries) {now : DateTimeOffset} (hnow : 0 ≤ now) :
    (p.SchedulesRetry options message lockedBy error now ↔
      InCalendar options message.retryCount now) ∧
    ((p.SchedulesRetry options message lockedBy error now ∧
        ∀ (draw : ℚ) (delay : TimeSpan), 0 ≤ draw → draw < 1 →
          p.retryPolicy.getNextDelay message.retryCount draw = .ok (some delay) →
          Within options message.retryCount delay) ↔
      InCalendar options message.retryCount now ∧
        ∃ n : ℤ, cap options message.retryCount * (1 - options.jitterFactor) = n) := by
  have hdefined := delays_defined_iff hsensible h0 hmax hnow
  have hiff : p.SchedulesRetry options message lockedBy error now ↔
      InCalendar options message.retryCount now :=
    (schedulesRetry_of_defined hsensible hpolicy).trans hdefined
  refine ⟨hiff, ?_⟩
  rw [hiff]
  refine and_congr_right fun hcalendar => ?_
  obtain ⟨delay, next, hdelay, -⟩ := hdefined.mpr hcalendar 0 le_rfl (by norm_num)
  rw [hpolicy]
  exact delays_within_iff hsensible ⟨delay, hdelay⟩

/-! ## A host that waits too long -/

/-- A host with the back-off of these options. -/
def retryingHost (options : RetryPolicyOptions) : Pipeline where
  options := { instanceId := text "func-1" }
  retryPolicy := ExponentialBackoff.policy options
  sha256 := ⟨fun _ => List.replicate 32 0, length_replicate_zero⟩

/-- An order after so many retries. -/
def retriedOrder (retryCount : ℤ) : OutboxMessage :=
  { OutboxStore.directRow 0 ⟨1, text "order.placed", [], none, none, none, none, none, none⟩ with
    retryCount := retryCount }

/-- Options without a limit on the delay other than that of `TimeSpan`. -/
def unlimitedOptions : RetryPolicyOptions := { maxRetries := 50, maxDelay := TimeSpan.max }

theorem sensible_unlimited : Sensible unlimitedOptions := by
  constructor <;> norm_num [unlimitedOptions, TimeSpan.max, ticksPerSecond]

/-- The 41st retry of such a host is never scheduled: half of the draws overflow the `TimeSpan`, the
others the calendar. -/
theorem unlimited_delay_throws : Sensible unlimitedOptions ∧ (40 : ℤ) < unlimitedOptions.maxRetries ∧
    ¬ (retryingHost unlimitedOptions).SchedulesRetry unlimitedOptions (retriedOrder 40)
      (text "func-1") none 638000000000000000 := by
  refine ⟨sensible_unlimited, by decide, fun h => ?_⟩
  obtain ⟨delay, next, hdelay, -, -, hnext⟩ := h.defined (1 / 2) (by norm_num) (by norm_num)
  have hlt := (delay_defined_iff (r := 40) sensible_unlimited (by decide) (by decide)
    (by norm_num)).mp ⟨delay, next, hdelay, hnext⟩
  rw [jittered_half] at hlt
  have hcap : cap unlimitedOptions 40 = (TimeSpan.max : ℚ) := by
    norm_num [cap, unlimitedOptions, TimeSpan.max, ticksPerSecond]
  rw [hcap] at hlt
  norm_num [TimeSpan.max, maxTicks] at hlt

/-- The first retry under the default options. -/
theorem default_delay_scheduled :
    (retryingHost {}).SchedulesRetry {} (retriedOrder 0) (text "func-1") none 638000000000000000 ∧
    ∀ (draw : ℚ) (delay : TimeSpan), 0 ≤ draw → draw < 1 →
      (retryingHost {}).retryPolicy.getNextDelay 0 draw = .ok (some delay) → Within {} 0 delay := by
  have hcap : cap {} 0 = 50000000 := by
    norm_num [cap, ticksPerSecond]
  refine (schedulesRetry_iff (by constructor <;> norm_num [ticksPerSecond]) rfl le_rfl (by decide)
    (by decide)).2.mpr ⟨⟨?_, ?_⟩, 40000000, ?_⟩
  · show cap {} 0 ≤ _
    rw [hcap]
    norm_num [maxTicks]
  · show cap {} 0 * _ ≤ _
    rw [hcap]
    norm_num [maxTicks]
  · show cap {} 0 * _ = _
    rw [hcap]
    norm_num

end Pipeline

end OutboxNet
