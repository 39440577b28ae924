import Mathlib.Data.Int.Interval
import OutboxNet.Store.AttemptQueries
import OutboxNet.System.FreshIds

/-!
# The log of attempts

What the table of attempts tells of a message and a subscription, whatever rounds have overlapped, been
answered, failed or crashed.

The id of an attempt is made from its number, so no number is stored twice; and a round makes an attempt
only while its count is within the retries of the subscription.  So there are never more attempts than
`MaxRetries + 1`, also when a purge has taken some (`attempts_within_budget`).

As long as no attempts are purged, more is true.  Two rounds that have counted the same attempts make the
same next one, and only one of the two is stored.  So the stored numbers are 1, …, count, in every
interleaving; and as no round delivers to a subscription after it has read a success, only the last of
them can be a success (`history_numbered`).
-/

set_option autoImplicit false

namespace OutboxNet

open AttemptStore (States attemptsOf ordinal Numbering getByMessageIdAsync historyOf
  getAttemptCountAsync hasSuccessfulDeliveryAsync)
open Pipeline (attemptCount nextAttempt)

variable {dep : Deployment} {budget : Guid → ℤ} {sha256 : Hash}

/-- The subscriptions of a plan are different, and their retries are within the budget. -/
def Plan.Within (budget : Guid → ℤ) : Plan → Prop
  | .direct subscriptions _ => (subscriptions.map (·.id)).Nodup ∧
      ∀ subscription ∈ subscriptions, subscription.maxRetries ≤ budget subscription.id
  | .queueMediated => True

instance (budget : Guid → ℤ) : (plan : Plan) → Decidable (plan.Within budget)
  | .direct subscriptions _ => inferInstanceAs (Decidable ((subscriptions.map (·.id)).Nodup ∧
      ∀ subscription ∈ subscriptions, subscription.maxRetries ≤ budget subscription.id))
  | .queueMediated => inferInstanceAs (Decidable True)

namespace World

variable {w w' : World} {stages stages' : ℕ → Stage} {act : Action}

/-- What a step other than a purge of attempts does to their table. -/
theorem Step.attempts (hs : Step dep (Database.Exec dep) w act w')
    (hst : StageStep w stages act stages') (hact : act ≠ .purgeAttempts) :
    AttemptsStep dep w stages act w'.db.messages w'.db.attempts := by
  cases hs with
  | @call token r work c k a db hr hwork hprog hexec =>
      rcases hexec.change.attempts with heq | ⟨newAttempts, defaults, rfl, hsave⟩
      · show AttemptsStep dep w stages _ db.messages db.attempts
        rw [heq]
        exact .same
      · obtain ⟨r', subscriptions, loop, prog, states, results, utcNow, hr', hwork', hstage, hperm⟩ :=
          hst.saved rfl
        exact .saved rfl hr' hwork' hstage hperm hsave
  | purgeMessages => exact .cascade rfl
  | purgeAttempts => exact absurd rfl hact
  | _ => exact .same

/-! ## Keys -/

/-- What a round that is delivering delivers to, and the counts it has read. -/
def Attempting (job : Job) : Stage → Prop
  | .delivering states results =>
      (∀ i r, results i = some r → ∃ subscription, job.subscriptions[i]? = some subscription ∧
        Job.attempted states subscription = true) ∧
      ∀ subscription ∈ job.subscriptions, 0 ≤ attemptCount states subscription
  | _ => True

theorem Attempting.call {token : ℕ} {entry : Entry} {job : Job} {s s' : Stage}
    (h : Attempting job s) (hs : Step dep (Database.Exec dep) w (.call token entry) w')
    (hnodup : (job.subscriptions.map (·.id)).Nodup)
    (htrans : job.Trans entry.call s entry.answer s') : Attempting job s' := by
  obtain ⟨c, a⟩ := entry
  cases hs' : s' with
  | delivering states results =>
      rcases htrans.into_delivering hs' with ⟨rfl, rfl, hentry⟩ | ⟨results₀, rfl, -, hresults₀⟩
      · cases hentry
        refine ⟨(fun i r hi => by cases hi), fun subscription hsub => ?_⟩
        rw [hs.called.1.read.1, Pipeline.attemptCount_getDeliveryStatesAsync
          (List.mem_map_of_mem hsub) hnodup]
        exact Int.natCast_nonneg _
      · obtain ⟨hresults, hnonneg⟩ := h
        refine ⟨fun i r hi => ?_, hnonneg⟩
        rcases hresults₀ i r hi with hi | hatt
        · exact hresults i r hi
        · exact hatt
  | _ => trivial

/-- An attempt that a round may have made: it has its id from its number, which is within the budget. -/
def Keyed (budget : Guid → ℤ) (sha256 : Hash) (a : DeliveryAttempt) : Prop :=
  a.id = deriveDeliveryId sha256 a.outboxMessageId a.webhookSubscriptionId a.attemptNumber ∧
    1 ≤ a.attemptNumber ∧ a.attemptNumber ≤ budget a.webhookSubscriptionId + 1

/-- Every attempt stored is keyed. -/
structure KeysOk (budget : Guid → ℤ) (sha256 : Hash) (w : World) (stages : ℕ → Stage) : Prop where
  planned : w.Planned (Plan.Within budget)
  keyed : ∀ a ∈ w.db.attempts.rows, Keyed budget sha256 a
  rounds : ForRounds (fun _ => Attempting) w stages

/-- The number of an attempt that a round is to make. -/
theorem nextAttempt_eq (hbudget : ∀ s, budget s < int32Max) {states : States}
    {subscription : WebhookSubscription} (hnonneg : 0 ≤ attemptCount states subscription)
    (hatt : Job.attempted states subscription = true)
    (hmax : subscription.maxRetries ≤ budget subscription.id) :
    nextAttempt states subscription = attemptCount states subscription + 1 ∧
      attemptCount states subscription ≤ budget subscription.id := by
  have hle := (Job.attempted_iff.mp hatt).2.trans hmax
  have hlt := hbudget subscription.id
  rw [int32Max] at hlt
  refine ⟨?_, hle⟩
  rw [nextAttempt, int32]
  exact Int.bmod_eq_of_le (by omega) (by omega)

namespace KeysOk

variable {token : ℕ} {r : Round} {subscriptions : List WebhookSubscription} {loop : LoopSchedule}
  {prog : Prog Call Call.Ans (Except Exn Unit)} {states : States} {results : Results}
  {utcNow : ℕ → DateTimeOffset}

/-- The attempts of a round. -/
theorem newAttempts (h : KeysOk budget sha256 w stages) (hbudget : ∀ s, budget s < int32Max)
    (hsha256 : ∀ r ∈ w.rounds, r.pipeline.sha256 = sha256) (hr : w.rounds[token]? = some r)
    (hwork : r.work = some ⟨.direct subscriptions loop, prog⟩)
    (hstage : stages token = .delivering states results) {a : DeliveryAttempt}
    (ha : a ∈ (r.job subscriptions).newAttempts states results utcNow) :
    Keyed budget sha256 a ∧ a.outboxMessageId = r.message.id ∧ ∃ subscription ∈ subscriptions,
      Job.attempted states subscription = true ∧ a.webhookSubscriptionId = subscription.id ∧
      a.attemptNumber = attemptCount states subscription + 1 := by
  have hattempting := h.rounds token r subscriptions loop prog hr hwork
  rw [hstage] at hattempting
  obtain ⟨i, subscription, res, hsub, hi, rfl⟩ := Job.mem_newAttempts.mp ha
  obtain ⟨subscription', hsub', hatt⟩ := hattempting.1 i _ hi
  rw [hsub] at hsub'
  cases hsub'
  have hmem : subscription ∈ subscriptions := List.mem_of_getElem? hsub
  have hnonneg := hattempting.2 subscription hmem
  obtain ⟨hnext, hle⟩ :=
    nextAttempt_eq hbudget hnonneg hatt ((h.planned token r _ hr hwork).2 subscription hmem)
  refine ⟨⟨?_, ?_, ?_⟩, rfl, subscription, hmem, hatt, rfl, hnext⟩
  · rw [← hsha256 r (List.mem_of_getElem? hr)]
    rfl
  · show 1 ≤ nextAttempt states subscription
    omega
  · show nextAttempt states subscription ≤ budget subscription.id + 1
    omega

/-- A row inserted for an attempt of a round has the key of the attempt. -/
theorem attemptRow {a : DeliveryAttempt} (hkeyed : Keyed budget sha256 a)
    (d : AttemptStore.Defaults) (i : ℕ) :
    Keyed budget sha256 (AttemptStore.attemptRow dep d i a) ∧
      (AttemptStore.attemptRow dep d i a).id = a.id := by
  have hne : a.id ≠ .empty := by
    rw [hkeyed.1]
    exact deriveDeliveryId_ne_empty _ _ _ _
  refine ⟨⟨?_, hkeyed.2⟩, AttemptStore.attemptRow_id hne⟩
  rw [AttemptStore.attemptRow_id hne]
  exact hkeyed.1

theorem keyed_step (h : KeysOk budget sha256 w stages) (hbudget : ∀ s, budget s < int32Max)
    (hsha256 : ∀ r ∈ w.rounds, r.pipeline.sha256 = sha256)
    (hs : Step dep (Database.Exec dep) w act w') (hst : StageStep w stages act stages')
    {a : DeliveryAttempt} (ha : a ∈ w'.db.attempts.rows) : Keyed budget sha256 a := by
  by_cases hact : act = .purgeAttempts
  · subst hact
    cases hs with
    | purgeAttempts => exact h.keyed a (Table.mem_delete.mp ha).1
  · have hattempts := hs.attempts hst hact
    generalize w'.db.attempts = attempts at hattempts ha
    cases hattempts with
    | same => exact h.keyed a ha
    | saved _ hr hwork hstage hperm hsave =>
        rcases AttemptStore.mem_saveAttemptsAsync hsave ha with ha | ⟨i, x, hx, rfl⟩
        · exact h.keyed a ha
        · have hkeyed := (h.newAttempts hbudget hsha256 hr hwork hstage (hperm.mem_iff.mp hx)).1
          exact (attemptRow hkeyed _ i).1
    | cascade => exact h.keyed a (AttemptStore.mem_cascade.mp ha).1
    | purged hpurge => exact absurd hpurge hact

theorem step (h : KeysOk budget sha256 w stages) (hbudget : ∀ s, budget s < int32Max)
    (hsha256 : ∀ r ∈ w.rounds, r.pipeline.sha256 = sha256)
    (hs : Step dep (Database.Exec dep) w act w') (hst : StageStep w stages act stages')
    (hbegin : ∀ token plan, act = .begin_ token plan → plan.Within budget) :
    KeysOk budget sha256 w' stages' where
  planned := h.planned.step hs hbegin
  keyed _ ha := h.keyed_step hbudget hsha256 hs hst ha
  rounds := by
    refine h.rounds.step_of_work hs hst (fun _ _ _ _ _ _ _ => trivial) ?_ ?_
    · intro _ _ _ _ _ _ _ _ _ hok
      exact hok
    · rintro token entry r subscriptions loop prog s s' rfl hr hwork htrans hok
      exact hok.call hs (h.planned token r _ hr hwork).1 htrans

end KeysOk

/-- The hash of the pipelines before a step. -/
theorem Step.sha256_before (hs : Step dep (Database.Exec dep) w act w')
    (h : ∀ r ∈ w'.rounds, r.pipeline.sha256 = sha256) :
    ∀ r ∈ w.rounds, r.pipeline.sha256 = sha256 := by
  intro r hr
  obtain ⟨token, hr⟩ := List.mem_iff_getElem?.mp hr
  obtain ⟨r', hr', hp, -⟩ := hs.round hr
  rw [← hp]
  exact h r' (List.mem_of_getElem? hr')

/-- What the steps keep holds after every run of pipelines with one hash. -/
theorem run_with_hash {now : DateTimeOffset} {acts : List Action} (I : World → (ℕ → Stage) → Prop)
    (P : Action → Prop)
    (hstep : ∀ w stages act w' stages', P act → (∀ r ∈ w.rounds, r.pipeline.sha256 = sha256) →
      I w stages → Step dep (Database.Exec dep) w act w' → StageStep w stages act stages' → I w' stages')
    (hrun : Run dep (Database.Exec dep) (initial now) acts w) (hP : ∀ act ∈ acts, P act)
    (hsha256 : ∀ r ∈ w.rounds, r.pipeline.sha256 = sha256) (hinitial : I (initial now) fun _ => .start) :
    ∃ stages, Coupled w stages ∧ I w stages := by
  have hinv : ∃ stages, Coupled w stages ∧
      ((∀ r ∈ w.rounds, r.pipeline.sha256 = sha256) → I w stages) := by
    refine run_invariant (fun w stages => (∀ r ∈ w.rounds, r.pipeline.sha256 = sha256) → I w stages) P
      ?_ hrun hP ⟨_, Coupled.initial now _, fun _ => hinitial⟩
    intro w stages act w' stages' hact _ h hs _ hst hsha256
    have hbefore := hs.sha256_before hsha256
    exact hstep w stages act w' stages' hact hbefore (h hbefore) hs hst
  obtain ⟨stages, hcoupled, h⟩ := hinv
  exact ⟨stages, hcoupled, h hsha256⟩

theorem KeysOk.initial (now : DateTimeOffset) :
    KeysOk budget sha256 (initial now) fun _ => .start where
  planned := Planned.initial _ now
  keyed := List.forall_mem_nil _
  rounds := ForRounds.initial _ now _

/-- Attempts of a message and a subscription have different numbers. -/
theorem KeysOk.attemptNumber_nodup (h : KeysOk budget sha256 w stages) (k s : Guid) :
    ((attemptsOf k s w.db.attempts).map (·.attemptNumber)).Nodup := by
  refine List.Nodup.map_on ?_ ((List.Nodup.of_map _ w.db.attempts.nodup).filter _)
  intro a ha b hb hnumber
  obtain ⟨ha, hk, hs⟩ := AttemptStore.mem_attemptsOf.mp ha
  obtain ⟨hb, hk', hs'⟩ := AttemptStore.mem_attemptsOf.mp hb
  -- the same number makes the same id
  refine w.db.attempts.eq_of_key_eq ha hb ?_
  rw [(h.keyed a ha).1, (h.keyed b hb).1, hk, hk', hs, hs', hnumber]

theorem KeysOk.bounds (h : KeysOk budget sha256 w stages) {k s : Guid} {a : DeliveryAttempt}
    (ha : a ∈ attemptsOf k s w.db.attempts) : 1 ≤ a.attemptNumber ∧ a.attemptNumber ≤ budget s + 1 := by
  obtain ⟨hmem, -, rfl⟩ := AttemptStore.mem_attemptsOf.mp ha
  exact (h.keyed a hmem).2

/-- So there are at most as many as numbers. -/
theorem KeysOk.length_le (h : KeysOk budget sha256 w stages) (k s : Guid) :
    (attemptsOf k s w.db.attempts).length ≤ (budget s + 1).toNat := by
  have hsubset : ((attemptsOf k s w.db.attempts).map (·.attemptNumber)).toFinset ⊆
      Finset.Icc 1 (budget s + 1) := by
    intro n hn
    obtain ⟨a, ha, rfl⟩ := List.mem_map.mp (List.mem_toFinset.mp hn)
    exact Finset.mem_Icc.mpr (h.bounds ha)
  have hcard := Finset.card_le_card hsubset
  rwa [List.toFinset_card_of_nodup (h.attemptNumber_nodup k s), List.length_map, Int.card_Icc,
    Int.add_sub_cancel] at hcard

/-! ## Two rounds at once -/

/-- Whether an action purges no attempts and begins a round within a budget of three retries. -/
def withinThree : Action → Bool
  | .begin_ _ plan => plan.Within fun _ => 3
  | .purgeAttempts => false
  | _ => true

/-- Two rounds on the order overlap: both have counted no attempts, and both make the first one for each
subscription.  The round that began first saves what it has, and the save of the other fails.  Two more
rounds follow. -/
def overlappedCues : List Cue :=
  [.publish 0 (orderArgs 1), .acquireHot shardedHost 1, .begin_ 0 bothPlan, .call 0 .done,
    -- the lock expires while the first round is delivering
    .tick 4000000000, .acquireCold shardedHost [], .begin_ 1 bothPlan, .call 1 .done] ++
  [.returned (.ok unavailable), .time 5, .returned (.ok accepted), .time 6].flatMap
    (fun reply => [.call 0 reply, .call 1 reply]) ++
  [.call 0 .done, .call 1 (.failed ⟨false, text "duplicate key"⟩)] ++
  [.drew (1 / 2), .time 10, .done].map (.call 0) ++
  [.tick 4100000000, .acquireHot shardedHost 1] ++
  Cue.round 2 bothPlan [.done, .returned (.ok unavailable), .time 4100000000, .done, .drew (1 / 2),
    .time 10, .done] ++
  [.acquireHot shardedHost 1] ++
  Cue.round 3 bothPlan [.done, .returned (.ok accepted), .time 4100000005, .done, .done]

/-- The world after them. -/
def overlapped : World :=
  rehearsed sqlServer (Database.exec? sqlServer) (fun _ act _ => withinThree act) (initial 0)
    overlappedCues

theorem overlapped_run : ∃ acts, Run sqlServer (Database.Exec sqlServer) (initial 0) acts overlapped ∧
    (∀ token plan, .begin_ token plan ∈ acts → plan.Within fun _ => 3) ∧
    ∀ act ∈ acts, act ≠ .purgeAttempts := by
  have hrehearses : rehearses sqlServer (Database.exec? sqlServer) (fun _ act _ => withinThree act)
      (initial 0) overlappedCues = true := by decide +kernel
  obtain ⟨acts, hrun⟩ := steps_of_rehearsal (P := fun w act w' =>
    Step sqlServer (Database.Exec sqlServer) w act w' ∧ withinThree act = true) hrehearses
    (fun _ _ _ _ _ => Database.Exec.of_exec?) fun _ _ _ hs htest => ⟨hs, htest⟩
  have hacts : ∀ act ∈ acts, withinThree act = true := hrun.labels _ fun _ _ _ hs => hs.2
  refine ⟨acts, hrun.mono fun _ _ _ hs => hs.1, fun token plan hact => ?_, ?_⟩
  · exact of_decide_eq_true (hacts _ hact)
  · rintro act hact rfl
    exact absurd (hacts _ hact) (by decide)

theorem overlapped_sha256 : ∀ r ∈ overlapped.rounds, r.pipeline.sha256 = Hash.sparse := by
  have hhosts : overlappedCues.filterMap Cue.host? = List.replicate 4 shardedHost := rfl
  exact sha256_of_sharded hhosts

/-- **Attempts stay within the budget.** Take any run of any number of workers: rounds overlap and crash,
deliveries and the database fail, messages and attempts are purged at any times.  The attempts stored for
a message and a subscription have different numbers, from 1 to `MaxRetries + 1`. -/
theorem attempts_within_budget {now : DateTimeOffset} {acts : List Action}
    (hrun : Run dep (Database.Exec dep) (initial now) acts w) (hbudget : ∀ s, budget s < int32Max)
    (hplans : ∀ token plan, .begin_ token plan ∈ acts → plan.Within budget)
    (hsha256 : ∀ r ∈ w.rounds, r.pipeline.sha256 = sha256) (k s : Guid) :
    ((attemptsOf k s w.db.attempts).map (·.attemptNumber)).Nodup ∧
    (∀ a ∈ attemptsOf k s w.db.attempts,
      1 ≤ a.attemptNumber ∧ a.attemptNumber ≤ budget s + 1) ∧
    (attemptsOf k s w.db.attempts).length ≤ (budget s + 1).toNat := by
  obtain ⟨stages, -, h⟩ := run_with_hash (KeysOk budget sha256)
    (fun act => ∀ token plan, act = .begin_ token plan → plan.Within budget)
    (fun _ _ _ _ _ hbegin hbefore h hs hst => h.step hbudget hbefore hs hst hbegin) hrun
    (by rintro act hact token plan rfl; exact hplans token plan hact) hsha256 (KeysOk.initial now)
  exact ⟨h.attemptNumber_nodup k s, fun a ha => h.bounds ha, h.length_le k s⟩

/-- Of the four attempts that may be stored for either subscription, the rounds have stored three for the
one and one for the other. -/
theorem attempts_within_budget_order :
    (attemptsOf 1 7 overlapped.db.attempts).length ≤ 4 ∧
    ((attemptsOf 1 7 overlapped.db.attempts).map (·.attemptNumber)).Nodup ∧
    (attemptsOf 1 8 overlapped.db.attempts).length ≤ 4 ∧
    [7, 8].map (fun s => (attemptsOf 1 s overlapped.db.attempts).length) = [3, 1] := by
  obtain ⟨acts, hrun, hplans, -⟩ := overlapped_run
  have hbudget : ∀ _ : Guid, (3 : ℤ) < int32Max := fun _ => by decide
  have hwithin := attempts_within_budget hrun hbudget hplans overlapped_sha256
  exact ⟨(hwithin 1 7).2.2, (hwithin 1 7).1, (hwithin 1 8).2.2, by decide +kernel⟩

/-! ## Numbers without gaps -/

/-- What a round that is delivering has counted is still stored, and the successes stored since it read
have larger numbers. -/
def Caught (w : World) (job : Job) : Stage → Prop
  | .delivering states _ => (w.db.messages.find? job.message.id).isSome = true →
      ∀ subscription ∈ job.subscriptions, Job.attempted states subscription = true →
        attemptCount states subscription ≤
          (attemptsOf job.message.id subscription.id w.db.attempts).length ∧
        ∀ a ∈ attemptsOf job.message.id subscription.id w.db.attempts, a.status = .success →
          attemptCount states subscription < a.attemptNumber
  | _ => True

/-- The stored attempts of a message and a subscription are numbered from 1, and a success is the last of
them. -/
structure Historic (budget : Guid → ℤ) (sha256 : Hash) (w : World) (stages : ℕ → Stage) : Prop where
  keys : KeysOk budget sha256 w stages
  numbering : Numbering w.db.attempts
  last : ∀ a ∈ w.db.attempts.rows, a.status = .success → ∀ b ∈ w.db.attempts.rows,
    b.outboxMessageId = a.outboxMessageId → b.webhookSubscriptionId = a.webhookSubscriptionId →
    b.attemptNumber ≤ a.attemptNumber
  rounds : ForRounds (fun _ => w.Caught) w stages

/-- The number of a keyed attempt. -/
theorem Keyed.ordinal_eq {a : DeliveryAttempt} (h : Keyed budget sha256 a)
    (hbudget : ∀ s, budget s < int32Max) : (ordinal a : ℤ) = a.attemptNumber := by
  obtain ⟨-, hge, hle⟩ := h
  have hlt := hbudget a.webhookSubscriptionId
  rw [int32Max] at hlt
  rw [ordinal, Int.emod_eq_of_lt (by omega) (by omega), Int.toNat_of_nonneg (by omega)]

/-- A row that a save inserts has an id that was not stored. -/
theorem saved_id_ne {attempts attempts' : Attempts} {d : AttemptStore.Defaults} {messages : Messages}
    {newAttempts : List DeliveryAttempt}
    (hsave : AttemptStore.saveAttemptsAsync dep d messages newAttempts attempts = some attempts')
    {a : DeliveryAttempt} (ha : a ∈ newAttempts) (hne : a.id ≠ .empty) {b : DeliveryAttempt}
    (hb : b ∈ attempts.rows) : b.id ≠ a.id := by
  have hnodup := attempts'.nodup
  rw [AttemptStore.saveAttemptsAsync_rows hsave, List.map_append] at hnodup
  obtain ⟨i, hi, rfl⟩ := List.mem_iff_getElem.mp ha
  have hrow : AttemptStore.attemptRow dep d i newAttempts[i] ∈
      AttemptStore.attemptRows dep d newAttempts := List.mem_mapIdx.mpr ⟨i, hi, rfl⟩
  have hid := (List.nodup_append.mp hnodup).2.2 _ (List.mem_map_of_mem hb) _ (List.mem_map_of_mem hrow)
  rwa [AttemptStore.attemptRow_id hne] at hid

namespace Historic

variable {token : ℕ} {r : Round} {subscriptions : List WebhookSubscription} {loop : LoopSchedule}
  {prog : Prog Call Call.Ans (Except Exn Unit)} {states : States} {results : Results}
  {utcNow : ℕ → DateTimeOffset} {newAttempts : List DeliveryAttempt} {d : AttemptStore.Defaults}
  {attempts : Attempts}

/-- The number of a stored attempt is at most the count of its message and subscription. -/
theorem attemptNumber_le (h : Historic budget sha256 w stages) (hbudget : ∀ s, budget s < int32Max)
    {k s : Guid} {a : DeliveryAttempt} (ha : a ∈ attemptsOf k s w.db.attempts) :
    a.attemptNumber ≤ (attemptsOf k s w.db.attempts).length := by
  have heq := (h.keys.keyed a (AttemptStore.mem_attemptsOf.mp ha).1).ordinal_eq hbudget
  have hle := ((h.numbering k s).mem_iff.mp (List.mem_map_of_mem ha)).2
  rw [List.length_map] at hle
  omega

/-- An attempt that is saved has the number after those stored, none of which is a success. -/
theorem saved_next (h : Historic budget sha256 w stages) (hbudget : ∀ s, budget s < int32Max)
    (hsha256 : ∀ r ∈ w.rounds, r.pipeline.sha256 = sha256) (hr : w.rounds[token]? = some r)
    (hwork : r.work = some ⟨.direct subscriptions loop, prog⟩)
    (hstage : stages token = .delivering states results)
    (hperm : newAttempts.Perm ((r.job subscriptions).newAttempts states results utcNow))
    (hsave : AttemptStore.saveAttemptsAsync dep d w.db.messages newAttempts w.db.attempts =
      some attempts) {a : DeliveryAttempt} (ha : a ∈ newAttempts) :
    Keyed budget sha256 a ∧
      a.attemptNumber =
        (attemptsOf a.outboxMessageId a.webhookSubscriptionId w.db.attempts).length + 1 ∧
      ∀ b ∈ attemptsOf a.outboxMessageId a.webhookSubscriptionId w.db.attempts,
        b.status ≠ .success := by
  obtain ⟨hkeyed, hmessage, subscription, hsub, hatt, hsubId, hnumber⟩ :=
    h.keys.newAttempts hbudget hsha256 hr hwork hstage (hperm.mem_iff.mp ha)
  have hcaught := h.rounds token r subscriptions loop prog hr hwork
  rw [hstage] at hcaught
  have halive := AttemptStore.saveAttemptsAsync_foreignKey hsave ha
  rw [hmessage] at halive ⊢
  rw [hsubId]
  obtain ⟨hle, hsuccess⟩ := hcaught halive subscription hsub hatt
  change attemptCount states subscription ≤
    (attemptsOf r.message.id subscription.id w.db.attempts).length at hle
  have hnumbered := h.numbering r.message.id subscription.id
  -- a stored attempt with the number would have the id
  have hfree : ∀ b ∈ attemptsOf r.message.id subscription.id w.db.attempts,
      b.attemptNumber ≠ a.attemptNumber := by
    intro b hb hsame
    obtain ⟨hmem, hid, hid'⟩ := AttemptStore.mem_attemptsOf.mp hb
    have hne : a.id ≠ .empty := by
      rw [hkeyed.1]
      exact deriveDeliveryId_ne_empty _ _ _ _
    refine saved_id_ne hsave ha hne hmem ?_
    rw [(h.keys.keyed b hmem).1, hkeyed.1, hid, hid', hsame, hmessage, hsubId]
  have hcount : attemptCount states subscription =
      (attemptsOf r.message.id subscription.id w.db.attempts).length := by
    by_contra hne
    have hmem : a.attemptNumber.toNat ∈
        (attemptsOf r.message.id subscription.id w.db.attempts).map ordinal := by
      rw [hnumbered.mem_iff, List.length_map]
      have hge := hkeyed.2.1
      omega
    obtain ⟨b, hb, hordinal⟩ := List.mem_map.mp hmem
    refine hfree b hb ?_
    have heq := (h.keys.keyed b (AttemptStore.mem_attemptsOf.mp hb).1).ordinal_eq hbudget
    have hge := hkeyed.2.1
    omega
  refine ⟨hkeyed, by rw [hnumber, hcount], fun b hb hstatus => ?_⟩
  have hlt := hsuccess b hb hstatus
  have hbound := h.attemptNumber_le hbudget hb
  omega

theorem numbering_step (h : Historic budget sha256 w stages) (hbudget : ∀ s, budget s < int32Max)
    (hsha256 : ∀ r ∈ w.rounds, r.pipeline.sha256 = sha256) {messages : Messages}
    (hattempts : AttemptsStep dep w stages act messages attempts) (hact : act ≠ .purgeAttempts) :
    Numbering attempts := by
  cases hattempts with
  | same => exact h.numbering
  | saved _ hr hwork hstage hperm hsave =>
      refine h.numbering.save hsave ?_ fun a ha => ?_
      · have hnodup := (h.keys.planned _ _ _ hr hwork).1
        exact ((hperm.map _).nodup_iff).mpr (Job.newAttempts_subscriptions hnodup _ _ _)
      · obtain ⟨hkeyed, hnumber, -⟩ := h.saved_next hbudget hsha256 hr hwork hstage hperm hsave ha
        have hordinal := hkeyed.ordinal_eq hbudget
        omega
  | cascade => exact h.numbering.cascade _
  | purged hpurge => exact absurd hpurge hact

theorem last_step (h : Historic budget sha256 w stages) (hbudget : ∀ s, budget s < int32Max)
    (hsha256 : ∀ r ∈ w.rounds, r.pipeline.sha256 = sha256) {messages : Messages}
    (hattempts : AttemptsStep dep w stages act messages attempts) (hact : act ≠ .purgeAttempts) :
    ∀ a ∈ attempts.rows, a.status = .success → ∀ b ∈ attempts.rows,
      b.outboxMessageId = a.outboxMessageId → b.webhookSubscriptionId = a.webhookSubscriptionId →
      b.attemptNumber ≤ a.attemptNumber := by
  intro a ha hstatus b hb hid hsub
  cases hattempts with
  | same => exact h.last a ha hstatus b hb hid hsub
  | saved _ hr hwork hstage hperm hsave =>
      have hnext := fun x hx => h.saved_next hbudget hsha256 hr hwork hstage hperm hsave (a := x) hx
      rcases AttemptStore.mem_saveAttemptsAsync hsave ha with ha | ⟨i, x, hx, rfl⟩
      · rcases AttemptStore.mem_saveAttemptsAsync hsave hb with hb | ⟨j, y, hy, rfl⟩
        · exact h.last a ha hstatus b hb hid hsub
        · -- no attempt follows a success
          refine absurd hstatus ((hnext y hy).2.2 a ?_)
          exact AttemptStore.mem_attemptsOf.mpr ⟨ha, hid.symm, hsub.symm⟩
      · have hx' : x.attemptNumber = (attemptsOf x.outboxMessageId x.webhookSubscriptionId
            w.db.attempts).length + 1 := (hnext x hx).2.1
        show b.attemptNumber ≤ x.attemptNumber
        rcases AttemptStore.mem_saveAttemptsAsync hsave hb with hb | ⟨j, y, hy, rfl⟩
        · have hle := h.attemptNumber_le hbudget (AttemptStore.mem_attemptsOf.mpr ⟨hb, hid, hsub⟩)
          change b.attemptNumber ≤
            (attemptsOf x.outboxMessageId x.webhookSubscriptionId w.db.attempts).length at hle
          omega
        · -- both have the next number
          have hid : y.outboxMessageId = x.outboxMessageId := hid
          have hsub : y.webhookSubscriptionId = x.webhookSubscriptionId := hsub
          have hy' := (hnext y hy).2.1
          rw [hid, hsub, ← hx'] at hy'
          exact hy'.le
  | cascade =>
      exact h.last a (AttemptStore.mem_cascade.mp ha).1 hstatus b (AttemptStore.mem_cascade.mp hb).1 hid
        hsub
  | purged hpurge => exact absurd hpurge hact

/-- What a round has counted stays stored. -/
theorem caught_step (h : Historic budget sha256 w stages) (hbudget : ∀ s, budget s < int32Max)
    (hsha256 : ∀ r ∈ w.rounds, r.pipeline.sha256 = sha256)
    (hattempts : AttemptsStep dep w stages act w'.db.messages w'.db.attempts)
    (hact : act ≠ .purgeAttempts) {job : Job} {s : Stage}
    (halive : (w'.db.messages.find? job.message.id).isSome = true →
      (w.db.messages.find? job.message.id).isSome = true)
    (hcaught : w.Caught job s) : w'.Caught job s := by
  cases s with
  | delivering states results =>
      intro hrow subscription hsub hatt
      obtain ⟨hle, hsuccess⟩ := hcaught (halive hrow) subscription hsub hatt
      generalize w'.db.attempts = attempts at hattempts
      cases hattempts with
      | same => exact ⟨hle, hsuccess⟩
      | saved _ hr hwork hstage hperm hsave =>
          refine ⟨?_, fun a ha hstatus => ?_⟩
          · rw [AttemptStore.length_attemptsOf_saveAttemptsAsync hsave]
            omega
          · obtain ⟨ha, hid, hid'⟩ := AttemptStore.mem_attemptsOf.mp ha
            rcases AttemptStore.mem_saveAttemptsAsync hsave ha with ha | ⟨i, x, hx, rfl⟩
            · exact hsuccess a (AttemptStore.mem_attemptsOf.mpr ⟨ha, hid, hid'⟩) hstatus
            · have hnext := (h.saved_next hbudget hsha256 hr hwork hstage hperm hsave hx).2.1
              have hid : x.outboxMessageId = job.message.id := hid
              have hid' : x.webhookSubscriptionId = subscription.id := hid'
              rw [hid, hid'] at hnext
              show attemptCount states subscription < x.attemptNumber
              omega
      | cascade =>
          rw [AttemptStore.cascade, AttemptStore.attemptsOf_delete]
          · exact ⟨hle, hsuccess⟩
          · intro a ha
            obtain ⟨-, hid, -⟩ := AttemptStore.mem_attemptsOf.mp ha
            rw [hid, Option.isNone_eq_false_iff]
            exact hrow
      | purged hpurge => exact absurd hpurge hact
  | _ => trivial

/-- A call of a round: the read counts what is stored. -/
theorem caught_call (h : Historic budget sha256 w stages) (hbudget : ∀ s, budget s < int32Max)
    (hsha256 : ∀ r ∈ w.rounds, r.pipeline.sha256 = sha256) {entry : Entry}
    (hs : Step dep (Database.Exec dep) w (.call token entry) w')
    (hattempts : AttemptsStep dep w stages (.call token entry) w'.db.messages w'.db.attempts)
    {job : Job} {s s' : Stage} (hnodup : (job.subscriptions.map (·.id)).Nodup)
    (halive : (w'.db.messages.find? job.message.id).isSome = true →
      (w.db.messages.find? job.message.id).isSome = true)
    (htrans : job.Trans entry.call s entry.answer s') (hcaught : w.Caught job s) :
    w'.Caught job s' := by
  obtain ⟨c, answer⟩ := entry
  cases hs' : s' with
  | delivering states results =>
      rcases htrans.into_delivering hs' with ⟨rfl, rfl, hentry⟩ | ⟨results₀, rfl, -, -⟩
      · cases hentry
        obtain ⟨hstates, hdb⟩ := hs.called.1.read
        intro _ subscription hsub hatt
        rw [hdb]
        refine ⟨le_of_eq ?_, fun a ha hstatus => ?_⟩
        · rw [hstates]
          exact Pipeline.attemptCount_getDeliveryStatesAsync (List.mem_map_of_mem hsub) hnodup
        · -- a stored success would keep the subscription from being attempted
          have hnone := (Job.attempted_iff.mp hatt).1
          rw [hstates, Pipeline.hasSuccess_getDeliveryStatesAsync (List.mem_map_of_mem hsub),
            ← Bool.not_eq_true] at hnone
          obtain ⟨hmem, hid, hid'⟩ := AttemptStore.mem_attemptsOf.mp ha
          exact absurd (AttemptStore.hasSuccess_iff.mpr ⟨a, hmem, hid, hid', hstatus⟩) hnone
      · exact h.caught_step hbudget hsha256 hattempts (fun heq => by cases heq) halive hcaught
  | _ => trivial

/-- The step lemma. -/
theorem step (h : Historic budget sha256 w stages) (hbudget : ∀ s, budget s < int32Max)
    (hsha256 : ∀ r ∈ w.rounds, r.pipeline.sha256 = sha256)
    (hs : Step dep (Database.Exec dep) w act w') (hst : StageStep w stages act stages')
    (hact : act ≠ .purgeAttempts)
    (hbegin : ∀ token plan, act = .begin_ token plan → plan.Within budget) :
    Historic budget sha256 w' stages' where
  keys := h.keys.step hbudget hsha256 hs hst hbegin
  numbering := h.numbering_step hbudget hsha256 (hs.attempts hst hact) hact
  last := h.last_step hbudget hsha256 (hs.attempts hst hact) hact
  rounds := by
    have hattempts := hs.attempts hst hact
    refine h.rounds.step_of_work hs hst (fun _ _ _ _ _ _ _ => trivial) ?_ ?_
    · intro token r subscriptions loop prog s _ hr _ hcaught
      exact h.caught_step hbudget hsha256 hattempts hact (hs.alive sound_exec hr) hcaught
    · rintro token entry r subscriptions loop prog s s' rfl hr hwork htrans hcaught
      exact h.caught_call hbudget hsha256 hs hattempts (h.keys.planned token r _ hr hwork).1
        (hs.alive sound_exec hr) htrans hcaught

theorem initial (now : DateTimeOffset) : Historic budget sha256 (initial now) fun _ => .start where
  keys := KeysOk.initial now
  numbering := Numbering.empty
  last := List.forall_mem_nil _
  rounds := ForRounds.initial _ now _

theorem numbers_nodup (n : ℕ) : ((List.range' 1 n).map Int.ofNat).Nodup :=
  List.Nodup.map (fun _ _ heq => Int.ofNat.inj heq) List.nodup_range'

/-- The history of a subscription in the list for its message: the numbers in their order. -/
theorem history_map (h : Historic budget sha256 w stages) (hbudget : ∀ s, budget s < int32Max)
    {scan : List DeliveryAttempt} (hscan : scan.Perm w.db.attempts.rows) (k s : Guid) :
    (historyOf s (getByMessageIdAsync k scan)).map (·.attemptNumber) =
      (List.range' 1 (attemptsOf k s w.db.attempts).length).map Int.ofNat := by
  have hperm : (historyOf s (getByMessageIdAsync k scan)).Perm (attemptsOf k s w.db.attempts) :=
    AttemptStore.historyOf_perm hscan
  have hordinal : ∀ a ∈ historyOf s (getByMessageIdAsync k scan),
      (ordinal a : ℤ) = a.attemptNumber := fun a ha =>
    (h.keys.keyed a (AttemptStore.mem_attemptsOf.mp (hperm.mem_iff.mp ha)).1).ordinal_eq hbudget
  have hnumbered := h.numbering k s
  rw [Numbered, List.length_map] at hnumbered
  have hsorted : ((historyOf s (getByMessageIdAsync k scan)).map ordinal).Pairwise (· ≤ ·) := by
    rw [List.pairwise_map]
    refine AttemptStore.historyOf_sorted.imp_of_mem fun ha hb hle => ?_
    have ha' := hordinal _ ha
    have hb' := hordinal _ hb
    omega
  have heq : (historyOf s (getByMessageIdAsync k scan)).map ordinal =
      List.range' 1 (attemptsOf k s w.db.attempts).length :=
    ((hperm.map ordinal).trans hnumbered).eq_of_pairwise' hsorted
      (List.pairwise_le_range' (s := 1) (n := (attemptsOf k s w.db.attempts).length) 1)
  rw [← heq, List.map_map]
  exact List.map_congr_left fun a ha => (hordinal a ha).symm

/-- A success is the last attempt of the history. -/
theorem history_last (h : Historic budget sha256 w stages) (hbudget : ∀ s, budget s < int32Max)
    {scan : List DeliveryAttempt} (hscan : scan.Perm w.db.attempts.rows) {k s : Guid}
    {a : DeliveryAttempt} (ha : a ∈ historyOf s (getByMessageIdAsync k scan))
    (hstatus : a.status = .success) :
    (historyOf s (getByMessageIdAsync k scan)).getLast? = some a := by
  have hperm : (historyOf s (getByMessageIdAsync k scan)).Perm (attemptsOf k s w.db.attempts) :=
    AttemptStore.historyOf_perm hscan
  have hnodup : ((historyOf s (getByMessageIdAsync k scan)).map (·.attemptNumber)).Nodup := by
    rw [h.history_map hbudget hscan]
    exact numbers_nodup _
  have hsorted := @AttemptStore.historyOf_sorted k s scan
  generalize historyOf s (getByMessageIdAsync k scan) = history at ha hperm hnodup hsorted
  rcases List.eq_nil_or_concat history with rfl | ⟨front, b, rfl⟩
  · cases ha
  · rw [List.concat_eq_append] at ha hperm hnodup hsorted ⊢
    rw [List.getLast?_concat]
    obtain ⟨hamem, hid, hsub⟩ := AttemptStore.mem_attemptsOf.mp (hperm.mem_iff.mp ha)
    have hb : b ∈ front ++ [b] := List.mem_append_right _ List.mem_cons_self
    obtain ⟨hbmem, hid', hsub'⟩ := AttemptStore.mem_attemptsOf.mp (hperm.mem_iff.mp hb)
    have hle := h.last a hamem hstatus b hbmem (hid'.trans hid.symm) (hsub'.trans hsub.symm)
    have hge : a.attemptNumber ≤ b.attemptNumber := by
      rcases List.mem_append.mp ha with hfront | hlast
      · exact (List.pairwise_append.mp hsorted).2.2 a hfront b List.mem_cons_self
      · rw [List.mem_singleton.mp hlast]
    rw [List.inj_on_of_nodup_map hnodup hb ha (hle.antisymm hge)]

end Historic

/-- **The history of a delivery.** Take any run of any number of workers, with any interleaving, crashes
and failures, in which no attempts are purged.  In the list of the attempts of a message, those of a
subscription have the numbers 1, 2, …, `GetAttemptCountAsync`, in this order and not beyond
`MaxRetries + 1`; `HasSuccessfulDeliveryAsync` says whether the last one was a success, and none before it
was. -/
theorem history_numbered {now : DateTimeOffset} {acts : List Action}
    (hrun : Run dep (Database.Exec dep) (initial now) acts w) (hbudget : ∀ s, budget s < int32Max)
    (hplans : ∀ token plan, .begin_ token plan ∈ acts → plan.Within budget)
    (hsha256 : ∀ r ∈ w.rounds, r.pipeline.sha256 = sha256) (hpurge : ∀ act ∈ acts, act ≠ .purgeAttempts)
    {scan history : List DeliveryAttempt} (hscan : scan.Perm w.db.attempts.rows) {k s : Guid}
    (hhistory : history = historyOf s (getByMessageIdAsync k scan)) :
    history.map (·.attemptNumber) = (List.range' 1 history.length).map Int.ofNat ∧
    getAttemptCountAsync k s w.db.attempts = history.length ∧ history.length ≤ (budget s + 1).toNat ∧
    (hasSuccessfulDeliveryAsync k s w.db.attempts = true ↔
      ∃ a, history.getLast? = some a ∧ a.status = .success) ∧
    ∀ a ∈ history.dropLast, a.status ≠ .success := by
  obtain ⟨stages, -, h⟩ := run_with_hash (Historic budget sha256)
    (fun act => act ≠ .purgeAttempts ∧ ∀ token plan, act = .begin_ token plan → plan.Within budget)
    (fun _ _ _ _ _ hact hbefore h hs hst => h.step hbudget hbefore hs hst hact.1 hact.2) hrun
    (fun act hact => ⟨hpurge act hact, by rintro token plan rfl; exact hplans token plan hact⟩) hsha256
    (Historic.initial now)
  have hperm : history.Perm (attemptsOf k s w.db.attempts) := by
    rw [hhistory]
    exact AttemptStore.historyOf_perm hscan
  have hnumbers : history.map (·.attemptNumber) = (List.range' 1 history.length).map Int.ofNat := by
    rw [hperm.length_eq, hhistory]
    exact h.history_map hbudget hscan k s
  have hlast : ∀ a ∈ history, a.status = .success → history.getLast? = some a := by
    rw [hhistory]
    exact fun a ha hstatus => h.history_last hbudget hscan ha hstatus
  refine ⟨hnumbers, ?_, ?_, ⟨fun hsuccess => ?_, ?_⟩, fun a ha hstatus => ?_⟩
  · rw [AttemptStore.getAttemptCountAsync_eq, hperm.length_eq]
  · rw [hperm.length_eq]
    exact h.keys.length_le k s
  · rw [AttemptStore.hasSuccessfulDeliveryAsync_eq, AttemptStore.hasSuccess_iff] at hsuccess
    obtain ⟨a, ha, hid, hsub, hstatus⟩ := hsuccess
    have hmem := hperm.mem_iff.mpr (AttemptStore.mem_attemptsOf.mpr ⟨ha, hid, hsub⟩)
    exact ⟨a, hlast a hmem hstatus, hstatus⟩
  · rintro ⟨a, ha, hstatus⟩
    rw [AttemptStore.hasSuccessfulDeliveryAsync_eq, AttemptStore.hasSuccess_iff]
    have hmem := AttemptStore.mem_attemptsOf.mp (hperm.mem_iff.mp (List.mem_of_getLast? ha))
    exact ⟨a, hmem.1, hmem.2.1, hmem.2.2, hstatus⟩
  · -- the last attempt would stand twice
    have hnodup : history.Nodup := by
      refine List.Nodup.of_map (·.attemptNumber) ?_
      rw [hnumbers]
      exact Historic.numbers_nodup _
    have hget := hlast a (List.mem_of_mem_dropLast ha) hstatus
    rw [← List.dropLast_append_getLast? a hget] at hnodup
    exact (List.nodup_append.mp hnodup).2.2 a ha a List.mem_cons_self rfl

/-- The history of the order after its overlapping rounds: two failures, and then a success. -/
theorem history_numbered_order :
    (historyOf 7 (getByMessageIdAsync 1 overlapped.db.attempts.rows)).map (·.attemptNumber) = [1, 2, 3] ∧
    (∃ a, (historyOf 7 (getByMessageIdAsync 1 overlapped.db.attempts.rows)).getLast? = some a ∧
      a.status = .success) ∧
    ∀ a ∈ (historyOf 7 (getByMessageIdAsync 1 overlapped.db.attempts.rows)).dropLast,
      a.status ≠ .success := by
  obtain ⟨acts, hrun, hplans, hpurge⟩ := overlapped_run
  have hbudget : ∀ _ : Guid, (3 : ℤ) < int32Max := fun _ => by decide
  obtain ⟨hnumbers, hcount, -, hsuccess, hfailures⟩ :=
    history_numbered hrun hbudget hplans overlapped_sha256 hpurge (List.Perm.refl _) rfl (k := 1) (s := 7)
  have hthree : (historyOf 7 (getByMessageIdAsync 1 overlapped.db.attempts.rows)).length = 3 := by
    have hstored : getAttemptCountAsync 1 7 overlapped.db.attempts = 3 := by decide +kernel
    omega
  have hsucceeded : hasSuccessfulDeliveryAsync 1 7 overlapped.db.attempts = true := by decide +kernel
  rw [hthree] at hnumbers
  exact ⟨hnumbers, hsuccess.mp hsucceeded, hfailures⟩

end World

end OutboxNet
