import OutboxNet.Store.AttemptNumbers
import OutboxNet.System.ExactlyOnce
import OutboxNet.System.Overlap
import OutboxNet.System.RetryBudget

/-!
# Fresh attempt ids

The id of an attempt is derived from its number, and its number is the count of the stored attempts of
its message and subscription plus one.  When the rounds on a message follow one another, the id is not
that of a stored attempt as long as the stored numbers are 1, …, count.  `PurgeOldAttemptsAsync` breaks
this when it takes an attempt and leaves a later one, or takes attempts that a round has counted.
-/

set_option autoImplicit false

namespace OutboxNet

open AttemptStore (States attemptsOf ordinal Numbering FreshIds)
open Pipeline (attemptCount nextAttempt)

variable {dep : Deployment}

/-- Whether a call saves attempts or writes a message back. -/
def Call.isWrite : Call → Bool
  | .saveAttempts _ => true
  | c => c.writeBack?.isSome

/-- Whether an action is a call. -/
def Action.isCall : Action → Bool
  | .call _ _ => true
  | _ => false

/-- The subscriptions of a plan have distinct ids, and `MaxRetries` is a 32-bit number. -/
def Plan.Readable : Plan → Prop
  | .direct subscriptions _ => (subscriptions.map (·.id)).Nodup ∧
      ∀ subscription ∈ subscriptions, subscription.maxRetries ≤ int32Max
  | .queueMediated => True

namespace Job

variable {job : Job}

/-- How a round comes to be delivering: by its read, or by a call made while it was delivering. -/
theorem Trans.into_delivering {c : Call} {s : Stage} {a : c.Ans} {s' : Stage}
    (h : job.Trans c s a s') {states : States} {results : Results}
    (hs' : s' = .delivering states results) :
    (s = .start ∧ results = Results.none ∧
      (⟨c, a⟩ : Entry) = ⟨.getDeliveryStates job.message.id (job.subscriptions.map (·.id)),
        Except.ok states⟩) ∨
    ∃ results₀, s = .delivering states results₀ ∧ c.isWrite = false ∧
      ∀ (i : ℕ) r, results i = some r → results₀ i = some r ∨ ∃ subscription,
        job.subscriptions[i]? = some subscription ∧ attempted states subscription = true := by
  induction h with
  | metric =>
      cases hs'
      exact .inr ⟨results, rfl, rfl, fun i r hi => .inl hi⟩
  | attemptTime =>
      cases hs'
      exact .inr ⟨results, rfl, rfl, fun i r hi => .inl hi⟩
  | read =>
      cases hs'
      exact .inl ⟨rfl, rfl, rfl⟩
  | readThrew => split at hs' <;> cases hs'
  | @deliver states results₀ i subscription r hsub hi hatt =>
      cases hs'
      refine .inr ⟨results₀, rfl, rfl, fun j r' hj => ?_⟩
      -- the one new result is that of the position delivered to
      by_cases heq : j = i
      · subst heq
        exact .inr ⟨subscription, hsub, hatt⟩
      · rw [Function.update_of_ne heq] at hj
        exact .inl hj
  | saveThrew =>
      unfold afterFailedSave at hs'
      split at hs' <;> cases hs'
  | nothingToSave _ _ _ ih =>
      rcases ih hs' with ⟨hs, -⟩ | ⟨_, hs, -⟩ <;> cases hs
  | faulted _ _ ih =>
      rcases ih hs' with ⟨hs, -⟩ | ⟨_, hs, -⟩ <;> cases hs
  | retry _ _ ih =>
      rcases ih hs' with ⟨hs, -⟩ | ⟨_, hs, -⟩ <;> cases hs
  | _ => cases hs'

/-- What leaves a round in its first stage writes nothing. -/
theorem Trans.into_start {c : Call} {s s' : Stage} {a : c.Ans} (h : job.Trans c s a s')
    (hs' : s' = .start) : s = .start ∧ c.isWrite = false := by
  obtain ⟨hs, metric, eventType, rfl⟩ := h.metric_of_start hs'
  exact ⟨hs, rfl⟩

/-- The attempts of a round belong to different subscriptions. -/
theorem newAttempts_subscriptions (hnodup : (job.subscriptions.map (·.id)).Nodup) (states : States)
    (results : Results) (utcNow : ℕ → DateTimeOffset) :
    ((job.newAttempts states results utcNow).map (·.webhookSubscriptionId)).Nodup := by
  rw [newAttempts, List.map_filterMap]
  refine List.nodup_range.filterMap fun i j subscriptionId hi hj => ?_
  have hposition : ∀ {l : ℕ}, ((job.attemptAt states results utcNow l).map
      (·.webhookSubscriptionId)) = some subscriptionId →
      ∃ subscription, job.subscriptions[l]? = some subscription ∧ subscription.id = subscriptionId := by
    intro l hl
    obtain ⟨a, ha, hid⟩ := Option.map_eq_some_iff.mp hl
    unfold attemptAt at ha
    split at ha
    · next subscription r hsub _ =>
        cases ha
        exact ⟨subscription, hsub, hid⟩
    · cases ha
  obtain ⟨subscription, hsub, hid⟩ := hposition hi
  obtain ⟨subscription', hsub', hid'⟩ := hposition hj
  exact position_eq hnodup hsub hsub' (hid.trans hid'.symm)

end Job

namespace World

/-! ## One round after another -/

/-- The calls of the rounds on message `k`. -/
def callsOn (w : World) (k : Guid) : List (ℕ × Entry) :=
  w.log.filter fun x => (w.acquisition x.1).any fun a => a.2.id = k

/-- Round `token` has made the last call of the rounds on message `k`. -/
def Running (w : World) (k : Guid) (token : ℕ) : Prop :=
  ∃ entry, (w.callsOn k).getLast? = some (token, entry)

/-- A round makes its first call, or goes on while no other round on its message has made one. -/
def Solo (w : World) (act : Action) : Prop :=
  ∀ token entry r, act = .call token entry → w.rounds[token]? = some r →
    w.entriesOf token = [] ∨ w.Running r.message.id token

theorem Running.unique {w : World} {k : Guid} {token token' : ℕ} (h : w.Running k token)
    (h' : w.Running k token') : token = token' := by
  obtain ⟨entry, hlast⟩ := h
  obtain ⟨entry', hlast'⟩ := h'
  rw [hlast] at hlast'
  cases hlast'
  rfl

/-- The acquisitions of the rounds in the log stay. -/
theorem Step.logged_acquisition {exec : Answering} {w w' : World} {act : Action}
    (hs : Step dep exec w act w') (hbegun : w.Begun) {x : ℕ × Entry} (hx : x ∈ w.log) :
    w'.acquisition x.1 = w.acquisition x.1 := by
  obtain ⟨r, hr, -⟩ := hbegun x hx
  rw [acquisition_eq_some hr, hs.acquisition_mono (acquisition_eq_some hr)]

theorem Step.callsOn_old {exec : Answering} {w w' : World} {act : Action}
    (hs : Step dep exec w act w') (hbegun : w.Begun) (k : Guid) :
    (w.log.filter fun x => (w'.acquisition x.1).any fun a => a.2.id = k) = w.callsOn k :=
  List.filter_congr fun x hx => by rw [hs.logged_acquisition hbegun hx]

/-- A step that is no call adds no call. -/
theorem Step.callsOn_other {exec : Answering} {w w' : World} {act : Action}
    (hs : Step dep exec w act w') (hbegun : w.Begun) (hact : ∀ token entry, act ≠ .call token entry)
    (k : Guid) : w'.callsOn k = w.callsOn k := by
  rw [← hs.callsOn_old hbegun k, callsOn]
  cases hs with
  | @call token => exact absurd rfl (hact token _)
  | _ => rfl

/-- A call of a round is one on its message. -/
theorem Step.callsOn_call {exec : Answering} {w w' : World} {token : ℕ} {entry : Entry} {r : Round}
    (hs : Step dep exec w (.call token entry) w') (hbegun : w.Begun)
    (hr : w.rounds[token]? = some r) (k : Guid) :
    w'.callsOn k = w.callsOn k ++ if r.message.id = k then [(token, entry)] else [] := by
  rw [← hs.callsOn_old hbegun k, callsOn, hs.called.2, List.filter_append]
  congr 1
  have hacq := hs.acquisition_mono (acquisition_eq_some hr)
  by_cases hid : r.message.id = k
  · simp [hacq, hid]
  · simp [hacq, hid]

/-- After its call, a round has made the last one. -/
theorem Step.running {exec : Answering} {w w' : World} {token : ℕ} {entry : Entry} {r : Round}
    (hs : Step dep exec w (.call token entry) w') (hbegun : w.Begun)
    (hr : w.rounds[token]? = some r) : w'.Running r.message.id token := by
  refine ⟨entry, ?_⟩
  rw [hs.callsOn_call hbegun hr, if_pos rfl, List.getLast?_concat]

/-- A round that does not act and has made the last call had made it before. -/
theorem Running.of_step {exec : Answering} {w w' : World} {act : Action} {k : Guid} {token : ℕ}
    (h : w'.Running k token) (hs : Step dep exec w act w') (hbegun : w.Begun)
    (hact : act.token? ≠ some token) :
    w.Running k token ∧ ∀ token' entry r, act = .call token' entry → w.rounds[token']? = some r →
      r.message.id ≠ k := by
  by_cases hcall : ∃ token' entry, act = .call token' entry
  · obtain ⟨token', entry, rfl⟩ := hcall
    obtain ⟨r, hr⟩ : ∃ r, w.rounds[token']? = some r := by
      cases hs with
      | call hr => exact ⟨_, hr⟩
    have hne : r.message.id ≠ k := by
      rintro rfl
      exact hact (congrArg some (h.unique (hs.running hbegun hr)).symm)
    refine ⟨?_, ?_⟩
    · obtain ⟨e, hlast⟩ := h
      rw [hs.callsOn_call hbegun hr, if_neg hne, List.append_nil] at hlast
      exact ⟨e, hlast⟩
    · rintro _ _ r' ⟨⟩ hr'
      rw [hr] at hr'
      cases hr'
      exact hne
  · push Not at hcall
    obtain ⟨e, hlast⟩ := h
    rw [hs.callsOn_other hbegun hcall] at hlast
    exact ⟨⟨e, hlast⟩, fun token' entry _ heq => absurd heq (hcall token' entry)⟩

/-! ## The table of attempts -/

/-- The round that made the last call on message `k` has read that subscription `s` is to be attempted,
and has neither saved nor written back. -/
def Underway (w : World) (k s : Guid) : Prop :=
  ∃ token r subscriptions loop prog states subscription, w.Running k token ∧
    w.rounds[token]? = some r ∧ r.work = some ⟨.direct subscriptions loop, prog⟩ ∧
    (token, (⟨.getDeliveryStates k (subscriptions.map (·.id)), Except.ok states⟩ : Entry)) ∈ w.log ∧
    (∀ e ∈ w.entriesOf token, e.call.isWrite = false) ∧
    subscription ∈ subscriptions ∧ subscription.id = s ∧
    Job.attempted states subscription = true

/-- A purge of attempts with this cutoff takes, with an attempt, the later ones of its message and
subscription, and takes none that a round under way has counted. -/
def KeepsNumbers (w : World) (olderThan : DateTimeOffset) : Prop :=
  ∀ a ∈ w.db.attempts.rows, a.attemptedAt < olderThan →
    ¬ w.Underway a.outboxMessageId a.webhookSubscriptionId ∧
    ∀ b ∈ w.db.attempts.rows, b.outboxMessageId = a.outboxMessageId →
      b.webhookSubscriptionId = a.webhookSubscriptionId → ordinal a < ordinal b →
      b.attemptedAt < olderThan

/-- A step of rounds that follow one another, in which a purge of attempts keeps the numbers. -/
def OrderedStep (dep : Deployment) (w : World) (act : Action) (w' : World) : Prop :=
  Step dep (Database.Exec dep) w act w' ∧ w.Solo act ∧
    (act = .purgeAttempts → ∃ olderThan, w.KeepsNumbers olderThan ∧
      w'.db.attempts = AttemptStore.purgeOldAttemptsAsync olderThan w.db.attempts)

/-- What a step does to the table of attempts. -/
inductive AttemptsStep (dep : Deployment) (w : World) (stages : ℕ → Stage) (act : Action)
    (messages : Messages) : Attempts → Prop
  | same : AttemptsStep dep w stages act messages w.db.attempts
  | saved {token : ℕ} {entry : Entry} {r : Round} {subscriptions : List WebhookSubscription}
      {loop : LoopSchedule} {prog : Prog Call Call.Ans (Except Exn Unit)} {states : States}
      {results : Results} {utcNow : ℕ → DateTimeOffset} {newAttempts : List DeliveryAttempt}
      {defaults : AttemptStore.Defaults} {attempts : Attempts} :
      act = .call token entry → w.rounds[token]? = some r →
      r.work = some ⟨.direct subscriptions loop, prog⟩ →
      stages token = .delivering states results →
      newAttempts.Perm ((r.job subscriptions).newAttempts states results utcNow) →
      AttemptStore.saveAttemptsAsync dep defaults w.db.messages newAttempts w.db.attempts =
        some attempts →
      AttemptsStep dep w stages act messages attempts
  | cascade : act = .purgeMessages →
      AttemptsStep dep w stages act messages (AttemptStore.cascade messages w.db.attempts)
  | purged {olderThan : DateTimeOffset} : act = .purgeAttempts → w.KeepsNumbers olderThan →
      AttemptsStep dep w stages act messages
        (AttemptStore.purgeOldAttemptsAsync olderThan w.db.attempts)

theorem OrderedStep.attempts {w w' : World} {stages stages' : ℕ → Stage} {act : Action}
    (h : OrderedStep dep w act w') (hst : StageStep w stages act stages') :
    AttemptsStep dep w stages act w'.db.messages w'.db.attempts := by
  obtain ⟨hs, -, hpurge⟩ := h
  cases hs with
  | @call token r work c k a db hr hwork hprog hexec =>
      rcases hexec.change.attempts with heq | ⟨newAttempts, defaults, rfl, hsave⟩
      · show AttemptsStep dep w stages _ db.messages db.attempts
        rw [heq]
        exact .same
      · obtain ⟨r', subscriptions, loop, prog, states, results, utcNow, hr', hwork', hstage, hperm⟩ :=
          hst.saved rfl
        exact .saved rfl hr' hwork' hstage hperm hsave
  | purgeMessages => exact .cascade rfl
  | purgeAttempts =>
      obtain ⟨olderThan, hkeeps, heq⟩ := hpurge rfl
      rw [heq]
      exact .purged rfl hkeeps
  | _ => exact .same

/-! ## The invariant -/

/-- The delivery ids that rounds may come to: message, subscription, and a number up to
`MaxRetries + 1`. -/
def DeliveryKeys (w : World) : Set (Guid × Guid × ℤ) :=
  { x | ∃ r ∈ w.rounds, ∃ subscriptions loop prog,
      r.work = some ⟨.direct subscriptions loop, prog⟩ ∧ ∃ subscription ∈ subscriptions, ∃ n : ℤ,
        1 ≤ n ∧ n ≤ subscription.maxRetries + 1 ∧ x = (r.message.id, subscription.id, int32 n) }

/-- What holds of a round in its stage: a round that is delivering and has made the last call on its
message has counted the attempts that are stored. -/
def CountOk (w : World) (token : ℕ) (job : Job) : Stage → Prop
  | .start => ∀ e ∈ w.entriesOf token, e.call.isWrite = false
  | .delivering states results =>
      (token, (⟨.getDeliveryStates job.message.id (job.subscriptions.map (·.id)),
        Except.ok states⟩ : Entry)) ∈ w.log ∧
      (∀ e ∈ w.entriesOf token, e.call.isWrite = false) ∧
      (∀ i r, results i = some r → ∃ subscription, job.subscriptions[i]? = some subscription ∧
        Job.attempted states subscription = true) ∧
      (∀ subscription ∈ job.subscriptions, 0 ≤ attemptCount states subscription) ∧
      (w.Running job.message.id token → (w.db.messages.find? job.message.id).isSome = true →
        ∀ subscription ∈ job.subscriptions, Job.attempted states subscription = true →
          attemptCount states subscription =
            (attemptsOf job.message.id subscription.id w.db.attempts).length)
  | _ => True

/-- The stored attempts are numbered from 1 for every message and subscription, and carry the ids derived
from their numbers. -/
structure Sequenced (w : World) (stages : ℕ → Stage) : Prop where
  referenced : w.Referenced
  begun : w.Begun
  planned : w.Planned Plan.Readable
  ids : ∀ a ∈ w.db.attempts.rows,
    (a.outboxMessageId, a.webhookSubscriptionId, a.attemptNumber) ∈ w.DeliveryKeys ∧
      ∃ r ∈ w.rounds, a.id = deriveDeliveryId r.pipeline.sha256 a.outboxMessageId
        a.webhookSubscriptionId a.attemptNumber
  numbering : Numbering w.db.attempts
  rounds : ForRounds (CountOk w) w stages

theorem Step.deliveryKeys {exec : Answering} {w w' : World} {act : Action}
    (hs : Step dep exec w act w') : w.DeliveryKeys ⊆ w'.DeliveryKeys := by
  rintro _ ⟨r, hmem, subscriptions, loop, prog, hwork, subscription, hsub, n, hge, hle, rfl⟩
  obtain ⟨token, hr⟩ := List.mem_iff_getElem?.mp hmem
  obtain ⟨r', hr', -, hm, hplan, -⟩ := hs.round hr
  obtain ⟨prog', hwork'⟩ := hplan _ hwork
  exact ⟨r', List.mem_of_getElem? hr', subscriptions, loop, prog', hwork', subscription, hsub, n, hge,
    hle, by rw [hm]⟩

/-- The step of a round other than one on message `k`, as far as the attempts of `k` are concerned. -/
theorem AttemptsStep.length_attemptsOf {w : World} {stages : ℕ → Stage} {act : Action}
    {messages : Messages} {attempts : Attempts} {k : Guid}
    (h : AttemptsStep dep w stages act messages attempts)
    (hother : ∀ token entry r, act = .call token entry → w.rounds[token]? = some r →
      r.message.id ≠ k) (halive : (messages.find? k).isSome = true) {s : Guid}
    (hunderway : act = .purgeAttempts → w.Underway k s) :
    (attemptsOf k s attempts).length = (attemptsOf k s w.db.attempts).length := by
  cases h with
  | same => rfl
  | saved hact hr _ _ hperm hsave =>
      refine AttemptStore.attemptsOf_save hsave (fun a ha => ?_) s
      rw [(id_ne_empty_of_newAttempts (hperm.mem_iff.mp ha)).2]
      exact hother _ _ _ hact hr
  | cascade =>
      rw [AttemptStore.cascade, AttemptStore.attemptsOf_delete]
      intro a ha
      obtain ⟨-, hid, -⟩ := AttemptStore.mem_attemptsOf.mp ha
      rw [hid, Option.isNone_eq_false_iff]
      exact halive
  | purged hact hkeeps =>
      rw [AttemptStore.purgeOldAttemptsAsync, AttemptStore.attemptsOf_delete]
      intro a ha
      obtain ⟨hmem, hid, hsub⟩ := AttemptStore.mem_attemptsOf.mp ha
      rw [decide_eq_false_iff_not]
      intro hold
      have hnot := (hkeeps a hmem hold).1
      rw [hid, hsub] at hnot
      exact hnot (hunderway hact)

/-- A round that does not act: its count stays right. -/
theorem CountOk.other {w w' : World} {stages stages' : ℕ → Stage} {act : Action} {token : ℕ} {r : Round}
    {subscriptions : List WebhookSubscription} {loop : LoopSchedule}
    {prog : Prog Call Call.Ans (Except Exn Unit)} {s : Stage}
    (h : w.CountOk token (r.job subscriptions) s) (hs : OrderedStep dep w act w')
    (hst : StageStep w stages act stages') (hbegun : w.Begun) (hact : act.token? ≠ some token)
    (hr : w.rounds[token]? = some r) (hwork : r.work = some ⟨.direct subscriptions loop, prog⟩) :
    w'.CountOk token (r.job subscriptions) s := by
  have hentries : w'.entriesOf token = w.entriesOf token :=
    hs.1.entriesOf fun entry heq => hact (by rw [heq]; rfl)
  cases s with
  | start =>
      show ∀ e ∈ w'.entriesOf token, _
      rw [hentries]
      exact h
  | delivering states results =>
      obtain ⟨hread, hwrites, hresults, hnonneg, hcount⟩ := h
      refine ⟨hs.1.log_mono hread, by rwa [hentries], hresults, hnonneg, ?_⟩
      intro hrunning halive subscription hsub hatt
      obtain ⟨hbefore, hother⟩ := hrunning.of_step hs.1 hbegun hact
      rw [hcount hbefore (hs.1.alive sound_exec hr halive) subscription hsub hatt]
      congr 1
      refine ((hs.attempts hst).length_attemptsOf hother halive fun _ => ?_).symm
      exact ⟨token, r, subscriptions, loop, prog, states, subscription, hbefore, hr, hwork, hread,
        hwrites, hsub, rfl, hatt⟩
  | _ => trivial

/-- A round that makes a call. -/
theorem CountOk.call {w w' : World} {token : ℕ} {entry : Entry} {r : Round}
    {subscriptions : List WebhookSubscription} {s s' : Stage}
    (h : w.CountOk token (r.job subscriptions) s)
    (hs : OrderedStep dep w (.call token entry) w') (hr : w.rounds[token]? = some r)
    (hnodup : (subscriptions.map (·.id)).Nodup)
    (htrans : (r.job subscriptions).Trans entry.call s entry.answer s') :
    w'.CountOk token (r.job subscriptions) s' := by
  obtain ⟨c, a⟩ := entry
  obtain ⟨hexec, hlog⟩ := hs.1.called
  have hentries := hs.1.entriesOf_call
  have hwrites : c.isWrite = false → (∀ e ∈ w.entriesOf token, e.call.isWrite = false) →
      ∀ e ∈ w'.entriesOf token, e.call.isWrite = false := by
    intro hcall hold e he
    rw [hentries] at he
    rcases List.mem_append.mp he with he | he
    · exact hold e he
    · rw [List.mem_singleton.mp he]
      exact hcall
  cases hs' : s' with
  | start =>
      obtain ⟨rfl, hcall⟩ := htrans.into_start hs'
      exact hwrites hcall h
  | delivering states results =>
      rcases htrans.into_delivering hs' with ⟨rfl, rfl, hentry⟩ | ⟨results₀, rfl, hcall, hresults₀⟩
      · -- the read itself
        cases hentry
        obtain ⟨hstates, hdb⟩ := hexec.read
        have hcount : ∀ subscription ∈ subscriptions, attemptCount states subscription =
            (attemptsOf r.message.id subscription.id w.db.attempts).length := by
          intro subscription hsub
          rw [hstates]
          exact Pipeline.attemptCount_getDeliveryStatesAsync (List.mem_map_of_mem hsub) hnodup
        refine ⟨?_, hwrites rfl h, nofun, ?_, ?_⟩
        · rw [hlog]
          exact List.mem_append_right _ List.mem_cons_self
        · intro subscription hsub
          rw [hcount subscription hsub]
          exact Int.natCast_nonneg _
        · intro _ _ subscription hsub _
          rw [hdb]
          exact hcount subscription hsub
      · obtain ⟨hread, hold, hresults, hnonneg, hcount⟩ := h
        -- a call in the middle of the deliveries stores nothing
        have hsame : w'.db.attempts = w.db.attempts := by
          rcases hexec.change.attempts with heq | ⟨_, _, hsave, -⟩
          · exact heq
          · rw [hsave] at hcall
            cases hcall
        refine ⟨hs.1.log_mono hread, hwrites hcall hold, ?_, hnonneg, ?_⟩
        · intro i res hi
          rcases hresults₀ i res hi with hi | hatt
          · exact hresults i res hi
          · exact hatt
        · intro _ halive
          rw [hsame]
          rcases hs.2.1 token _ r rfl hr with hnone | hrunning
          · rw [← mem_entriesOf, hnone] at hread
            cases hread
          · exact hcount hrunning (hs.1.alive sound_exec hr halive)
  | _ => trivial

/-- The number of an attempt that a round is to make. -/
theorem nextAttempt_bounds {states : States} {subscription : WebhookSubscription}
    (hnonneg : 0 ≤ attemptCount states subscription)
    (hatt : Job.attempted states subscription = true) (hmax : subscription.maxRetries ≤ int32Max) :
    1 ≤ attemptCount states subscription + 1 ∧
      attemptCount states subscription + 1 ≤ subscription.maxRetries + 1 ∧
      attemptCount states subscription + 1 < 4294967296 := by
  have hle := (Job.attempted_iff.mp hatt).2
  rw [int32Max] at hmax
  omega

namespace Sequenced

variable {w w' : World} {stages stages' : ℕ → Stage} {act : Action}

/-- The attempts of a round have their numbers, and keys the round may come to. -/
theorem newAttempts {token : ℕ} {r : Round} {subscriptions : List WebhookSubscription}
    {loop : LoopSchedule} {prog : Prog Call Call.Ans (Except Exn Unit)} {states : States}
    {results : Results} {utcNow : ℕ → DateTimeOffset} (h : w.Sequenced stages)
    (hr : w.rounds[token]? = some r) (hwork : r.work = some ⟨.direct subscriptions loop, prog⟩)
    (hstage : stages token = .delivering states results) {a : DeliveryAttempt}
    (ha : a ∈ (r.job subscriptions).newAttempts states results utcNow) :
    ∃ subscription ∈ subscriptions, Job.attempted states subscription = true ∧
      a.webhookSubscriptionId = subscription.id ∧
      a.attemptNumber = nextAttempt states subscription ∧
      a.id = (r.job subscriptions).deliveryId states subscription := by
  have hcount := h.rounds token r subscriptions loop prog hr hwork
  rw [hstage] at hcount
  obtain ⟨i, subscription, res, hsub, hi, rfl⟩ := Job.mem_newAttempts.mp ha
  obtain ⟨subscription', hsub', hatt⟩ := hcount.2.2.1 i _ hi
  rw [hsub] at hsub'
  cases hsub'
  exact ⟨subscription, List.mem_of_getElem? hsub, hatt, rfl, rfl, rfl⟩

/-- The key of an attempt to be made. -/
theorem key_mem {token : ℕ} {r : Round} {subscriptions : List WebhookSubscription}
    {loop : LoopSchedule} {prog : Prog Call Call.Ans (Except Exn Unit)} {states : States}
    {results : Results} (h : w.Sequenced stages) (hr : w.rounds[token]? = some r)
    (hwork : r.work = some ⟨.direct subscriptions loop, prog⟩)
    (hstage : stages token = .delivering states results) {subscription : WebhookSubscription}
    (hsub : subscription ∈ subscriptions) (hatt : Job.attempted states subscription = true) :
    (r.message.id, subscription.id, nextAttempt states subscription) ∈ w.DeliveryKeys := by
  have hcount := h.rounds token r subscriptions loop prog hr hwork
  rw [hstage] at hcount
  have hmax := (h.planned token r _ hr hwork).2 subscription hsub
  obtain ⟨hge, hle, -⟩ := nextAttempt_bounds (hcount.2.2.2.1 subscription hsub) hatt hmax
  exact ⟨r, List.mem_of_getElem? hr, subscriptions, loop, prog, hwork, subscription, hsub, _, hge, hle,
    rfl⟩

/-- The number of a new attempt follows those stored. -/
theorem ordinal_next {token : ℕ} {r : Round} {subscriptions : List WebhookSubscription}
    {loop : LoopSchedule} {prog : Prog Call Call.Ans (Except Exn Unit)} {states : States}
    {results : Results} (h : w.Sequenced stages) (hr : w.rounds[token]? = some r)
    (hwork : r.work = some ⟨.direct subscriptions loop, prog⟩)
    (hstage : stages token = .delivering states results) (hrunning : w.Running r.message.id token)
    (halive : (w.db.messages.find? r.message.id).isSome = true)
    {subscription : WebhookSubscription} (hsub : subscription ∈ subscriptions)
    (hatt : Job.attempted states subscription = true) {a : DeliveryAttempt}
    (ha : a.attemptNumber = nextAttempt states subscription) :
    ordinal a = (attemptsOf r.message.id subscription.id w.db.attempts).length + 1 := by
  have hcount := h.rounds token r subscriptions loop prog hr hwork
  rw [hstage] at hcount
  obtain ⟨-, -, -, hnonneg, hcount⟩ := hcount
  have hmax := (h.planned token r _ hr hwork).2 subscription hsub
  obtain ⟨hge, -, hlt⟩ := nextAttempt_bounds (hnonneg subscription hsub) hatt hmax
  have hordinal := AttemptStore.ordinal_eq ha (by omega) hlt
  have hlength := hcount hrunning halive subscription hsub hatt
  change attemptCount states subscription =
    (attemptsOf r.message.id subscription.id w.db.attempts).length at hlength
  omega

/-- A round that has read is running when it makes a call. -/
theorem running {token : ℕ} {entry : Entry} {r : Round} {subscriptions : List WebhookSubscription}
    {loop : LoopSchedule} {prog : Prog Call Call.Ans (Except Exn Unit)} {states : States}
    {results : Results} (h : w.Sequenced stages) (hsolo : w.Solo (.call token entry))
    (hr : w.rounds[token]? = some r) (hwork : r.work = some ⟨.direct subscriptions loop, prog⟩)
    (hstage : stages token = .delivering states results) : w.Running r.message.id token := by
  have hcount := h.rounds token r subscriptions loop prog hr hwork
  rw [hstage] at hcount
  rcases hsolo token entry r rfl hr with hnone | hrunning
  · have hread := mem_entriesOf.mpr hcount.1
    rw [hnone] at hread
    cases hread
  · exact hrunning

theorem numbering_step (h : w.Sequenced stages) (hs : OrderedStep dep w act w')
    (hst : StageStep w stages act stages') : Numbering w'.db.attempts := by
  have hattempts := hs.attempts hst
  generalize w'.db.attempts = attempts at hattempts
  cases hattempts with
  | same => exact h.numbering
  | saved hact hr hwork hstage hperm hsave =>
      subst hact
      have hrunning := h.running hs.2.1 hr hwork hstage
      refine h.numbering.save hsave ?_ ?_
      · have hnodup := (h.planned _ _ _ hr hwork).1
        exact ((hperm.map _).nodup_iff).mpr (Job.newAttempts_subscriptions hnodup _ _ _)
      · intro a ha
        have halive := AttemptStore.saveAttemptsAsync_foreignKey hsave ha
        have ha := hperm.mem_iff.mp ha
        obtain ⟨subscription, hsub, hatt, hid, hnumber, -⟩ := h.newAttempts hr hwork hstage ha
        have hmessage : a.outboxMessageId = _ := (id_ne_empty_of_newAttempts ha).2
        rw [hmessage] at halive ⊢
        rw [hid]
        exact h.ordinal_next hr hwork hstage hrunning halive hsub hatt hnumber
  | cascade => exact h.numbering.cascade _
  | purged _ hkeeps =>
      refine h.numbering.delete fun a ha b hb hid hsub hlt hold => ?_
      rw [decide_eq_true_eq] at hold ⊢
      exact (hkeeps a ha hold).2 b hb hid hsub hlt

theorem ids_step (h : w.Sequenced stages) (hs : OrderedStep dep w act w')
    (hst : StageStep w stages act stages') : ∀ a ∈ w'.db.attempts.rows,
    (a.outboxMessageId, a.webhookSubscriptionId, a.attemptNumber) ∈ w'.DeliveryKeys ∧
      ∃ r ∈ w'.rounds, a.id = deriveDeliveryId r.pipeline.sha256 a.outboxMessageId
        a.webhookSubscriptionId a.attemptNumber := by
  -- what is known of a row stays true in the next world
  have hnext : ∀ a : DeliveryAttempt,
      (a.outboxMessageId, a.webhookSubscriptionId, a.attemptNumber) ∈ w.DeliveryKeys ∧
        (∃ r ∈ w.rounds, a.id = deriveDeliveryId r.pipeline.sha256 a.outboxMessageId
          a.webhookSubscriptionId a.attemptNumber) →
      (a.outboxMessageId, a.webhookSubscriptionId, a.attemptNumber) ∈ w'.DeliveryKeys ∧
        ∃ r ∈ w'.rounds, a.id = deriveDeliveryId r.pipeline.sha256 a.outboxMessageId
          a.webhookSubscriptionId a.attemptNumber := by
    rintro a ⟨hkey, r, hmem, hid⟩
    obtain ⟨token, hr⟩ := List.mem_iff_getElem?.mp hmem
    obtain ⟨r', hr', hp, -⟩ := hs.1.round hr
    exact ⟨hs.1.deliveryKeys hkey, r', List.mem_of_getElem? hr', by rw [hp, hid]⟩
  have hattempts := hs.attempts hst
  generalize w'.db.attempts = attempts at hattempts
  intro a ha
  cases hattempts with
  | same => exact hnext a (h.ids a ha)
  | @saved token entry r subscriptions loop prog states results _ _ _ _ _ hr hwork hstage hperm hsave =>
      rcases AttemptStore.mem_saveAttemptsAsync hsave ha with hold | ⟨i, x, hx, rfl⟩
      · exact hnext a (h.ids a hold)
      · have hx := hperm.mem_iff.mp hx
        obtain ⟨hne, hmessage⟩ := id_ne_empty_of_newAttempts hx
        obtain ⟨subscription, hsub, hatt, hid, hnumber, hderived⟩ := h.newAttempts hr hwork hstage hx
        refine hnext _ ⟨?_, r, List.mem_of_getElem? hr, ?_⟩
        · show (x.outboxMessageId, x.webhookSubscriptionId, x.attemptNumber) ∈ _
          rw [hmessage, hid, hnumber]
          exact h.key_mem hr hwork hstage hsub hatt
        · rw [AttemptStore.attemptRow_id hne, hderived]
          show _ = deriveDeliveryId _ x.outboxMessageId x.webhookSubscriptionId x.attemptNumber
          rw [hmessage, hid, hnumber]
          rfl
  | cascade => exact hnext a (h.ids a (AttemptStore.mem_cascade.mp ha).1)
  | purged => exact hnext a (h.ids a (Table.mem_delete.mp ha).1)

/-- The step lemma. -/
theorem step (h : w.Sequenced stages) (hs : OrderedStep dep w act w')
    (hst : StageStep w stages act stages')
    (hbegin : ∀ token plan, act = .begin_ token plan → plan.Readable) : w'.Sequenced stages' where
  referenced := h.referenced.step hs.1 hst
  begun := h.begun.step hs.1
  planned := h.planned.step hs.1 hbegin
  ids := h.ids_step hs hst
  numbering := h.numbering_step hs hst
  rounds := by
    refine h.rounds.step_of_work hs.1 hst ?_ ?_ ?_
    · rintro token r subscriptions plan rfl hr hnone e he
      rw [hs.1.entriesOf (fun _ heq => by cases heq), h.begun.entriesOf_eq_nil hr hnone] at he
      cases he
    · intro token r subscriptions loop prog s hact hr hwork hcount
      exact hcount.other hs hst h.begun hact hr hwork
    · rintro token entry r subscriptions loop prog s s' rfl hr hwork htrans hcount
      exact hcount.call hs hr (h.planned token r _ hr hwork).1 htrans

end Sequenced

/-- The invariant holds after every run of such steps. -/
theorem sequenced_run {now : DateTimeOffset} {acts : List Action} {w : World}
    (hrun : Steps (OrderedStep dep) (initial now) acts w)
    (hplans : ∀ token plan, .begin_ token plan ∈ acts → plan.Readable) :
    ∃ stages, Coupled w stages ∧ w.Sequenced stages := by
  have hinitial : (initial now).Sequenced fun _ => .start :=
    { referenced := Referenced.initial now
      begun := Begun.initial now
      planned := Planned.initial _ now
      ids := List.forall_mem_nil _
      numbering := Numbering.empty
      rounds := ForRounds.initial _ now _ }
  refine hrun.invariant_of (fun w => ∃ stages, Coupled w stages ∧ w.Sequenced stages)
    (fun act => ∀ token plan, act = .begin_ token plan → plan.Readable) ?_ ?_
    ⟨_, Coupled.initial now _, hinitial⟩
  · rintro w act w' hbegin ⟨stages, hcoupled, h⟩ hs
    obtain ⟨stages', hcoupled', hst⟩ := hcoupled.step hs.1
    exact ⟨stages', hcoupled', h.step hs hst hbegin⟩
  · rintro act hact token plan rfl
    exact hplans token plan hact

/-! ## The theorem -/

/-- The id of an attempt to be made is not stored. -/
theorem Sequenced.not_stored {w : World} {stages : ℕ → Stage} (h : w.Sequenced stages) {sha256 : Hash}
    (hsha256 : ∀ r ∈ w.rounds, r.pipeline.sha256 = sha256)
    (hinjective : Set.InjOn (fun x : Guid × Guid × ℤ => deriveDeliveryId sha256 x.1 x.2.1 x.2.2)
      w.DeliveryKeys)
    {token : ℕ} {r : Round} {subscriptions : List WebhookSubscription}
    {loop : LoopSchedule} {prog : Prog Call Call.Ans (Except Exn Unit)} {states : States}
    {results : Results} (hr : w.rounds[token]? = some r)
    (hwork : r.work = some ⟨.direct subscriptions loop, prog⟩)
    (hstage : stages token = .delivering states results) (hrunning : w.Running r.message.id token)
    {subscription : WebhookSubscription} (hsub : subscription ∈ subscriptions)
    (hatt : Job.attempted states subscription = true) :
    ∀ a ∈ w.db.attempts.rows, a.id ≠ (r.job subscriptions).deliveryId states subscription := by
  intro a ha hid
  obtain ⟨hkey, r', hr', hderived⟩ := h.ids a ha
  have hsame : deriveDeliveryId sha256 a.outboxMessageId a.webhookSubscriptionId a.attemptNumber =
      deriveDeliveryId sha256 r.message.id subscription.id (nextAttempt states subscription) := by
    rw [← hsha256 r' hr', ← hderived, hid, hsha256 r' hr', ← hsha256 r (List.mem_of_getElem? hr)]
    rfl
  have hkeys := hinjective hkey (h.key_mem hr hwork hstage hsub hatt) hsame
  simp only [Prod.mk.injEq] at hkeys
  obtain ⟨hmessage, hsubscription, hnumber⟩ := hkeys
  -- the stored attempt would have the number after those stored
  have halive := (h.referenced a ha).1
  rw [hmessage] at halive
  have hordinal := h.ordinal_next hr hwork hstage hrunning halive hsub hatt hnumber
  rw [← hmessage, ← hsubscription] at hordinal
  exact h.numbering.next_not_stored ha hordinal

/-- The attempts of a round have different ids. -/
theorem Sequenced.newAttempts_ids {w : World} {stages : ℕ → Stage} (h : w.Sequenced stages)
    {sha256 : Hash} (hsha256 : ∀ r ∈ w.rounds, r.pipeline.sha256 = sha256)
    (hinjective : Set.InjOn (fun x : Guid × Guid × ℤ => deriveDeliveryId sha256 x.1 x.2.1 x.2.2)
      w.DeliveryKeys)
    {token : ℕ} {r : Round} {subscriptions : List WebhookSubscription}
    {loop : LoopSchedule} {prog : Prog Call Call.Ans (Except Exn Unit)} {states : States}
    {results : Results} (hr : w.rounds[token]? = some r)
    (hwork : r.work = some ⟨.direct subscriptions loop, prog⟩)
    (hstage : stages token = .delivering states results) (utcNow : ℕ → DateTimeOffset) :
    (((r.job subscriptions).newAttempts states results utcNow).map DeliveryAttempt.id).Nodup := by
  have hplan := h.planned token r _ hr hwork
  have hnodup : (((r.job subscriptions).newAttempts states results utcNow).map
      (·.webhookSubscriptionId)).Nodup := Job.newAttempts_subscriptions hplan.1 _ _ _
  refine (List.Nodup.of_map _ hnodup).map_on fun a ha b hb hid => ?_
  obtain ⟨subscription, hsub, hatt, hwebhook, -, hida⟩ := h.newAttempts hr hwork hstage ha
  obtain ⟨subscription', hsub', hatt', hwebhook', -, hidb⟩ := h.newAttempts hr hwork hstage hb
  have hsame : deriveDeliveryId sha256 r.message.id subscription.id (nextAttempt states subscription) =
      deriveDeliveryId sha256 r.message.id subscription'.id (nextAttempt states subscription') := by
    rw [← hsha256 r (List.mem_of_getElem? hr)]
    calc
      deriveDeliveryId r.pipeline.sha256 r.message.id subscription.id
          (nextAttempt states subscription) = a.id := hida.symm
      _ = b.id := hid
      _ = deriveDeliveryId r.pipeline.sha256 r.message.id subscription'.id
          (nextAttempt states subscription') := hidb
  have hkeys := hinjective (h.key_mem hr hwork hstage hsub hatt)
    (h.key_mem hr hwork hstage hsub' hatt') hsame
  simp only [Prod.mk.injEq] at hkeys
  have hwebhooks : a.webhookSubscriptionId = b.webhookSubscriptionId :=
    calc
      a.webhookSubscriptionId = subscription.id := hwebhook
      _ = subscription'.id := hkeys.2.1
      _ = b.webhookSubscriptionId := hwebhook'.symm
  exact List.inj_on_of_nodup_map hnodup ha hb hwebhooks

/-- **Attempt ids are fresh.** Take any run, with any answers and any faults of the database, in which the
rounds on a message follow one another, and in which a purge of attempts takes, with an attempt, the later
ones of its message and subscription, and takes none that a round under way has counted.  Then no stored
attempt has the id of a delivery a round makes, and no attempt that a round saves violates the primary
key. -/
theorem fresh_attempt_ids {now : DateTimeOffset} {acts : List Action} {w w' : World} {sha256 : Hash}
    {token : ℕ} {entry : Entry}
    (hrun : Steps (OrderedStep dep) (initial now) acts w)
    (hplans : ∀ token plan, .begin_ token plan ∈ acts → plan.Readable)
    (hsha256 : ∀ r ∈ w.rounds, r.pipeline.sha256 = sha256)
    (hinjective : Set.InjOn (fun x : Guid × Guid × ℤ => deriveDeliveryId sha256 x.1 x.2.1 x.2.2)
      w.DeliveryKeys)
    (hs : OrderedStep dep w (.call token entry) w') :
    (∀ message subscription deliveryId, entry.call = .deliver message subscription deliveryId →
      ∀ a ∈ w.db.attempts.rows, a.id ≠ deliveryId) ∧
    ∀ attempts, entry.call = .saveAttempts attempts → FreshIds w.db.attempts attempts := by
  obtain ⟨stages, hcoupled, h⟩ := sequenced_run hrun hplans
  obtain ⟨stages', -, hst⟩ := hcoupled.step hs.1
  -- only a round in direct delivery makes these calls, by the count it has read
  cases hst with
  | @call _ _ r subscriptions loop prog s' hr hwork htrans =>
      obtain ⟨c, answer⟩ := entry
      constructor
      · rintro message subscription deliveryId rfl
        obtain ⟨states, results, i, hstage, -, -, hsub, -, hatt, rfl⟩ := htrans.deliver_inv
        have hrunning := h.running hs.2.1 hr hwork hstage
        exact h.not_stored hsha256 hinjective hr hwork hstage hrunning (List.mem_of_getElem? hsub) hatt
      · rintro attempts rfl
        obtain ⟨states, results, utcNow, hstage, hperm⟩ := htrans.saved rfl
        have hrunning := h.running hs.2.1 hr hwork hstage
        refine ⟨?_, fun a ha b hb => ?_⟩
        · exact (hperm.map _).nodup_iff.mpr
            (h.newAttempts_ids hsha256 hinjective hr hwork hstage utcNow)
        · obtain ⟨subscription, hsub, hatt, -, -, hid⟩ :=
            h.newAttempts hr hwork hstage (hperm.mem_iff.mp ha)
          rw [hid]
          exact h.not_stored hsha256 hinjective hr hwork hstage hrunning hsub hatt b hb
  | @queued _ _ r prog hr hwork hof =>
      obtain ⟨c, answer⟩ := entry
      constructor
      · rintro message subscription deliveryId rfl
        cases hof
      · rintro attempts rfl
        cases hof
  | other hnone => cases hnone

/-! ## Rounds and purges in turn -/

/-- Whether an action is a call of a round that follows the others on its message, or no call. -/
def solo (w : World) : Action → Bool
  | .call token _ => (w.rounds[token]?).all fun r => (w.entriesOf token).isEmpty ||
      ((w.callsOn r.message.id).getLast?).any fun x => x.1 = token
  | _ => true

theorem solo_of_solo {w : World} {act : Action} (h : w.solo act = true) : w.Solo act := by
  rintro token entry r rfl hr
  simp only [solo, hr, Option.all_some, Bool.or_eq_true] at h
  rcases h with hnone | hlast
  · exact .inl (List.isEmpty_iff.mp hnone)
  · right
    obtain ⟨⟨token', e⟩, hmem, heq⟩ := (Option.any_eq_true _ _).mp hlast
    obtain rfl : token' = token := of_decide_eq_true heq
    exact ⟨e, hmem⟩

/-- Whether the round that made the last call on message `k` has written. -/
def settled (w : World) (k : Guid) : Bool :=
  ((w.callsOn k).getLast?).all fun x => (w.entriesOf x.1).any (·.call.isWrite)

/-- Then no round on it is under way. -/
theorem not_underway_of_settled {w : World} {k s : Guid} (h : w.settled k = true) :
    ¬ w.Underway k s := by
  rintro ⟨token, -, -, -, -, -, -, ⟨entry, hlast⟩, -, -, -, hunwritten, -⟩
  rw [settled, hlast, Option.all_some] at h
  obtain ⟨e, he, hwrite⟩ := List.any_eq_true.mp h
  rw [hunwritten e he] at hwrite
  cases hwrite

/-- Whether a purge with this cutoff keeps the numbers. -/
def keepsNumbers (w : World) (olderThan : DateTimeOffset) : Bool :=
  w.db.attempts.rows.all fun a => !decide (a.attemptedAt < olderThan) ||
    w.settled a.outboxMessageId && w.db.attempts.rows.all fun b =>
      !decide (b.outboxMessageId = a.outboxMessageId ∧
        b.webhookSubscriptionId = a.webhookSubscriptionId ∧ ordinal a < ordinal b) ||
      b.attemptedAt < olderThan

theorem keepsNumbers_of_keepsNumbers {w : World} {olderThan : DateTimeOffset}
    (h : w.keepsNumbers olderThan = true) : w.KeepsNumbers olderThan := by
  intro a ha hold
  have hkeeps := List.all_eq_true.mp h a ha
  simp only [hold, decide_true, Bool.not_true, Bool.false_or, Bool.and_eq_true,
    List.all_eq_true] at hkeeps
  refine ⟨not_underway_of_settled hkeeps.1, fun b hb hk hs hlt => ?_⟩
  simpa [hk, hs, hlt] using hkeeps.2 b hb

instance : (plan : Plan) → Decidable plan.Readable
  | .direct subscriptions _ => inferInstanceAs (Decidable ((subscriptions.map (·.id)).Nodup ∧
      ∀ subscription ∈ subscriptions, subscription.maxRetries ≤ int32Max))
  | .queueMediated => inferInstanceAs (Decidable True)

/-- Whether a step begins no round that could not be read, and calls in turn. -/
def inTurn (w : World) (act : Action) : Bool :=
  w.solo act && match act with
    | .begin_ _ plan => plan.Readable
    | _ => true

/-- Whether a step is moreover no purge of attempts but one with this cutoff that keeps the numbers. -/
def inOrder (olderThan : DateTimeOffset) (w : World) (act : Action) (w' : World) : Bool :=
  w.inTurn act && match act with
    | .purgeAttempts => w.keepsNumbers olderThan &&
        w'.db.attempts.rows = (AttemptStore.purgeOldAttemptsAsync olderThan w.db.attempts).rows
    | _ => true

/-- In a run of such steps every plan can be read. -/
theorem readable_of_inTurn {P : World → Action → World → Prop} {w w' : World} {acts : List Action}
    (hrun : Steps P w acts w') (hturn : ∀ w act w', P w act w' → w.inTurn act = true) :
    ∀ token plan, .begin_ token plan ∈ acts → plan.Readable := by
  have hacts := hrun.labels (fun act => ∀ token plan, act = .begin_ token plan → plan.Readable) <| by
    rintro w act w' hs token plan rfl
    exact of_decide_eq_true (Bool.and_eq_true_iff.mp (hturn _ _ _ hs)).2
  exact fun token plan hact => hacts _ hact token plan rfl

theorem OrderedStep.of_inOrder {w w' : World} {act : Action} {olderThan : DateTimeOffset}
    (hs : Step dep (Database.Exec dep) w act w') (h : inOrder olderThan w act w' = true) :
    OrderedStep dep w act w' := by
  obtain ⟨hturn, hpurge⟩ := Bool.and_eq_true_iff.mp h
  refine ⟨hs, solo_of_solo (Bool.and_eq_true_iff.mp hturn).1, ?_⟩
  rintro rfl
  obtain ⟨hkeeps, hrows⟩ := Bool.and_eq_true_iff.mp hpurge
  exact ⟨olderThan, keepsNumbers_of_keepsNumbers hkeeps, Table.ext (of_decide_eq_true hrows)⟩

/-! ## Two orders and two endpoints -/

/-- The attempts that may be made for two orders and two subscriptions with three retries. -/
def orderKeys : List (Guid × Guid × ℤ) :=
  [1, 2].flatMap fun k => [7, 8].flatMap fun s => [1, 2, 3, 4].map fun n => (k, s, n)

/-- The delivery ids the hash makes of them differ. -/
theorem orderKeys_injective : ∀ x ∈ orderKeys, ∀ y ∈ orderKeys,
    deriveDeliveryId Hash.sparse x.1 x.2.1 x.2.2 = deriveDeliveryId Hash.sparse y.1 y.2.1 y.2.2 →
      x = y := by
  decide +kernel

/-- Whether the plan of a round is for the two subscriptions. -/
def onEndpoints : Plan → Bool
  | .direct subscriptions _ => subscriptions.all fun s => s = orderSubscription ∨ s = billingSubscription
  | .queueMediated => true

/-- Whether all rounds are on the two orders and for the two subscriptions. -/
def onOrders (w : World) : Bool :=
  w.rounds.all fun r => decide (r.message.id = 1 ∨ r.message.id = 2) && r.work.all fun x => onEndpoints x.plan

theorem deliveryKeys_of_onOrders {w : World} (h : w.onOrders = true) :
    ∀ x ∈ w.DeliveryKeys, x ∈ orderKeys := by
  rintro _ ⟨r, hr, subscriptions, loop, prog, hwork, subscription, hsub, n, hge, hle, rfl⟩
  have hround := List.all_eq_true.mp h r hr
  rw [hwork, Option.all_some, Bool.and_eq_true, decide_eq_true_eq] at hround
  obtain ⟨hid, hplan⟩ := hround
  have hendpoint := of_decide_eq_true (List.all_eq_true.mp hplan subscription hsub)
  have hretries : subscription.maxRetries = 3 := by
    rcases hendpoint with rfl | rfl <;> rfl
  have hsubscription : subscription.id = 7 ∨ subscription.id = 8 := by
    rcases hendpoint with rfl | rfl
    · exact .inl rfl
    · exact .inr rfl
  obtain rfl | rfl | rfl | rfl : n = 1 ∨ n = 2 ∨ n = 3 ∨ n = 4 := by omega
  all_goals
    rcases hid with hid | hid <;> rcases hsubscription with hs | hs <;> rw [hid, hs] <;> decide

theorem injOn_of_onOrders {w : World} (h : w.onOrders = true) :
    Set.InjOn (fun x : Guid × Guid × ℤ => deriveDeliveryId Hash.sparse x.1 x.2.1 x.2.2)
      w.DeliveryKeys := by
  intro x hx y hy
  exact orderKeys_injective x (deliveryKeys_of_onOrders h x hx) y (deliveryKeys_of_onOrders h y hy)

/-- The id an action delivers under. -/
def sentId? : Action → Option Guid
  | .call _ ⟨.deliver _ _ deliveryId, _⟩ => some deliveryId
  | _ => none

theorem eq_call_of_sentId? {act : Action} {deliveryId : Guid} (h : sentId? act = some deliveryId) :
    ∃ token message subscription r,
      act = .call token ⟨.deliver message subscription deliveryId, r⟩ := by
  unfold sentId? at h
  split at h
  · next token message subscription d r =>
      cases h
      exact ⟨token, message, subscription, r, rfl⟩
  · cases h

/-- One round makes the first attempt for an order, the next one the second, and a third one begins after a
purge that takes the first attempt and leaves the second. -/
def repeatedCues : List Cue :=
  [.publish 0 (orderArgs 1), .acquireHot shardedHost 1] ++
  Cue.round 0 (.direct [orderSubscription] ⟨false, []⟩) [.done, .returned (.ok unavailable), .time 50000,
    .done, .drew (1 / 2), .time 60000, .done] ++
  [.tick 100000, .acquireHot shardedHost 1] ++
  Cue.round 1 (.direct [orderSubscription] ⟨false, []⟩) [.done, .returned (.ok unavailable), .time 500000,
    .done, .drew (1 / 2), .time 600000, .done] ++
  [.purgeAttempts 200000, .tick 1000000, .acquireHot shardedHost 1] ++
  Cue.round 2 (.direct [orderSubscription] ⟨false, []⟩) [.done]

/-- The world in which it delivers. -/
def repeated : World :=
  rehearsed sqlServer (Database.effect? sqlServer) (fun w act _ => w.inTurn act) (initial 0) repeatedCues

/-- Without that condition on purges ids repeat: a purge takes the first attempt and leaves the second,
and the round that follows makes its delivery under the id of the second. -/
theorem purge_repeats_id : ¬ ∀ (acts : List Action) (w w' : World) (sha256 : Hash) (token : ℕ)
    (entry : Entry),
    Steps (fun w act w' => Step sqlServer (Database.Exec sqlServer) w act w' ∧ w.Solo act) (initial 0)
      acts w →
    (∀ token plan, .begin_ token plan ∈ acts → plan.Readable) →
    (∀ r ∈ w.rounds, r.pipeline.sha256 = sha256) →
    Set.InjOn (fun x : Guid × Guid × ℤ => deriveDeliveryId sha256 x.1 x.2.1 x.2.2) w.DeliveryKeys →
    Step sqlServer (Database.Exec sqlServer) w (.call token entry) w' →
    w.Solo (.call token entry) →
    ∀ message subscription deliveryId, entry.call = .deliver message subscription deliveryId →
      ∀ a ∈ w.db.attempts.rows, a.id ≠ deliveryId := by
  intro h
  have hrehearses : rehearses sqlServer (Database.effect? sqlServer) (fun w act _ => w.inTurn act)
      (initial 0) repeatedCues = true := by decide +kernel
  obtain ⟨acts, hrun⟩ := steps_of_rehearsal (P := fun w act w' =>
    Step sqlServer (Database.Exec sqlServer) w act w' ∧ w.inTurn act = true) hrehearses
    (fun _ _ _ _ _ heffect => .effect (.of_effect? heffect)) fun _ _ _ hs htest => ⟨hs, htest⟩
  have hplans := readable_of_inTurn hrun fun _ _ _ hs => hs.2
  have hhosts : repeatedCues.filterMap Cue.host? = List.replicate 3 shardedHost := rfl
  -- what is delivered next has the id of the attempt that is left
  have hnext : ((repeated.act? sqlServer (Database.effect? sqlServer)
      (.call 2 (.returned (.ok unavailable)))).bind fun x =>
        if repeated.solo x.1 then sentId? x.1 else none) = some (deriveDeliveryId Hash.sparse 1 7 2) := by
    decide +kernel
  have hleft : ∃ a ∈ repeated.db.attempts.rows, a.id = deriveDeliveryId Hash.sparse 1 7 2 := by
    decide +kernel
  obtain ⟨⟨act, w'⟩, hact, hsent⟩ := Option.bind_eq_some_iff.mp hnext
  split at hsent
  · next hsolo =>
      obtain ⟨token, message, subscription, r, rfl⟩ := eq_call_of_sentId? hsent
      obtain ⟨a, ha, hid⟩ := hleft
      exact h acts repeated w' Hash.sparse token _
        (hrun.mono fun _ _ _ hs => ⟨hs.1, solo_of_solo (Bool.and_eq_true_iff.mp hs.2).1⟩)
        hplans (sha256_of_sharded hhosts) (injOn_of_onOrders (by decide +kernel))
        (.of_act? (fun _ _ _ _ _ heffect => .effect (.of_effect? heffect)) hact) (solo_of_solo hsolo)
        _ _ _ rfl a ha hid
  · cases hsent

/-- Both orders are attempted once; a purge takes the attempts for the first; then each has another round
under way. -/
def purgedCues : List Cue :=
  [.publish 0 (orderArgs 1), .publish 0 (orderArgs 2), .acquireCold shardedHost []] ++
  Cue.round 0 bothPlan [.done, .returned (.ok accepted), .time 50000, .returned (.ok unavailable), .time 60000,
    .done, .drew (1 / 2), .time 70000, .done] ++
  Cue.round 1 bothPlan [.done, .returned (.ok unavailable), .time 500000, .returned (.ok unavailable),
    .time 600000, .done, .drew (1 / 2), .time 700000, .done] ++
  [.tick 1000000, .purgeAttempts 200000, .acquireCold shardedHost []] ++
  Cue.round 2 bothPlan [.done, .returned (.ok accepted), .time 1000000] ++
  Cue.round 3 bothPlan [.done]

/-- The world in which the second order is delivered again. -/
def purged : World :=
  rehearsed sqlServer (Database.effect? sqlServer) (inOrder 200000) (initial 0) purgedCues

/-- The second attempts for the second order are fresh, the first ones being stored. -/
theorem fresh_attempt_ids_order :
    (∀ a ∈ purged.db.attempts.rows, a.id ≠ deriveDeliveryId Hash.sparse 2 7 2) ∧
    purged.db.attempts.rows.map (fun a => (a.outboxMessageId, a.webhookSubscriptionId, a.attemptNumber)) =
      [(2, 7, 1), (2, 8, 1)] := by
  have hrehearses : rehearses sqlServer (Database.effect? sqlServer) (inOrder 200000) (initial 0)
      purgedCues = true := by decide +kernel
  obtain ⟨acts, hrun⟩ := steps_of_rehearsal (P := fun w act w' =>
    OrderedStep sqlServer w act w' ∧ w.inTurn act = true) hrehearses
    (fun _ _ _ _ _ heffect => .effect (.of_effect? heffect)) fun _ _ _ hs htest =>
      ⟨.of_inOrder hs htest, (Bool.and_eq_true_iff.mp htest).1⟩
  have hplans := readable_of_inTurn hrun fun _ _ _ hs => hs.2
  have hhosts : purgedCues.filterMap Cue.host? = List.replicate 2 shardedHost := rfl
  have hnext : ((purged.act? sqlServer (Database.effect? sqlServer)
      (.call 3 (.returned (.ok unavailable)))).bind fun x =>
        if inOrder 200000 purged x.1 x.2 then sentId? x.1 else none) =
      some (deriveDeliveryId Hash.sparse 2 7 2) := by
    decide +kernel
  obtain ⟨⟨act, w'⟩, hact, hsent⟩ := Option.bind_eq_some_iff.mp hnext
  split at hsent
  · next horder =>
      obtain ⟨token, message, subscription, r, rfl⟩ := eq_call_of_sentId? hsent
      have hs : Step sqlServer (Database.Exec sqlServer) purged _ w' :=
        .of_act? (fun _ _ _ _ _ heffect => .effect (.of_effect? heffect)) hact
      have hfresh := fresh_attempt_ids (hrun.mono fun _ _ _ hs => hs.1) hplans (sha256_of_sharded hhosts)
        (injOn_of_onOrders (by decide +kernel)) (.of_inOrder hs horder)
      exact ⟨hfresh.1 _ _ _ rfl, by decide +kernel⟩
  · cases hsent

end World

end OutboxNet
