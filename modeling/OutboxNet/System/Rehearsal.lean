import OutboxNet.Delivery.RetryPolicy
import OutboxNet.Processor.Rehearsal
import OutboxNet.System.Recorded

/-!
# Rehearsed runs of the world

A run whose order of steps is given in advance: one cue for each step, a call of a round with its reply.
A scan of the cold path reads the rows in the order of the table.  Every step may be tested on the way.
-/

set_option autoImplicit false

namespace OutboxNet

open OutboxStore (PublishArgs publishedRow tryLockByIdAsync lockNextBatchAsync)

variable {dep : Deployment}

/-- What is to happen next. -/
inductive Cue : Type
  | tick (now : DateTimeOffset)
  | publish (now : DateTimeOffset) (a : PublishArgs)
  | acquireHot (p : Pipeline) (messageId : Guid)
  | acquireCold (p : Pipeline) (skipIds : List Guid)
  | begin_ (token : ℕ) (plan : Plan)
  | call (token : ℕ) (reply : Reply)
  | releaseExpiredLocks
  | purgeMessages (olderThan : DateTimeOffset)
  | purgeAttempts (olderThan : DateTimeOffset)

/-- A round begins and makes these calls. -/
def Cue.round (token : ℕ) (plan : Plan) (replies : List Reply) : List Cue :=
  .begin_ token plan :: replies.map (.call token)

/-- The host a cue acquires with. -/
def Cue.host? : Cue → Option Pipeline
  | .acquireHot p _ => some p
  | .acquireCold p _ => some p
  | _ => none

namespace World

/-- The step a cue asks for. -/
def act? (dep : Deployment) (answer : (c : Call) → Reply → Database → Option (c.Ans × Database))
    (w : World) : Cue → Option (Action × World)
  | .tick now =>
      if w.db.now ≤ now then some (.tick, { w with db := { w.db with now := now } }) else none
  | .publish now a =>
      (publishedRow dep now a).bind fun m =>
        if ∀ r ∈ w.rounds, r.message.id ≠ m.id then
          (w.db.messages.insertAll? [m]).map fun messages =>
            (.publish, { w with db := { w.db with messages := messages } })
        else none
  | .acquireHot p messageId =>
      (tryLockByIdAsync dep w.db.now messageId p.options.defaultVisibilityTimeout p.options.instanceId
        w.db.messages).map fun x =>
          (.acquire, { w with
            db := { w.db with messages := x.2 }
            rounds := w.rounds ++ x.1.toList.map fun m => ⟨p, m, none⟩ })
  | .acquireCold p skipIds =>
      (lockNextBatchAsync dep p.options w.db.now p.options.batchSize p.options.defaultVisibilityTimeout
        p.options.instanceId skipIds w.db.messages.rows w.db.messages).map fun x =>
          (.acquire, { w with
            db := { w.db with messages := x.2 }
            rounds := w.rounds ++ x.1.map fun m => ⟨p, m, none⟩ })
  | .begin_ token plan =>
      match w.rounds[token]? with
      | some ⟨p, m, none⟩ =>
          some (.begin_ token plan, { w with
            rounds := w.rounds.set token ((⟨p, m, none⟩ : Round).begin_ plan) })
      | _ => none
  | .call token reply =>
      match w.rounds[token]? with
      | some ⟨p, m, some ⟨plan, .call c k⟩⟩ =>
          (answer c reply w.db).map fun x =>
            (.call token ⟨c, x.1⟩,
              w.afterCall token ⟨p, m, some ⟨plan, .call c k⟩⟩ ⟨plan, .call c k⟩ c x.1 (k x.1) x.2)
      | _ => none
  | .releaseExpiredLocks =>
      some (.releaseExpiredLocks, { w with db := { w.db with
        messages := OutboxStore.releaseExpiredLocksAsync w.db.now w.db.messages } })
  | .purgeMessages olderThan =>
      let messages := (OutboxStore.purgeProcessedMessagesAsync olderThan w.db.messages).2
      some (.purgeMessages, { w with db := { w.db with
        messages := messages
        attempts := AttemptStore.cascade messages w.db.attempts } })
  | .purgeAttempts olderThan =>
      some (.purgeAttempts, { w with db := { w.db with
        attempts := AttemptStore.purgeOldAttemptsAsync olderThan w.db.attempts } })

variable {answer : (c : Call) → Reply → Database → Option (c.Ans × Database)} {exec : Answering}
  {w w' : World} {cue : Cue} {act : Action}

/-- **A cue gives a step.** -/
theorem Step.of_act? (hanswer : ∀ c q d a d', answer c q d = some (a, d') → exec c d a d')
    (h : w.act? dep answer cue = some (act, w')) : Step dep exec w act w' := by
  cases cue with
  | tick now =>
      rw [act?] at h
      split at h
      · next hnow =>
          cases h
          exact .tick hnow
      · cases h
  | publish now a =>
      rw [act?] at h
      obtain ⟨m, hrow, h⟩ := Option.bind_eq_some_iff.mp h
      split at h
      · next hfresh =>
          obtain ⟨messages, hins, heq⟩ := Option.map_eq_some_iff.mp h
          cases heq
          exact .publish hrow hfresh hins
      · cases h
  | acquireHot p messageId =>
      obtain ⟨x, hlock, heq⟩ := Option.map_eq_some_iff.mp h
      cases heq
      exact .acquireHot hlock
  | acquireCold p skipIds =>
      obtain ⟨x, hlock, heq⟩ := Option.map_eq_some_iff.mp h
      cases heq
      exact .acquireCold (List.Perm.refl _) hlock
  | begin_ token plan =>
      rw [act?] at h
      split at h
      · next hr =>
          cases h
          exact .begin_ hr rfl
      · cases h
  | call token reply =>
      rw [act?] at h
      split at h
      · next hr =>
          obtain ⟨x, hcall, heq⟩ := Option.map_eq_some_iff.mp h
          cases heq
          exact .call hr rfl rfl (hanswer _ _ _ _ _ hcall)
      · cases h
  | releaseExpiredLocks =>
      cases h
      exact .releaseExpiredLocks
  | purgeMessages olderThan =>
      cases h
      exact .purgeMessages rfl
  | purgeAttempts olderThan =>
      cases h
      exact .purgeAttempts olderThan

theorem hosts_of_act? {P : Pipeline → Prop} (hcue : ∀ p ∈ cue.host?, P p)
    (hrounds : ∀ r ∈ w.rounds, P r.pipeline) (h : w.act? dep answer cue = some (act, w')) :
    ∀ r ∈ w'.rounds, P r.pipeline := by
  -- a round that goes on is still of its host
  have hset : ∀ {token : ℕ} {r r' : Round}, w.rounds[token]? = some r → r'.pipeline = r.pipeline →
      ∀ x ∈ w.rounds.set token r', P x.pipeline := by
    intro token r r' hr hp x hx
    rcases List.mem_or_eq_of_mem_set hx with hx | rfl
    · exact hrounds x hx
    · rw [hp]
      exact hrounds r (List.mem_of_getElem? hr)
  -- and one that is new of the host that acquired its message
  have hnew : ∀ {p : Pipeline} {messages : List OutboxMessage}, P p →
      ∀ x ∈ w.rounds ++ messages.map fun m => (⟨p, m, none⟩ : Round), P x.pipeline := by
    intro p messages hp x hx
    rcases List.mem_append.mp hx with hx | hx
    · exact hrounds x hx
    · obtain ⟨m, -, rfl⟩ := List.mem_map.mp hx
      exact hp
  cases cue with
  | tick now =>
      rw [act?] at h
      split at h
      · cases h
        exact hrounds
      · cases h
  | publish now a =>
      rw [act?] at h
      obtain ⟨m, -, h⟩ := Option.bind_eq_some_iff.mp h
      split at h
      · obtain ⟨messages, -, heq⟩ := Option.map_eq_some_iff.mp h
        cases heq
        exact hrounds
      · cases h
  | acquireHot p messageId =>
      obtain ⟨x, -, heq⟩ := Option.map_eq_some_iff.mp h
      cases heq
      exact hnew (hcue p rfl)
  | acquireCold p skipIds =>
      obtain ⟨x, -, heq⟩ := Option.map_eq_some_iff.mp h
      cases heq
      exact hnew (hcue p rfl)
  | begin_ token plan =>
      rw [act?] at h
      split at h
      · next hr =>
          cases h
          exact hset hr rfl
      · cases h
  | call token reply =>
      rw [act?] at h
      split at h
      · next hr =>
          obtain ⟨x, -, heq⟩ := Option.map_eq_some_iff.mp h
          cases heq
          exact hset hr rfl
      · cases h
  | releaseExpiredLocks =>
      cases h
      exact hrounds
  | purgeMessages olderThan =>
      cases h
      exact hrounds
  | purgeAttempts olderThan =>
      cases h
      exact hrounds

/-- The step a cue asks for, if it passes a test. -/
def move (dep : Deployment) (answer : (c : Call) → Reply → Database → Option (c.Ans × Database))
    (test : World → Action → World → Bool) (w : World) (cue : Cue) : Option (Action × World) :=
  (w.act? dep answer cue).filter fun x => test w x.1 x.2

/-- Whether a run can be rehearsed. -/
def rehearses (dep : Deployment) (answer : (c : Call) → Reply → Database → Option (c.Ans × Database))
    (test : World → Action → World → Bool) (w : World) (cues : List Cue) : Bool :=
  (follow (move dep answer test) w cues).isSome

/-- The world in which it ends. -/
def rehearsed (dep : Deployment) (answer : (c : Call) → Reply → Database → Option (c.Ans × Database))
    (test : World → Action → World → Bool) (w : World) (cues : List Cue) : World :=
  followed (move dep answer test) w cues

/-- **A rehearsed run is a run**, of steps that have whatever the test makes sure of. -/
theorem steps_of_rehearsal {test : World → Action → World → Bool} {P : World → Action → World → Prop}
    {cues : List Cue} (h : rehearses dep answer test w cues = true)
    (hanswer : ∀ c q d a d', answer c q d = some (a, d') → exec c d a d')
    (htest : ∀ w act w', Step dep exec w act w' → test w act w' = true → P w act w') :
    ∃ acts, Steps P w acts (rehearsed dep answer test w cues) := by
  refine Steps.of_followed (fun w cue act w' hmove => ?_) h
  obtain ⟨hact, hpassed⟩ := Option.filter_eq_some_iff.mp hmove
  exact htest w act w' (.of_act? hanswer hact) hpassed

/-- Every round is one of a host that a cue acquires with. -/
theorem hosts_of_rehearsal {test : World → Action → World → Bool} {P : Pipeline → Prop}
    {cues : List Cue} (hcues : ∀ p ∈ cues.filterMap Cue.host?, P p)
    (hrounds : ∀ r ∈ w.rounds, P r.pipeline) :
    ∀ r ∈ (rehearsed dep answer test w cues).rounds, P r.pipeline := by
  refine followed_invariant (fun w : World => ∀ r ∈ w.rounds, P r.pipeline)
    (fun cue : Cue => ∀ p ∈ cue.host?, P p) (fun w cue act w' hcue hrounds hmove => ?_)
    (fun cue hcue p hp => hcues p (List.mem_filterMap.mpr ⟨cue, hcue, hp⟩)) hrounds
  obtain ⟨hact, -⟩ := Option.filter_eq_some_iff.mp hmove
  exact hosts_of_act? hcue hrounds hact

/-! ## A host to rehearse with -/

/-- The host with a back-off of no delay, and with a hash that tells its deliveries apart. -/
def shardedHost : Pipeline :=
  { functionsHost with
    retryPolicy := ExponentialBackoff.policy { baseDelay := 0 }
    sha256 := Hash.sparse }

/-- When every acquisition is made with that host, its hash is that of every round. -/
theorem sha256_of_sharded {test : World → Action → World → Bool} {now : DateTimeOffset} {cues : List Cue}
    {n : ℕ} (hhosts : cues.filterMap Cue.host? = List.replicate n shardedHost) :
    ∀ r ∈ (rehearsed dep answer test (initial now) cues).rounds, r.pipeline.sha256 = Hash.sparse := by
  have hsparse : ∀ p ∈ cues.filterMap Cue.host?, p.sha256 = Hash.sparse := by
    rw [hhosts]
    intro p hp
    rw [List.eq_of_mem_replicate hp, shardedHost]
  exact hosts_of_rehearsal hsparse (List.forall_mem_nil _)

/-- Another subscription to the order's event. -/
def billingSubscription : WebhookSubscription := { orderSubscription with id := 8 }

/-- The answer of an endpoint that is down. -/
def unavailable : DeliveryResult := ⟨false, some 503, none, some (text "HTTP 503"), 5⟩

/-- A round for both subscriptions. -/
def bothPlan : Plan := .direct [orderSubscription, billingSubscription] ⟨false, []⟩

/-- An order with this id. -/
def orderArgs (id : Guid) : PublishArgs :=
  ⟨id, text "order.placed", [], none, none, none, none, none, none⟩

end World

end OutboxNet
