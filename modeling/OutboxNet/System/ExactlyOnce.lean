import OutboxNet.System.Redelivery
import OutboxNet.System.Rehearsal

/-!
# Exactly one success, if rounds are timely

Without faults, and when every round makes its last store call before its lock expires, no endpoint is
asked again after a success.  A round that has store calls left then owns the current lock of its
message (`Owned`); so nobody else stores attempts for the message meanwhile, the states it has read stay
exact, and a success of a message is stored, or pending in the one round that owns the lock (`Once`).
-/

set_option autoImplicit false

namespace OutboxNet

open AttemptStore (States)
open OutboxStore (due heldBy)

variable {dep : Deployment}

/-! ## Calls without faults -/

/-- An answer that is no fault of the deliverer. -/
def Call.Fine : (c : Call) → c.Ans → Prop
  | .deliver _ _ _, a => ∃ r, a = Except.ok r
  | _, _ => True

theorem Call.exists_fine (c : Call) : ∃ a, c.Fine a := by
  cases c with
  | getDeliveryStates => exact ⟨Except.ok [], trivial⟩
  | saveAttempts => exact ⟨Except.ok (), trivial⟩
  | markAsProcessed => exact ⟨Except.ok true, trivial⟩
  | incrementRetry => exact ⟨Except.ok true, trivial⟩
  | markAsDeadLettered => exact ⟨Except.ok true, trivial⟩
  | deliver => exact ⟨Except.ok ⟨true, none, none, none, 0⟩, _, rfl⟩
  | publish => exact ⟨Except.ok (), trivial⟩
  | utcNow => exact ⟨(0 : ℤ), trivial⟩
  | nextDouble => exact ⟨(0 : ℚ), trivial⟩
  | addMetric => exact ⟨(), trivial⟩

/-- Whether an entry is a delivery of a message to a subscription that returned success. -/
def Entry.succeeds (messageId subscriptionId : Guid) : Entry → Bool
  | ⟨.deliver message subscription _, .ok result⟩ =>
      message.id = messageId && subscription.id = subscriptionId && result.success
  | _ => false

theorem Entry.succeeds_iff {messageId subscriptionId : Guid} {e : Entry} :
    e.succeeds messageId subscriptionId = true ↔ ∃ (message : OutboxMessage)
      (subscription : WebhookSubscription) (deliveryId : Guid) (result : DeliveryResult),
      e = ⟨.deliver message subscription deliveryId, .ok result⟩ ∧ message.id = messageId ∧
        subscription.id = subscriptionId ∧ result.success = true := by
  constructor
  · intro h
    unfold Entry.succeeds at h
    split at h
    · next message subscription deliveryId result =>
        simp only [Bool.and_eq_true, decide_eq_true_eq] at h
        exact ⟨message, subscription, deliveryId, result, rfl, h.1.1, h.1.2, h.2⟩
    · cases h
  · rintro ⟨message, subscription, deliveryId, result, rfl, rfl, rfl, h⟩
    simp [Entry.succeeds, h]

theorem Call.isStore_of_writeBack? {c : Call} (h : c.writeBack?.isSome = true) : c.isStore = true := by
  cases c <;> first | rfl | cases h

/-- No store call is left. -/
abbrev Quiescent (prog : Prog Call Call.Ans (Except Exn Unit)) : Prop :=
  prog.Never fun c => c.isStore = true

namespace Job

variable {job : Job}

/-! ## What the stages say about the calls that are left -/

/-- A write-back closes a round. -/
theorem Trans.closed_of_writeBack {c : Call} {s s' : Stage} {a : c.Ans} (h : job.Trans c s a s')
    (hc : c.writeBack?.isSome = true) : s' = .closed := by
  induction h with
  | noSubscriptions => rfl
  | processed => rfl
  | deadLetter => rfl
  | incrementRetry => rfl
  | giveUp => rfl
  | nothingToSave _ _ _ ih => exact ih hc
  | faulted _ _ ih => exact ih hc
  | retry _ _ ih => exact ih hc
  | _ => cases hc

/-- A closed round makes no store call any more. -/
theorem quiescent_of_closed {Q : Except Exn Unit → Stage → Prop}
    {prog : Prog Call Call.Ans (Except Exn Unit)} (h : prog.Conforms job.Trans Q .closed) :
    Quiescent prog := by
  induction prog with
  | ret r => trivial
  | call c k ih =>
      have hmetric : c.isStore = false ∧ ∀ a, (k a).Conforms job.Trans Q .closed := by
        obtain ⟨a, -⟩ := c.exists_fine
        obtain ⟨s', htrans, -⟩ := h a
        cases htrans with
        | metric =>
            refine ⟨rfl, fun a => ?_⟩
            obtain ⟨s', htrans, hk⟩ := h a
            cases htrans
            exact hk
      exact ⟨Bool.eq_false_iff.mp hmetric.1, fun a => ih a (hmetric.2 a)⟩

/-- No delivery of these results threw. -/
def NoThrow (results : Results) : Prop := ∀ i e, results i ≠ some (.error e)

theorem NoThrow.update {results : Results} (h : NoThrow results) (i : ℕ) (r : DeliveryResult) :
    NoThrow (Function.update results i (some (.ok r))) := by
  intro j e
  by_cases heq : j = i
  · subst heq
    rw [Function.update_self]
    simp
  · rw [Function.update_of_ne heq]
    exact h j e

/-- A delivery of these results returned. -/
def Returned (job : Job) (results : Results) : Prop :=
  ∃ i < job.subscriptions.length, ∃ r, results i = some (.ok r)

theorem not_faulted {results : Results} (h : NoThrow results) (hr : job.Returned results) :
    ¬ job.Faulted results := by
  obtain ⟨i, -, r, hi⟩ := hr
  rintro (⟨j, e, hj⟩ | ⟨-, rfl⟩)
  · exact h j e hj
  · cases hi

/-- A round with a delivery that returned and none that threw has store calls left: at least its save. -/
theorem not_quiescent {loop : LoopSchedule} {states : States} {results : Results}
    {prog : Prog Call Call.Ans (Except Exn Unit)}
    (hconf : prog.Conforms job.Trans (job.Finished loop) (.delivering states results))
    (hloop : ¬ loop.cancels) (hthrow : NoThrow results) (hreturned : job.Returned results) :
    ¬ Quiescent prog := by
  intro hnever
  induction prog generalizing results with
  | ret r =>
      cases hconf with
      | policyThrew _ h => cases h
      | loopThrew h => exact h.elim (fun h => not_faulted hthrow hreturned h.1.faulted) hloop
  | call c k ih =>
      obtain ⟨a, hfine⟩ := c.exists_fine
      obtain ⟨s', htrans, hk⟩ := hconf a
      cases htrans with
      | metric => exact ih _ hk hthrow hreturned (hnever.2 _)
      | attemptTime => exact ih _ hk hthrow hreturned (hnever.2 _)
      | @deliver _ _ i subscription _ hsub hi hatt =>
          obtain ⟨r, rfl⟩ := hfine
          refine ih _ hk (hthrow.update i r) ?_ (hnever.2 _)
          exact ⟨i, (List.getElem?_eq_some_iff.mp hsub).1, r, Function.update_self ..⟩
      | save => exact hnever.1 rfl
      | saveThrew => exact hnever.1 rfl
      | nothingToSave _ hnone _ =>
          obtain ⟨i, hlt, r, hi⟩ := hreturned
          exact hnone i hlt r hi
      | faulted hfault _ => exact not_faulted hthrow hreturned hfault

/-- A round that is about to deliver has store calls left. -/
theorem not_quiescent_of_deliver {loop : LoopSchedule} {states : States} {results : Results}
    {message : OutboxMessage} {subscription : WebhookSubscription} {deliveryId : Guid}
    {k : Except Exn DeliveryResult → Prog Call Call.Ans (Except Exn Unit)}
    (hconf : (Prog.call (Call.deliver message subscription deliveryId) k).Conforms job.Trans
      (job.Finished loop) (.delivering states results))
    (hloop : ¬ loop.cancels) (hthrow : NoThrow results) :
    ¬ Quiescent (.call (Call.deliver message subscription deliveryId) k) := by
  intro hquiet
  obtain ⟨s', htrans, hk⟩ := hconf (Except.ok ⟨true, none, none, none, 0⟩)
  obtain ⟨states', results', i, hs, rfl, -, hsub, -, -⟩ := htrans.deliver_inv
  cases hs
  refine not_quiescent hk hloop (hthrow.update i _) ?_ (hquiet.2 _)
  exact ⟨i, (List.getElem?_eq_some_iff.mp hsub).1, _, Function.update_self ..⟩

/-- A result stays until the attempts are saved. -/
theorem Trans.result_or_save {c : Call} {states : States} {results : Results} {a : c.Ans}
    {s' : Stage} (h : job.Trans c (.delivering states results) a s') (hthrow : NoThrow results)
    {i : ℕ} (hlt : i < job.subscriptions.length) {r : DeliveryResult}
    (hi : results i = some (.ok r)) :
    (∃ results', s' = .delivering states results' ∧ results' i = some (.ok r)) ∨
      ∃ attempts utcNow, c = .saveAttempts attempts ∧
        attempts.Perm (job.newAttempts states results utcNow) := by
  cases h with
  | metric => exact .inl ⟨results, rfl, hi⟩
  | attemptTime => exact .inl ⟨results, rfl, hi⟩
  | deliver _ hnone _ =>
      refine .inl ⟨_, rfl, ?_⟩
      rw [Function.update_of_ne]
      · exact hi
      · rintro rfl
        rw [hnone] at hi
        cases hi
  | save _ hperm _ => exact .inr ⟨_, _, rfl, hperm⟩
  | saveThrew _ hperm _ => exact .inr ⟨_, _, rfl, hperm⟩
  | nothingToSave _ hnone _ => exact absurd hi (hnone i hlt r)
  | faulted hfault _ => exact absurd hfault (not_faulted hthrow ⟨i, hlt, r, hi⟩)

end Job

/-! ## Timely runs -/

/-- A plan of direct delivery to subscriptions with distinct ids, that is not cancelled. -/
def Plan.Regular : Plan → Prop
  | .direct subscriptions loop => (subscriptions.map (·.id)).Nodup ∧ ¬ loop.cancels
  | .queueMediated => False

/-- An action without faults: a round begins with a regular plan, a delivery returns, nothing is
purged. -/
def Action.Regular : Action → Prop
  | .begin_ _ plan => plan.Regular
  | .call _ entry => entry.call.Fine entry.answer
  | .purgeMessages => False
  | .purgeAttempts => False
  | _ => True

/-- Whether it is without faults. -/
def Action.regular : Action → Bool
  | .begin_ _ (.direct subscriptions loop) =>
      decide (subscriptions.map (·.id)).Nodup && !loop.canceled && decide (.cancel ∉ loop.choices)
  | .begin_ _ .queueMediated => false
  | .call _ ⟨.deliver _ _ _, .error _⟩ => false
  | .purgeMessages => false
  | .purgeAttempts => false
  | _ => true

theorem Action.Regular.of_regular {act : Action} (h : act.regular = true) : act.Regular := by
  cases act with
  | begin_ token plan =>
      cases plan with
      | direct subscriptions loop =>
          simp only [Action.regular, Bool.and_eq_true, decide_eq_true_eq, Bool.not_eq_true'] at h
          refine ⟨h.1.1, ?_⟩
          rintro (hcanceled | hcancel)
          · rw [h.1.2] at hcanceled
            cases hcanceled
          · exact h.2 hcancel
      | queueMediated => cases h
  | call token entry =>
      obtain ⟨c, a⟩ := entry
      cases c with
      | deliver =>
          cases a with
          | error e => cases h
          | ok r => exact ⟨r, rfl⟩
      | _ => trivial
  | purgeMessages => cases h
  | purgeAttempts => cases h
  | _ => trivial

theorem Action.Regular.keeps {act : Action} (h : act.Regular) :
    act ≠ .purgeMessages ∧ act ≠ .purgeAttempts := by
  constructor
  · rintro rfl
    exact h
  · rintro rfl
    exact h

/-- The lock of a round has expired. -/
def Round.Expired (now : DateTimeOffset) (r : Round) : Prop :=
  r.message.lockedUntil.any (fun u => u < now) = true

theorem Round.Expired.mono {now now' : DateTimeOffset} {r r' : Round} (h : r.Expired now)
    (hm : r'.message = r.message) (hle : now ≤ now') : r'.Expired now' := by
  rw [Round.Expired, Option.any_eq_true] at h ⊢
  obtain ⟨u, hu, hlt⟩ := h
  rw [decide_eq_true_eq] at hlt
  exact ⟨u, hm ▸ hu, by simpa using hlt.trans_le hle⟩

/-- A round makes no store call any more. -/
def Round.Done (r : Round) : Prop := ∃ work, r.work = some work ∧ Quiescent work.prog

namespace World

/-- Every round that has begun has made its last store call or has its lock. -/
def Timely (w : World) : Prop :=
  ∀ r ∈ w.rounds, r.work.isSome = true → r.Done ∨ ¬ r.Expired w.db.now

/-- Whether every round has returned, has not begun, or has its lock. -/
def inTime (w : World) : Bool :=
  w.rounds.all fun r => match r.work with
    | none => true
    | some ⟨_, .ret _⟩ => true
    | some ⟨_, .call _ _⟩ => !r.message.lockedUntil.any fun u => u < w.db.now

theorem timely_of_inTime {w : World} (h : w.inTime = true) : w.Timely := by
  intro r hr hbegun
  have hround := List.all_eq_true.mp h r hr
  obtain ⟨⟨plan, prog⟩, hwork⟩ := Option.isSome_iff_exists.mp hbegun
  rw [hwork] at hround
  cases prog with
  | ret a => exact .inl ⟨_, hwork, trivial⟩
  | call c k =>
      right
      rw [Round.Expired, Bool.not_eq_true]
      simpa using hround

/-- Every round whose lock has not expired and that is not done owns the current lock of its message. -/
def Owned (w : World) : Prop :=
  ∀ (token : ℕ) (r : Round), w.rounds[token]? = some r →
    r.Done ∨ r.Expired w.db.now ∨ w.CurrentLock r.message.id token

/-- A round that begins a store call owns the current lock. -/
theorem Owned.current {w : World} (h : w.Owned) (htimely : w.Timely) {token : ℕ} {r : Round}
    {work : Work} (hr : w.rounds[token]? = some r) (hwork : r.work = some work)
    (hlive : ¬ Quiescent work.prog) : w.CurrentLock r.message.id token := by
  have hnotDone : ¬ r.Done := by
    rintro ⟨work', hwork', hquiet⟩
    rw [hwork] at hwork'
    cases hwork'
    exact hlive hquiet
  rcases htimely r (List.mem_of_getElem? hr) (by rw [hwork]; rfl) with hdone | hexpired
  · exact absurd hdone hnotDone
  · exact ((h token r hr).resolve_left hnotDone).resolve_left hexpired

/-- A call of the store is made by a round with store calls left. -/
theorem Step.live {exec : Answering} {w w' : World} {token : ℕ} {entry : Entry}
    (hs : Step dep exec w (.call token entry) w') (hc : entry.call.isStore = true) :
    ∃ r work, w.rounds[token]? = some r ∧ r.work = some work ∧ ¬ Quiescent work.prog := by
  cases hs with
  | @call _ r work c k a db hr hwork hprog hexec =>
      refine ⟨r, work, hr, hwork, fun hquiet => ?_⟩
      rw [hprog] at hquiet
      exact hquiet.1 hc

/-- A round that is done stays done. -/
theorem Step.done {exec : Answering} {w w' : World} {act : Action} (hs : Step dep exec w act w')
    {token : ℕ} {r r' : Round} (hr : w.rounds[token]? = some r) (hr' : w'.rounds[token]? = some r')
    (h : r.Done) : r'.Done := by
  have hother : act.token? ≠ some token → r'.Done := by
    intro hact
    obtain ⟨r'', hr'', -, -, -, hsame⟩ := hs.round hr
    rw [hr'] at hr''
    cases hr''
    rw [hsame hact]
    exact h
  obtain ⟨work, hwork, hquiet⟩ := h
  -- a step of the round itself is a call, and it has no store call left
  cases hs with
  | @begin_ token₀ r₀ plan hr₀ hnone =>
      by_cases heq : token₀ = token
      · subst heq
        rw [hr] at hr₀
        cases hr₀
        rw [hwork] at hnone
        cases hnone
      · exact hother fun h => heq (Option.some.inj h)
  | @call token₀ r₀ work₀ c k a db hr₀ hwork₀ hprog hexec =>
      by_cases heq : token₀ = token
      · subst heq
        rw [hr] at hr₀
        cases hr₀
        rw [hwork] at hwork₀
        cases hwork₀
        rw [afterCall, List.getElem?_set_self (List.getElem?_eq_some_iff.mp hr).1] at hr'
        cases hr'
        rw [hprog] at hquiet
        exact ⟨_, rfl, hquiet.2 a⟩
      · exact hother fun h => heq (Option.some.inj h)
  | _ => exact hother (by simp [Action.token?])

/-- A round that writes back is done. -/
theorem Step.done_of_writeBack {exec : Answering} {w w' : World} {stages stages' : ℕ → Stage}
    {token : ℕ} {entry : Entry} (hs : Step dep exec w (.call token entry) w')
    (hplanned : w.Planned Plan.Regular) (hst : StageStep w stages (.call token entry) stages')
    (hcoupled : Coupled w' stages') (hc : entry.call.writeBack?.isSome = true) {r' : Round}
    (hr' : w'.rounds[token]? = some r') : r'.Done := by
  cases hst with
  | @call _ _ r subscriptions loop prog s' hr hwork htrans =>
      obtain ⟨r'', hr'', hp, hm, hplan, -⟩ := hs.round hr
      rw [hr'] at hr''
      cases hr''
      obtain ⟨prog', hwork'⟩ := hplan _ hwork
      have hconf := hcoupled token r' _ hr' hwork'
      rw [Function.update_self, htrans.closed_of_writeBack hc] at hconf
      exact ⟨_, hwork', Job.quiescent_of_closed hconf⟩
  | queued hr hwork => exact absurd (hplanned token _ _ hr hwork) id
  | other hnone => cases hnone

/-- The row under a current lock that has not expired is not free. -/
theorem CurrentLock.not_due {w : World} {token : ℕ} {r : Round} {m : OutboxMessage}
    (h : w.CurrentLock r.message.id token) (hok : OutboxStore.TableOk w.db.messages)
    (hr : w.rounds[token]? = some r) (hlive : ¬ r.Expired w.db.now)
    (hm : w.db.messages.find? r.message.id = some m) :
    due w.db.now m = false ∧ OutboxStore.expired w.db.now m = false := by
  obtain ⟨-, p, a, m', hx, hfind, hproc, huntil, -⟩ := h
  rw [acquisition_eq_some hr] at hx
  cases hx
  rw [hm] at hfind
  cases hfind
  obtain ⟨u, hu⟩ := Option.isSome_iff_exists.mp ((hok.row (Table.find?_mem hm)).locked hproc).2
  have hnot : ¬ u < w.db.now := by
    intro hlt
    refine hlive ?_
    rw [Round.Expired, ← huntil, hu]
    simpa using hlt
  simp [due, OutboxStore.expired, hu, hnot]

/-- The step lemma of the locks, if a round that writes back is done. -/
theorem Owned.step_of_done {exec : Answering} (hexec : Sound dep exec) {w w' : World}
    {stages stages' : ℕ → Stage} {act : Action} (h : w.Owned) (hs : Step dep exec w act w')
    (hok : OutboxStore.TableOk w.db.messages) (htimely : w.Timely) (hst : StageStep w stages act stages')
    (hdone : ∀ token entry, act = .call token entry → entry.call.writeBack?.isSome = true →
      ∀ r', w'.rounds[token]? = some r' → r'.Done) : w'.Owned := by
  intro token r' hr'
  by_cases hlt : token < w.rounds.length
  swap
  · -- a round that has just been acquired
    obtain rfl := hs.acquire_of_new hr' hlt
    right; right
    rcases hs.acquire_current r'.message.id with ⟨-, hold⟩ | ⟨m, owner, -, -, -, hcurrent, honly⟩
    · exact absurd (hold token _ (acquisition_eq_some hr') rfl) hlt
    · rw [honly token _ (not_lt.mp hlt) (acquisition_eq_some hr') rfl]
      exact hcurrent
  have hr := List.getElem?_eq_getElem hlt
  generalize w.rounds[token] = r at hr
  obtain ⟨r'', hr'', -, hm, -⟩ := hs.round hr
  rw [hr'] at hr''
  cases hr''
  rcases h token r hr with hdone | hexpired | hcurrent
  · exact .inl (hs.done hr hr' hdone)
  · exact .inr (.inl (hexpired.mono hm (hs.now_le hexec)))
  by_cases hexpired : r.Expired w.db.now
  · exact .inr (.inl (hexpired.mono hm (hs.now_le hexec)))
  rw [hm]
  have hrow := hs.row hexec r.message.id
  have hcurrent' := hcurrent
  obtain ⟨-, p, a, m, -, hfind, -⟩ := hcurrent'
  obtain ⟨hdue, hnotExpired⟩ := hcurrent.not_due hok hr hexpired hfind
  rw [hfind] at hrow
  generalize hm' : w'.db.messages.find? r.message.id = o' at hrow
  cases hrow with
  | same =>
      right; right
      refine hcurrent.mono hs (hm'.trans hfind.symm) ?_
      rintro rfl
      rcases hs.acquire_current r.message.id with ⟨-, hold⟩ | ⟨m', owner, hm', hdue', -⟩
      · exact hold
      · rw [hfind] at hm'
        cases hm'
        rw [hdue] at hdue'
        cases hdue'
  | lock _ _ hdue' =>
      rw [hdue] at hdue'
      cases hdue'
  | @writeBack token' entry kind messageId lockedBy _ hcall hc hheld =>
      -- the writer owns the current lock, so it is the round itself
      subst hcall
      have hwriter : entry.call.writeBack?.isSome = true := by rw [hc]; rfl
      obtain ⟨r₀, work₀, hr₀, hwork₀, hlive⟩ := hs.live (Call.isStore_of_writeBack? hwriter)
      have hid : r₀.message.id = r.message.id := by
        rw [← (hst.addressed hr₀ hc).1]
        simp only [heldBy, Bool.and_eq_true, decide_eq_true_eq] at hheld
        rw [← hheld.1]
        exact Table.find?_key hfind
      have howner := h.current htimely hr₀ hwork₀ hlive
      rw [hid] at howner
      obtain rfl := howner.1.unique hcurrent.1
      exact .inl (hdone _ _ rfl hwriter r' hr')
  | release _ hexp =>
      rw [hnotExpired] at hexp
      cases hexp
  | purge _ hpurge =>
      -- a row that is locked is not purged
      obtain ⟨-, _, _, m', -, hfind', hproc, -⟩ := hcurrent
      rw [hfind] at hfind'
      cases hfind'
      simp [OutboxStore.purgeable, hproc] at hpurge

/-- The step lemma of the locks. -/
theorem Owned.step {exec : Answering} (hexec : Sound dep exec) {w w' : World}
    {stages stages' : ℕ → Stage} {act : Action} (h : w.Owned) (hs : Step dep exec w act w')
    (hok : OutboxStore.TableOk w.db.messages) (htimely : w.Timely)
    (hplanned : w.Planned Plan.Regular) (hst : StageStep w stages act stages')
    (hcoupled : Coupled w' stages') : w'.Owned := by
  refine h.step_of_done hexec hs hok htimely hst ?_
  rintro token entry rfl hwriter r' hr'
  exact hs.done_of_writeBack hplanned hst hcoupled hwriter hr'

/-! ## Stored successes -/

/-- A step without a purge keeps the stored successes. -/
theorem Step.hasSuccess_mono {exec : Answering} (hexec : Sound dep exec) {w w' : World} {act : Action}
    (hs : Step dep exec w act w') (hact : act.Regular) {k s : Guid}
    (h : AttemptStore.hasSuccess k s w.db.attempts = true) :
    AttemptStore.hasSuccess k s w'.db.attempts = true := by
  cases hs with
  | call _ _ _ hcall => exact (hexec hcall).hasSuccess h
  | purgeMessages => exact absurd hact id
  | purgeAttempts => exact absurd hact id
  | _ => exact h

/-- A success of message `k` is stored by a store call of a round on it. -/
theorem Step.hasSuccess_before {exec : Answering} (hexec : Sound dep exec) {w w' : World}
    {stages stages' : ℕ → Stage} {act : Action} (hs : Step dep exec w act w') (hact : act.Regular)
    (hst : StageStep w stages act stages') {k s : Guid}
    (h : AttemptStore.hasSuccess k s w'.db.attempts = true) :
    AttemptStore.hasSuccess k s w.db.attempts = true ∨ ∃ token entry r, act = .call token entry ∧
      entry.call.isStore = true ∧ w.rounds[token]? = some r ∧ r.message.id = k := by
  cases hs with
  | @call token r work c _ a db hr hwork hprog hcall =>
      rcases (hexec hcall).attempts with heq | ⟨newAttempts, defaults, hc, hsave⟩
      · left
        rw [← heq]
        exact h
      · refine ((AttemptStore.hasSuccess_saveAttemptsAsync hsave k s).mp h).imp_right ?_
        rintro ⟨x, hx, hmessage, -, -⟩
        obtain ⟨r₀, _, _, _, states, results, utcNow, hr₀, -, -, hperm⟩ := hst.saved hc
        obtain ⟨i, subscription, res, -, -, rfl⟩ := Job.mem_newAttempts.mp (hperm.mem_iff.mp hx)
        exact ⟨token, _, r₀, rfl, congrArg Call.isStore hc, hr₀, hmessage⟩
  | purgeMessages => exact absurd hact id
  | purgeAttempts => exact absurd hact id
  | _ => exact .inl h

/-- The states a round has read say what is stored. -/
def SeenExactly (w : World) (job : Job) (states : States) : Prop :=
  ∀ subscription ∈ job.subscriptions, Pipeline.hasSuccess states subscription =
    AttemptStore.hasSuccess job.message.id subscription.id w.db.attempts

/-- What holds of a round in its stage. -/
def OnceOk (w : World) (token : ℕ) (job : Job) : Stage → Prop
  | .delivering states results => Job.NoThrow results ∧
      (w.CurrentLock job.message.id token → w.SeenExactly job states)
  | _ => True

/-- The step lemma of a round. -/
theorem OnceOk.trans {w w' : World} {token : ℕ} {job : Job} {c : Call} {s s' : Stage} {a : c.Ans}
    (htrans : job.Trans c s a s') (hexec : Database.Effect dep c w.db a w'.db) (hfine : c.Fine a)
    (hcurrent : w'.CurrentLock job.message.id token → w.CurrentLock job.message.id token)
    (h : w.OnceOk token job s) : w'.OnceOk token job s' := by
  have hsame : (∀ attempts, c ≠ .saveAttempts attempts) → ∀ {states : States},
      w.SeenExactly job states → w'.SeenExactly job states := by
    intro hc states hseen subscription hsub
    rcases hexec.change.attempts with heq | ⟨newAttempts, defaults, hsave, -⟩
    · rw [heq]
      exact hseen subscription hsub
    · exact absurd hsave (hc newAttempts)
  -- only a save changes the attempts, and it ends the deliveries of the round
  induction htrans with
  | @metric metric eventType s a =>
      cases s with
      | delivering states results => exact ⟨h.1, fun hlock => hsame nofun (h.2 (hcurrent hlock))⟩
      | _ => trivial
  | @read states hne =>
      refine ⟨(fun i e hi => by cases hi), fun _ => hsame nofun fun subscription hsub => ?_⟩
      obtain rfl := Except.ok.inj hexec.read.1
      exact Pipeline.hasSuccess_getDeliveryStatesAsync (List.mem_map_of_mem hsub)
  | readThrew => split <;> trivial
  | @deliver _ _ i _ _ _ _ _ =>
      obtain ⟨r, rfl⟩ := hfine
      exact ⟨h.1.update i r, fun hlock => hsame nofun (h.2 (hcurrent hlock))⟩
  | attemptTime => exact ⟨h.1, fun hlock => hsame nofun (h.2 (hcurrent hlock))⟩
  | saveThrew =>
      unfold Job.afterFailedSave
      split <;> trivial
  | nothingToSave _ _ _ ih => exact ih hexec hfine trivial hsame
  | faulted _ _ ih => exact ih hexec hfine trivial hsame
  | retry _ _ ih => exact ih hexec hfine trivial hsame
  | save => trivial
  | noSubscriptions => trivial
  | processed => trivial
  | deadLetter => trivial
  | draw => trivial
  | clock => trivial
  | incrementRetry => trivial
  | giveUp => trivial

/-- The step lemma of all rounds. -/
theorem onceOk_step {w w' : World} {stages stages' : ℕ → Stage} {act : Action}
    (h : ForRounds (OnceOk w) w stages) (hs : Step dep (Database.Effect dep) w act w')
    (hst : StageStep w stages act stages') (hact : act.Regular) (hlocked : Locked w)
    (howned : w.Owned) (htimely : w.Timely) : ForRounds (OnceOk w') w' stages' := by
  refine h.step hs hst (fun _ _ _ _ _ _ _ => trivial) ?_ ?_
  · -- the states of a round that owns the lock stay exact: nobody else saves for its message
    intro token r subscriptions s hother hr hok
    cases s with
    | delivering states results =>
        refine ⟨hok.1, fun hlock subscription hsub => ?_⟩
        have hlt := (List.getElem?_eq_some_iff.mp hr).1
        have hbefore := hlock.of_step sound_effect hlocked hs hlt
        rw [hok.2 hbefore subscription hsub, Bool.eq_iff_iff]
        refine ⟨hs.hasSuccess_mono sound_effect hact, fun hstored => ?_⟩
        rcases hs.hasSuccess_before sound_effect hact hst hstored with
          hstored | ⟨token', entry, r', rfl, hstore, hr', hid⟩
        · exact hstored
        · obtain ⟨r₀, work₀, hr₀, hwork₀, hlive⟩ := hs.live hstore
          rw [hr'] at hr₀
          cases hr₀
          have hcurrent := howned.current htimely hr' hwork₀ hlive
          rw [hid] at hcurrent
          exact absurd (congrArg some (hcurrent.1.unique hbefore.1)) hother
    | _ => trivial
  · rintro token entry r subscriptions s s' rfl hr htrans hok
    have hlt := (List.getElem?_eq_some_iff.mp hr).1
    exact OnceOk.trans htrans hs.called.1 hact
      (fun hlock => hlock.of_step sound_effect hlocked hs hlt) hok

/-! ## Counting the successes -/

/-- How often a delivery of a message to a subscription has returned success. -/
def successes (w : World) (messageId subscriptionId : Guid) : ℕ :=
  w.log.countP fun x => x.2.succeeds messageId subscriptionId

theorem successes_pos_iff {w : World} {k s : Guid} : 0 < w.successes k s ↔ w.Succeeded k s := by
  rw [successes, List.countP_pos_iff]
  constructor
  · rintro ⟨⟨token, e⟩, hmem, h⟩
    obtain ⟨message, subscription, deliveryId, result, rfl, h'⟩ := Entry.succeeds_iff.mp h
    exact ⟨token, message, subscription, deliveryId, result, hmem, h'⟩
  · rintro ⟨token, message, subscription, deliveryId, result, hmem, h⟩
    exact ⟨_, hmem, Entry.succeeds_iff.mpr ⟨_, _, _, _, rfl, h⟩⟩

/-- Only a delivery that returns success counts. -/
theorem Step.successes_eq {exec : Answering} {w w' : World} {act : Action}
    (hs : Step dep exec w act w') {k s : Guid}
    (h : ∀ token entry, act = .call token entry → entry.succeeds k s = false) :
    w'.successes k s = w.successes k s := by
  cases hs with
  | call =>
      have hno := h _ _ rfl
      simp [successes, afterCall, hno]
  | _ => rfl

theorem Step.successes_succ {exec : Answering} {w w' : World} {token : ℕ} {entry : Entry}
    (hs : Step dep exec w (.call token entry) w') {k s : Guid} (h : entry.succeeds k s = true) :
    w'.successes k s = w.successes k s + 1 := by
  rw [successes, hs.called.2]
  simp [successes, h]

end World

/-- A round in this stage has received a success from subscription `s` that it has yet to save. -/
def Job.PendingIn (job : Job) (s : Guid) : Stage → Prop
  | .delivering _ results => ∃ (i : ℕ) (subscription : WebhookSubscription) (result : DeliveryResult),
      job.subscriptions[i]? = some subscription ∧ subscription.id = s ∧
        results i = some (.ok result) ∧ result.success = true
  | _ => False

namespace World

/-- A round on message `k` has received a success from subscription `s` that it has yet to save. -/
def Pending (w : World) (stages : ℕ → Stage) (k s : Guid) : Prop :=
  ∃ (token : ℕ) (r : Round) (subscriptions : List WebhookSubscription) (loop : LoopSchedule)
    (prog : Prog Call Call.Ans (Except Exn Unit)), w.rounds[token]? = some r ∧
    r.work = some ⟨.direct subscriptions loop, prog⟩ ∧ r.message.id = k ∧
    (r.job subscriptions).PendingIn s (stages token)

/-- The invariant of timely runs. -/
structure Once (w : World) (stages : ℕ → Stage) : Prop where
  tableOk : OutboxStore.TableOk w.db.messages
  locked : Locked w
  owned : w.Owned
  planned : w.Planned Plan.Regular
  recorded : w.Recorded stages
  rounds : ForRounds (OnceOk w) w stages
  atMostOnce : ∀ k s, w.successes k s ≤ 1
  accounted : ∀ k s, w.Succeeded k s →
    AttemptStore.hasSuccess k s w.db.attempts = true ∨ w.Pending stages k s

/-- A round with a pending success owns the current lock of its message. -/
theorem Once.current_of_pending {w : World} {stages : ℕ → Stage} (h : w.Once stages)
    (hcoupled : Coupled w stages) (htimely : w.Timely) {token : ℕ} {r : Round}
    {subscriptions : List WebhookSubscription} {loop : LoopSchedule}
    {prog : Prog Call Call.Ans (Except Exn Unit)} (hr : w.rounds[token]? = some r)
    (hwork : r.work = some ⟨.direct subscriptions loop, prog⟩) {s : Guid}
    (hpending : (r.job subscriptions).PendingIn s (stages token)) :
    w.CurrentLock r.message.id token := by
  have hconf := hcoupled token r _ hr hwork
  have hok := h.rounds token r subscriptions loop prog hr hwork
  have hplan := h.planned token r _ hr hwork
  generalize stages token = stage at hpending hconf hok
  cases stage with
  | delivering states results =>
      obtain ⟨i, subscription, result, hsub, -, hi, -⟩ := hpending
      have hreturned : (r.job subscriptions).Returned results :=
        ⟨i, (List.getElem?_eq_some_iff.mp hsub).1, result, hi⟩
      exact h.owned.current htimely hr hwork (Job.not_quiescent hconf hplan.2 hok.1 hreturned)
  | _ => cases hpending

/-- A pending success stays pending or is saved. -/
theorem Once.pending_step {w w' : World} {stages stages' : ℕ → Stage} {act : Action}
    (h : w.Once stages) (hs : Step dep (Database.Effect dep) w act w')
    (hst : StageStep w stages act stages') {k s : Guid} (hpending : w.Pending stages k s) :
    AttemptStore.hasSuccess k s w'.db.attempts = true ∨ w'.Pending stages' k s := by
  obtain ⟨token, r, subscriptions, loop, prog, hr, hwork, rfl, hpending⟩ := hpending
  obtain ⟨r', prog', hr', hwork', hm, hjob⟩ := hs.direct_round hr hwork
  have hkeep : (r.job subscriptions).PendingIn s (stages' token) →
      w'.Pending stages' r.message.id s := fun hpending =>
    ⟨token, r', subscriptions, loop, prog', hr', hwork', by rw [hm], by rwa [hjob]⟩
  by_cases hact : act.token? = some token
  swap
  · right
    refine hkeep ?_
    rwa [hst.other_stage hact]
  have hok := h.rounds token r subscriptions loop prog hr hwork
  obtain ⟨⟨c, a⟩, s', rfl, htrans, rfl⟩ := hst.of_acting hs hr hwork hact
  -- the round keeps its results or saves them
  generalize stages token = stage at hpending hok htrans hkeep
  cases stage with
  | delivering states results =>
      obtain ⟨i, subscription, result, hsub, hid, hi, hsuccess⟩ := hpending
      have hlt := (List.getElem?_eq_some_iff.mp hsub).1
      rcases htrans.result_or_save hok.1 hlt hi with
        ⟨results', rfl, hi'⟩ | ⟨attempts, utcNow, rfl, hperm⟩
      · right
        refine hkeep ?_
        rw [Function.update_self]
        exact ⟨i, subscription, result, hsub, hid, hi', hsuccess⟩
      · left
        obtain ⟨-, defaults, stored, hsave, hdb⟩ := hs.called.1.saved
        have hmem := hperm.mem_iff.mpr
          (Job.mem_newAttempts.mpr ⟨i, subscription, result, hsub, hi, rfl⟩)
        rw [hdb]
        refine (AttemptStore.hasSuccess_saveAttemptsAsync hsave _ _).mpr
          (.inr ⟨_, hmem, rfl, hid, ?_⟩)
        simp [Pipeline.deliveryAttempt, hsuccess]
  | _ => cases hpending

/-- A delivery that returns success leaves it pending. -/
theorem Step.pending_of_success {exec : Answering} {w w' : World} {stages stages' : ℕ → Stage}
    {token : ℕ} {entry : Entry} (hs : Step dep exec w (.call token entry) w')
    (hst : StageStep w stages (.call token entry) stages') {k s : Guid}
    (hsucceeds : entry.succeeds k s = true) : w'.Pending stages' k s := by
  obtain ⟨message, subscription, deliveryId, result, rfl, rfl, rfl, hsuccess⟩ :=
    Entry.succeeds_iff.mp hsucceeds
  cases hst with
  | @call _ _ r subscriptions loop prog s' hr hwork htrans =>
      obtain ⟨states, results, i, -, rfl, rfl, hsub, -, -⟩ := htrans.deliver_inv
      obtain ⟨r', prog', hr', hwork', hm, hjob⟩ := hs.direct_round hr hwork
      refine ⟨token, r', subscriptions, loop, prog', hr', hwork', congrArg OutboxMessage.id hm, ?_⟩
      rw [Function.update_self, hjob]
      exact ⟨i, subscription, result, hsub, rfl, Function.update_self .., hsuccess⟩
  | queued _ _ hof => cases hof
  | other hnone => cases hnone

/-- **A delivery that returns success is the first to do so**: the round owns the lock, so a success
before it would be stored and known to the round, or pending in the round itself, at another position. -/
theorem Once.first_success {w w' : World} {stages stages' : ℕ → Stage} {token : ℕ} {entry : Entry}
    (h : w.Once stages) (hs : Step dep (Database.Effect dep) w (.call token entry) w')
    (hst : StageStep w stages (.call token entry) stages') (hcoupled : Coupled w stages)
    (htimely : w.Timely) {k s : Guid} (hsucceeds : entry.succeeds k s = true) :
    ¬ w.Succeeded k s := by
  obtain ⟨message, subscription, deliveryId, result, rfl, rfl, rfl, -⟩ :=
    Entry.succeeds_iff.mp hsucceeds
  intro hbefore
  cases hst with
  | @call _ _ r subscriptions loop prog s' hr hwork htrans =>
      obtain ⟨states, results, i, hstage, -, rfl, hsub, hi, hatt, -⟩ := htrans.deliver_inv
      have hplan := h.planned token r _ hr hwork
      have hok := h.rounds token r subscriptions loop prog hr hwork
      rw [hstage] at hok
      have hlive : ¬ Quiescent prog := by
        have hconf : prog.Conforms (r.job subscriptions).Trans ((r.job subscriptions).Finished loop)
            (stages token) := hcoupled token r _ hr hwork
        rw [hstage] at hconf
        cases hs with
        | call hr₀ hwork₀ hprog _ =>
            rw [hr] at hr₀
            cases hr₀
            rw [hwork] at hwork₀
            cases hwork₀
            change prog = _ at hprog
            subst hprog
            exact Job.not_quiescent_of_deliver hconf hplan.2 hok.1
      have hcurrent := h.owned.current htimely hr hwork hlive
      rcases h.accounted _ _ hbefore with hstored | hpending
      · have hseen := hok.2 hcurrent subscription (List.mem_of_getElem? hsub)
        rw [(Job.attempted_iff.mp hatt).1, hstored] at hseen
        cases hseen
      · obtain ⟨token₀, r₀, subscriptions₀, loop₀, prog₀, hr₀, hwork₀, hid₀, hpending⟩ := hpending
        have hcurrent₀ := h.current_of_pending hcoupled htimely hr₀ hwork₀ hpending
        rw [hid₀] at hcurrent₀
        obtain rfl := hcurrent₀.1.unique hcurrent.1
        rw [hr] at hr₀
        cases hr₀
        rw [hwork] at hwork₀
        cases hwork₀
        rw [hstage] at hpending
        obtain ⟨j, subscription₀, result₀, hsub₀, hid, hj, -⟩ := hpending
        -- distinct subscriptions have distinct ids
        have hnodup : ((r.job subscriptions).subscriptions.map (·.id)).Nodup := hplan.1
        have hij : j = i := Job.position_eq hnodup hsub₀ hsub hid
        rw [hij, hi] at hj
        cases hj
  | queued _ _ hof => cases hof
  | other hnone => cases hnone

/-- The step lemma. -/
theorem Once.step {w w' : World} {stages stages' : ℕ → Stage} {act : Action} (h : w.Once stages)
    (hs : Step dep (Database.Effect dep) w act w') (hst : StageStep w stages act stages')
    (hcoupled : Coupled w stages) (hcoupled' : Coupled w' stages') (htimely : w.Timely)
    (hact : act.Regular) : w'.Once stages' where
  tableOk := tableOk_step sound_effect hs h.tableOk
  locked := h.locked.step sound_effect hs
  owned := h.owned.step sound_effect hs h.tableOk htimely h.planned hst hcoupled'
  planned := by
    refine h.planned.step hs ?_
    rintro token plan rfl
    exact hact
  recorded := h.recorded.step (hs.mono .effect) hst hact.keeps.2
  rounds := onceOk_step h.rounds hs hst hact h.locked h.owned htimely
  atMostOnce := by
    intro k s
    by_cases hnew : ∃ token entry, act = .call token entry ∧ entry.succeeds k s = true
    · obtain ⟨token, entry, rfl, hsucceeds⟩ := hnew
      have hfirst := h.first_success hs hst hcoupled htimely hsucceeds
      rw [hs.successes_succ hsucceeds, Nat.eq_zero_of_not_pos (mt successes_pos_iff.mp hfirst)]
    · rw [hs.successes_eq fun token entry heq => by simpa using fun h => hnew ⟨token, entry, heq, h⟩]
      exact h.atMostOnce k s
  accounted := by
    intro k s hsucceeded
    by_cases hnew : ∃ token entry, act = .call token entry ∧ entry.succeeds k s = true
    · obtain ⟨token, entry, rfl, hsucceeds⟩ := hnew
      exact .inr (hs.pending_of_success hst hsucceeds)
    · rw [← successes_pos_iff, hs.successes_eq fun token entry heq => by
        simpa using fun h => hnew ⟨token, entry, heq, h⟩, successes_pos_iff] at hsucceeded
      rcases h.accounted k s hsucceeded with hstored | hpending
      · exact .inl (hs.hasSuccess_mono sound_effect hact hstored)
      · exact h.pending_step hs hst hpending

/-- A run without faults whose rounds are timely in every world it passes. -/
abbrev TimelyRun (dep : Deployment) : World → List Action → World → Prop :=
  Steps fun w act w' => Step dep (Database.Effect dep) w act w' ∧ act.Regular ∧ w'.Timely

/-- The invariant holds after every timely run. -/
theorem once_run {now : DateTimeOffset} {acts : List Action} {w : World}
    (hrun : TimelyRun dep (initial now) acts w) :
    w.Timely ∧ ∃ stages, Coupled w stages ∧ w.Once stages := by
  refine hrun.invariant (fun w => w.Timely ∧ ∃ stages, Coupled w stages ∧ w.Once stages) ?_
    ⟨List.forall_mem_nil _, fun _ => .start, Coupled.initial now _, ?_⟩
  · rintro w act w' ⟨htimely, stages, hcoupled, h⟩ ⟨hs, hact, htimely'⟩
    obtain ⟨stages', hcoupled', hst⟩ := hcoupled.step hs
    exact ⟨htimely', stages', hcoupled', h.step hs hst hcoupled hcoupled' htimely hact⟩
  · have hnone : ∀ k s, (initial now).successes k s = 0 := fun _ _ => rfl
    refine ⟨.empty, (fun k m hm => by cases hm), (fun token r hr => by cases hr), .initial _ now,
      ⟨List.forall_mem_nil _, ForRounds.initial _ now _⟩, ForRounds.initial _ now _,
      fun k s => (hnone k s).trans_le (Nat.zero_le 1), fun k s hsucceeded => ?_⟩
    have hpos := successes_pos_iff.mpr hsucceeded
    rw [hnone] at hpos
    cases hpos

/-! ## The theorem -/

/-- A row becomes `Delivered` only by a `MarkAsProcessedAsync` of a round on its message. -/
theorem Step.delivered {exec : Answering} (hexec : Sound dep exec) {w w' : World}
    {stages stages' : ℕ → Stage} {act : Action} (hs : Step dep exec w act w')
    (hst : StageStep w stages act stages') {k : Guid} {m m' : OutboxMessage}
    (hm : w.db.messages.find? k = some m) (hbefore : m.status ≠ .delivered)
    (hm' : w'.db.messages.find? k = some m') (hafter : m'.status = .delivered) :
    ∃ token r lockedBy answer, act = .call token ⟨Call.markAsProcessed k lockedBy, answer⟩ ∧
      w.rounds[token]? = some r ∧ r.message.id = k := by
  have hrow := hs.row hexec k
  rw [hm, hm'] at hrow
  cases hrow with
  | same => exact absurd hafter hbefore
  | lock => cases hafter
  | release => cases hafter
  | @writeBack token entry kind messageId lockedBy _ hact hc hheld =>
      subst hact
      have hid : messageId = k := by
        simp only [heldBy, Bool.and_eq_true, decide_eq_true_eq] at hheld
        rw [← hheld.1]
        exact Table.find?_key hm
      subst hid
      have hr : ∃ r, w.rounds[token]? = some r := by
        cases hs with
        | call hr => exact ⟨_, hr⟩
      obtain ⟨r, hr⟩ := hr
      -- of the write-backs only `MarkAsProcessedAsync` sets this status
      obtain ⟨c, a⟩ := entry
      refine ⟨token, r, lockedBy, ?_⟩
      have hmessage := (hst.addressed hr hc).1
      cases c with
      | markAsProcessed =>
          cases hc
          exact ⟨a, rfl, hr, hmessage.symm⟩
      | incrementRetry =>
          cases hc
          cases hafter
      | markAsDeadLettered =>
          cases hc
          cases hafter
      | _ => cases hc

/-- **Exactly once.** Take any run of any number of workers without faults, in direct delivery to
subscriptions with distinct ids, in which every round makes its last store call before its lock expires.
No delivery of a message to a subscription returns success a second time; and whenever a step moves a
message to `Delivered`, it is the call of a round on it, and the deliveries to each subscription of that
round have returned success exactly once. -/
theorem timely_rounds_deliver_once {now : DateTimeOffset} {acts : List Action} {w : World}
    (hrun : TimelyRun dep (initial now) acts w) :
    (∀ messageId subscriptionId, w.successes messageId subscriptionId ≤ 1) ∧
    ∀ {act : Action} {w' : World} {k : Guid} {m m' : OutboxMessage},
      Step dep (Database.Effect dep) w act w' → w.db.messages.find? k = some m →
      m.status ≠ .delivered → w'.db.messages.find? k = some m' → m'.status = .delivered →
      ∃ (token : ℕ) (entry : Entry) (r : Round) (subscriptions : List WebhookSubscription)
        (loop : LoopSchedule) (prog : Prog Call Call.Ans (Except Exn Unit)),
        act = .call token entry ∧ w.rounds[token]? = some r ∧ r.message.id = k ∧
        r.work = some ⟨.direct subscriptions loop, prog⟩ ∧
        ∀ subscription ∈ subscriptions, w.successes k subscription.id = 1 := by
  obtain ⟨htimely, stages, hcoupled, h⟩ := once_run hrun
  refine ⟨h.atMostOnce, ?_⟩
  intro act w' k m m' hs hm hbefore hm' hafter
  obtain ⟨stages', -, hst⟩ := hcoupled.step hs
  obtain ⟨token, r, lockedBy, answer, rfl, hr, rfl⟩ :=
    hs.delivered sound_effect hst hm hbefore hm' hafter
  have hst' := hst
  cases hst with
  | @call _ _ r₀ subscriptions loop prog s' hr₀ hwork htrans =>
      rw [hr] at hr₀
      cases hr₀
      refine ⟨token, _, r, subscriptions, loop, prog, rfl, hr, rfl, hwork, fun subscription hsub => ?_⟩
      have hstored := h.recorded.of_markAsProcessed hst' hr hwork (by rw [hm]; rfl) hsub
      obtain ⟨a, ha, hid, hsubId, hstatus⟩ := AttemptStore.hasSuccess_iff.mp hstored
      have hsucceeded := h.recorded.answered a ha hstatus
      rw [hid, hsubId] at hsucceeded
      exact le_antisymm (h.atMostOnce _ _) (successes_pos_iff.mpr hsucceeded)
  | queued hr₀ hwork => exact absurd (h.planned token _ _ hr₀ hwork) id
  | other hnone => cases hnone

/-- Two orders.  The first is delivered to subscription 7 and not to 8, and retried; the second is
delivered to both; the first is acquired again and now delivered to 8, and its attempt saved. -/
def twoOrdersCues : List Cue :=
  [.publish 0 (orderArgs 1), .publish 0 (orderArgs 2), .acquireCold shardedHost []] ++
  Cue.round 0 bothPlan [.done, .returned (.ok accepted), .time 5, .returned (.ok unavailable), .time 6,
    .done, .drew (1 / 2), .time 10, .done] ++
  Cue.round 1 bothPlan [.done, .returned (.ok accepted), .time 5, .returned (.ok accepted), .time 6,
    .done, .done, .done] ++
  [.tick 100, .acquireHot shardedHost 1] ++
  Cue.round 2 bothPlan [.done, .returned (.ok accepted), .time 105, .done]

/-- The world before the first order is marked as processed. -/
def twoOrders : World :=
  rehearsed sqlServer (Database.effect? sqlServer) (fun _ act w => act.regular && w.inTime) (initial 0)
    twoOrdersCues

theorem twoOrders_timely : ∃ acts, TimelyRun sqlServer (initial 0) acts twoOrders := by
  have hrehearses : rehearses sqlServer (Database.effect? sqlServer)
      (fun _ act w => act.regular && w.inTime) (initial 0) twoOrdersCues = true := by decide +kernel
  refine steps_of_rehearsal hrehearses (fun _ _ _ _ _ => Database.Effect.of_effect?) fun w act w' hs htest => ?_
  rw [Bool.and_eq_true] at htest
  exact ⟨hs, .of_regular htest.1, timely_of_inTime htest.2⟩

/-- Every delivery of the two orders has returned success once when the first is marked as processed. -/
theorem timely_rounds_deliver_once_order :
    (∀ messageId subscriptionId, twoOrders.successes messageId subscriptionId ≤ 1) ∧
    (∃ (token : ℕ) (r : Round) (subscriptions : List WebhookSubscription) (loop : LoopSchedule)
        (prog : Prog Call Call.Ans (Except Exn Unit)), twoOrders.rounds[token]? = some r ∧
      r.message.id = 1 ∧ r.work = some ⟨.direct subscriptions loop, prog⟩ ∧
      ∀ subscription ∈ subscriptions, twoOrders.successes 1 subscription.id = 1) ∧
    twoOrders.rounds.length = 3 ∧ [7, 8].map (twoOrders.successes 1) = [1, 1] ∧
    [7, 8].map (twoOrders.successes 2) = [1, 1] := by
  obtain ⟨acts, hrun⟩ := twoOrders_timely
  have honce := timely_rounds_deliver_once hrun
  -- the next call of the third round delivers the first order
  have hmarked : (twoOrders.act? sqlServer (Database.effect? sqlServer) (.call 2 .done)).map
      (fun x => (x.2.db.messages.find? 1).map (·.status)) = some (some .delivered) := by decide +kernel
  have hbefore : (twoOrders.db.messages.find? 1).map (·.status) = some .processing := by decide +kernel
  obtain ⟨⟨act, w'⟩, hact, hstatus⟩ := Option.map_eq_some_iff.mp hmarked
  obtain ⟨m, hm, hprocessing⟩ := Option.map_eq_some_iff.mp hbefore
  obtain ⟨m', hm', hdelivered⟩ := Option.map_eq_some_iff.mp hstatus
  obtain ⟨token, entry, r, subscriptions, loop, prog, -, hr, hid, hwork, hsubs⟩ :=
    honce.2 (.of_act? (fun _ _ _ _ _ => .of_effect?) hact) hm (by rw [hprocessing]; decide) hm' hdelivered
  exact ⟨honce.1, ⟨token, r, subscriptions, loop, prog, hr, hid, hwork, hsubs⟩, by decide +kernel,
    by decide +kernel, by decide +kernel⟩

end World

end OutboxNet
