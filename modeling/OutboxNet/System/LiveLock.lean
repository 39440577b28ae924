import OutboxNet.System.ExactlyOnce
import OutboxNet.System.Overlap

/-!
# Entering the delivery of a message

A message is locked when its batch is, and may wait for its turn until its lock has run out.  Nothing
stands between the acquisition and the delivery: `IsLockHeldAsync` has no caller.  A round enters the
delivery with a live lock when it comes to it before its lock runs out and no other round has meanwhile
written to its row under its instance name.
-/

set_option autoImplicit false

namespace OutboxNet

open OutboxStore (TableOk heldBy writeBackParam isLockHeldAsync)
open AttemptStore (States)

variable {dep : Deployment}

namespace Job

variable {job : Job}

/-- A closed round stays closed. -/
theorem Trans.of_closed {c : Call} {s' : Stage} {a : c.Ans} (h : job.Trans c .closed a s') :
    s' = .closed := by
  cases h
  rfl

end Job

namespace World

/-- Round `token` enters `DeliverToSubscriptionsAsync`: the last call it has made is its read of the
states, and it has the answer. -/
def Entering (w : World) (token : ℕ) : Prop :=
  ∃ (messageId : Guid) (subscriptionIds : List Guid) (states : States),
    (w.entriesOf token).getLast? =
      some ⟨.getDeliveryStates messageId subscriptionIds, Except.ok states⟩

/-- The round of `token` is in direct delivery, in the stage after its read. -/
def AtDelivery (w : World) (stages : ℕ → Stage) (token : ℕ) : Prop :=
  (∃ r subscriptions loop prog, w.rounds[token]? = some r ∧
    r.work = some ⟨.direct subscriptions loop, prog⟩) ∧
  ∃ states, stages token = .delivering states Results.none

/-- A round that enters the delivery is in the stage for it. -/
theorem atDelivery_step {exec : Answering} {w w' : World} {stages stages' : ℕ → Stage} {act : Action}
    (h : ∀ token, w.Entering token → w.AtDelivery stages token) (hs : Step dep exec w act w')
    (hst : StageStep w stages act stages') {token : ℕ} (hentering : w'.Entering token) :
    w'.AtDelivery stages' token := by
  by_cases hcall : ∃ entry, act = .call token entry
  · -- the read itself
    obtain ⟨entry, rfl⟩ := hcall
    obtain ⟨messageId, subscriptionIds, states, hlast⟩ := hentering
    rw [hs.entriesOf_call, List.getLast?_concat, Option.some.injEq] at hlast
    subst hlast
    cases hst with
    | call hr hwork htrans =>
        obtain ⟨r', hr', -, -, hplan, -⟩ := hs.round hr
        obtain ⟨prog', hwork'⟩ := hplan _ hwork
        have hstart := htrans.start_of_read rfl
        rw [hstart] at htrans
        obtain ⟨-, -, hok, -⟩ := htrans.read_inv
        exact ⟨⟨r', _, _, prog', hr', hwork'⟩, states, by rw [Function.update_self, hok states rfl]⟩
    | queued _ _ hof => cases hof
    | other hnone => cases hnone
  · push Not at hcall
    obtain ⟨messageId, subscriptionIds, states, hlast⟩ := hentering
    rw [hs.entriesOf hcall] at hlast
    obtain ⟨⟨r, subscriptions, loop, prog, hr, hwork⟩, states', hstage⟩ :=
      h token ⟨messageId, subscriptionIds, states, hlast⟩
    have hact : act.token? ≠ some token := by
      intro htoken
      cases hs with
      | begin_ hr₀ hnone =>
          cases htoken
          rw [hr] at hr₀
          cases hr₀
          rw [hwork] at hnone
          cases hnone
      | call => cases htoken; exact hcall _ rfl
      | _ => cases htoken
    obtain ⟨r', hr', -, -, -, hsame⟩ := hs.round hr
    rw [hsame hact] at hr'
    exact ⟨⟨r, subscriptions, loop, prog, hr', hwork⟩, states', by rw [hst.other_stage hact, hstage]⟩

/-! ## The lock of a round on its way to the delivery -/

/-- The row of message `a` carries the lock that `a` was acquired with, which runs until `u`. -/
def LockedUntil (w : World) (a : OutboxMessage) (u : DateTimeOffset) : Prop :=
  ∃ m, w.db.messages.find? a.id = some m ∧ m.status = .processing ∧ m.lockedBy = a.lockedBy ∧
    m.lockedUntil = some u

/-- Round `token` has made its write-back, or may have made it. -/
def PastDelivery (w : World) (stages : ℕ → Stage) (token : ℕ) : Prop :=
  ∃ r work, w.rounds[token]? = some r ∧ r.work = some work ∧
    (work.plan = .queueMediated ∨ stages token = .closed)

theorem PastDelivery.step {exec : Answering} {w w' : World} {stages stages' : ℕ → Stage}
    {act : Action} {token : ℕ} (h : w.PastDelivery stages token) (hs : Step dep exec w act w')
    (hst : StageStep w stages act stages') : w'.PastDelivery stages' token := by
  obtain ⟨r, work, hr, hwork, hcase⟩ := h
  obtain ⟨r', hr', -, -, hplan, -⟩ := hs.round hr
  obtain ⟨prog', hwork'⟩ := hplan _ hwork
  refine ⟨r', _, hr', hwork', hcase.imp_right fun hclosed => ?_⟩
  cases hst with
  | begin_ token' plan =>
      cases hs with
      | begin_ hr₀ hnone =>
          by_cases heq : token = token'
          · subst heq
            rw [hr] at hr₀
            cases hr₀
            rw [hwork] at hnone
            cases hnone
          · rw [Function.update_of_ne heq, hclosed]
  | @call token' entry _ _ _ _ s' _ _ htrans =>
      by_cases heq : token = token'
      · subst heq
        rw [hclosed] at htrans
        rw [Function.update_self, htrans.of_closed]
      · rw [Function.update_of_ne heq, hclosed]
  | queued => exact hclosed
  | other => exact hclosed

/-- A step that is no write-back of another round under the instance name of `token`. -/
def Unshared (dep : Deployment) (token : ℕ) (a : OutboxMessage) (instanceId : Text) (act : Action) :
    Prop :=
  ∀ token' entry kind lockedBy, act = .call token' entry → token' ≠ token →
    entry.call.writeBack? = some (kind, a.id, lockedBy) →
    dep.sameText (nvarchar 256 instanceId) (writeBackParam dep lockedBy) = false

/-- The step lemma: the lock is there until it runs out or the round itself ends it. -/
theorem LockedUntil.step {w w' : World} {stages stages' : ℕ → Stage} {act : Action} {token : ℕ}
    {a : OutboxMessage} {u : DateTimeOffset} {instanceId : Text} (h : w.LockedUntil a u)
    (hs : Step dep (Database.Exec dep) w act w') (hst : StageStep w stages act stages')
    (hname : a.lockedBy = some (nvarchar 256 instanceId)) (hlive : w.db.now < u)
    (hunshared : Unshared dep token a instanceId act) :
    w'.LockedUntil a u ∨ w'.PastDelivery stages' token := by
  obtain ⟨m, hm, hproc, hby, hu⟩ := h
  have hrow := hs.row sound_exec a.id
  rw [hm] at hrow
  generalize hm' : w'.db.messages.find? a.id = o' at hrow
  -- a live lock keeps the row from being acquired, released or purged
  cases hrow with
  | same => exact .inl ⟨m, hm', hproc, hby, hu⟩
  | lock _ _ hdue =>
      simp only [OutboxStore.due, hu, Option.all_some, Bool.and_eq_true, decide_eq_true_eq] at hdue
      exact absurd hdue.1 (not_lt.mpr hlive.le)
  | release _ hexpired =>
      simp only [OutboxStore.expired, hu, Option.any_some, Bool.and_eq_true, decide_eq_true_eq]
        at hexpired
      exact absurd hexpired.2 (not_lt.mpr hlive.le)
  | purge _ hpurge => simp [OutboxStore.purgeable, hproc] at hpurge
  | @writeBack token' entry kind messageId lockedBy _ hcall hc hheld =>
      subst hcall
      simp only [heldBy, Bool.and_eq_true, decide_eq_true_eq] at hheld
      have hid : messageId = a.id := hheld.1.symm.trans (Table.find?_key hm)
      subst hid
      have hsame := hheld.2
      rw [hby, hname, Option.any_some] at hsame
      by_cases heq : token' = token
      · -- the round's own write-back
        subst heq
        right
        have hwriteBack : entry.call.writeBack?.isSome = true := by rw [hc]; rfl
        cases hst with
        | call hr hwork htrans =>
            obtain ⟨r', hr', -, -, hplan, -⟩ := hs.round hr
            obtain ⟨prog', hwork'⟩ := hplan _ hwork
            refine ⟨r', _, hr', hwork', .inr ?_⟩
            rw [Function.update_self, htrans.closed_of_writeBack hwriteBack]
        | queued hr hwork =>
            obtain ⟨r', hr', -, -, hplan, -⟩ := hs.round hr
            obtain ⟨prog', hwork'⟩ := hplan _ hwork
            exact ⟨r', _, hr', hwork', .inl rfl⟩
        | other hnone => cases hnone
      · rw [hunshared token' entry kind lockedBy rfl heq hc] at hsame
        cases hsame

/-! ## The theorem -/

/-- **No delivery without a live lock.** Take any run of any number of instances, with any faults of the
database, and a round acquired in it.  When it enters the delivery before its lock runs out, and no other
round has written back to the message under its instance name since the acquisition, `IsLockHeldAsync`
would return true. -/
theorem delivery_under_live_lock {now : DateTimeOffset} {acts acts' : List Action} {w₁ w₂ w₃ : World}
    {token : ℕ} {r : Round} (hrun₁ : Run dep (Database.Exec dep) (initial now) acts w₁)
    (hacquire : Step dep (Database.Exec dep) w₁ .acquire w₂)
    (hnew : w₁.rounds.length ≤ token) (hr : w₂.rounds[token]? = some r)
    (hrun₂ : Run dep (Database.Exec dep) w₂ acts' w₃) (hentering : w₃.Entering token)
    (hfits : dep.sameText (nvarchar 256 r.lockedBy) (writeBackParam dep r.lockedBy) = true)
    (hlive : ∀ u, r.message.lockedUntil = some u → w₃.db.now < u)
    (hunshared : ∀ act ∈ acts', Unshared dep token r.message r.lockedBy act) :
    isLockHeldAsync dep w₃.db.now r.message.id r.lockedBy w₃.db.messages = true := by
  -- the row as the acquisition leaves it
  obtain ⟨m, until_, hm, hfind⟩ : ∃ m until_, r.message = OutboxStore.lockRow r.lockedBy until_ m ∧
      w₂.db.messages.find? r.message.id = some r.message := by
    rcases hacquire.acquire_row r.message.id with ⟨-, hold⟩ |
      ⟨m, p, until_, token', -, -, -, -, hfind, -, hx, honly⟩
    · exact absurd (hold token _ (acquisition_eq_some hr) rfl) (not_lt.mpr hnew)
    · obtain rfl := honly token _ hnew (acquisition_eq_some hr) rfl
      rw [acquisition_eq_some hr, Option.some.injEq, Prod.mk.injEq] at hx
      refine ⟨m, until_, by rw [Round.lockedBy, hx.1, hx.2], ?_⟩
      rw [hfind, ← hx.2]
  have hname : r.message.lockedBy = some (nvarchar 256 r.lockedBy) := by
    rw [hm]
    rfl
  have hu : r.message.lockedUntil = some (round3 until_) := by
    rw [hm]
    rfl
  have hlocked : w₂.LockedUntil r.message (round3 until_) :=
    ⟨r.message, hfind, by rw [hm]; rfl, rfl, hu⟩
  -- the stages at the acquisition
  have hrun : Run dep (Database.Exec dep) (initial now) (acts ++ [.acquire]) w₂ :=
    hrun₁.snoc .acquire hacquire
  have hstages : ∃ stages, Coupled w₂ stages ∧
      ∀ token, w₂.Entering token → w₂.AtDelivery stages token := by
    refine run_invariant (fun w stages => ∀ token, w.Entering token → w.AtDelivery stages token)
      (fun _ => True) ?_ hrun (fun _ _ => trivial) ⟨fun _ => .start, Coupled.initial now _, ?_⟩
    · intro w stages act w' stages' _ _ h hs _ hst token
      exact atDelivery_step h hs hst
    · rintro token ⟨messageId, subscriptionIds, states, hlast⟩
      cases hlast
  -- the lock, until it runs out or the round is past its delivery
  obtain ⟨stages, hcoupled, hat⟩ := hstages
  have hrun₃ := run_invariant (fun w stages =>
      (∀ token, w.Entering token → w.AtDelivery stages token) ∧
      (round3 until_ ≤ w.db.now ∨ w.LockedUntil r.message (round3 until_) ∨
        w.PastDelivery stages token)) (Unshared dep token r.message r.lockedBy) ?_ hrun₂ hunshared
    ⟨stages, hcoupled, hat, .inr (.inl hlocked)⟩
  · obtain ⟨stages', -, hat', hcase⟩ := hrun₃
    obtain ⟨⟨r₃, subscriptions, loop, prog, hr₃, hwork₃⟩, states, hstage⟩ := hat' token hentering
    rcases hcase with hexpired | ⟨m, hm, hproc, hby, hlockedUntil⟩ |
      ⟨r', work, hr', hwork', hpast | hpast⟩
    · exact absurd (hlive _ hu) (not_lt.mpr hexpired)
    · rw [isLockHeldAsync, List.any_eq_true]
      refine ⟨m, Table.find?_mem hm, ?_⟩
      simp only [heldBy, Table.find?_key hm, hby, hname, hproc, hlockedUntil, Option.any_some, hfits,
        hlive _ hu, decide_true, Bool.and_self]
    · rw [hr₃] at hr'
      cases hr'
      rw [hwork₃] at hwork'
      cases hwork'
      cases hpast
    · rw [hstage] at hpast
      cases hpast
  · rintro w stages act w' stages' hact - ⟨hat, hcase⟩ hs - hst
    refine ⟨fun token => atDelivery_step hat hs hst, ?_⟩
    by_cases hexpired : round3 until_ ≤ w.db.now
    · exact .inl (hexpired.trans (hs.now_le sound_exec))
    · rcases hcase with h | hlocked | hpast
      · exact absurd h hexpired
      · exact .inr (hlocked.step hs hst hname (not_le.mp hexpired) hact)
      · exact .inr (.inr (hpast.step hs hst))

/-! ## A lock that runs out before its turn -/

/-- The order is about to be delivered, at time `now`; `k` is what the round does next. -/
def enteringOrder (now : DateTimeOffset) (k : Prog Call Call.Ans (Except Exn Unit)) : World where
  db := ⟨⟨[orderRow₁], orderRow₁_nodup⟩, Table.empty, now⟩
  rounds := [⟨functionsHost, orderRow₁, some ⟨.direct [orderSubscription] ⟨false, []⟩, k⟩⟩]
  log := [(0, ⟨.getDeliveryStates 1 [7], .ok []⟩)]

theorem enteringOrder_run {now : DateTimeOffset} (h : (0 : DateTimeOffset) ≤ now) : ∃ acts k,
    Run sqlServer (Database.Exec sqlServer) acquired acts (enteringOrder now k) ∧
      ∀ act ∈ acts, Unshared sqlServer 0 orderRow₁ (text "func-1") act := by
  have hstart : Run sqlServer (Database.Exec sqlServer) acquired [] acquired := .nil _
  have h₁ := hstart.snoc .tick (.tick (show acquired.db.now ≤ now from h))
  have h₂ := h₁.snoc (.begin_ 0 (.direct [orderSubscription] ⟨false, []⟩)) (.begin_ rfl rfl)
  have h₃ := h₂.snoc (.call 0 ⟨.getDeliveryStates 1 [7], Except.ok []⟩)
    (.call rfl rfl rfl (.effect (.getDeliveryStates 1 [7] _)))
  refine ⟨_, _, h₃, ?_⟩
  intro act hact token' entry kind lockedBy heq hne
  simp only [List.nil_append, List.cons_append, List.mem_cons, List.not_mem_nil, or_false] at hact
  rcases hact with rfl | rfl | rfl <;> cases heq
  exact absurd rfl hne

theorem enteringOrder_entering (now : DateTimeOffset) (k : Prog Call Call.Ans (Except Exn Unit)) :
    (enteringOrder now k).Entering 0 := ⟨1, [7], [], rfl⟩

/-- The order comes to its turn when its lock has run out, and is delivered all the same. -/
theorem delivery_after_expiry : ∃ acts k,
    Run sqlServer (Database.Exec sqlServer) (initial 0) acts (enteringOrder 4000000000 k) ∧
    (enteringOrder 4000000000 k).Entering 0 ∧
    isLockHeldAsync sqlServer 4000000000 1 (text "func-1") (enteringOrder 4000000000 k).db.messages =
      false := by
  obtain ⟨acts, k, hrun, -⟩ :=
    enteringOrder_run (show (0 : DateTimeOffset) ≤ 4000000000 by decide)
  exact ⟨_, k, (acquired_run _).append hrun, enteringOrder_entering _ k, rfl⟩

/-- The run to the acquisition, and the acquisition. -/
theorem acquired_split (exec : Answering) : ∃ w₁, Run sqlServer exec (initial 0) [.publish] w₁ ∧
    Step sqlServer exec w₁ .acquire acquired ∧ w₁.rounds.length ≤ 0 := by
  cases acquired_run exec with
  | cons hpublish hrest =>
      cases hrest with
      | cons hacquire hnil =>
          cases hnil
          refine ⟨_, .cons hpublish (.nil _), hacquire, ?_⟩
          cases hpublish
          exact le_rfl

/-- The order delivered in time, under its lock. -/
theorem delivery_under_live_lock_order : ∃ k,
    isLockHeldAsync sqlServer 5 1 (text "func-1") (enteringOrder 5 k).db.messages = true := by
  obtain ⟨w₁, hrun₁, hacquire, hnew⟩ := acquired_split (Database.Exec sqlServer)
  obtain ⟨acts, k, hrun₂, hunshared⟩ := enteringOrder_run (show (0 : DateTimeOffset) ≤ 5 by decide)
  have hlive : ∀ u, orderRow₁.lockedUntil = some u → (enteringOrder 5 k).db.now < u := by
    intro u hu
    obtain rfl := Option.some.inj hu
    exact show (5 : ℤ) < 3000000000 by decide
  have hround : acquired.rounds[0]? = some ⟨functionsHost, orderRow₁, none⟩ := rfl
  exact ⟨k, delivery_under_live_lock hrun₁ hacquire hnew hround hrun₂ (enteringOrder_entering 5 k)
    (by decide) hlive hunshared⟩

end World

end OutboxNet
