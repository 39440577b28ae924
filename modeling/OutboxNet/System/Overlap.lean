import OutboxNet.Processor.Bookkeeping
import OutboxNet.System.Redelivery

/-!
# Overlapping rounds and the delivery id

A lock that expires while its round is delivering lets a second round start on the same message.  Both
have read the same attempt count, so their deliveries to a subscription carry the same id, which is the
primary key of the attempts: the second save is refused, with every attempt it carries.  A success among
them is lost, unless one was stored already; nothing else loses a success.
-/

set_option autoImplicit false

namespace OutboxNet

open AttemptStore (States)

/-! ## A database that is available -/

namespace Database

open AttemptStore (Defaults acceptsInsert saveAttemptsAsync)

/-- Every call does what it is for, except that a save is refused when it repeats an id or names a
message that is not there. -/
inductive Available (dep : Deployment) : (c : Call) → Database → c.Ans → Database → Prop
  | effect {c : Call} {d d' : Database} {a : c.Ans} : Effect dep c d a d' → Available dep c d a d'
  | refused {newAttempts : List DeliveryAttempt} {d : Database} {defaults : Defaults} {e : Exn} :
      acceptsInsert dep newAttempts = true →
      saveAttemptsAsync dep defaults d.messages newAttempts d.attempts = none →
      e.isCanceled = false → Available dep (.saveAttempts newAttempts) d (.error e) d

variable {dep : Deployment}

theorem Available.exec {c : Call} {d d' : Database} {a : c.Ans} (h : Available dep c d a d') :
    Exec dep c d a d' := by
  cases h with
  | effect h => exact .effect h
  | refused => exact .failed rfl

/-- A save that threw was refused. -/
theorem Available.of_saveThrew {newAttempts : List DeliveryAttempt} {d d' : Database} {e : Exn}
    (h : Available dep (.saveAttempts newAttempts) d (Except.error e) d') :
    acceptsInsert dep newAttempts = true ∧
      ∃ defaults, saveAttemptsAsync dep defaults d.messages newAttempts d.attempts = none := by
  cases h with
  | effect h => cases h.saved.1
  | refused haccepts hrefused _ => exact ⟨haccepts, _, hrefused⟩

end Database

namespace AttemptStore

variable {dep : Deployment}

/-- The ids of the attempts are distinct and not in the table. -/
def FreshIds (attempts : Attempts) (newAttempts : List DeliveryAttempt) : Prop :=
  (newAttempts.map DeliveryAttempt.id).Nodup ∧
    ∀ a ∈ newAttempts, ∀ b ∈ attempts.rows, b.id ≠ a.id

/-- For every success among the attempts one is stored already. -/
def KnownSuccesses (attempts : Attempts) (newAttempts : List DeliveryAttempt) : Prop :=
  ∀ a ∈ newAttempts, a.status = .success →
    hasSuccess a.outboxMessageId a.webhookSubscriptionId attempts = true

/-- A save of attempts with fresh ids to messages of the table goes through. -/
theorem saveAttemptsAsync_isSome {d : Defaults} {messages : Messages}
    {newAttempts : List DeliveryAttempt} {attempts : Attempts}
    (haccepts : acceptsInsert dep newAttempts = true)
    (hforeign : ∀ a ∈ newAttempts, (messages.find? a.outboxMessageId).isSome = true)
    (hid : ∀ a ∈ newAttempts, a.id ≠ .empty) (hfresh : FreshIds attempts newAttempts) :
    (saveAttemptsAsync dep d messages newAttempts attempts).isSome = true := by
  have hrow : ∀ a ∈ attemptRows dep d newAttempts, ∃ x ∈ newAttempts,
      a.id = x.id ∧ a.outboxMessageId = x.outboxMessageId := by
    intro a ha
    obtain ⟨i, hi, rfl⟩ := List.mem_mapIdx.mp ha
    have hx := List.getElem_mem hi
    exact ⟨_, hx, attemptRow_id (hid _ hx), rfl⟩
  have hkeys : (attemptRows dep d newAttempts).map DeliveryAttempt.id =
      newAttempts.map DeliveryAttempt.id := by
    refine List.ext_getElem (by simp [attemptRows]) fun i hi _ => ?_
    simp only [attemptRows, List.length_map, List.length_mapIdx] at hi
    simpa [attemptRows] using attemptRow_id (hid _ (List.getElem_mem hi))
  have hkey : foreignKey messages (attemptRows dep d newAttempts) = true := by
    refine List.all_eq_true.mpr fun a ha => ?_
    obtain ⟨x, hx, -, hmessage⟩ := hrow a ha
    rw [hmessage]
    exact hforeign x hx
  unfold saveAttemptsAsync
  split
  · rfl
  rw [if_pos (by rw [haccepts, hkey]; rfl), Table.insertAll?_isSome, hkeys]
  refine ⟨hfresh.1, fun a ha b hb => ?_⟩
  obtain ⟨x, hx, heq, -⟩ := hrow a ha
  rw [heq]
  exact hfresh.2 x hx b hb

end AttemptStore

/-- A plan whose loop, if it has one, is not cancelled. -/
def Plan.Uncanceled : Plan → Prop
  | .direct _ loop => ¬ loop.cancels
  | .queueMediated => True

/-- An action that neither purges nor begins a round whose loop is cancelled. -/
def Action.Quiet : Action → Prop
  | .begin_ _ plan => plan.Uncanceled
  | .purgeMessages => False
  | .purgeAttempts => False
  | _ => True

/-- Whether an action is a save of attempts. -/
def Action.isSave : Action → Bool
  | .call _ ⟨.saveAttempts _, _⟩ => true
  | _ => false

/-- Whether an entry is a delivery that threw. -/
def Entry.threw : Entry → Bool
  | ⟨.deliver _ _ _, .error _⟩ => true
  | _ => false

namespace World

variable {dep : Deployment}

/-! ## The calls of one round -/

/-- The calls of a round, in their order. -/
def entriesOf (w : World) (token : ℕ) : List Entry := (w.log.filter (·.1 = token)).map Prod.snd

theorem Step.entriesOf {exec : Answering} {w w' : World} {act : Action} (h : Step dep exec w act w')
    {token : ℕ} (hact : ∀ entry, act ≠ .call token entry) :
    w'.entriesOf token = w.entriesOf token := by
  cases h with
  | @call token' =>
      have hne : token' ≠ token := fun heq => hact _ (by rw [heq])
      simp [World.entriesOf, afterCall, hne]
  | _ => rfl

theorem Step.entriesOf_call {exec : Answering} {w w' : World} {token : ℕ} {entry : Entry}
    (h : Step dep exec w (.call token entry) w') :
    w'.entriesOf token = w.entriesOf token ++ [entry] := by
  simp [World.entriesOf, h.called.2]

/-- Every success a round has received is stored. -/
def AllStored (w : World) (token : ℕ) (messageId : Guid) : Prop :=
  ∀ s, SucceededIn (w.entriesOf token) s →
    AttemptStore.hasSuccess messageId s w.db.attempts = true

/-- What holds of a round in its stage: its deliveries are its results, and once it is past its save its
successes are stored. -/
def Kept (w : World) (token : ℕ) (job : Job) : Stage → Prop
  | .start => ∀ e ∈ w.entriesOf token, e.call.isDeliver = false
  | .delivering states results => job.Delivered states results (w.entriesOf token)
  | _ => w.AllStored token job.message.id

/-- A round that received no success has none to store. -/
theorem AllStored.of_none {w : World} {token : ℕ} {k : Guid}
    (h : ∀ s, ¬ SucceededIn (w.entriesOf token) s) : w.AllStored token k :=
  fun s hs => absurd hs (h s)

theorem mem_entriesOf {w : World} {token : ℕ} {e : Entry} :
    e ∈ w.entriesOf token ↔ (token, e) ∈ w.log := by
  simp [entriesOf]

/-- A round that has not begun has made no call. -/
theorem Begun.entriesOf_eq_nil {w : World} (h : w.Begun) {token : ℕ} {r : Round}
    (hr : w.rounds[token]? = some r) (hnone : r.work = none) : w.entriesOf token = [] := by
  refine List.eq_nil_iff_forall_not_mem.mpr fun e he => ?_
  obtain ⟨r', hr', hsome⟩ := h _ (mem_entriesOf.mp he)
  rw [hr] at hr'
  cases hr'
  rw [hnone] at hsome
  cases hsome

/-- **Invariants of the work and the calls of rounds.** What holds of a round that begins, and is kept when
its program goes on after a call, holds of the work of every round and the calls it has made. -/
theorem Step.history {exec : Answering} {Ψ : Pipeline → OutboxMessage → Work → List Entry → Prop}
    {w w' : World} {act : Action} (hs : Step dep exec w act w') (hbegun : w.Begun)
    (hbegin : ∀ token plan, act = .begin_ token plan → ∀ r : Round,
      Ψ r.pipeline r.message ⟨plan, r.program plan⟩ [])
    (hcall : ∀ p m plan (c : Call) (k : c.Ans → Prog Call Call.Ans (Except Exn Unit)) a entries,
      Ψ p m ⟨plan, .call c k⟩ entries → Ψ p m ⟨plan, k a⟩ (entries ++ [⟨c, a⟩]))
    (h : ∀ (token : ℕ) (r : Round) (work : Work), w.rounds[token]? = some r → r.work = some work →
      Ψ r.pipeline r.message work (w.entriesOf token))
    {token : ℕ} {r' : Round} {work' : Work} (hr' : w'.rounds[token]? = some r')
    (hwork' : r'.work = some work') : Ψ r'.pipeline r'.message work' (w'.entriesOf token) := by
  by_cases hact : act.token? = some token
  · cases hs with
    | @begin_ _ r plan hr hnone =>
        cases hact
        rw [List.getElem?_set_self (List.getElem?_eq_some_iff.mp hr).1] at hr'
        cases hr'
        cases hwork'
        have hnil : w.entriesOf token = [] := hbegun.entriesOf_eq_nil hr hnone
        show Ψ _ _ _ (w.entriesOf token)
        rw [hnil]
        exact hbegin token _ rfl r
    | @call _ _ work c k a db hr hwork hprog hexec =>
        cases hact
        have hs : Step dep exec w (.call token ⟨c, a⟩) _ := .call hr hwork hprog hexec
        rw [hs.entriesOf_call]
        have hbefore := h token _ _ hr hwork
        obtain ⟨plan, prog⟩ := work
        subst hprog
        rw [afterCall, List.getElem?_set_self (List.getElem?_eq_some_iff.mp hr).1] at hr'
        cases hr'
        cases hwork'
        exact hcall _ _ _ _ _ _ _ hbefore
    | _ => cases hact
  · -- the round did not act, so it was there as it is, with the same calls
    have hlog : ∀ entry, act ≠ .call token entry := by
      rintro entry rfl
      exact hact rfl
    rw [hs.entriesOf hlog]
    rcases hs.round_inv hr' hwork' with ⟨plan, rfl⟩ | ⟨r, work, hr, hwork, -⟩
    · exact absurd rfl hact
    · obtain ⟨r'', hr'', -, -, -, hsame⟩ := hs.round hr
      rw [hr', hsame hact] at hr''
      cases hr''
      exact h token r' work' hr hwork'

theorem not_succeededIn {log : List Entry} (h : ∀ e ∈ log, e.call.isDeliver = false) (s : Guid) :
    ¬ SucceededIn log s := by
  rintro ⟨_, _, _, _, hmem, -⟩
  cases h _ hmem

/-- Another round's step, or a call that is not a delivery. -/
theorem AllStored.mono {w w' : World} {token : ℕ} {k : Guid} (h : w.AllStored token k)
    (hlog : ∀ s, SucceededIn (w'.entriesOf token) s → SucceededIn (w.entriesOf token) s)
    (hstored : ∀ s, AttemptStore.hasSuccess k s w.db.attempts = true →
      AttemptStore.hasSuccess k s w'.db.attempts = true) : w'.AllStored token k :=
  fun s hs => hstored s (h s (hlog s hs))

theorem Kept.mono {w w' : World} {token : ℕ} {job : Job} {s : Stage} (h : w.Kept token job s)
    (hlog : w'.entriesOf token = w.entriesOf token)
    (hstored : ∀ s, AttemptStore.hasSuccess job.message.id s w.db.attempts = true →
      AttemptStore.hasSuccess job.message.id s w'.db.attempts = true) : w'.Kept token job s := by
  have hall : w.AllStored token job.message.id → w'.AllStored token job.message.id :=
    fun h => h.mono (fun s hs => hlog ▸ hs) hstored
  cases s with
  | start => exact fun e he => h e (hlog ▸ he)
  | delivering states results =>
      show job.Delivered states results (w'.entriesOf token)
      rw [hlog]
      exact h
  | settled => exact hall h
  | failing => exact hall h
  | closed => exact hall h

/-- The successes of a round that has a success stored for each of the attempts it is about to save. -/
theorem AllStored.of_delivered {w w' : World} {token : ℕ} {job : Job} {states : States}
    {results : Results} {utcNow : ℕ → DateTimeOffset} {attempts : List DeliveryAttempt}
    (hdelivered : job.Delivered states results (w.entriesOf token))
    (hperm : attempts.Perm (job.newAttempts states results utcNow))
    (hlog : ∀ s, SucceededIn (w'.entriesOf token) s → SucceededIn (w.entriesOf token) s)
    (hknown : AttemptStore.KnownSuccesses w'.db.attempts attempts) :
    w'.AllStored token job.message.id := by
  intro s hs
  obtain ⟨message, subscription, deliveryId, r, hmem, rfl, hr⟩ := hlog s hs
  obtain ⟨i, hsub, hi⟩ := hdelivered.of_mem _ _ _ _ hmem
  have hmem' := hperm.mem_iff.mpr (Job.mem_newAttempts.mpr ⟨i, subscription, r, hsub, hi, rfl⟩)
  exact hknown _ hmem' (by simp [Pipeline.deliveryAttempt, hr])

/-- The ids a round saves under are delivery ids. -/
theorem id_ne_empty_of_newAttempts {job : Job} {states : States} {results : Results}
    {utcNow : ℕ → DateTimeOffset} {a : DeliveryAttempt}
    (ha : a ∈ job.newAttempts states results utcNow) :
    a.id ≠ .empty ∧ a.outboxMessageId = job.message.id := by
  obtain ⟨i, subscription, r, -, -, rfl⟩ := Job.mem_newAttempts.mp ha
  exact ⟨deriveDeliveryId_ne_empty _ _ _ _, rfl⟩

/-- A round that abandons its deliveries has received no success, unless it abandons one. -/
theorem not_succeededIn_of_faulted {job : Job} {states : States} {results : Results}
    {log : List Entry} (h : job.Delivered states results log) (hfault : job.Faulted results)
    (hunabandoned : ¬ ThrewIn log ∨ ∀ s, ¬ SucceededIn log s) (s : Guid) : ¬ SucceededIn log s := by
  rcases hfault with ⟨i, e, hi⟩ | ⟨-, hnone⟩
  · obtain ⟨subscription, -, -, hmem⟩ := h.mem_log i _ hi
    exact hunabandoned.resolve_left (fun hno => hno ⟨_, _, _, e, hmem⟩) s
  · rintro ⟨message, subscription, deliveryId, r, hmem, -, -⟩
    obtain ⟨i, -, hi⟩ := h.of_mem _ _ _ _ hmem
    rw [hnone] at hi
    cases hi

/-- The step lemma of a round, for a save without a collision that matters. -/
theorem Kept.trans {w w' : World} {token : ℕ} {job : Job} {c : Call} {s s' : Stage} {a : c.Ans}
    (htrans : job.Trans c s a s') (hexec : Database.Available dep c w.db a w'.db)
    (hlog : w'.entriesOf token = w.entriesOf token ++ [⟨c, a⟩])
    (hmessage : (w.db.messages.find? job.message.id).isSome = true)
    (hsave : ∀ attempts, c = .saveAttempts attempts → AttemptStore.FreshIds w.db.attempts attempts ∨
      AttemptStore.KnownSuccesses w.db.attempts attempts)
    (hunabandoned : ¬ ThrewIn (w.entriesOf token) ∨ ∀ s, ¬ SucceededIn (w.entriesOf token) s)
    (h : w.Kept token job s) : w'.Kept token job s' := by
  have hstored : ∀ s, AttemptStore.hasSuccess job.message.id s w.db.attempts = true →
      AttemptStore.hasSuccess job.message.id s w'.db.attempts = true :=
    fun s => hexec.exec.change.hasSuccess
  -- a call that is not a delivery adds no success to the log
  have hsucceeded : c.isDeliver = false → ∀ s, SucceededIn (w'.entriesOf token) s →
      SucceededIn (w.entriesOf token) s := by
    intro hc s hs
    rw [hlog] at hs
    exact (Job.succeededIn_append hc).mp hs
  have hkeep : c.isDeliver = false → w.AllStored token job.message.id →
      w'.AllStored token job.message.id := fun hc h => h.mono (hsucceeded hc) hstored
  induction htrans with
  | @metric metric eventType s a =>
      cases s with
      | start =>
          intro e he
          rw [hlog] at he
          rcases List.mem_append.mp he with he | he
          · exact h e he
          · rw [List.mem_singleton.mp he]
            rfl
      | delivering states results =>
          show job.Delivered states results (w'.entriesOf token)
          rw [hlog]
          exact Job.Delivered.append h rfl
      | settled => exact hkeep rfl h
      | failing => exact hkeep rfl h
      | closed => exact hkeep rfl h
  | noSubscriptions => exact hkeep rfl (.of_none (not_succeededIn h))
  | read =>
      show job.Delivered _ Results.none (w'.entriesOf token)
      rw [hlog]
      exact (Job.Delivered.none h).append rfl
  | readThrew =>
      have hall := hkeep rfl (.of_none (not_succeededIn h))
      split <;> exact hall
  | deliver hsub hi hatt =>
      show job.Delivered _ _ (w'.entriesOf token)
      rw [hlog]
      exact Job.Delivered.deliver h hsub hi hatt
  | attemptTime =>
      show job.Delivered _ _ (w'.entriesOf token)
      rw [hlog]
      exact Job.Delivered.append h rfl
  | @save states results utcNow attempts _ hperm _ =>
      refine AllStored.of_delivered h hperm (hsucceeded rfl) fun a ha hstatus => ?_
      obtain ⟨defaults, stored, hrun, hdb⟩ := hexec.exec.saved
      rw [hdb]
      exact (AttemptStore.hasSuccess_saveAttemptsAsync hrun _ _).mpr (.inr ⟨a, ha, rfl, rfl, hstatus⟩)
  | @saveThrew states results utcNow attempts e _ hperm _ =>
      -- a refused save: its ids are not fresh, so its successes are known
      have hall : w'.AllStored token job.message.id := by
        refine AllStored.of_delivered h hperm (hsucceeded rfl) ?_
        obtain ⟨haccepts, defaults, hrefused⟩ := hexec.of_saveThrew
        have hknown : AttemptStore.KnownSuccesses w.db.attempts attempts := by
          refine (hsave _ rfl).resolve_left fun hfresh => ?_
          have hin := fun a (ha : a ∈ attempts) => id_ne_empty_of_newAttempts (hperm.mem_iff.mp ha)
          have hsome := AttemptStore.saveAttemptsAsync_isSome haccepts (d := defaults)
            (fun a ha => (hin a ha).2 ▸ hmessage) (fun a ha => (hin a ha).1) hfresh
          rw [hrefused] at hsome
          cases hsome
        exact fun a ha hstatus => hexec.exec.change.hasSuccess (hknown a ha hstatus)
      unfold Job.afterFailedSave
      split <;> exact hall
  | nothingToSave hcomplete hnone _ ih =>
      refine ih hexec hlog hsave (AllStored.of_none ?_) hsucceeded hkeep
      rintro s ⟨message, subscription, deliveryId, r, hmem, -, -⟩
      obtain ⟨i, hsub, hi⟩ := Job.Delivered.of_mem h _ _ _ _ hmem
      exact hnone i (List.getElem?_eq_some_iff.mp hsub).1 r hi
  | faulted hfault _ ih =>
      have hnone := not_succeededIn_of_faulted h hfault hunabandoned
      exact ih hexec hlog hsave (.of_none hnone) hsucceeded hkeep
  | retry _ _ ih => exact ih hexec hlog hsave h hsucceeded hkeep
  | processed => exact hkeep rfl h
  | deadLetter => exact hkeep rfl h
  | draw => exact hkeep rfl h
  | clock => exact hkeep rfl h
  | incrementRetry => exact hkeep rfl h
  | giveUp => exact hkeep rfl h

/-! ## The invariant -/

/-- An action that saves no attempts whose ids collide, or only such whose successes are known. -/
def NoCollision (w : World) (act : Action) : Prop :=
  ∀ (token : ℕ) (attempts : List DeliveryAttempt) (answer : Except Exn Unit),
    act = .call token ⟨Call.saveAttempts attempts, answer⟩ →
      AttemptStore.FreshIds w.db.attempts attempts ∨
        AttemptStore.KnownSuccesses w.db.attempts attempts

/-- No round has abandoned a success: in none did one delivery throw and another succeed. -/
def Unabandoned (w : World) : Prop :=
  ∀ token, ¬ ThrewIn (w.entriesOf token) ∨ ∀ s, ¬ SucceededIn (w.entriesOf token) s

/-- The deliveries of every round are accounted for. -/
structure Accounted (w : World) (stages : ℕ → Stage) : Prop where
  present : ∀ r ∈ w.rounds, (w.db.messages.find? r.message.id).isSome = true
  begun : w.Begun
  uncanceled : w.Planned Plan.Uncanceled
  rounds : ForRounds (Kept w) w stages

/-- What a later world has abandoned less, an earlier one has. -/
theorem Unabandoned.of_step {exec : Answering} {w w' : World} {act : Action} (h : w'.Unabandoned)
    (hs : Step dep exec w act w') : w.Unabandoned := by
  have hmem : ∀ token, ∀ e ∈ w.entriesOf token, e ∈ w'.entriesOf token :=
    fun token e he => mem_entriesOf.mpr (hs.log_mono (mem_entriesOf.mp he))
  intro token
  refine (h token).imp (mt ?_) (fun hno s => mt ?_ (hno s))
  · rintro ⟨message, subscription, deliveryId, e, hthrew⟩
    exact ⟨message, subscription, deliveryId, e, hmem token _ hthrew⟩
  · rintro ⟨message, subscription, deliveryId, r, hsucceeded, h⟩
    exact ⟨message, subscription, deliveryId, r, hmem token _ hsucceeded, h⟩

theorem sound_available : Sound dep (Database.Available dep) := fun h => h.exec.change

/-- The messages of the rounds stay in the table. -/
theorem Accounted.present_step {w w' : World} {stages : ℕ → Stage} {act : Action}
    (h : w.Accounted stages) (hs : Step dep (Database.Available dep) w act w') (hquiet : act.Quiet) :
    ∀ r ∈ w'.rounds, (w'.db.messages.find? r.message.id).isSome = true := by
  have hpurge : act ≠ .purgeMessages := by
    rintro rfl
    exact hquiet
  intro r' hr'
  obtain ⟨token, hr'⟩ := List.mem_iff_getElem?.mp hr'
  by_cases hlt : token < w.rounds.length
  · obtain ⟨r, hr⟩ := (⟨_, List.getElem?_eq_getElem hlt⟩ : ∃ r, w.rounds[token]? = some r)
    obtain ⟨r'', hr'', -, hm, -⟩ := hs.round hr
    rw [hr'] at hr''
    cases hr''
    rw [hm]
    exact hs.find?_isSome sound_available hpurge (h.present r (List.mem_of_getElem? hr))
  · -- a round that was not there has been acquired in this step
    obtain rfl := hs.acquire_of_new hr' hlt
    rcases hs.acquire_row r'.message.id with ⟨-, hold⟩ | ⟨m, p, until_, _, -, -, -, -, hfind, -⟩
    · exact absurd (hold token _ (acquisition_eq_some hr') rfl) hlt
    · rw [hfind]
      rfl

/-- The step lemma. -/
theorem Accounted.step {w w' : World} {stages stages' : ℕ → Stage} {act : Action}
    (h : w.Accounted stages) (hs : Step dep (Database.Available dep) w act w')
    (hst : StageStep w stages act stages') (hquiet : act.Quiet) (hcollision : w.NoCollision act)
    (hunabandoned : w.Unabandoned) : w'.Accounted stages' where
  present := h.present_step hs hquiet
  begun := h.begun.step hs
  uncanceled := by
    refine h.uncanceled.step hs ?_
    rintro token plan rfl
    exact hquiet
  rounds := by
    have hstored : ∀ k s, AttemptStore.hasSuccess k s w.db.attempts = true →
        (∃ (token : ℕ) (r : Round), w.rounds[token]? = some r ∧ r.message.id = k) →
        AttemptStore.hasSuccess k s w'.db.attempts = true := by
      rintro k s hs' ⟨token, r, hr, rfl⟩
      have hpurge : act ≠ .purgeAttempts := by
        rintro rfl
        exact hquiet
      refine (hs.keeps sound_available hpurge hr).stored ?_ s hs'
      refine hs.find?_isSome sound_available ?_ (h.present r (List.mem_of_getElem? hr))
      rintro rfl
      exact hquiet
    refine h.rounds.step hs hst ?_ ?_ ?_
    · rintro token r subscriptions plan rfl hr hnone e he
      rw [hs.entriesOf (fun _ h => by cases h), h.begun.entriesOf_eq_nil hr hnone] at he
      cases he
    · intro token r subscriptions s hact hr hkept
      refine hkept.mono (hs.entriesOf ?_) fun s hs' => hstored _ s hs' ⟨token, r, hr, rfl⟩
      rintro entry rfl
      exact hact rfl
    · rintro token ⟨c, a⟩ r subscriptions s s' rfl hr htrans hkept
      obtain ⟨hexec, -⟩ := hs.called
      have hmessage := h.present r (List.mem_of_getElem? hr)
      refine Kept.trans htrans hexec hs.entriesOf_call hmessage ?_ (hunabandoned token) hkept
      rintro attempts rfl
      exact hcollision token attempts a rfl

/-- The invariant holds after every run of quiet actions whose saves do not collide, if no success was
abandoned. -/
theorem accounted_run {now : DateTimeOffset} {acts : List Action} {w : World}
    (hrun : Steps (fun w act w' => Step dep (Database.Available dep) w act w' ∧ w.NoCollision act)
      (initial now) acts w) (hquiet : ∀ act ∈ acts, act.Quiet) (hunabandoned : w.Unabandoned) :
    ∃ stages, Coupled w stages ∧ w.Accounted stages := by
  have hinitial : (initial now).Accounted fun _ => .start :=
    ⟨List.forall_mem_nil _, List.forall_mem_nil _, .initial _ now, ForRounds.initial _ now _⟩
  refine hrun.invariant_of
    (fun w => w.Unabandoned → ∃ stages, Coupled w stages ∧ w.Accounted stages) Action.Quiet ?_ hquiet
    (fun _ => ⟨_, Coupled.initial now _, hinitial⟩) hunabandoned
  rintro w act w' hquiet ih ⟨hs, hcollision⟩ hunabandoned
  have hbefore := hunabandoned.of_step hs
  obtain ⟨stages, hcoupled, h⟩ := ih hbefore
  obtain ⟨stages', hcoupled', hst⟩ := hcoupled.step hs
  exact ⟨stages', hcoupled', h.step hs hst hquiet hcollision hbefore⟩

/-- **No success is lost without a collision.** Take any interleaving of rounds with an available
database, in which no loop is cancelled, no round abandons a success because another of its deliveries
threw, and nothing is purged.  If every save of attempts has ids that are distinct and not yet stored, or
carries only successes that are known, then every success a finished round has received is stored. -/
theorem overlapping_rounds_record_successes {now : DateTimeOffset} {acts : List Action} {w : World}
    {token : ℕ} {r : Round} {subscriptions : List WebhookSubscription} {loop : LoopSchedule}
    {result : Except Exn Unit}
    (hrun : Steps (fun w act w' => Step dep (Database.Available dep) w act w' ∧ w.NoCollision act)
      (initial now) acts w) (hquiet : ∀ act ∈ acts, act.Quiet) (hunabandoned : w.Unabandoned)
    (hr : w.rounds[token]? = some r)
    (hfinished : r.work = some ⟨.direct subscriptions loop, .ret result⟩) {s : Guid}
    (hs : SucceededIn (w.entriesOf token) s) :
    AttemptStore.hasSuccess r.message.id s w.db.attempts = true := by
  obtain ⟨stages, hcoupled, h⟩ := accounted_run hrun hquiet hunabandoned
  have hend : (r.job subscriptions).Finished loop result (stages token) :=
    hcoupled token r _ hr hfinished
  have hkept := h.rounds token r subscriptions loop _ hr hfinished
  generalize stages token = stage at hend hkept
  cases hend with
  | closed => exact hkept s hs
  | policyThrew _ hthrew => cases hthrew <;> exact hkept s hs
  | loopThrew hthrew =>
      rcases hthrew with ⟨hthrew, -⟩ | hcancels
      · exact absurd hs (not_succeededIn_of_faulted hkept hthrew.faulted (hunabandoned token) s)
      · exact absurd hcancels (h.uncanceled token r _ hr hfinished)

/-! ## Two rounds on one message -/

theorem NoCollision.of_not_save {w : World} {act : Action} (h : act.isSave = false) :
    w.NoCollision act := by
  rintro token attempts answer rfl
  cases h

/-- A run without saves has no collision. -/
theorem noCollision_run {w w' : World} {acts : List Action}
    (h : Run dep (Database.Available dep) w acts w') (hsave : ∀ act ∈ acts, act.isSave = false) :
    Steps (fun w act w' => Step dep (Database.Available dep) w act w' ∧ w.NoCollision act) w acts
      w' := by
  induction h with
  | nil w => exact .nil w
  | cons hs _ ih =>
      refine .cons ⟨hs, .of_not_save (hsave _ List.mem_cons_self)⟩ ?_
      exact ih fun act hmem => hsave act (List.mem_cons_of_mem _ hmem)

theorem not_threwIn {w : World} (h : w.log.all (fun x => !x.2.threw) = true) (token : ℕ) :
    ¬ ThrewIn (w.entriesOf token) := by
  rintro ⟨message, subscription, deliveryId, e, hmem⟩
  have hthrew := List.all_eq_true.mp h _ (mem_entriesOf.mp hmem)
  simp [Entry.threw] at hthrew

/-- The answer of an endpoint that is down. -/
def rejected : DeliveryResult := ⟨false, some 503, none, none, 5⟩

/-- The error of a repeated id. -/
def duplicateKey : Exn := ⟨false, text "Violation of PRIMARY KEY constraint."⟩

/-- The attempt of a round that found no attempts for the order. -/
def orderAttempt (row : OutboxMessage) (result : DeliveryResult) : DeliveryAttempt :=
  Pipeline.deliveryAttempt row orderSubscription firstDeliveryId 1 result 50000000

/-- A round on the order that has returned. -/
def finishedRound (row : OutboxMessage) : Round :=
  ⟨functionsHost, row, some ⟨.direct [orderSubscription] ⟨false, []⟩, .ret (.ok ())⟩⟩

/-- Two rounds of the host on the order, the second started when the lock of the first had expired; both
have read that there are no attempts.  When the first saves its attempt, the second is refused its own. -/
theorem overlapped_runs :
    (∃ acts w, Run sqlServer (Database.Available sqlServer) (initial 0) acts w ∧
      (∀ act ∈ acts, act.Quiet) ∧ (∀ token, ¬ ThrewIn (w.entriesOf token)) ∧
      w.rounds = [finishedRound orderRow₁, finishedRound orderRow₂] ∧
      SucceededIn (w.entriesOf 1) 7 ∧ AttemptStore.hasSuccess 1 7 w.db.attempts = false) ∧
    (∃ acts w, Steps (fun w act w' => Step sqlServer (Database.Available sqlServer) w act w' ∧
        w.NoCollision act) (initial 0) acts w ∧
      (∀ act ∈ acts, act.Quiet) ∧ (∀ token, ¬ ThrewIn (w.entriesOf token)) ∧
      w.rounds = [finishedRound orderRow₁, finishedRound orderRow₂] ∧
      SucceededIn (w.entriesOf 1) 7) := by
  have h₁ := (acquired_run (Database.Available sqlServer)).snoc .tick
    (.tick (by decide : (0 : DateTimeOffset) ≤ 4000000000))
  have h₂ := h₁.snoc .acquire (.acquireCold (List.Perm.refl _) order_relocked)
  have h₃ := h₂.snoc (.begin_ 0 (.direct [orderSubscription] ⟨false, []⟩)) (.begin_ rfl rfl)
  have h₄ := h₃.snoc (.begin_ 1 (.direct [orderSubscription] ⟨false, []⟩)) (.begin_ rfl rfl)
  have h₅ := h₄.snoc (.call 0 ⟨.getDeliveryStates 1 [7], Except.ok []⟩)
    (.call rfl rfl rfl (.effect (.getDeliveryStates 1 [7] _)))
  have h₆ := h₅.snoc (.call 1 ⟨.getDeliveryStates 1 [7], Except.ok []⟩)
    (.call rfl rfl rfl (.effect (.getDeliveryStates 1 [7] _)))
  have h₇ (result : DeliveryResult) := h₆.snoc
    (.call 0 ⟨.deliver orderRow₁ orderSubscription firstDeliveryId, Except.ok result⟩)
    (.call rfl rfl rfl (.effect (.deliver _ _ _ _ _)))
  have h₈ (result : DeliveryResult) := (h₇ result).snoc (.call 0 ⟨.utcNow, (50000000 : ℤ)⟩)
    (.call rfl rfl rfl (.effect (.utcNow _ _)))
  constructor
  · -- the first delivery fails, so the refused save has the only success
    have hsave : AttemptStore.saveAttemptsAsync sqlServer ⟨fun _ => 0, 0⟩ ⟨[orderRow₂], by simp⟩
        [orderAttempt orderRow₁ rejected] Table.empty =
          some ⟨[orderAttempt orderRow₁ rejected], by simp⟩ := by decide
    have hrefused : AttemptStore.saveAttemptsAsync sqlServer ⟨fun _ => 0, 0⟩
        ⟨[OutboxStore.setDeadLettered orderRow₂], by simp⟩ [orderAttempt orderRow₂ accepted]
        ⟨[orderAttempt orderRow₁ rejected], by simp⟩ = none := by decide
    have h₉ := (h₈ rejected).snoc
      (.call 0 ⟨.saveAttempts [orderAttempt orderRow₁ rejected], Except.ok ()⟩)
      (.call rfl rfl rfl (.effect (.saveAttempts hsave)))
    have h₁₀ := h₉.snoc (.call 0 ⟨.nextDouble, (0 : ℚ)⟩)
      (.call rfl rfl rfl (.effect (.nextDouble _ le_rfl zero_lt_one)))
    have h₁₁ := h₁₀.snoc (.call 0 ⟨.markAsDeadLettered 1 (text "func-1"), Except.ok true⟩)
      (.call rfl rfl rfl (.effect (.markAsDeadLettered 1 (text "func-1") _)))
    have h₁₂ := h₁₁.snoc (.call 0 ⟨.addMetric .messagesDeadLettered (text "order.placed"), ()⟩)
      (.call rfl rfl rfl (.effect (.addMetric _ _ _)))
    have h₁₃ := h₁₂.snoc
      (.call 1 ⟨.deliver orderRow₂ orderSubscription firstDeliveryId, Except.ok accepted⟩)
      (.call rfl rfl rfl (.effect (.deliver _ _ _ _ _)))
    have h₁₄ := h₁₃.snoc (.call 1 ⟨.utcNow, (50000000 : ℤ)⟩)
      (.call rfl rfl rfl (.effect (.utcNow _ _)))
    have h₁₅ := h₁₄.snoc
      (.call 1 ⟨.saveAttempts [orderAttempt orderRow₂ accepted], Except.error duplicateKey⟩)
      (.call rfl rfl rfl (.refused rfl hrefused rfl))
    refine ⟨_, _, h₁₅, by simp [Action.Quiet, Plan.Uncanceled, LoopSchedule.cancels],
      not_threwIn rfl, rfl, ?_, rfl⟩
    exact ⟨orderRow₂, orderSubscription, firstDeliveryId, accepted,
      mem_entriesOf.mpr (List.mem_of_getElem? (i := 8) rfl), rfl, rfl⟩
  · -- the first delivery succeeds, so the refused save has a success that is known
    have hsave : AttemptStore.saveAttemptsAsync sqlServer ⟨fun _ => 0, 0⟩ ⟨[orderRow₂], by simp⟩
        [orderAttempt orderRow₁ accepted] Table.empty =
          some ⟨[orderAttempt orderRow₁ accepted], by simp⟩ := by decide
    have hrefused : AttemptStore.saveAttemptsAsync sqlServer ⟨fun _ => 0, 0⟩
        ⟨[OutboxStore.setProcessed 4000000000 orderRow₂], by simp⟩ [orderAttempt orderRow₂ accepted]
        ⟨[orderAttempt orderRow₁ accepted], by simp⟩ = none := by decide
    have h₉ := (noCollision_run (h₈ accepted) (by simp [Action.isSave])).snoc
      (.call 0 ⟨.saveAttempts [orderAttempt orderRow₁ accepted], Except.ok ()⟩)
      ⟨.call rfl rfl rfl (.effect (.saveAttempts hsave)), ?fresh⟩
    case fresh =>
      rintro token attempts answer ⟨⟩
      exact .inl ⟨by simp, fun _ _ => List.forall_mem_nil _⟩
    have h₁₀ := h₉.snoc (.call 0 ⟨.markAsProcessed 1 (text "func-1"), Except.ok true⟩)
      ⟨.call rfl rfl rfl (.effect (.markAsProcessed 1 (text "func-1") _)), .of_not_save rfl⟩
    have h₁₁ := h₁₀.snoc (.call 0 ⟨.addMetric .messagesProcessed (text "order.placed"), ()⟩)
      ⟨.call rfl rfl rfl (.effect (.addMetric _ _ _)), .of_not_save rfl⟩
    have h₁₂ := h₁₁.snoc
      (.call 1 ⟨.deliver orderRow₂ orderSubscription firstDeliveryId, Except.ok accepted⟩)
      ⟨.call rfl rfl rfl (.effect (.deliver _ _ _ _ _)), .of_not_save rfl⟩
    have h₁₃ := h₁₂.snoc (.call 1 ⟨.utcNow, (50000000 : ℤ)⟩)
      ⟨.call rfl rfl rfl (.effect (.utcNow _ _)), .of_not_save rfl⟩
    have h₁₄ := h₁₃.snoc
      (.call 1 ⟨.saveAttempts [orderAttempt orderRow₂ accepted], Except.error duplicateKey⟩)
      ⟨.call rfl rfl rfl (.refused rfl hrefused rfl), ?known⟩
    case known =>
      rintro token attempts answer ⟨⟩
      refine .inr fun a ha _ => ?_
      rw [List.mem_singleton.mp ha]
      decide
    refine ⟨_, _, h₁₄, by simp [Action.Quiet, Plan.Uncanceled, LoopSchedule.cancels],
      not_threwIn rfl, rfl, ?_⟩
    exact ⟨orderRow₂, orderSubscription, firstDeliveryId, accepted,
      mem_entriesOf.mpr (List.mem_of_getElem? (i := 7) rfl), rfl, rfl⟩

/-- In the first of these runs a success is lost: both rounds have returned, the second received success,
no delivery threw, and no success is stored. -/
theorem success_lost_in_overlap : ∃ acts w,
    Run sqlServer (Database.Available sqlServer) (initial 0) acts w ∧ (∀ act ∈ acts, act.Quiet) ∧
    (∀ token, ¬ ThrewIn (w.entriesOf token)) ∧
    w.rounds = [finishedRound orderRow₁, finishedRound orderRow₂] ∧
    ¬ (∀ token r s, w.rounds[token]? = some r → SucceededIn (w.entriesOf token) s →
      AttemptStore.hasSuccess r.message.id s w.db.attempts = true) := by
  obtain ⟨acts, w, hrun, hquiet, hthrew, hrounds, hsucceeded, hlost⟩ := overlapped_runs.1
  refine ⟨acts, w, hrun, hquiet, hthrew, hrounds, fun h => ?_⟩
  have hstored : AttemptStore.hasSuccess 1 7 w.db.attempts = true :=
    h 1 (finishedRound orderRow₂) 7 (by rw [hrounds]; rfl) hsucceeded
  rw [hlost] at hstored
  cases hstored

/-- In the second the success is stored: the save that was refused carried a success that was known. -/
theorem overlapping_rounds_record_successes_known : ∃ acts w,
    Run sqlServer (Database.Available sqlServer) (initial 0) acts w ∧
    w.rounds = [finishedRound orderRow₁, finishedRound orderRow₂] ∧
    AttemptStore.hasSuccess 1 7 w.db.attempts = true := by
  obtain ⟨acts, w, hrun, hquiet, hthrew, hrounds, hsucceeded⟩ := overlapped_runs.2
  refine ⟨acts, w, hrun.mono fun _ _ _ h => h.1, hrounds, ?_⟩
  have hround : w.rounds[1]? = some (finishedRound orderRow₂) := by
    rw [hrounds]
    rfl
  exact overlapping_rounds_record_successes hrun hquiet (fun token => .inl (hthrew token)) hround rfl
    hsucceeded

end World

end OutboxNet
