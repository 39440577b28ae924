import Mathlib.Algebra.BigOperators.Group.Finset.Piecewise
import Mathlib.Algebra.Order.BigOperators.Group.Finset
import OutboxNet.System.AttemptLog

/-!
# Deliveries beyond the budget

Delivery is at least once: a round whose attempts are not stored makes its deliveries again in a later
round.  This bounds how often that happens.  A round delivers to a subscription at most once.  The rounds
that were told that their attempt is stored are at most `MaxRetries + 1`, since so many attempts are
stored at most.  Every other delivery belongs to a round of its own that has not recorded it: it is still
under way, has crashed, or its save has failed.
-/

set_option autoImplicit false

namespace OutboxNet

open AttemptStore (States attemptsOf ofPair)

variable {dep : Deployment} {budget : Guid → ℤ} {sha256 : Hash}

/-- Whether an entry is a delivery of message `k` to subscription `s`. -/
def Entry.delivers (k s : Guid) : Entry → Bool
  | ⟨.deliver message subscription _, _⟩ => message.id = k && subscription.id = s
  | _ => false

/-- Whether an entry is a save that has returned, of an attempt for message `k` and subscription `s`. -/
def Entry.records (k s : Guid) : Entry → Bool
  | ⟨.saveAttempts attempts, .ok _⟩ => attempts.any (ofPair k s)
  | _ => false

theorem Entry.delivers_iff {k s : Guid} {e : Entry} : e.delivers k s = true ↔
    ∃ message subscription deliveryId result,
      e = ⟨.deliver message subscription deliveryId, result⟩ ∧ message.id = k ∧ subscription.id = s := by
  constructor
  · intro h
    unfold Entry.delivers at h
    split at h
    · next message subscription deliveryId result =>
        simp only [Bool.and_eq_true, decide_eq_true_eq] at h
        exact ⟨message, subscription, deliveryId, result, rfl, h⟩
    · cases h
  · rintro ⟨message, subscription, deliveryId, result, rfl, rfl, rfl⟩
    simp [Entry.delivers]

theorem Entry.records_iff {k s : Guid} {e : Entry} : e.records k s = true ↔
    ∃ attempts, e = ⟨.saveAttempts attempts, Except.ok ()⟩ ∧ attempts.any (ofPair k s) = true := by
  constructor
  · intro h
    unfold Entry.records at h
    split at h
    · next attempts _ => exact ⟨attempts, rfl, h⟩
    · cases h
  · rintro ⟨attempts, rfl, h⟩
    exact h

namespace World

variable {w w' : World} {stages stages' : ℕ → Stage} {act : Action} {k s : Guid}

/-- How often message `k` was sent to subscription `s`. -/
def deliveries (w : World) (k s : Guid) : ℕ := w.log.countP fun x => x.2.delivers k s

/-- How often a round was told that an attempt for message `k` and subscription `s` is stored. -/
def records (w : World) (k s : Guid) : ℕ := w.log.countP fun x => x.2.records k s

/-- Whether round `token` has delivered message `k` to subscription `s` and was not told that the attempt
is stored. -/
def unrecorded (w : World) (k s : Guid) (token : ℕ) : Bool :=
  (w.entriesOf token).any (·.delivers k s) && !(w.entriesOf token).any (·.records k s)

/-! ## A round delivers once -/

/-- What holds of the deliveries of a round in its stage. -/
def DeliversOnce (k s : Guid) (job : Job) (entries : List Entry) : Stage → Prop
  | .start => entries.countP (·.delivers k s) = 0
  | .delivering _ results => entries.countP (·.delivers k s) ≤ 1 ∧
      (0 < entries.countP (·.delivers k s) → ∃ i subscription, job.subscriptions[i]? = some subscription ∧
        subscription.id = s ∧ results i ≠ none)
  | _ => entries.countP (·.delivers k s) ≤ 1

theorem DeliversOnce.le_one {job : Job} {entries : List Entry} {stage : Stage}
    (h : DeliversOnce k s job entries stage) : entries.countP (·.delivers k s) ≤ 1 := by
  cases stage with
  | start => exact (le_of_eq h).trans zero_le_one
  | delivering => exact h.1
  | settled => exact h
  | failing => exact h
  | closed => exact h

/-- A call that is no delivery leaves the deliveries as they are. -/
theorem countP_delivers_append {entries : List Entry} {e : Entry} (h : e.call.isDeliver = false) :
    (entries ++ [e]).countP (·.delivers k s) = entries.countP (·.delivers k s) := by
  have hno : e.delivers k s = false := by
    by_contra hyes
    rw [Bool.not_eq_false] at hyes
    obtain ⟨_, _, _, _, rfl, -, -⟩ := Entry.delivers_iff.mp hyes
    cases h
  rw [List.countP_append, List.countP_singleton, hno]
  rfl

/-- The step lemma of a round. -/
theorem DeliversOnce.trans {job : Job} (hnodup : (job.subscriptions.map (·.id)).Nodup) {c : Call}
    {stage stage' : Stage} {a : c.Ans} (htrans : job.Trans c stage a stage') {entries : List Entry}
    (h : DeliversOnce k s job entries stage) :
    DeliversOnce k s job (entries ++ [⟨c, a⟩]) stage' := by
  have hle := h.le_one
  have hkeep : c.isDeliver = false →
      (entries ++ [(⟨c, a⟩ : Entry)]).countP (·.delivers k s) = entries.countP (·.delivers k s) :=
    fun hc => countP_delivers_append hc
  have hlater : c.isDeliver = false →
      (entries ++ [(⟨c, a⟩ : Entry)]).countP (·.delivers k s) ≤ 1 := fun hc => (hkeep hc).symm ▸ hle
  induction htrans with
  | @metric metric eventType stage a =>
      have heq := hkeep rfl
      cases stage with
      | start => exact heq.trans h
      | delivering states results => rwa [DeliversOnce, heq]
      | settled => exact hlater rfl
      | failing => exact hlater rfl
      | closed => exact hlater rfl
  | noSubscriptions => exact hlater rfl
  | read =>
      have heq := (hkeep rfl).trans h
      exact ⟨hlater rfl, fun hpos => by omega⟩
  | readThrew => split <;> exact hlater rfl
  | @deliver states results i subscription r hsub hi hatt =>
      obtain ⟨-, hwhere⟩ := h
      rw [DeliversOnce, List.countP_append, List.countP_singleton]
      by_cases hdelivers : Entry.delivers k s
          ⟨.deliver job.message subscription (job.deliveryId states subscription), r⟩ = true
      · obtain ⟨_, _, _, _, heq, -, hid⟩ := Entry.delivers_iff.mp hdelivers
        cases heq
        -- the position had no result, so the round has not delivered to the subscription
        have hzero : entries.countP (·.delivers k s) = 0 := by
          by_contra hne
          obtain ⟨j, subscription', hsub', hid', hj⟩ := hwhere (Nat.pos_of_ne_zero hne)
          have heq := Job.position_eq hnodup hsub' hsub (hid'.trans hid.symm)
          rw [heq] at hj
          exact hj hi
        rw [hzero, if_pos hdelivers]
        refine ⟨le_refl _, fun _ => ⟨i, subscription, hsub, hid, ?_⟩⟩
        rw [Function.update_self]
        exact Option.some_ne_none r
      · rw [if_neg hdelivers]
        refine ⟨hle, fun hpos => ?_⟩
        obtain ⟨j, subscription', hsub', hid', hj⟩ := hwhere hpos
        refine ⟨j, subscription', hsub', hid', ?_⟩
        by_cases heq : j = i
        · subst heq
          rw [Function.update_self]
          exact Option.some_ne_none r
        · rwa [Function.update_of_ne heq]
  | attemptTime =>
      have heq := hkeep rfl
      rwa [DeliversOnce, heq]
  | save => exact hlater rfl
  | saveThrew =>
      unfold Job.afterFailedSave
      split <;> exact hlater rfl
  | nothingToSave _ _ _ ih => exact ih hle hkeep hlater
  | faulted _ _ ih => exact ih hle hkeep hlater
  | retry _ _ ih => exact ih hle hkeep hlater
  | processed => exact hlater rfl
  | deadLetter => exact hlater rfl
  | draw => exact hlater rfl
  | clock => exact hlater rfl
  | incrementRetry => exact hlater rfl
  | giveUp => exact hlater rfl

/-- The deliveries of a world: they are those of rounds in direct delivery, and each of these rounds has
made one at most. -/
structure OncePerRound (budget : Guid → ℤ) (k s : Guid) (w : World) (stages : ℕ → Stage) : Prop where
  begun : w.Begun
  planned : w.Planned (Plan.Within budget)
  direct : ∀ x ∈ w.log, x.2.delivers k s = true → ∃ r subscriptions loop prog,
    w.rounds[x.1]? = some r ∧ r.work = some ⟨.direct subscriptions loop, prog⟩
  rounds : ForRounds (fun token job => DeliversOnce k s job (w.entriesOf token)) w stages

namespace OncePerRound

theorem direct_step (h : OncePerRound budget k s w stages)
    (hs : Step dep (Database.Exec dep) w act w') (hst : StageStep w stages act stages') :
    ∀ x ∈ w'.log, x.2.delivers k s = true → ∃ r subscriptions loop prog,
      w'.rounds[x.1]? = some r ∧ r.work = some ⟨.direct subscriptions loop, prog⟩ := by
  -- the plan of a round stays
  have hstays : ∀ {token : ℕ} {r : Round} {subscriptions : List WebhookSubscription}
      {loop : LoopSchedule} {prog : Prog Call Call.Ans (Except Exn Unit)},
      w.rounds[token]? = some r → r.work = some ⟨.direct subscriptions loop, prog⟩ →
      ∃ r subscriptions loop prog, w'.rounds[token]? = some r ∧
        r.work = some ⟨.direct subscriptions loop, prog⟩ := by
    intro token r subscriptions loop prog hr hwork
    obtain ⟨r', hr', -, -, hplan, -⟩ := hs.round hr
    obtain ⟨prog', hwork'⟩ := hplan _ hwork
    exact ⟨r', subscriptions, loop, prog', hr', hwork'⟩
  have hold : ∀ x ∈ w.log, x.2.delivers k s = true → ∃ r subscriptions loop prog,
      w'.rounds[x.1]? = some r ∧ r.work = some ⟨.direct subscriptions loop, prog⟩ := by
    intro x hx hdelivers
    obtain ⟨r, subscriptions, loop, prog, hr, hwork⟩ := h.direct x hx hdelivers
    exact hstays hr hwork
  by_cases hcall : ∃ token entry, act = .call token entry
  · obtain ⟨token, entry, rfl⟩ := hcall
    intro x hx hdelivers
    rw [hs.called.2] at hx
    rcases List.mem_append.mp hx with hx | hx
    · exact hold x hx hdelivers
    · obtain rfl := List.mem_singleton.mp hx
      obtain ⟨_, _, _, _, rfl, -, -⟩ := Entry.delivers_iff.mp hdelivers
      cases hst with
      | call hr hwork => exact hstays hr hwork
      | queued _ _ hof => cases hof
      | other hnone => cases hnone
  · have hlog : w'.log = w.log := by
      cases hs with
      | @call token => exact absurd ⟨token, _, rfl⟩ hcall
      | _ => rfl
    rw [hlog]
    exact hold

/-- The step lemma. -/
theorem step (h : OncePerRound budget k s w stages)
    (hs : Step dep (Database.Exec dep) w act w') (hst : StageStep w stages act stages')
    (hbegin : ∀ token plan, act = .begin_ token plan → plan.Within budget) :
    OncePerRound budget k s w' stages' where
  begun := h.begun.step hs
  planned := h.planned.step hs hbegin
  direct := h.direct_step hs hst
  rounds := by
    refine h.rounds.step_of_work hs hst ?_ ?_ ?_
    · rintro token r subscriptions plan rfl hr hnone
      show (w'.entriesOf token).countP _ = 0
      rw [hs.entriesOf (fun _ heq => by cases heq), h.begun.entriesOf_eq_nil hr hnone]
      rfl
    · intro token r subscriptions loop prog stage hact _ _ honce
      rwa [hs.entriesOf fun entry heq => hact (by rw [heq]; rfl)]
    · rintro token entry r subscriptions loop prog stage stage' rfl hr hwork htrans honce
      rw [hs.entriesOf_call]
      exact honce.trans (h.planned token r _ hr hwork).1 htrans

theorem initial (now : DateTimeOffset) :
    OncePerRound budget k s (initial now) fun _ => .start where
  begun := Begun.initial now
  planned := Planned.initial _ now
  direct := List.forall_mem_nil _
  rounds := ForRounds.initial _ now _

/-- No round has delivered twice. -/
theorem le_one (h : OncePerRound budget k s w stages) (token : ℕ) :
    (w.entriesOf token).countP (·.delivers k s) ≤ 1 := by
  by_cases hpos : 0 < (w.entriesOf token).countP (·.delivers k s)
  · obtain ⟨e, he, hdelivers⟩ := List.countP_pos_iff.mp hpos
    obtain ⟨r, subscriptions, loop, prog, hr, hwork⟩ := h.direct _ (mem_entriesOf.mp he) hdelivers
    exact (h.rounds token r subscriptions loop prog hr hwork).le_one
  · omega

end OncePerRound

/-! ## What was recorded is stored -/

/-- The saves that returned: each has stored an attempt, which stays while its message does. -/
structure RecordsStored (budget : Guid → ℤ) (sha256 : Hash) (k s : Guid) (w : World)
    (stages : ℕ → Stage) : Prop where
  keys : KeysOk budget sha256 w stages
  round : 0 < w.records k s → ∃ r ∈ w.rounds, r.message.id = k
  alive : (w.db.messages.find? k).isSome = true →
    w.records k s ≤ (attemptsOf k s w.db.attempts).length
  le : w.records k s ≤ (budget s + 1).toNat

namespace RecordsStored

/-- The attempts of a message that stays. -/
theorem length_le_step {messages : Messages} {attempts : Attempts}
    (hattempts : AttemptsStep dep w stages act messages attempts) (hact : act ≠ .purgeAttempts)
    (halive : (messages.find? k).isSome = true) :
    (attemptsOf k s w.db.attempts).length ≤ (attemptsOf k s attempts).length := by
  cases hattempts with
  | same => exact le_refl _
  | saved _ _ _ _ _ hsave =>
      rw [AttemptStore.length_attemptsOf_saveAttemptsAsync hsave]
      exact Nat.le_add_right _ _
  | cascade =>
      rw [AttemptStore.cascade, AttemptStore.attemptsOf_delete]
      intro a ha
      obtain ⟨-, hid, -⟩ := AttemptStore.mem_attemptsOf.mp ha
      rw [hid, Option.isNone_eq_false_iff]
      exact halive
  | purged hpurge => exact absurd hpurge hact

/-- A step that records nothing. -/
theorem step_same (h : RecordsStored budget sha256 k s w stages)
    (hkeys : KeysOk budget sha256 w' stages') (hs : Step dep (Database.Exec dep) w act w')
    (hst : StageStep w stages act stages') (hact : act ≠ .purgeAttempts)
    (hsame : w'.records k s = w.records k s) : RecordsStored budget sha256 k s w' stages' where
  keys := hkeys
  round := by
    intro hpos
    rw [hsame] at hpos
    obtain ⟨r, hmem, hid⟩ := h.round hpos
    obtain ⟨token, hr⟩ := List.mem_iff_getElem?.mp hmem
    obtain ⟨r', hr', -, hm, -⟩ := hs.round hr
    exact ⟨r', List.mem_of_getElem? hr', by rw [hm, hid]⟩
  alive := by
    intro halive
    rw [hsame]
    rcases Nat.eq_zero_or_pos (w.records k s) with hzero | hpos
    · rw [hzero]
      exact Nat.zero_le _
    · -- the message of a round does not come back
      obtain ⟨r, hmem, rfl⟩ := h.round hpos
      obtain ⟨token, hr⟩ := List.mem_iff_getElem?.mp hmem
      exact (h.alive (hs.alive sound_exec hr halive)).trans
        (length_le_step (hs.attempts hst hact) hact halive)
  le := hsame ▸ h.le

/-- A save that returned. -/
theorem step_saved (h : RecordsStored budget sha256 k s w stages)
    (hkeys : KeysOk budget sha256 w' stages') {token : ℕ} {entry : Entry}
    (hs : Step dep (Database.Exec dep) w (.call token entry) w')
    (hst : StageStep w stages (.call token entry) stages') (hrecords : entry.records k s = true) :
    RecordsStored budget sha256 k s w' stages' := by
  have hcount : w'.records k s = w.records k s + 1 := by
    rw [records, hs.called.2, List.countP_append, List.countP_singleton, hrecords]
    rfl
  obtain ⟨attempts, rfl, hany⟩ := Entry.records_iff.mp hrecords
  obtain ⟨a, ha, hpair⟩ := List.any_eq_true.mp hany
  obtain ⟨hid, hsub⟩ := AttemptStore.ofPair_iff.mp hpair
  obtain ⟨defaults, stored, hsave, hdb⟩ := hs.called.1.saved
  have halive := AttemptStore.saveAttemptsAsync_foreignKey hsave ha
  rw [hid] at halive
  have hlength : w.records k s + 1 ≤ (attemptsOf k s w'.db.attempts).length := by
    have hstored := AttemptStore.length_attemptsOf_saveAttemptsAsync hsave k s
    have hpos : 0 < attempts.countP (ofPair k s) := List.countP_pos_iff.mpr ⟨a, ha, hpair⟩
    have hle := h.alive halive
    rw [hdb]
    change (attemptsOf k s stored).length =
      (attemptsOf k s w.db.attempts).length + attempts.countP (ofPair k s) at hstored
    show w.records k s + 1 ≤ (attemptsOf k s stored).length
    omega
  refine ⟨hkeys, fun _ => ?_, fun _ => by rwa [hcount], ?_⟩
  · obtain ⟨r, subscriptions, loop, prog, states, results, utcNow, hr, -, -, hperm⟩ := hst.saved rfl
    have hmessage := (id_ne_empty_of_newAttempts (hperm.mem_iff.mp ha)).2
    obtain ⟨r', hr', -, hm, -⟩ := hs.round hr
    exact ⟨r', List.mem_of_getElem? hr', by rw [hm, ← hid, hmessage]; rfl⟩
  · rw [hcount]
    exact hlength.trans (hkeys.length_le k s)

/-- The step lemma. -/
theorem step (h : RecordsStored budget sha256 k s w stages)
    (hkeys : KeysOk budget sha256 w' stages') (hs : Step dep (Database.Exec dep) w act w')
    (hst : StageStep w stages act stages') (hact : act ≠ .purgeAttempts) :
    RecordsStored budget sha256 k s w' stages' := by
  by_cases hrecords : ∃ token entry, act = .call token entry ∧ entry.records k s = true
  · obtain ⟨token, entry, rfl, hrecords⟩ := hrecords
    exact h.step_saved hkeys hs hst hrecords
  · refine h.step_same hkeys hs hst hact ?_
    cases hs with
    | @call token r work c _ a =>
        have hno : Entry.records k s ⟨c, a⟩ = false := by
          rw [← Bool.not_eq_true]
          exact fun hyes => hrecords ⟨token, _, rfl, hyes⟩
        show (w.log ++ [(token, (⟨c, a⟩ : Entry))]).countP _ = w.log.countP _
        rw [List.countP_append, List.countP_singleton, hno]
        rfl
    | _ => rfl

theorem initial (now : DateTimeOffset) :
    RecordsStored budget sha256 k s (initial now) fun _ => .start where
  keys := KeysOk.initial now
  round := fun h => absurd h (lt_irrefl 0)
  alive := fun _ => Nat.zero_le _
  le := Nat.zero_le _

end RecordsStored

/-! ## The theorem -/

/-- Counting the entries of a log round by round. -/
theorem countP_log (w : World) (hbegun : w.Begun) (p : Entry → Bool) :
    w.log.countP (fun x => p x.2) =
      ∑ token ∈ Finset.range w.rounds.length, (w.entriesOf token).countP p := by
  have htokens : ∀ x ∈ w.log, x.1 < w.rounds.length := by
    intro x hx
    obtain ⟨r, hr, -⟩ := hbegun x hx
    exact (List.getElem?_eq_some_iff.mp hr).1
  unfold entriesOf
  generalize w.log = log at htokens
  induction log with
  | nil => simp
  | cons x log ih =>
      have hhead := htokens x List.mem_cons_self
      have hsum : ∀ token ∈ Finset.range w.rounds.length,
          (((x :: log).filter (·.1 = token)).map Prod.snd).countP p =
            ((log.filter (·.1 = token)).map Prod.snd).countP p +
              if token = x.1 then (if p x.2 = true then 1 else 0) else 0 := by
        intro token _
        by_cases heq : x.1 = token
        · rw [List.filter_cons_of_pos (by simpa using heq), List.map_cons, List.countP_cons,
            if_pos heq.symm]
        · rw [List.filter_cons_of_neg (by simpa using heq), if_neg (Ne.symm heq), Nat.add_zero]
      rw [List.countP_cons, ih fun y hy => htokens y (List.mem_cons_of_mem _ hy),
        Finset.sum_congr rfl hsum, Finset.sum_add_distrib, Finset.sum_ite_eq',
        if_pos (Finset.mem_range.mpr hhead)]

/-- What a round adds to the deliveries: an attempt it has recorded, or itself. -/
theorem OncePerRound.delivers_le {stages : ℕ → Stage}
    (h : OncePerRound budget k s w stages) (token : ℕ) :
    (w.entriesOf token).countP (·.delivers k s) ≤ (w.entriesOf token).countP (·.records k s) +
      if w.unrecorded k s token = true then 1 else 0 := by
  have hle := h.le_one token
  by_cases hrecords : (w.entriesOf token).any (·.records k s) = true
  · obtain ⟨e, he, hyes⟩ := List.any_eq_true.mp hrecords
    have hpos : 0 < (w.entriesOf token).countP (·.records k s) := List.countP_pos_iff.mpr ⟨e, he, hyes⟩
    omega
  · by_cases hdelivers : (w.entriesOf token).any (·.delivers k s) = true
    · have hunrecorded : w.unrecorded k s token = true := by
        rw [unrecorded, hdelivers, Bool.eq_false_of_not_eq_true hrecords]
        rfl
      rw [if_pos hunrecorded]
      omega
    · have hzero : (w.entriesOf token).countP (·.delivers k s) = 0 := by
        rw [List.countP_eq_zero]
        exact fun e he hyes => hdelivers (List.any_eq_true.mpr ⟨e, he, hyes⟩)
      omega

/-- The rounds that have delivered message `k` to subscription `s` and were not told that the attempt is
stored. -/
def unrecordedRounds (w : World) (k s : Guid) : Finset ℕ :=
  (Finset.range w.rounds.length).filter fun token => w.unrecorded k s token = true

/-- **Deliveries beyond the budget.** Take any run of any number of workers, with any interleaving,
crashes and failures, in which no attempts are purged.  No round delivers to a subscription twice.  And a
message is sent to a subscription at most `MaxRetries + 1` times, plus once for every round that has not
recorded its delivery. -/
theorem deliveries_bounded {now : DateTimeOffset} {acts : List Action}
    (hrun : Run dep (Database.Exec dep) (initial now) acts w) (hbudget : ∀ s, budget s < int32Max)
    (hplans : ∀ token plan, .begin_ token plan ∈ acts → plan.Within budget)
    (hsha256 : ∀ r ∈ w.rounds, r.pipeline.sha256 = sha256)
    (hpurge : ∀ act ∈ acts, act ≠ .purgeAttempts) (k s : Guid) :
    (∀ token, (w.entriesOf token).countP (·.delivers k s) ≤ 1) ∧
    w.deliveries k s ≤ (budget s + 1).toNat + (w.unrecordedRounds k s).card := by
  have hinv : ∃ stages, Coupled w stages ∧ (OncePerRound budget k s w stages ∧
      RecordsStored budget sha256 k s w stages) := by
    refine run_with_hash (fun w stages => OncePerRound budget k s w stages ∧
        RecordsStored budget sha256 k s w stages)
      (fun act => act ≠ .purgeAttempts ∧ ∀ token plan, act = .begin_ token plan → plan.Within budget)
      ?_ hrun ?_ hsha256 ⟨OncePerRound.initial now, RecordsStored.initial now⟩
    · rintro w stages act w' stages' ⟨hact, hbegin⟩ hbefore ⟨honce, hstored⟩ hs hst
      have hkeys := hstored.keys.step hbudget hbefore hs hst hbegin
      exact ⟨honce.step hs hst hbegin, hstored.step hkeys hs hst hact⟩
    · intro act hact
      exact ⟨hpurge act hact, by rintro token plan rfl; exact hplans token plan hact⟩
  obtain ⟨stages, -, honce, hstored⟩ := hinv
  refine ⟨honce.le_one, ?_⟩
  calc
    w.deliveries k s =
        ∑ token ∈ Finset.range w.rounds.length, (w.entriesOf token).countP (·.delivers k s) :=
      countP_log w honce.begun _
    _ ≤ ∑ token ∈ Finset.range w.rounds.length, ((w.entriesOf token).countP (·.records k s) +
          if w.unrecorded k s token = true then 1 else 0) :=
      Finset.sum_le_sum fun token _ => honce.delivers_le token
    _ = w.records k s + (w.unrecordedRounds k s).card := by
      rw [Finset.sum_add_distrib, unrecordedRounds, Finset.card_filter, records,
        countP_log w honce.begun]
    _ ≤ (budget s + 1).toNat + (w.unrecordedRounds k s).card :=
      Nat.add_le_add_right hstored.le _

/-- The order was delivered to a subscription four times by its four rounds, one of which has not recorded
it. -/
theorem deliveries_bounded_order :
    overlapped.deliveries 1 7 ≤ 4 + (overlapped.unrecordedRounds 1 7).card ∧
    overlapped.deliveries 1 8 ≤ 4 + (overlapped.unrecordedRounds 1 8).card ∧
    [7, 8].map (overlapped.deliveries 1) = [4, 2] ∧ (overlapped.unrecordedRounds 1 7).card = 1 := by
  obtain ⟨acts, hrun, hplans, hpurge⟩ := overlapped_run
  have hbudget : ∀ _ : Guid, (3 : ℤ) < int32Max := fun _ => by decide
  have hbounded := deliveries_bounded hrun hbudget hplans overlapped_sha256 hpurge
  exact ⟨(hbounded 1 7).2, (hbounded 1 8).2, by decide +kernel, by decide +kernel⟩

end World

end OutboxNet
