import OutboxNet.Processor.Conduct

/-!
# The schedule of a round does not matter

The bodies of the loop over the subscriptions share three counters, a list of attempts and a cell for the
last error.  Whatever the degree of parallelism and the interleaving of the bodies, the counters and the
attempts come out the same, and so does the write-back; what is left to chance is the clock, the order of
the attempts, and which of the failed deliveries gives the error text of a retry.
-/

set_option autoImplicit false

namespace OutboxNet

open AttemptStore (States)
open Pipeline (DeliveryOutcome attemptCount nextAttempt)

/-- The pipeline with another degree of parallelism for the subscriptions of a message. -/
def Pipeline.withDegree (p : Pipeline) (degree : ℤ) : Pipeline :=
  { p with options := { p.options with maxConcurrentSubscriptionDeliveries := degree } }

/-- Two outcomes that differ at most in their last errors and in the order and times of the attempts. -/
structure SameOutcome (outcome₁ outcome₂ : DeliveryOutcome) : Prop where
  successCount : outcome₁.successCount = outcome₂.successCount
  failedCount : outcome₁.failedCount = outcome₂.failedCount
  exhaustedCount : outcome₁.exhaustedCount = outcome₂.exhaustedCount
  newAttempts : (outcome₁.newAttempts.map DeliveryAttempt.timeless).Perm
    (outcome₂.newAttempts.map DeliveryAttempt.timeless)

namespace Job

variable (job : Job) (o : Oracle) (states : States)

def withDegree (degree : ℤ) : Job := { job with pipeline := job.pipeline.withDegree degree }

/-- The number of subscriptions the verdict on which is `v`. -/
def planned (v : Verdict) : ℕ :=
  job.subscriptions.countP fun subscription => job.verdictFor o states subscription = some v

/-- The outcome of the loop is the one planned: the counts are those of the verdicts, and the attempts are
those of the targets, one a subscription. -/
structure Settles (outcome : DeliveryOutcome) : Prop where
  successCount : outcome.successCount = job.planned o states .succeeded
  failedCount : outcome.failedCount = job.planned o states .failed
  exhaustedCount : outcome.exhaustedCount = job.planned o states .exhausted
  total : outcome.successCount + outcome.failedCount + outcome.exhaustedCount =
    job.subscriptions.length
  newAttempts : (outcome.newAttempts.map DeliveryAttempt.timeless).Perm
    ((job.targets states).map (job.attemptFor o states))
  once : (outcome.newAttempts.map (·.webhookSubscriptionId)).Nodup
  numbered : ∀ a ∈ outcome.newAttempts, ∃ subscription ∈ job.subscriptions,
    a.webhookSubscriptionId = subscription.id ∧
      a.attemptNumber = int32 (attemptCount states subscription + 1)

/-- The same write-back, each with the clock of its own round and with the text of one of the failed
deliveries. -/
inductive SameWriteBack (log₁ log₂ : List Entry) : Call → Call → Prop
  | processed : SameWriteBack log₁ log₂ (.markAsProcessed job.message.id job.lockedBy)
      (.markAsProcessed job.message.id job.lockedBy)
  | deadLettered : SameWriteBack log₁ log₂ (.markAsDeadLettered job.message.id job.lockedBy)
      (.markAsDeadLettered job.message.id job.lockedBy)
  | retry {delay : TimeSpan} {now₁ now₂ t₁ t₂ : DateTimeOffset} {e₁ e₂ : Text} :
      (⟨.utcNow, now₁⟩ : Entry) ∈ log₁ → addTime now₁ delay = .ok t₁ → job.ErrorText o states e₁ →
      (⟨.utcNow, now₂⟩ : Entry) ∈ log₂ → addTime now₂ delay = .ok t₂ → job.ErrorText o states e₂ →
      SameWriteBack log₁ log₂ (.incrementRetry job.message.id job.lockedBy t₁ (some e₁))
        (.incrementRetry job.message.id job.lockedBy t₂ (some e₂))

/-- Two rounds with the same deliveries, the same attempts, and the same write-back, if there is one. -/
structure SameRound (log₁ log₂ : List Entry) : Prop where
  deliveries : (deliveries log₁).Perm (deliveries log₂)
  saved : ((savedAttempts log₁).map DeliveryAttempt.timeless).Perm
    ((savedAttempts log₂).map DeliveryAttempt.timeless)
  writeBack : List.Forall₂ (job.SameWriteBack o states log₁ log₂) (writeBacks log₁) (writeBacks log₂)
  atMostOne : (writeBacks log₁).length ≤ 1

variable {job o states}

/-! ## The outcome of the loop -/

section Outcome

variable {results : Results} {log : List Entry} {outcome : DeliveryOutcome}

/-- The counts over the positions are those over the subscriptions. -/
theorem Told.count_eq (h : Told job o states results log) (hcomplete : job.Complete states results)
    (v : Verdict) : job.count states results v = job.planned o states v := by
  have hverdicts : (List.range job.subscriptions.length).map (job.verdictAt states results) =
      job.subscriptions.map (job.verdictFor o states) := by
    refine List.ext_getElem (by simp) fun i hi _ => ?_
    have hlt : i < job.subscriptions.length := by simpa using hi
    rw [List.getElem_map, List.getElem_map, List.getElem_range]
    exact h.verdictAt_eq hcomplete (List.getElem?_eq_getElem hlt)
  calc job.count states results v
      = ((List.range job.subscriptions.length).map (job.verdictAt states results)).countP
          fun x => x = some v := by rw [List.countP_map]; rfl
    _ = (job.subscriptions.map (job.verdictFor o states)).countP fun x => x = some v := by
          rw [hverdicts]
    _ = job.planned o states v := by rw [List.countP_map]; rfl

theorem Settles.same {outcome' : DeliveryOutcome} (h : job.Settles o states outcome)
    (h' : job.Settles o states outcome') : SameOutcome outcome outcome' where
  successCount := h.successCount.trans h'.successCount.symm
  failedCount := h.failedCount.trans h'.failedCount.symm
  exhaustedCount := h.exhaustedCount.trans h'.exhaustedCount.symm
  newAttempts := h.newAttempts.trans h'.newAttempts.symm

end Outcome

/-! ## The write-back of the round -/

section WriteBack

variable {degree₁ degree₂ : ℤ} {log₁ log₂ : List Entry} {c₁ c₂ : Call}

/-- The failure handler makes the same write-back in both rounds. -/
theorem HandsBack.same {e₁ e₂ : Text} (h₁ : (job.withDegree degree₁).HandsBack o e₁ log₁ c₁)
    (h₂ : (job.withDegree degree₂).HandsBack o e₂ log₂ c₂) (he₁ : job.ErrorText o states e₁)
    (he₂ : job.ErrorText o states e₂) : job.SameWriteBack o states log₁ log₂ c₁ c₂ := by
  cases h₁ with
  | giveUp hnone =>
      cases h₂ with
      | giveUp => exact .deadLettered
      | retry hsome =>
          have heq := hnone.symm.trans hsome
          cases heq
  | retry hsome₁ hnow₁ hadd₁ =>
      cases h₂ with
      | giveUp hnone =>
          have heq := hnone.symm.trans hsome₁
          cases heq
      | retry hsome₂ hnow₂ hadd₂ =>
          -- the policy gives both rounds the same delay
          have heq := hsome₁.symm.trans hsome₂
          cases heq
          exact .retry hnow₁ hadd₁ he₁ hnow₂ hadd₂ he₂

/-- The verdicts call for the same write-back in both rounds. -/
theorem Decides.same (h₁ : (job.withDegree degree₁).Decides o states log₁ c₁)
    (h₂ : (job.withDegree degree₂).Decides o states log₂ c₂) :
    job.SameWriteBack o states log₁ log₂ c₁ c₂ := by
  have hdiffer : ∀ {P : Prop} {subscription : WebhookSubscription} {v v' : Verdict},
      job.verdictFor o states subscription = some v →
      job.verdictFor o states subscription = some v' → v ≠ v' → P := by
    intro P subscription v v' hv hv' hne
    rw [hv] at hv'
    exact absurd (Option.some.inj hv') hne
  -- both rounds have the same verdicts, so decisions of different kinds contradict each other
  cases h₁ with
  | processed hall₁ =>
      cases h₂ with
      | processed => exact .processed
      | exhausted _ hsome =>
          obtain ⟨subscription, hmem, hv⟩ := hsome
          exact hdiffer (hall₁ subscription hmem) hv (fun h => by cases h)
      | failed hsome =>
          obtain ⟨subscription, hmem, hv⟩ := hsome
          exact hdiffer (hall₁ subscription hmem) hv (fun h => by cases h)
  | exhausted hno₁ hsome₁ =>
      cases h₂ with
      | processed hall =>
          obtain ⟨subscription, hmem, hv⟩ := hsome₁
          exact hdiffer (hall subscription hmem) hv (fun h => by cases h)
      | exhausted => exact .deadLettered
      | failed hsome =>
          obtain ⟨subscription, hmem, hv⟩ := hsome
          exact absurd hv (hno₁ subscription hmem)
  | failed hsome₁ htext₁ hback₁ =>
      cases h₂ with
      | processed hall =>
          obtain ⟨subscription, hmem, hv⟩ := hsome₁
          exact hdiffer (hall subscription hmem) hv (fun h => by cases h)
      | exhausted hno =>
          obtain ⟨subscription, hmem, hv⟩ := hsome₁
          exact absurd hv (hno subscription hmem)
      | failed _ htext₂ hback₂ => exact hback₁.same hback₂ htext₁ htext₂

/-- What two rounds of one plan have in common. -/
theorem Conducted.same (h₁ : (job.withDegree degree₁).Conducted o states log₁)
    (h₂ : (job.withDegree degree₂).Conducted o states log₂) : job.SameRound o states log₁ log₂ := by
  refine ⟨h₁.deliveries.trans h₂.deliveries.symm, h₁.saved.trans h₂.saved.symm, ?_, ?_⟩
  all_goals by_cases hleft : job.Abandons o states
  · rw [h₁.abandoned hleft, h₂.abandoned hleft]
    exact .nil
  · obtain ⟨c₁, hc₁, hdecides₁⟩ := h₁.writeBack hleft
    obtain ⟨c₂, hc₂, hdecides₂⟩ := h₂.writeBack hleft
    rw [hc₁, hc₂]
    exact .cons (hdecides₁.same hdecides₂) .nil
  · rw [h₁.abandoned hleft]
    exact Nat.zero_le 1
  · obtain ⟨c₁, hc₁, -⟩ := h₁.writeBack hleft
    rw [hc₁]
    exact le_refl 1

end WriteBack

/-! ## Two runs -/

end Job

/-! ## Two failed deliveries -/

/-- Both deliveries fail, each with its own status. -/
def bothFail : Oracle where
  deliver _ subscription _ :=
    if subscription.id = 7 then ⟨false, some 500, none, some (text "HTTP 500"), 5⟩
    else ⟨false, some 503, none, some (text "HTTP 503"), 5⟩
  nextDouble _ := 0

/-- The answers of a round in which nothing was stored before. -/
def Oracle.answers (o : Oracle) : (c : Call) → c.Ans
  | .getDeliveryStates _ _ => Except.ok []
  | .saveAttempts _ => (match o.saveThrows with | none => .ok () | some e => .error e : Except Exn Unit)
  | .markAsProcessed _ _ => Except.ok true
  | .incrementRetry _ _ _ _ => Except.ok true
  | .markAsDeadLettered _ _ => Except.ok true
  | .deliver message subscription deliveryId => Except.ok (o.deliver message subscription deliveryId)
  | .publish _ => Except.ok ()
  | .utcNow => (0 : ℤ)
  | .nextDouble => (0 : ℚ)
  | .addMetric _ _ => ()

end OutboxNet
