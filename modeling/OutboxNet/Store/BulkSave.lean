import OutboxNet.Store.AttemptStore

/-!
# Saving attempts in bulk

`SaveAttemptsAsync` is the fast path for what single calls of `SaveAttemptAsync` do.  The direct provider
sends all rows in one statement, with eleven parameters a row; past the limits of the server the bulk
insert is refused where the single ones go through.
-/

set_option autoImplicit false

namespace OutboxNet.AttemptStore

variable (dep : Deployment)

/-- `SaveAttemptAsync`, for attempt number `i` of a list. -/
def saveAttemptAsync (d : Defaults) (messages : Messages) (i : ℕ) (attempt : DeliveryAttempt)
    (attempts : Attempts) : Option Attempts :=
  if acceptsInsert dep [attempt] && foreignKey messages [attemptRow dep d i attempt] then
    attempts.insertAll? [attemptRow dep d i attempt]
  else none

/-- Single saves, one after another, of attempts with their places in the list. -/
def saveEachAsync (d : Defaults) (messages : Messages) :
    List (DeliveryAttempt × ℕ) → Attempts → Option Attempts
  | [], attempts => some attempts
  | (attempt, i) :: rest, attempts =>
      (saveAttemptAsync dep d messages i attempt attempts).bind (saveEachAsync d messages rest)

/-- The row of an attempt with its place. -/
def placedRow (d : Defaults) (place : DeliveryAttempt × ℕ) : DeliveryAttempt :=
  attemptRow dep d place.2 place.1

/-- Attempts that will be stored under new and distinct ids, of messages that are there. -/
structure Saveable (d : Defaults) (messages : Messages) (newAttempts : List DeliveryAttempt)
    (attempts : Attempts) : Prop where
  fresh : ((attempts.rows ++ attemptRows dep d newAttempts).map (·.id)).Nodup
  messages : ∀ attempt ∈ newAttempts, (messages.find? attempt.outboxMessageId).isSome = true

/-- The bulk save stores what the single saves would store, in whatever order these are made. -/
def SavesEach (d : Defaults) (messages : Messages) (newAttempts : List DeliveryAttempt)
    (attempts : Attempts) : Prop :=
  ∃ stored, saveAttemptsAsync dep d messages newAttempts attempts = some stored ∧
    ∀ order, order.Perm newAttempts.zipIdx → ∃ stored',
      saveEachAsync dep d messages order attempts = some stored' ∧ stored'.rows.Perm stored.rows

variable {dep} {d : Defaults} {messages : Messages}

theorem attemptRows_eq (newAttempts : List DeliveryAttempt) :
    attemptRows dep d newAttempts = newAttempts.zipIdx.map (placedRow dep d) :=
  List.mapIdx_eq_zipIdx_map

/-- The limits of the server, as a bound on the number of attempts. -/
theorem acceptsInsert_iff (hdirect : dep.provider = .directSql) {newAttempts : List DeliveryAttempt} :
    acceptsInsert dep newAttempts = true ↔ newAttempts.length ≤ 190 := by
  unfold acceptsInsert
  rw [hdirect]
  show (decide (newAttempts.length * 11 ≤ 2100) && decide (newAttempts.length ≤ 1000)) = true ↔ _
  rw [Bool.and_eq_true, decide_eq_true_eq, decide_eq_true_eq]
  omega

/-- **Single saves go through** as long as their ids are new. -/
theorem saveEachAsync_some {order : List (DeliveryAttempt × ℕ)} {attempts : Attempts}
    (haccept : ∀ place ∈ order, acceptsInsert dep [place.1] = true)
    (hforeign : ∀ place ∈ order, (messages.find? place.1.outboxMessageId).isSome = true)
    (hfresh : ((attempts.rows ++ order.map (placedRow dep d)).map (·.id)).Nodup) :
    ∃ stored, saveEachAsync dep d messages order attempts = some stored ∧
      stored.rows = attempts.rows ++ order.map (placedRow dep d) := by
  induction order generalizing attempts with
  | nil => exact ⟨attempts, rfl, (List.append_nil _).symm⟩
  | cons place order ih =>
      obtain ⟨attempt, i⟩ := place
      have hsplit : attempts.rows ++ ((attempt, i) :: order).map (placedRow dep d) =
          attempts.rows ++ [attemptRow dep d i attempt] ++ order.map (placedRow dep d) := by
        rw [List.append_assoc]
        rfl
      rw [hsplit] at hfresh ⊢
      -- the first save goes through
      have hfirst : ∃ next, attempts.insertAll? [attemptRow dep d i attempt] = some next ∧
          next.rows = attempts.rows ++ [attemptRow dep d i attempt] := by
        rw [List.map_append] at hfresh
        exact ⟨⟨_, hfresh.of_append_left⟩, Table.insertAll?_eq_some_iff.mpr rfl, rfl⟩
      obtain ⟨next, hinsert, hnext⟩ := hfirst
      have hsave : saveAttemptAsync dep d messages i attempt attempts = some next := by
        have hkey : foreignKey messages [attemptRow dep d i attempt] = true := by
          simpa [foreignKey] using hforeign (attempt, i) List.mem_cons_self
        rw [saveAttemptAsync, haccept (attempt, i) List.mem_cons_self, hkey]
        exact hinsert
      rw [← hnext] at hfresh ⊢
      obtain ⟨stored, hrest, hrows⟩ := ih
        (fun place hp => haccept place (List.mem_cons_of_mem _ hp))
        (fun place hp => hforeign place (List.mem_cons_of_mem _ hp)) hfresh
      refine ⟨stored, ?_, hrows⟩
      show (saveAttemptAsync dep d messages i attempt attempts).bind _ = _
      rw [hsave]
      exact hrest

/-- **The bulk save of the direct provider does what single saves do exactly up to 190 attempts.** -/
theorem bulk_save_iff (hdirect : dep.provider = .directSql) {newAttempts : List DeliveryAttempt}
    {attempts : Attempts} (h : Saveable dep d messages newAttempts attempts) :
    SavesEach dep d messages newAttempts attempts ↔ newAttempts.length ≤ 190 := by
  constructor
  · rintro ⟨stored, hsave, -⟩
    unfold saveAttemptsAsync at hsave
    split at hsave
    · next hempty =>
        rw [List.isEmpty_iff.mp hempty]
        exact Nat.zero_le 190
    · split at hsave
      · next hok =>
          rw [Bool.and_eq_true] at hok
          exact (acceptsInsert_iff hdirect).mp hok.1
      · cases hsave
  · intro hlength
    -- the bulk insert
    have hkey : foreignKey messages (attemptRows dep d newAttempts) = true := by
      refine List.all_eq_true.mpr fun row hrow => ?_
      obtain ⟨i, hi, rfl⟩ := List.mem_mapIdx.mp hrow
      exact h.messages newAttempts[i] (List.getElem_mem hi)
    have hbulk : saveAttemptsAsync dep d messages newAttempts attempts = some ⟨_, h.fresh⟩ := by
      unfold saveAttemptsAsync
      split
      · next hempty =>
          rw [Option.some_inj]
          refine Table.ext ?_
          show attempts.rows = attempts.rows ++ attemptRows dep d newAttempts
          rw [List.isEmpty_iff.mp hempty]
          exact (List.append_nil _).symm
      · rw [(acceptsInsert_iff hdirect).mpr hlength, hkey]
        exact Table.insertAll?_eq_some_iff.mpr rfl
    refine ⟨_, hbulk, fun order horder => ?_⟩
    -- the single inserts, in any order
    have hrows : (attempts.rows ++ order.map (placedRow dep d)).Perm
        (attempts.rows ++ attemptRows dep d newAttempts) := by
      rw [attemptRows_eq]
      exact (horder.map _).append_left _
    have hplace : ∀ place ∈ order, place.1 ∈ newAttempts := fun place hp =>
      List.fst_mem_of_mem_zipIdx (horder.mem_iff.mp hp)
    have haccept : ∀ place ∈ order, acceptsInsert dep [place.1] = true := fun place _ =>
      (acceptsInsert_iff hdirect).mpr (by simp)
    obtain ⟨stored, heach, hstored⟩ := saveEachAsync_some haccept
      (fun place hp => h.messages place.1 (hplace place hp)) ((hrows.map _).nodup_iff.mpr h.fresh)
    exact ⟨stored, heach, by rw [hstored]; exact hrows⟩

/-! ## One attempt too many -/

/-- The message of the attempts. -/
def popularMessages : Messages :=
  ⟨[OutboxStore.directRow 0 ⟨1, text "invoice.paid", [], none, none, none, none, none, none⟩], by simp⟩

/-- An attempt for each of `n` subscriptions of the message. -/
def popularAttempts (n : ℕ) : List DeliveryAttempt :=
  (List.range n).map fun i =>
    { id := BitVec.ofNat 128 (i + 1), outboxMessageId := 1, webhookSubscriptionId := BitVec.ofNat 128 (i + 1)
      attemptNumber := 1, status := .success, httpStatusCode := some 200, responseBody := none
      errorMessage := none, durationMs := 5, attemptedAt := 50000000, nextRetryAt := none }

/-- They can be saved, as long as the ids go round. -/
theorem popularAttempts_saveable {n : ℕ} (hn : n < 2 ^ 128) :
    Saveable (Deployment.binary .directSql) ⟨fun _ => 0, 0⟩ popularMessages (popularAttempts n)
      Table.empty where
  fresh := by
    have hne : ∀ i < n, BitVec.ofNat 128 (i + 1) ≠ Guid.empty := by
      intro i hi heq
      have hnat := congrArg BitVec.toNat heq
      rw [BitVec.toNat_ofNat, Nat.mod_eq_of_lt (by omega)] at hnat
      cases hnat
    have hids : ((Table.empty : Attempts).rows ++ attemptRows (Deployment.binary .directSql)
        ⟨fun _ => 0, 0⟩ (popularAttempts n)).map (fun x => x.id) = (List.range n).map fun i => BitVec.ofNat 128 (i + 1) := by
      refine List.ext_getElem (by simp [Table.empty, attemptRows, popularAttempts]) fun i _ hi => ?_
      have hlt : i < n := by simpa using hi
      simp [Table.empty, attemptRows, popularAttempts, attemptRow, hne i hlt]
    rw [hids]
    refine List.Nodup.map_on (fun i hi j hj heq => ?_) List.nodup_range
    rw [List.mem_range] at hi hj
    have hnat := congrArg BitVec.toNat heq
    rw [BitVec.toNat_ofNat, BitVec.toNat_ofNat, Nat.mod_eq_of_lt (by omega),
      Nat.mod_eq_of_lt (by omega)] at hnat
    omega
  messages := by
    intro attempt hmem
    obtain ⟨i, -, rfl⟩ := List.mem_map.mp hmem
    rfl

/-- **191 attempts cannot be saved in bulk**, though they can one by one. -/
theorem bulk_save_refused : Saveable (Deployment.binary .directSql) ⟨fun _ => 0, 0⟩ popularMessages
      (popularAttempts 191) Table.empty ∧
    saveAttemptsAsync (Deployment.binary .directSql) ⟨fun _ => 0, 0⟩ popularMessages
      (popularAttempts 191) Table.empty = none ∧
    (∃ stored, saveEachAsync (Deployment.binary .directSql) ⟨fun _ => 0, 0⟩ popularMessages
      (popularAttempts 191).zipIdx Table.empty = some stored) ∧
    ¬ SavesEach (Deployment.binary .directSql) ⟨fun _ => 0, 0⟩ popularMessages (popularAttempts 191)
      Table.empty := by
  have hsaveable := popularAttempts_saveable (n := 191) (by decide)
  have hnone : saveAttemptsAsync (Deployment.binary .directSql) ⟨fun _ => 0, 0⟩ popularMessages
      (popularAttempts 191) Table.empty = none := by
    have hrefused : acceptsInsert (Deployment.binary .directSql) (popularAttempts 191) = false := by
      rw [Bool.eq_false_iff, ne_eq, acceptsInsert_iff rfl]
      simp [popularAttempts]
    rw [saveAttemptsAsync, hrefused, if_neg (fun h => by cases h)]
    rfl
  refine ⟨hsaveable, hnone, ?_, ?_⟩
  · have haccept : ∀ place ∈ (popularAttempts 191).zipIdx,
        acceptsInsert (Deployment.binary .directSql) [place.1] = true := fun place _ =>
      (acceptsInsert_iff rfl).mpr (by simp)
    have hfresh := hsaveable.fresh
    rw [attemptRows_eq] at hfresh
    obtain ⟨stored, hstored, -⟩ := saveEachAsync_some haccept
      (fun place hp => hsaveable.messages place.1 (List.fst_mem_of_mem_zipIdx hp)) hfresh
    exact ⟨stored, hstored⟩
  · rintro ⟨stored, hsave, -⟩
    rw [hnone] at hsave
    cases hsave

theorem popularAttempts_length (n : ℕ) : (popularAttempts n).length = n := by
  rw [popularAttempts, List.length_map, List.length_range]

/-- 190 can be saved in bulk, and 191 are too many. -/
theorem bulk_save_iff_popular :
    SavesEach (Deployment.binary .directSql) ⟨fun _ => 0, 0⟩ popularMessages (popularAttempts 190)
      Table.empty ∧
    ¬ SavesEach (Deployment.binary .directSql) ⟨fun _ => 0, 0⟩ popularMessages (popularAttempts 191)
      Table.empty := by
  constructor
  · refine (bulk_save_iff rfl (popularAttempts_saveable (by decide))).mpr ?_
    rw [popularAttempts_length]
  · intro hsaves
    have hle := (bulk_save_iff rfl (popularAttempts_saveable (by decide))).mp hsaves
    rw [popularAttempts_length] at hle
    omega

end OutboxNet.AttemptStore
