import Mathlib.Logic.Function.Basic
import OutboxNet.Store.Providers
import OutboxNet.Store.SubscriptionRoundTrip

/-!
# Subscription stores as registries

What an `ISubscriptionStore` is for: it keeps a subscription for each id, `AddAsync` and `UpdateAsync` write
it, `DeactivateAsync` takes it out of use, and the readers answer with what is kept, with the secrets a
retriever has for it.  Both database stores refine such a registry over whole runs of their calls
(`store_refines_registry`).  An EF Core store hands its subscriptions to a context, whose change tracker has
one object for each row and refuses another.

A registry keeps the time-out in whole seconds, and with EF Core five retries for none of an insert.  Where
neither matters, both providers keep the same registry, and so give the same answers (`stores_agree`).
-/

set_option autoImplicit false

namespace OutboxNet

/-- What is kept for each id. -/
abbrev Registry := Guid → Option WebhookSubscription

namespace Registry

open SubscriptionRecords (Write insertedRetries)

/-- What a store keeps of a subscription that is written under an id. -/
def kept (dep : Deployment) (inserts : Bool) (id : Guid) (s : WebhookSubscription) :
    WebhookSubscription :=
  { s with
    id := id
    maxRetries := if inserts then insertedRetries dep s.maxRetries else s.maxRetries
    timeout := dep.castSeconds s.timeout * ticksPerSecond }

/-- What a call does to the registry: an insert writes, an update writes over what is there. -/
def apply (dep : Deployment) (reg : Registry) (w : Write) : Registry :=
  match w.subscription? with
  | some s =>
      if w.inserts dep = true ∨ (reg s.id).isSome = true then
        Function.update reg (w.target dep) (some (kept dep (w.inserts dep) (w.target dep) s))
      else reg
  | none =>
      Function.update reg (w.target dep) ((reg (w.target dep)).map fun s => { s with isActive := false })

/-- The registry after a run of calls. -/
def after (dep : Deployment) (writes : List Write) : Registry :=
  writes.foldl (apply dep) fun _ => none

end Registry

namespace SubscriptionRecords

open OutboxStore (HeaderJson)

variable {dep : Deployment} {json : HeaderJson} {t t' : SubscriptionRecords} {reg : Registry} {w : Write}

/-- What a call writes fits its columns, and its headers come back from their text. -/
def Write.Clean (json : HeaderJson) (w : Write) : Prop :=
  ∀ s, w.subscription? = some s → FitsColumns s ∧
    ∀ headers, s.customHeaders = some headers →
      json.deserialize (json.serialize headers) = some headers

/-- The table holds the registry. -/
def Refines (json : HeaderJson) (t : SubscriptionRecords) (reg : Registry) : Prop :=
  ∀ id, getByIdAsync json id t = some (reg id)

/-- A subscription that is written is read as what the registry keeps. -/
theorem readBack_eq {s : WebhookSubscription} {secret : Text} (hsecret : s.secret = some secret)
    (hfits : FitsColumns s) :
    w.readBack dep json s secret = Registry.kept dep (w.inserts dep) (w.target dep) s := by
  obtain ⟨id, tenantId, eventType, webhookUrl, secret', isActive, maxRetries, timeout, headers⟩ := s
  obtain rfl : secret' = some secret := hsecret
  obtain ⟨htenant, heventType, hurl, hfit⟩ := hfits
  have htenant' : tenantId.map (parameter dep 256) = tenantId := map_parameter_eq htenant
  have hsecret' : parameter dep 512 secret = secret := parameter_eq (hfit secret rfl)
  have heventType' : parameter dep 256 eventType = eventType := parameter_eq heventType
  have hurl' : parameter dep 2048 webhookUrl = webhookUrl := parameter_eq hurl
  simp only [Write.readBack, Write.written, SubscriptionRecord.columns, record, Registry.kept,
    htenant', hsecret', heventType', hurl']

theorem getByIdAsync_congr {id : Guid} (h : t'.find? id = t.find? id) :
    getByIdAsync json id t' = getByIdAsync json id t := by
  rw [getByIdAsync, getByIdAsync, h]

/-- What is at an id that is not found, and at one that is. -/
theorem Refines.of_find?_none (h : Refines json t reg) {id : Guid} (hr : t.find? id = none) :
    reg id = none := by
  have hread := h id
  rw [getByIdAsync, hr] at hread
  exact (Option.some.inj hread).symm

theorem Refines.of_find? (h : Refines json t reg) {id : Guid} {r : SubscriptionRecord}
    (hr : t.find? id = some r) : ∃ s, reg id = some s ∧ r.mapSubscriptionFromReader json = some s := by
  have hread := h id
  rw [getByIdAsync, hr] at hread
  obtain ⟨s, hs, hsome⟩ := Option.map_eq_some_iff.mp hread
  exact ⟨s, hsome.symm, hs⟩

theorem Refines.isSome (h : Refines json t reg) (id : Guid) :
    (reg id).isSome = (t.find? id).isSome := by
  cases hr : t.find? id with
  | none =>
      rw [h.of_find?_none hr]
      rfl
  | some r =>
      obtain ⟨s, hs, -⟩ := h.of_find? hr
      rw [hs]
      rfl

theorem Write.target_of_not_inserts {s : WebhookSubscription} (hw : w.subscription? = some s)
    (hno : w.inserts dep = false) : w.target dep = s.id := by
  cases w with
  | add => cases hno
  | update s' newId =>
      cases hw
      simp only [Write.target, hno, Bool.false_eq_true, if_false]
  | deactivate => cases hw

/-- A record and its subscription, deactivated. -/
theorem mapSubscriptionFromReader_deactivated (r : SubscriptionRecord) :
    ({ r with isActive := false } : SubscriptionRecord).mapSubscriptionFromReader json =
      (r.mapSubscriptionFromReader json).map fun s => { s with isActive := false } := by
  unfold SubscriptionRecord.mapSubscriptionFromReader
  cases r.customHeaders with
  | none => rfl
  | some headersJson =>
      simp only [Option.map_map]
      rfl

/-- The id a call is for, after it. -/
theorem Refines.step_target (h : Refines json t reg) (hs : Step dep json t w t') (hclean : w.Clean json) :
    getByIdAsync json (w.target dep) t' = some (Registry.apply dep reg w (w.target dep)) := by
  cases hw : w.subscription? with
  | some s =>
      obtain ⟨secret, hsecret, hfind⟩ := hs.find?_target hw
      obtain ⟨hfits, hjson⟩ := hclean s hw
      rw [Registry.apply, hw, getByIdAsync, hfind]
      simp only [h.isSome]
      by_cases hwritten : w.inserts dep = true ∨ (t.find? s.id).isSome = true
      · rw [if_pos hwritten, if_pos hwritten, Function.update_self]
        simp only [mapSubscriptionFromReader_written hjson, readBack_eq hsecret hfits, Option.map_some]
      · -- an update that finds no row
        obtain ⟨hno, hnone⟩ := not_or.mp hwritten
        rw [if_neg hwritten, if_neg hwritten,
          Write.target_of_not_inserts hw (Bool.eq_false_of_not_eq_true hno)]
        rw [Bool.not_eq_true, Option.isSome_eq_false_iff, Option.isNone_iff_eq_none] at hnone
        rw [h.of_find?_none hnone]
  | none =>
      cases w with
      | deactivate id =>
          cases hs
          have happly : Registry.apply dep reg (.deactivate id) id =
              (reg id).map fun s => { s with isActive := false } := Function.update_self id _ reg
          show getByIdAsync json id (deactivateAsync id t) = some (Registry.apply dep reg _ id)
          rw [happly, getByIdAsync, deactivateAsync, Table.find?_update]
          cases hr : t.find? id with
          | none =>
              rw [h.of_find?_none hr]
              rfl
          | some r =>
              obtain ⟨s, hreg, hmap⟩ := h.of_find? hr
              have hid : decide (r.id = id) = true := decide_eq_true (Table.find?_key hr)
              simp only [Option.map_some, hid, if_true, hreg, mapSubscriptionFromReader_deactivated, hmap]
      | _ => cases hw

/-- **The step lemma of the refinement.** -/
theorem Refines.step (h : Refines json t reg) (hs : Step dep json t w t') (hclean : w.Clean json) :
    Refines json t' (Registry.apply dep reg w) := by
  intro id
  by_cases hid : w.target dep = id
  · subst hid
    exact h.step_target hs hclean
  · have hsame : Registry.apply dep reg w id = reg id := by
      unfold Registry.apply
      cases w.subscription? with
      | none => exact Function.update_of_ne (Ne.symm hid) _ _
      | some s =>
          by_cases hwritten : w.inserts dep = true ∨ (reg s.id).isSome = true
          · simp only [if_pos hwritten]
            exact Function.update_of_ne (Ne.symm hid) _ _
          · simp only [if_neg hwritten]
    rw [getByIdAsync_congr (hs.find?_other hid), h id, hsame]

theorem refines_empty : Refines json Table.empty fun _ => none := fun _ => rfl

/-- The table holds the registry after every run. -/
theorem refines_run {writes : List Write} (hrun : Steps (Step dep json) Table.empty writes t)
    (hclean : ∀ w ∈ writes, w.Clean json) : Refines json t (Registry.after dep writes) := by
  have hinv := hrun.invariant_history
    (fun writes t => (∀ w ∈ writes, w.Clean json) → Refines json t (Registry.after dep writes)) ?_
    fun _ => refines_empty
  · exact hinv hclean
  · intro writes t w t' ih hs hclean
    rw [Registry.after, List.foldl_append]
    have hbefore := ih fun w' hw' => hclean w' (List.mem_append_left _ hw')
    exact hbefore.step hs (hclean w (List.mem_append_right _ List.mem_cons_self))

/-! ## The readers -/

/-- Whether `GetByEventTypeAsync` of the deployment's provider selects a row. -/
def selectsEventType (dep : Deployment) (eventType : Text) (s : WebhookSubscription) : Bool :=
  s.isActive && (dep.sameText s.eventType (SubscriptionStore.parameter dep eventType) ||
    dep.sameText s.eventType SubscriptionStore.wildcard)

/-- `GetByEventTypeAsync`, when the server returns the rows in the order `rows`. -/
def getByEventTypeAsync (dep : Deployment) (json : HeaderJson) (rows : List SubscriptionRecord)
    (eventType : Text) : Option (List WebhookSubscription) :=
  (rows.filter fun r => selectsEventType dep eventType r.columns).mapM
    fun r => r.mapSubscriptionFromReader json

/-- An answer has the subscriptions of the registry that satisfy `p`, each once. -/
structure Answers (reg : Registry) (p : WebhookSubscription → Bool)
    (answer : List WebhookSubscription) : Prop where
  nodup : (answer.map (·.id)).Nodup
  mem_iff : ∀ s, s ∈ answer ↔ reg s.id = some s ∧ p s = true

/-- Two answers to one question have the same subscriptions. -/
theorem Answers.perm {p p' : WebhookSubscription → Bool} {answer answer' : List WebhookSubscription}
    (h : Answers reg p answer) (h' : Answers reg p' answer') (hp : ∀ s, p s = p' s) :
    answer.Perm answer' := by
  rw [List.perm_ext_iff_of_nodup (List.Nodup.of_map _ h.nodup) (List.Nodup.of_map _ h'.nodup)]
  intro s
  rw [h.mem_iff, h'.mem_iff, hp]

/-- A list of computations that all return. -/
theorem mapM_eq_map {α β : Type} {f : α → Option β} {g : α → β} {l : List α}
    (h : ∀ a ∈ l, f a = some (g a)) : l.mapM f = some (l.map g) := by
  induction l with
  | nil => rfl
  | cons a l ih =>
      rw [List.mapM_cons, h a List.mem_cons_self, ih fun b hb => h b (List.mem_cons_of_mem a hb)]
      rfl

/-- **A statement over the rows asks the registry**, if it looks at the columns only. -/
theorem Refines.select (h : Refines json t reg) {rows : List SubscriptionRecord}
    (hrows : rows.Perm t.rows) (p : WebhookSubscription → Bool)
    (hp : ∀ s headers, p { s with customHeaders := headers } = p s) :
    ∃ answer, (rows.filter fun r => p r.columns).mapM (fun r => r.mapSubscriptionFromReader json) =
      some answer ∧ Answers reg p answer := by
  -- every record of the table is read as what the registry has
  have hread : ∀ r ∈ rows, ∃ s, reg r.id = some s ∧ r.mapSubscriptionFromReader json = some s := by
    intro r hr
    exact h.of_find? (Table.find?_eq_some_iff.mpr ⟨hrows.mem_iff.mp hr, rfl⟩)
  have hcolumns : ∀ {r : SubscriptionRecord} {s}, r.mapSubscriptionFromReader json = some s → s.id = r.id ∧ p r.columns = p s := by
    intro r s hs
    rw [mapSubscriptionFromReader_columns hs]
    exact ⟨rfl, (hp _ _).symm⟩
  have hvalue : ∀ r ∈ rows, r.mapSubscriptionFromReader json = some ((reg r.id).getD r.columns) := by
    intro r hr
    obtain ⟨s, hreg, hs⟩ := hread r hr
    rw [hs, hreg, Option.getD_some]
  refine ⟨_, mapM_eq_map fun r hr => hvalue r (List.mem_of_mem_filter hr), ?_, fun s => ?_⟩
  · -- the ids of the answer are keys of the table
    have hids : ((rows.filter fun r => p r.columns).map fun r => (reg r.id).getD r.columns).map (·.id) =
        (rows.filter fun r => p r.columns).map (·.id) := by
      rw [List.map_map]
      refine List.map_congr_left fun r hr => ?_
      exact (hcolumns (hvalue r (List.mem_of_mem_filter hr))).1
    rw [hids]
    exact ((hrows.map _).nodup_iff.mpr t.nodup).sublist (List.filter_sublist.map _)
  · rw [List.mem_map]
    constructor
    · rintro ⟨r, hr, rfl⟩
      obtain ⟨hr, hsel⟩ := List.mem_filter.mp hr
      obtain ⟨s, hreg, hs⟩ := hread r hr
      obtain ⟨hid, hps⟩ := hcolumns hs
      rw [hreg, Option.getD_some, hid]
      exact ⟨hreg, hps ▸ hsel⟩
    · rintro ⟨hreg, hps⟩
      have hfind : (t.find? s.id).isSome = true := by
        rw [← h.isSome, hreg]
        rfl
      obtain ⟨r, hr⟩ := Option.isSome_iff_exists.mp hfind
      have hid := Table.find?_key hr
      have hmem := hrows.mem_iff.mpr (Table.find?_mem hr)
      obtain ⟨s', hreg', hs'⟩ := hread r hmem
      have heq : s' = s := Option.some.inj (hreg'.symm.trans ((congrArg reg hid).trans hreg))
      subst heq
      refine ⟨r, List.mem_filter.mpr ⟨hmem, (hcolumns hs').2.trans hps⟩, ?_⟩
      rw [hreg', Option.getD_some]

/-! ## Change trackers -/

/-- An entity in a change tracker: the object of the application that stands for a row. -/
structure TrackedEntity where
  context : ℕ
  object : ℕ
  id : Guid
deriving DecidableEq, Repr

/-- What a context knows its entities by. -/
def TrackedEntity.key (e : TrackedEntity) : ℕ × Guid := (e.context, e.id)

/-- The change trackers of all contexts: in each of them one object stands for a row. -/
abbrev ChangeTracker := Table TrackedEntity.key

/-- An object is handed to a context.  The key of one that is tracked cannot be modified, unless it is to be
added; and an object is refused when another one stands for its row. -/
def attach? (inserts : Bool) (e : TrackedEntity) (tracker : ChangeTracker) : Option ChangeTracker :=
  let tracked := fun e' : TrackedEntity => decide (e'.context = e.context ∧ e'.object = e.object)
  if tracker.rows.any fun e' => tracked e' && e'.id ≠ e.id && !inserts then none
  else (tracker.delete tracked).insertAll? [e]

/-- **A context takes no second object for a row.** -/
theorem attach?_of_other {inserts : Bool} {tracker : ChangeTracker} {e e' : TrackedEntity}
    (he' : e' ∈ tracker.rows) (hkey : e'.key = e.key) (hobject : e'.object ≠ e.object) :
    attach? inserts e tracker = none := by
  simp only [attach?]
  split
  · rfl
  · rw [← Option.not_isSome_iff_eq_none, Table.insertAll?_isSome]
    rintro ⟨-, hnew⟩
    -- it is not the object's own entity that is in the way
    refine hnew e List.mem_cons_self e' (Table.mem_delete.mpr ⟨he', ?_⟩) hkey
    simp [hobject]

/-- The table, and what the contexts over it track.  The objects are as they were when they were saved. -/
structure Contexts where
  table : SubscriptionRecords
  tracker : ChangeTracker

/-- Before the first call. -/
def Contexts.start : Contexts := ⟨Table.empty, Table.empty⟩

/-- A call of a store: its `OutboxDbContext`, the object that is handed over, and what it holds. -/
structure ContextCall where
  context : ℕ
  object : ℕ
  write : Write

/-- The entity a call attaches to the context.  `DeactivateAsync` is a statement that goes past the change
tracker, and the direct provider has none. -/
def ContextCall.entity? (dep : Deployment) (c : ContextCall) : Option TrackedEntity :=
  match dep.provider, c.write.subscription? with
  | .efCore, some _ => some ⟨c.context, c.object, c.write.target dep⟩
  | _, _ => none

/-- A call of a store, if it is not refused. -/
def ContextCall.run (dep : Deployment) (json : HeaderJson) (s : Contexts) (c : ContextCall) :
    Option Contexts :=
  match c.entity? dep with
  | none => (c.write.run dep json s.table).map fun t => { s with table := t }
  | some e =>
      (attach? (c.write.inserts dep) e s.tracker).bind fun tracker =>
        (c.write.run dep json s.table).map fun t => ⟨t, tracker⟩

/-- A call that goes through. -/
def ContextCall.Step (dep : Deployment) (json : HeaderJson) (s : Contexts) (c : ContextCall)
    (s' : Contexts) : Prop :=
  c.run dep json s = some s'

/-- **What goes through the change tracker goes through to the table.** -/
theorem ContextCall.Step.write {s s' : Contexts} {c : ContextCall} (h : ContextCall.Step dep json s c s') :
    SubscriptionRecords.Step dep json s.table c.write s'.table := by
  unfold ContextCall.Step ContextCall.run at h
  split at h
  · obtain ⟨t, ht, rfl⟩ := Option.map_eq_some_iff.mp h
    exact ht
  · obtain ⟨tracker, -, hrun⟩ := Option.bind_eq_some_iff.mp h
    obtain ⟨t, ht, rfl⟩ := Option.map_eq_some_iff.mp hrun
    exact ht

/-- The writes of a run. -/
theorem writes_run {s s' : Contexts} {calls : List ContextCall}
    (hrun : Steps (ContextCall.Step dep json) s calls s') :
    Steps (Step dep json) s.table (calls.map (·.write)) s'.table :=
  hrun.map (·.table) (·.write) fun _ _ _ h => h.write

/-- **A database store is a registry.** Take any run of `AddAsync`, `UpdateAsync` and `DeactivateAsync`, over
any contexts, none of which is refused, with subscriptions that fit their columns and whose headers come back
from their text.  `GetByIdAsync` returns what the registry keeps; `GetForMessageAsync` and
`GetByEventTypeAsync` return the subscriptions of the registry that their condition selects, each once, in
whatever order the rows come, the first with the secrets the retriever has for them. -/
theorem store_refines_registry {calls : List ContextCall} {s : Contexts}
    (hrun : Steps (ContextCall.Step dep json) Contexts.start calls s)
    (hclean : ∀ c ∈ calls, c.write.Clean json) :
    (∀ id, getByIdAsync json id s.table = some (Registry.after dep (calls.map (·.write)) id)) ∧
    ∀ rows : List SubscriptionRecord, rows.Perm s.table.rows →
      (∀ (secretRetriever : Option SubscriptionStore.SecretRetriever) (message : OutboxMessage),
        ∃ kept, getForMessageAsync dep json secretRetriever rows message =
            some (SubscriptionStore.enrichSecretsAsync secretRetriever kept) ∧
          Answers (Registry.after dep (calls.map (·.write))) (SubscriptionStore.selects dep message) kept) ∧
      ∀ eventType, ∃ answer, getByEventTypeAsync dep json rows eventType = some answer ∧
        Answers (Registry.after dep (calls.map (·.write))) (selectsEventType dep eventType) answer := by
  have h := refines_run (writes_run hrun) (List.forall_mem_map.mpr hclean)
  refine ⟨h, fun rows hrows => ⟨fun secretRetriever message => ?_, fun eventType => ?_⟩⟩
  · obtain ⟨kept, hkept, hanswers⟩ := h.select hrows (SubscriptionStore.selects dep message)
      fun s headers => selects_congr rfl rfl rfl
    refine ⟨kept, ?_, hanswers⟩
    rw [getForMessageAsync, hkept]
    rfl
  · exact h.select hrows _ fun s headers => rfl

/-! ## An endpoint in use -/

/-- In one context an endpoint is added and gets fewer retries; in another one it is read, changed back, and
taken out of use. -/
def endpointCalls : List ContextCall :=
  [⟨1, 1, .add (orderEndpoint 5 300000000) 9⟩, ⟨1, 1, .update (orderEndpoint 3 300000000) 9⟩,
    ⟨2, 2, .update (orderEndpoint 4 300000000) 9⟩, ⟨2, 2, .deactivate 7⟩]

theorem endpointCalls_run (provider : Provider) : ∃ s,
    Steps (ContextCall.Step (Deployment.binary provider) OutboxStore.oneHeader) Contexts.start
      endpointCalls s := by
  cases provider <;> exact ⟨_, .cons rfl (.cons rfl (.cons rfl (.cons rfl (.nil _))))⟩

/-- The first context does not take the second object. -/
example {s : Contexts} : ¬ Steps (ContextCall.Step (Deployment.binary .efCore) OutboxStore.oneHeader)
    Contexts.start [⟨1, 1, .add (orderEndpoint 5 300000000) 9⟩,
      ⟨1, 2, .update (orderEndpoint 4 300000000) 9⟩] s := by
  rintro (_ | ⟨hadd, _ | ⟨hupdate, -⟩⟩)
  cases hadd
  cases hupdate

theorem endpointCalls_clean : ∀ c ∈ endpointCalls, c.write.Clean OutboxStore.oneHeader := by
  have hclean : ∀ maxRetries (w : Write), w.subscription? = some (orderEndpoint maxRetries 300000000) →
      w.Clean OutboxStore.oneHeader := by
    intro maxRetries w hw s hs
    obtain rfl := Option.some.inj (hw.symm.trans hs)
    exact ⟨orderEndpoint_fits _ _, orderEndpoint_json _ _⟩
  simp only [endpointCalls, List.forall_mem_cons]
  exact ⟨hclean 5 _ rfl, hclean 3 _ rfl, hclean 4 _ rfl, (fun s hs => by cases hs), List.forall_mem_nil _⟩

/-- It is kept with its time-out, and no message is sent to it. -/
theorem store_refines_registry_endpoint : ∃ s : Contexts,
    Steps (ContextCall.Step (Deployment.binary .efCore) OutboxStore.oneHeader) Contexts.start endpointCalls s ∧
    getByIdAsync OutboxStore.oneHeader 7 s.table =
      some (some { orderEndpoint 4 300000000 with isActive := false }) := by
  obtain ⟨s, hrun⟩ := endpointCalls_run .efCore
  have hread := (store_refines_registry hrun endpointCalls_clean).1 7
  exact ⟨s, hrun, hread.trans (congrArg some (by decide))⟩

/-! ## Two providers -/

/-- A call for which the registries of both providers are the same: the subscription has an id, and is not
inserted without retries. -/
def Write.Shared : Write → Prop
  | .add s _ => s.maxRetries ≠ 0
  | .update s _ => s.id ≠ .empty
  | .deactivate _ => True

variable {direct ef : Deployment}

/-- A string that fits its column is sent as it is. -/
theorem sent_eq (dep : Deployment) {a : Text} (h : a.length ≤ 256) :
    SubscriptionStore.parameter dep a = a := by
  show parameter dep 256 a = a
  exact parameter_eq h

/-- The conditions of both providers select alike for what fits the columns. -/
theorem selectsEventType_shared (hpaired : OutboxStore.Paired direct ef) {eventType : Text}
    (hevent : eventType.length ≤ 256) (s : WebhookSubscription) :
    selectsEventType direct eventType s = selectsEventType ef eventType s := by
  have hsame : ∀ a b, direct.sameText a b = ef.sameText a b := by
    intro a b
    rw [Deployment.sameText, Deployment.sameText, hpaired.collation]
  rw [selectsEventType, selectsEventType, sent_eq direct hevent, sent_eq ef hevent, hsame, hsame]

theorem selects_shared (hpaired : OutboxStore.Paired direct ef) {message : OutboxMessage}
    (hevent : message.eventType.length ≤ 256)
    (htenant : ∀ tenantId, message.tenantId = some tenantId → tenantId.length ≤ 256)
    (s : WebhookSubscription) :
    SubscriptionStore.selects direct message s = SubscriptionStore.selects ef message s := by
  have hkey : ∀ a b, direct.sameKey a b = ef.sameKey a b := by
    intro a b
    cases a <;> cases b <;> simp only [Deployment.sameKey, Deployment.sameText, hpaired.collation]
  have hsent : ∀ dep, message.tenantId.map (SubscriptionStore.parameter dep) = message.tenantId := by
    intro dep
    cases hm : message.tenantId with
    | none => rfl
    | some tenantId => rw [Option.map_some, sent_eq dep (htenant tenantId hm)]
  have htype := selectsEventType_shared hpaired hevent s
  rw [SubscriptionStore.selects_eq, SubscriptionStore.selects_eq, hsent, hsent, hkey]
  exact congrArg (· && _) htype

theorem apply_shared (hpaired : OutboxStore.Paired direct ef) (hshared : w.Shared) (reg : Registry) :
    Registry.apply direct reg w = Registry.apply ef reg w := by
  obtain ⟨hdirect, hef, -, hcast⟩ := hpaired
  cases w with
  | add s newId =>
      have hkept : ∀ id, Registry.kept direct true id s = Registry.kept ef true id s := by
        intro id
        have hretries : ∀ dep : Deployment, insertedRetries dep s.maxRetries = s.maxRetries :=
          fun dep => insertedRetries_eq_iff.mpr fun _ => hshared
        simp only [Registry.kept, hretries, hcast]
      exact congrArg (fun s' => Function.update reg (givenId s newId) (some s')) (hkept _)
  | update s newId =>
      -- neither inserts
      have hno : ∀ dep : Deployment, (Write.update s newId).inserts dep = false := by
        intro dep
        have hid : s.id ≠ .empty := hshared
        simp [Write.inserts, hid]
      simp only [Registry.apply, Write.subscription?, Write.target, hno, Registry.kept, hcast,
        Bool.false_eq_true, if_false]
  | deactivate => rfl

/-- The registries of both providers after calls that are the same to them. -/
theorem after_shared (hpaired : OutboxStore.Paired direct ef) {writes : List Write}
    (hshared : ∀ w ∈ writes, w.Shared) : Registry.after direct writes = Registry.after ef writes := by
  unfold Registry.after
  generalize (fun _ => none : Registry) = reg
  induction writes generalizing reg with
  | nil => rfl
  | cons w writes ih =>
      rw [List.foldl_cons, List.foldl_cons, apply_shared hpaired (hshared w List.mem_cons_self)]
      exact ih (fun w' hw' => hshared w' (List.mem_cons_of_mem w hw')) _

/-- **The providers keep the same subscriptions.** Take a run of calls with each provider, the same calls,
none of which is refused and all of which are the same to both.  Each reader of the one provider answers as
that of the other: with the same subscription by an id, and with the same subscriptions, in some order, for
every message and every event type that fit the columns, with the same retriever. -/
theorem stores_agree (hpaired : OutboxStore.Paired direct ef) {calls : List ContextCall} {s s' : Contexts}
    (hrun : Steps (ContextCall.Step direct json) Contexts.start calls s)
    (hrun' : Steps (ContextCall.Step ef json) Contexts.start calls s')
    (hclean : ∀ c ∈ calls, c.write.Clean json) (hshared : ∀ c ∈ calls, c.write.Shared) :
    (∀ id, getByIdAsync json id s.table = getByIdAsync json id s'.table) ∧
    ∀ rows rows' : List SubscriptionRecord, rows.Perm s.table.rows → rows'.Perm s'.table.rows →
      (∀ (secretRetriever : Option SubscriptionStore.SecretRetriever) (message : OutboxMessage),
        message.eventType.length ≤ 256 →
        (∀ tenantId, message.tenantId = some tenantId → tenantId.length ≤ 256) →
        ∃ answer answer', getForMessageAsync direct json secretRetriever rows message = some answer ∧
          getForMessageAsync ef json secretRetriever rows' message = some answer' ∧
          answer.Perm answer') ∧
      ∀ eventType : Text, eventType.length ≤ 256 →
        ∃ answer answer', getByEventTypeAsync direct json rows eventType = some answer ∧
          getByEventTypeAsync ef json rows' eventType = some answer' ∧ answer.Perm answer' := by
  have hcleanWrites := List.forall_mem_map.mpr hclean
  have h := refines_run (writes_run hrun) hcleanWrites
  have h' := refines_run (writes_run hrun') hcleanWrites
  rw [← after_shared hpaired (List.forall_mem_map.mpr hshared)] at h'
  refine ⟨fun id => by rw [h id, h' id], fun rows rows' hrows hrows' => ⟨?_, ?_⟩⟩
  · intro secretRetriever message hevent htenant
    obtain ⟨kept, hkept, hspec⟩ := h.select hrows (SubscriptionStore.selects direct message)
      fun s headers => selects_congr rfl rfl rfl
    obtain ⟨kept', hkept', hspec'⟩ := h'.select hrows' (SubscriptionStore.selects ef message)
      fun s headers => selects_congr rfl rfl rfl
    have hperm : kept.Perm kept' := hspec.perm hspec' (selects_shared hpaired hevent htenant)
    refine ⟨_, _, ?_, ?_, SubscriptionStore.enrichSecretsAsync_perm secretRetriever hperm⟩
    · rw [getForMessageAsync, hkept]
      rfl
    · rw [getForMessageAsync, hkept']
      rfl
  · intro eventType hevent
    obtain ⟨answer, hanswer, hspec⟩ := h.select hrows (selectsEventType direct eventType)
      fun s headers => rfl
    obtain ⟨answer', hanswer', hspec'⟩ := h'.select hrows' (selectsEventType ef eventType)
      fun s headers => rfl
    exact ⟨answer, answer', hanswer, hanswer',
      hspec.perm hspec' (selectsEventType_shared hpaired hevent)⟩

/-- Both providers have the same to say of the endpoint. -/
theorem stores_agree_endpoint : ∃ s s' : Contexts,
    Steps (ContextCall.Step (Deployment.binary .directSql) OutboxStore.oneHeader) Contexts.start
      endpointCalls s ∧
    Steps (ContextCall.Step (Deployment.binary .efCore) OutboxStore.oneHeader) Contexts.start
      endpointCalls s' ∧
    getByIdAsync OutboxStore.oneHeader 7 s.table = getByIdAsync OutboxStore.oneHeader 7 s'.table := by
  obtain ⟨s, hrun⟩ := endpointCalls_run .directSql
  obtain ⟨s', hrun'⟩ := endpointCalls_run .efCore
  have hshared : ∀ c ∈ endpointCalls, c.write.Shared := by
    have hid : (7 : Guid) ≠ .empty := by decide
    simp only [endpointCalls, List.forall_mem_cons]
    exact ⟨(by decide : (5 : ℤ) ≠ 0), hid, hid, trivial, List.forall_mem_nil _⟩
  have hpaired : OutboxStore.Paired (Deployment.binary .directSql) (Deployment.binary .efCore) :=
    ⟨rfl, rfl, rfl, rfl⟩
  exact ⟨s, s', hrun, hrun', (stores_agree hpaired hrun hrun' endpointCalls_clean hshared).1 7⟩

end SubscriptionRecords

end OutboxNet
