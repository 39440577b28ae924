import OutboxNet.Processor.Host

/-!
# The subscription cache of a batch

`BuildSubscriptionCacheAsync` asks the reader once for each key, for the first message that has it.
Every message of the batch then finds in the cache what the reader returns for the message itself.
-/

set_option autoImplicit false

namespace OutboxNet

namespace SubscriptionCache

variable {cache : SubscriptionCache} {key key' : CacheKey}
variable {subscriptions : List WebhookSubscription}

theorem tryGetValue_set_self (cache : SubscriptionCache) (key : CacheKey)
    (subscriptions : List WebhookSubscription) :
    (cache.set key subscriptions).tryGetValue key = some subscriptions := by
  simp [tryGetValue, set]

theorem tryGetValue_set_of_ne (h : key ≠ key') :
    (cache.set key subscriptions).tryGetValue key' = cache.tryGetValue key' := by
  simp [tryGetValue, set, h]

theorem get_of_tryGetValue (h : cache.tryGetValue key = some subscriptions) :
    cache.get key = .ok subscriptions := by
  simp [get, h]

/-- Every message seen has its key in the cache, and what is cached for a key is an answer of the
reader for each message with that key. -/
structure Serves (dep : Deployment) (reader : SubscriptionReader) (seen : List OutboxMessage)
    (cache : SubscriptionCache) : Prop where
  found : ∀ message ∈ seen, (cache.tryGetValue message.cacheKey).isSome = true
  returns : ∀ message subscriptions,
    cache.tryGetValue message.cacheKey = some subscriptions →
      reader.Returns dep message subscriptions

theorem Serves.nil (dep : Deployment) (reader : SubscriptionReader) : Serves dep reader [] [] where
  found message hmessage := by cases hmessage
  returns message subscriptions h := by cases h

variable {dep : Deployment} {options : OutboxOptions} {reader : SubscriptionReader}
variable {seen : List OutboxMessage} {message : OutboxMessage}

/-- A message whose key is in the cache is served already. -/
theorem Serves.hit (h : Serves dep reader seen cache)
    (hhit : cache.containsKey message.cacheKey = true) :
    Serves dep reader (seen ++ [message]) cache where
  found message' hmessage' := by
    rcases List.mem_append.mp hmessage' with hseen | hnew
    · exact h.found message' hseen
    · rw [List.mem_singleton.mp hnew]
      exact hhit
  returns := h.returns

/-- An answer for a message serves all messages of its key. -/
theorem Serves.miss (h : Serves dep reader seen cache)
    (hreturns : reader.Returns dep message subscriptions) :
    Serves dep reader (seen ++ [message]) (cache.set message.cacheKey subscriptions) where
  found message' hmessage' := by
    by_cases hkey : message.cacheKey = message'.cacheKey
    · rw [← hkey, tryGetValue_set_self]
      rfl
    · rw [tryGetValue_set_of_ne hkey]
      rcases List.mem_append.mp hmessage' with hseen | hnew
      · exact h.found message' hseen
      · exact absurd (congrArg _ (List.mem_singleton.mp hnew)).symm hkey
  returns message' subscriptions' hcached := by
    by_cases hkey : message.cacheKey = message'.cacheKey
    · rw [← hkey, tryGetValue_set_self] at hcached
      obtain rfl := Option.some.inj hcached
      -- the reader sees nothing of a message but its key
      exact hreturns.of_key (congrArg Prod.fst hkey).symm (congrArg Prod.snd hkey).symm
    · rw [tryGetValue_set_of_ne hkey] at hcached
      exact h.returns message' subscriptions' hcached

end SubscriptionCache

namespace Pipeline

open SubscriptionCache

variable {dep : Deployment} {options : OutboxOptions} {reader : SubscriptionReader}
variable {seen : List OutboxMessage} {cache cache' : SubscriptionCache} {x x' : BatchSession}

/-- One step of the loop: either the key of the message is cached, or the reader is asked. -/
theorem cacheMessageAsync_serves {message : OutboxMessage} (h : Serves dep reader seen cache)
    (hexec : Prog.Exec (BatchSession.Exec dep options reader) (cacheMessageAsync cache message).run x
      (.ok cache') x') : Serves dep reader (seen ++ [message]) cache' := by
  unfold cacheMessageAsync at hexec
  split at hexec
  · next hhit =>
      obtain ⟨heq, -⟩ := Prog.exec_ret_iff.mp hexec
      cases heq
      exact h.hit hhit
  · rcases Prog.exec_bindThrowing_iff.mp hexec with ⟨subscriptions, x₁, hask, hrest⟩ | ⟨e, -, he⟩
    · obtain ⟨a, x₂, hcall, hret⟩ := Prog.exec_call_iff.mp hask
      obtain ⟨heq, -⟩ := Prog.exec_ret_iff.mp hret
      obtain ⟨heq', -⟩ := Prog.exec_ret_iff.mp hrest
      cases heq
      cases heq'
      exact h.miss hcall.1.returns
    · cases he

/-- The loop. -/
theorem foldlM_cacheMessageAsync_serves (messages : List OutboxMessage)
    (h : Serves dep reader seen cache)
    (hexec : Prog.Exec (BatchSession.Exec dep options reader)
      (messages.foldlM cacheMessageAsync cache).run x (.ok cache') x') :
    Serves dep reader (seen ++ messages) cache' := by
  induction messages generalizing seen cache x with
  | nil =>
      obtain ⟨heq, -⟩ := Prog.exec_ret_iff.mp hexec
      cases heq
      rw [List.append_nil]
      exact h
  | cons message messages ih =>
      rw [List.foldlM_cons] at hexec
      rcases Prog.exec_bindThrowing_iff.mp hexec with ⟨cache₁, x₁, hstep, hrest⟩ | ⟨e, -, he⟩
      · have hall := ih (cacheMessageAsync_serves h hstep) hrest
        rw [List.append_assoc] at hall
        exact hall
      · cases he

theorem buildSubscriptionCacheAsync_serves {messages : List OutboxMessage}
    (hexec : Prog.Exec (BatchSession.Exec dep options reader)
      (buildSubscriptionCacheAsync messages).run x (.ok cache) x') :
    Serves dep reader messages cache :=
  foldlM_cacheMessageAsync_serves messages (Serves.nil dep reader) hexec

/-- **The cache stands for the reader.** Once the cache of a batch is built, the look-up for any message
of the batch finds subscriptions, and they are, up to the order of the rows, what the reader returns
for that message. -/
theorem subCache_eq_getForMessage {messages : List OutboxMessage}
    (hexec : Prog.Exec (BatchSession.Exec dep options reader)
      (buildSubscriptionCacheAsync messages).run x (.ok cache) x') :
    ∀ message ∈ messages, ∃ subscriptions, cache.get message.cacheKey = .ok subscriptions ∧
      reader.Returns dep message subscriptions ∧
      ∀ returned, reader.Returns dep message returned → subscriptions.Perm returned := by
  intro message hmessage
  have hserves := buildSubscriptionCacheAsync_serves hexec
  obtain ⟨subscriptions, hcached⟩ := Option.isSome_iff_exists.mp (hserves.found message hmessage)
  have hreturns := hserves.returns message subscriptions hcached
  exact ⟨subscriptions, get_of_tryGetValue hcached, hreturns, fun _ h => hreturns.perm h⟩

/-- A reader that does not throw lets the loop run to its end. -/
theorem foldlM_cacheMessageAsync_total (dep : Deployment) (options : OutboxOptions)
    (reader : SubscriptionReader) (messages : List OutboxMessage) (cache : SubscriptionCache)
    (x : BatchSession) : ∃ cache' x', Prog.Exec (BatchSession.Exec dep options reader)
      (messages.foldlM cacheMessageAsync cache).run x (.ok cache') x' := by
  induction messages generalizing cache x with
  | nil => exact ⟨cache, x, .ret _ _⟩
  | cons message messages ih =>
      have hstep : ∃ cache₁ x₁, Prog.Exec (BatchSession.Exec dep options reader)
          (cacheMessageAsync cache message).run x (.ok cache₁) x₁ := by
        unfold cacheMessageAsync
        split
        · exact ⟨cache, x, .ret _ _⟩
        · obtain ⟨subscriptions, hreturns⟩ := reader.exists_returns dep message
          have hask : BatchSession.Exec dep options reader (BatchCall.getForMessage message) x
              (Except.ok subscriptions)
              ⟨x.host, x.log ++ [⟨.getForMessage message, .ok subscriptions⟩]⟩ :=
            ⟨.effect le_rfl (.getForMessage hreturns), rfl⟩
          exact ⟨cache.set message.cacheKey subscriptions, _, .call hask (.ret _ _)⟩
      obtain ⟨cache₁, x₁, hstep⟩ := hstep
      obtain ⟨cache', x', hrest⟩ := ih cache₁ x₁
      refine ⟨cache', x', ?_⟩
      rw [List.foldlM_cons]
      exact Prog.exec_bindThrowing_iff.mpr (.inl ⟨cache₁, x₁, hstep, hrest⟩)

/-- Two subscriptions of one tenant and one of all. -/
def shopSubscriptions : Subscriptions where
  rows := [⟨1, some (text "acme"), text "order.paid", text "https://acme.example/hook", some [], true, 5,
      30 * ticksPerSecond, none⟩,
    ⟨2, some (text "acme"), text "*", text "https://acme.example/all", some [], true, 5,
      30 * ticksPerSecond, none⟩,
    ⟨3, none, text "order.paid", text "https://audit.example/hook", some (text "audit"), true, 5,
      30 * ticksPerSecond, none⟩]
  nodup := by decide

/-- A reader of them, with a retriever that knows the tenant's secret. -/
def shopReader : SubscriptionReader :=
  .database shopSubscriptions
    (some fun key => if key = text "acme" then some (text "s3cret") else none)

/-- A message of the shop, for a tenant or for none. -/
def shopMessage (id : Guid) (tenantId : Option Text) : OutboxMessage :=
  OutboxStore.directRow 0 ⟨id, text "order.paid", [], none, none, none, tenantId, none, none⟩

/-- A batch with two messages of one tenant and one of none. -/
def shopBatch : List OutboxMessage :=
  [shopMessage 10 (some (text "acme")), shopMessage 11 none, shopMessage 12 (some (text "acme"))]

/-- The batch finds its subscriptions. -/
theorem subCache_eq_getForMessage_shop : ∃ cache x',
    Prog.Exec (BatchSession.Exec (Deployment.binary .directSql) { instanceId := text "worker-1" }
        shopReader) (buildSubscriptionCacheAsync shopBatch).run
      ⟨⟨⟨Table.empty, Table.empty, 0⟩, 0⟩, []⟩ (.ok cache) x' ∧
    ∀ message ∈ shopBatch, ∃ subscriptions, cache.get message.cacheKey = .ok subscriptions ∧
      shopReader.Returns (Deployment.binary .directSql) message subscriptions ∧
      ∀ returned, shopReader.Returns (Deployment.binary .directSql) message returned →
        subscriptions.Perm returned := by
  obtain ⟨cache, x', hexec⟩ := foldlM_cacheMessageAsync_total (Deployment.binary .directSql)
    { instanceId := text "worker-1" } shopReader shopBatch [] ⟨⟨⟨Table.empty, Table.empty, 0⟩, 0⟩, []⟩
  exact ⟨cache, x', hexec, subCache_eq_getForMessage hexec⟩

end Pipeline

end OutboxNet
