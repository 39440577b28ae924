import OutboxNet.Delivery.Signature
import OutboxNet.Lib.Protocol

/-!
# Deliveries over HTTP

`HttpWebhookDeliverer.DeliverAsync` as a program over what it calls: the constructor of the request,
its headers, the timer of the request, `HttpClient`, the body of the response, the clock and the
caller's token.  Every one of these that may throw is answered with a value or with any exception.  Log
lines, activities and metrics are left out.

The signature is computed before the `try` block.  The body is read within it, after the status is
known.
-/

set_option autoImplicit false

namespace OutboxNet

open SubscriptionStore (guidToString)

/-! ## Requests -/

/-- A `POST` request as it is sent. -/
structure HttpRequestMessage where
  url : Text
  content : List Byte
  contentType : Text
  headers : List (Text × Text)
deriving DecidableEq, Repr

inductive HttpCall : Type
  | newGuid
  | utcNow
  | newRequest (url : Text)
  | addHeader (name value : Text)
  | tryAddHeader (name value : Text)
  | cancelAfter (timeout : TimeSpan)
  | send (request : HttpRequestMessage)
  | readAsString
  | elapsedMilliseconds
  | isCancellationRequested
deriving DecidableEq, Repr

/-- The answer to a call.  A response is its status; its body is read by a call of its own. -/
def HttpCall.Ans : HttpCall → Type
  | .newGuid => Guid
  | .utcNow => DateTimeOffset
  | .newRequest _ => Except Exn Unit
  | .addHeader _ _ => Except Exn Unit
  | .tryAddHeader _ _ => Bool
  | .cancelAfter _ => Except Exn Unit
  | .send _ => Except Exn ℤ
  | .readAsString => Except Exn Text
  | .elapsedMilliseconds => ℤ
  | .isCancellationRequested => Bool

/-- A call with its answer. -/
structure HttpEntry where
  call : HttpCall
  answer : call.Ans

/-- A method of the deliverer. -/
abbrev HttpAsync (α : Type) := ExceptT Exn (Prog HttpCall HttpCall.Ans) α

namespace HttpAsync

/-- A call that does not throw. -/
def get (c : HttpCall) : HttpAsync c.Ans := ExceptT.lift (Prog.perform c)

def newRequest (url : Text) : HttpAsync Unit := ExceptT.mk (Prog.perform (HttpCall.newRequest url))

def addHeader (name value : Text) : HttpAsync Unit :=
  ExceptT.mk (Prog.perform (HttpCall.addHeader name value))

def cancelAfter (timeout : TimeSpan) : HttpAsync Unit :=
  ExceptT.mk (Prog.perform (HttpCall.cancelAfter timeout))

def send (request : HttpRequestMessage) : HttpAsync ℤ :=
  ExceptT.mk (Prog.perform (HttpCall.send request))

def readAsString : HttpAsync Text := ExceptT.mk (Prog.perform HttpCall.readAsString)

end HttpAsync

/-- The ticks of 1970-01-01. -/
def unixEpochTicks : ℤ := 621355968000000000

/-- `ToUnixTimeSeconds().ToString()`. -/
def unixTimeSeconds (t : DateTimeOffset) : Text :=
  text (toString ((t - unixEpochTicks) / ticksPerSecond))

namespace HttpWebhookDeliverer

/-- The headers that are added with validation, in their order. -/
def outboxHeaders (message : OutboxMessage) (subscription : WebhookSubscription) (deliveryId : Guid)
    (timestamp signature : Text) : List (Text × Text) :=
  [(text "X-Outbox-Signature", signature), (text "X-Outbox-Event", message.eventType),
    (text "X-Outbox-Message-Id", guidToString message.id),
    (text "X-Outbox-Delivery-Id", guidToString deliveryId),
    (text "X-Outbox-Subscription-Id", guidToString subscription.id),
    (text "X-Outbox-Timestamp", timestamp)] ++
  message.correlationId.toList.map fun correlationId =>
    (text "X-Outbox-Correlation-Id", correlationId)

/-- Adds headers with validation. -/
def addHeaders : List (Text × Text) → HttpAsync Unit
  | [] => return ()
  | (name, value) :: headers => do
      HttpAsync.addHeader name value
      addHeaders headers

/-- Adds headers without validation; those that are no headers at all are dropped. -/
def tryAddHeaders : List (Text × Text) → HttpAsync (List (Text × Text))
  | [] => return []
  | (name, value) :: headers => do
      let added : Bool ← HttpAsync.get (.tryAddHeader name value)
      let rest ← tryAddHeaders headers
      return if added then (name, value) :: rest else rest

/-- The length a response body is cut to. -/
def maxResponseBody : ℕ := 4000

/-- `HttpResponseMessage.IsSuccessStatusCode`. -/
def isSuccessStatusCode (statusCode : ℤ) : Bool := 200 ≤ statusCode && statusCode ≤ 299

/-- The `try` block of `DeliverAsync`. -/
def tryDeliver (message : OutboxMessage) (subscription : WebhookSubscription) (deliveryId : Guid)
    (timestamp signature : Text) : HttpAsync DeliveryResult := do
  HttpAsync.newRequest subscription.webhookUrl
  let headers := outboxHeaders message subscription deliveryId timestamp signature
  addHeaders headers
  let custom ← tryAddHeaders (subscription.customHeaders.getD [])
  HttpAsync.cancelAfter subscription.timeout
  let statusCode ← HttpAsync.send
    ⟨subscription.webhookUrl, stringContent message.payload, text "application/json",
      headers ++ custom⟩
  let body ← HttpAsync.readAsString
  let responseBody := if body.length > maxResponseBody then body.take maxResponseBody else body
  let success := isSuccessStatusCode statusCode
  let durationMs : ℤ ← HttpAsync.get .elapsedMilliseconds
  return ⟨success, some statusCode, some responseBody,
    if success then none else some (text ("HTTP " ++ toString statusCode)), durationMs⟩

/-- `deliveryId ?? Guid.NewGuid()`. -/
def resolveDeliveryId : Option Guid → HttpAsync Guid
  | some deliveryId => return deliveryId
  | none => HttpAsync.get .newGuid

/-- The `catch` clauses of `DeliverAsync`. -/
def catchFailure (ex : Exn) : HttpAsync DeliveryResult := do
  if ex.isCanceled then
    -- a cancellation is a timeout unless it is the caller's
    let canceled : Bool ← HttpAsync.get .isCancellationRequested
    if canceled then
      throw ex
    let durationMs : ℤ ← HttpAsync.get .elapsedMilliseconds
    return ⟨false, none, none, some (text "Request timed out"), durationMs⟩
  else
    let durationMs : ℤ ← HttpAsync.get .elapsedMilliseconds
    return ⟨false, none, none, some ex.message, durationMs⟩

/-- `DeliverAsync`. -/
def deliverAsync (hmac : HmacSha256) (culture : InvariantCulture) (message : OutboxMessage)
    (subscription : WebhookSubscription) (deliveryId : Option Guid) : HttpAsync DeliveryResult := do
  let resolvedDeliveryId ← resolveDeliveryId deliveryId
  let utcNow : DateTimeOffset ← HttpAsync.get .utcNow
  -- outside of the try block: an exception leaves the method
  let signature ← ExceptT.mk (.ret
    (HmacSignatureGenerator.computeSignature hmac culture message.payload subscription.secret))
  match ← Prog.catching (fun _ => false)
      (tryDeliver message subscription resolvedDeliveryId (unixTimeSeconds utcNow) signature) with
  | .ok result => return result
  | .error ex => catchFailure ex

/-! ## What an exchange comes to -/

/-- What is known of an exchange: the status of the response, when there is one, whether reading its
body threw, and whether the caller's token was found cancelled. -/
structure Exchange where
  status : Option ℤ
  bodyThrew : Bool
  canceled : Bool
deriving DecidableEq, Repr

/-- What a call and its answer add. -/
def Exchange.after (x : Exchange) : (c : HttpCall) → c.Ans → Exchange
  | .send _, .ok statusCode => { x with status := some statusCode }
  | .readAsString, .error _ => { x with bodyThrew := true }
  | .isCancellationRequested, true => { x with canceled := true }
  | _, _ => x

/-- Before the first call. -/
def Exchange.none : Exchange := ⟨.none, false, false⟩

/-- What a log of calls comes to. -/
def Exchange.of (log : List HttpEntry) : Exchange :=
  log.foldl (fun x e => x.after e.call e.answer) .none

/-- The endpoint has answered with a status of success. -/
def Exchange.acknowledged (x : Exchange) : Bool := x.status.any isSuccessStatusCode

/-- Calls are answered in any way, and written to a log. -/
def Answered (c : HttpCall) (log : List HttpEntry) (a : c.Ans) (log' : List HttpEntry) : Prop :=
  log' = log ++ [⟨c, a⟩]

/-- The protocol that follows an exchange. -/
def Follow (c : HttpCall) (x : Exchange) (a : c.Ans) (x' : Exchange) : Prop := x' = x.after c a

theorem Exchange.of_concat (log : List HttpEntry) (e : HttpEntry) :
    Exchange.of (log ++ [e]) = (Exchange.of log).after e.call e.answer := by
  rw [Exchange.of, List.foldl_append]
  rfl

/-! ## The try block -/

/-- What is known when the try block is left: it was left with the result of a response whose body was
read, or by an exception before there was a response, or by one of its body. -/
def TryLeft : Except Exn DeliveryResult → Exchange → Prop
  | .ok result, x => ∃ statusCode, x = ⟨some statusCode, false, false⟩ ∧
      result.success = isSuccessStatusCode statusCode ∧
      ∀ body ∈ result.responseBody, body.length ≤ maxResponseBody
  | .error _, x => x = .none ∨ ∃ statusCode, x = ⟨some statusCode, true, false⟩

/-- A call that adds nothing is answered with a value or with an exception. -/
theorem conforms_quiet {c : HttpCall} (hc : ∀ x a, Exchange.after x c a = x) (x : Exchange) :
    Prog.Conforms Follow (fun _ x' => x' = x)
      (Prog.perform c : Prog HttpCall HttpCall.Ans c.Ans) x :=
  Prog.conforms_perform fun a => ⟨x, (hc x a).symm, rfl⟩

theorem addHeaders_conforms (headers : List (Text × Text)) (x : Exchange) :
    Prog.Conforms Follow (fun _ x' => x' = x) (addHeaders headers).run x := by
  induction headers with
  | nil => exact rfl
  | cons header headers ih =>
      refine Prog.Conforms.bindThrowing (conforms_quiet (fun _ _ => rfl) x) ?_ fun _ _ h => h
      rintro ⟨⟩ _ rfl
      exact ih

theorem tryAddHeaders_conforms (headers : List (Text × Text)) (x : Exchange) :
    Prog.Conforms Follow (fun r x' => x' = x ∧ ∃ added, r = .ok added) (tryAddHeaders headers).run
      x := by
  induction headers with
  | nil => exact ⟨rfl, _, rfl⟩
  | cons header headers ih =>
      intro added
      refine ⟨x, rfl, Prog.Conforms.bindThrowing ih ?_ ?_⟩
      · rintro rest _ ⟨rfl, -⟩
        exact ⟨rfl, _, rfl⟩
      · rintro e _ ⟨-, _, h⟩
        cases h

/-- What the try block does. -/
theorem tryDeliver_conforms (message : OutboxMessage) (subscription : WebhookSubscription)
    (deliveryId : Guid) (timestamp signature : Text) :
    Prog.Conforms Follow TryLeft
      (tryDeliver message subscription deliveryId timestamp signature).run .none := by
  unfold tryDeliver
  -- an exception before the response leaves nothing known
  refine Prog.Conforms.bindThrowing (conforms_quiet (fun _ _ => rfl) _) ?_ fun _ _ h => .inl h
  rintro ⟨⟩ _ rfl
  refine Prog.Conforms.bindThrowing (addHeaders_conforms _ _) ?_ fun _ _ h => .inl h
  rintro ⟨⟩ _ rfl
  refine Prog.Conforms.bindThrowing (tryAddHeaders_conforms _ _) ?_ fun _ _ h => .inl h.1
  rintro custom _ ⟨rfl, -⟩
  refine Prog.Conforms.bindThrowing (conforms_quiet (fun _ _ => rfl) _) ?_ fun _ _ h => .inl h
  rintro ⟨⟩ _ rfl
  -- the response, and its body
  rintro (ex | statusCode)
  · exact ⟨_, rfl, .inl rfl⟩
  refine ⟨_, rfl, ?_⟩
  rintro (ex | body)
  · exact ⟨_, rfl, .inr ⟨statusCode, rfl⟩⟩
  refine ⟨_, rfl, fun durationMs => ⟨_, rfl, statusCode, rfl, rfl, ?_⟩⟩
  rintro responseBody hbody
  rw [← Option.mem_some_iff.mp hbody]
  split
  · exact List.length_take_le _ _
  · next h => exact Nat.le_of_not_lt h

/-! ## The whole method -/

/-- What is known when the method is left, but for a cancelled token: it throws when there is no secret,
and a result is a success when the response was one and its body could be read. -/
def Left (secret : Option Text) : Except Exn DeliveryResult → Exchange → Prop
  | .ok result, x => secret.isSome = true ∧
      result.success = (x.acknowledged && !x.bodyThrew) ∧
      ∀ body ∈ result.responseBody, body.length ≤ maxResponseBody
  | .error _, x => secret = none ∨ x.canceled = true

/-- A result without a response, or with one whose body could not be read. -/
theorem left_failed {secret : Option Text} (hsecret : secret.isSome = true) {x : Exchange}
    (hx : x = .none ∨ ∃ statusCode, x = ⟨some statusCode, true, false⟩) (error : Text)
    (durationMs : ℤ) : Left secret (.ok ⟨false, none, none, some error, durationMs⟩) x := by
  refine ⟨hsecret, ?_, fun body hbody => absurd hbody (Option.not_mem_none body)⟩
  rcases hx with rfl | ⟨statusCode, rfl⟩
  · rfl
  · exact (Bool.and_false _).symm

/-- The catch clauses give a failed delivery, unless the caller's token is cancelled. -/
theorem catchFailure_conforms {secret : Option Text} (hsecret : secret.isSome = true) {x : Exchange}
    (hx : x = .none ∨ ∃ statusCode, x = ⟨some statusCode, true, false⟩) (ex : Exn) :
    Prog.Conforms Follow (Left secret) (catchFailure ex).run x := by
  unfold catchFailure
  by_cases hcanceled : ex.isCanceled = true
  · rw [if_pos hcanceled]
    rintro (_ | _)
    · exact ⟨x, rfl, fun durationMs => ⟨x, rfl, left_failed hsecret hx _ durationMs⟩⟩
    · exact ⟨_, rfl, .inr rfl⟩
  · rw [if_neg hcanceled]
    exact fun durationMs => ⟨x, rfl, left_failed hsecret hx _ durationMs⟩

/-- **What `DeliverAsync` does**, whatever its calls are answered with. -/
theorem deliverAsync_conforms (hmac : HmacSha256) (culture : InvariantCulture)
    (message : OutboxMessage) (subscription : WebhookSubscription) (deliveryId : Option Guid) :
    Prog.Conforms Follow (Left subscription.secret)
      (deliverAsync hmac culture message subscription deliveryId).run .none := by
  unfold deliverAsync
  have hid : Prog.Conforms Follow (fun r x => x = .none ∧ ∃ id, r = .ok id)
      (resolveDeliveryId deliveryId).run .none := by
    cases deliveryId with
    | some deliveryId => exact ⟨rfl, _, rfl⟩
    | none => exact fun _ => ⟨_, rfl, rfl, _, rfl⟩
  refine Prog.Conforms.bindThrowing hid ?_ fun _ _ ⟨_, _, h⟩ => nomatch h
  rintro resolvedDeliveryId _ ⟨rfl, -⟩ utcNow
  refine ⟨_, rfl, ?_⟩
  -- the signature is computed, or its exception leaves the method
  cases hsecret : subscription.secret with
  | none => exact .inl rfl
  | some secret =>
      have hsignature : Prog.Conforms Follow (fun r x => x = .none ∧ ∃ signature, r = .ok signature)
          (ExceptT.mk (.ret (HmacSignatureGenerator.computeSignature hmac culture message.payload
            (some secret))) : HttpAsync Text).run .none := ⟨rfl, _, rfl⟩
      refine Prog.Conforms.bindThrowing hsignature ?_ fun _ _ ⟨_, _, h⟩ => nomatch h
      rintro signature _ ⟨rfl, -⟩
      have htry : Prog.Conforms Follow (fun r x => ∃ r', r = .ok r' ∧ TryLeft r' x)
          (Prog.catching (fun _ => false) (tryDeliver message subscription resolvedDeliveryId
            (unixTimeSeconds utcNow) signature)).run .none := by
        refine Prog.Conforms.catching (tryDeliver_conforms _ _ _ _ _) ?_ ?_ ?_
        · exact fun result x h => ⟨_, rfl, h⟩
        · exact fun ex x h _ => ⟨_, rfl, h⟩
        · exact fun ex x _ h => absurd h Bool.false_ne_true
      refine Prog.Conforms.bindThrowing htry ?_ fun _ _ ⟨_, h, _⟩ => nomatch h
      rintro r x ⟨_, hr, hx⟩
      obtain rfl := Except.ok.inj hr
      cases r with
      | ok result =>
          obtain ⟨statusCode, rfl, hsuccess, hbody⟩ := hx
          exact ⟨rfl, by rw [hsuccess]; simp [Exchange.acknowledged], hbody⟩
      | error ex => exact catchFailure_conforms rfl hx ex

/-- The result follows the outcome of the exchange: there is one, it is a success when the endpoint has
answered with a status of success, and its body is cut. -/
def FollowsOutcome (r : Except Exn DeliveryResult) (x : Exchange) : Prop :=
  ∃ result, r = .ok result ∧ result.success = x.acknowledged ∧
    ∀ body ∈ result.responseBody, body.length ≤ maxResponseBody

/-- **When results follow the outcome.** While the caller's token is not cancelled, they do when the
subscription has a secret and the body of no successful response throws. -/
theorem deliverAsync_follows_iff {hmac : HmacSha256} {culture : InvariantCulture}
    {message : OutboxMessage} {subscription : WebhookSubscription} {deliveryId : Option Guid}
    {r : Except Exn DeliveryResult} {log : List HttpEntry}
    (hrun : Prog.Exec Answered (deliverAsync hmac culture message subscription deliveryId).run [] r
      log) (hct : (Exchange.of log).canceled = false) :
    FollowsOutcome r (Exchange.of log) ↔ subscription.secret.isSome = true ∧
      ((Exchange.of log).acknowledged = true → (Exchange.of log).bodyThrew = false) := by
  -- the protocol follows what the log comes to
  obtain ⟨x, hleft, rfl⟩ := (deliverAsync_conforms hmac culture message subscription deliveryId).exec
    (J := fun x log => x = Exchange.of log)
    (by
      rintro c x a x' log log' rfl rfl rfl
      exact (Exchange.of_concat log ⟨c, a⟩).symm) hrun rfl
  generalize Exchange.of log = x at hleft hct ⊢
  cases r with
  | error ex =>
      have hnone : subscription.secret = none := by
        rcases hleft with h | h
        · exact h
        · rw [hct] at h
          cases h
      constructor
      · rintro ⟨_, h, _⟩
        cases h
      · rintro ⟨h, _⟩
        rw [hnone] at h
        cases h
  | ok result =>
      obtain ⟨hsecret, hsuccess, hbody⟩ := hleft
      constructor
      · rintro ⟨_, hr, hout, _⟩
        obtain rfl := Except.ok.inj hr
        refine ⟨hsecret, fun hack => ?_⟩
        rw [hsuccess, hack, Bool.true_and, Bool.not_eq_true'] at hout
        exact hout
      · rintro ⟨_, hread⟩
        refine ⟨result, rfl, ?_, hbody⟩
        rw [hsuccess]
        cases hack : x.acknowledged with
        | false => rfl
        | true => rw [hread hack]; rfl

/-! ## Two exchanges -/

/-- A run in which every call is answered by `answers`: its value and its log. -/
def runWith {α : Type} (answers : (c : HttpCall) → c.Ans) :
    Prog HttpCall HttpCall.Ans α → List HttpEntry → α × List HttpEntry
  | .ret a, log => (a, log)
  | .call c k, log => runWith answers (k (answers c)) (log ++ [⟨c, answers c⟩])

theorem exec_runWith {α : Type} (answers : (c : HttpCall) → c.Ans)
    (p : Prog HttpCall HttpCall.Ans α) (log : List HttpEntry) :
    Prog.Exec Answered p log (runWith answers p log).1 (runWith answers p log).2 := by
  induction p generalizing log with
  | ret a => exact .ret a log
  | call c k ih => exact .call rfl (ih (answers c) _)

/-- An endpoint that answers 200 with a body that is read as `body`. -/
def answers200 (body : Except Exn Text) : (c : HttpCall) → c.Ans
  | .newGuid => (1 : Guid)
  | .utcNow => unixEpochTicks
  | .newRequest _ => .ok ()
  | .addHeader _ _ => .ok ()
  | .tryAddHeader _ _ => true
  | .cancelAfter _ => .ok ()
  | .send _ => .ok 200
  | .readAsString => body
  | .elapsedMilliseconds => (5 : ℤ)
  | .isCancellationRequested => false

/-- A message of the tests. -/
def orderMessage : OutboxMessage :=
  ⟨1, text "order.placed", samplePayload, none, none, .processing, 0, 0, none, none, none, none, none,
    none, none, none, none⟩

/-- The subscription of the tests. -/
def testSubscription : WebhookSubscription :=
  ⟨7, none, text "order.placed", text "https://example.com/webhook", some (text "whsec_abc123"), true, 5,
    5 * ticksPerSecond, none⟩

/-- The delivery of the message to an endpoint. -/
def delivery (answers : (c : HttpCall) → c.Ans) : Except Exn DeliveryResult × List HttpEntry :=
  runWith answers (deliverAsync sampleHmac .ascii orderMessage testSubscription (some 1)).run []

/-- A response that can be read is a success. -/
theorem readable_response_follows :
    FollowsOutcome (delivery (answers200 (.ok (text "OK")))).1
      (Exchange.of (delivery (answers200 (.ok (text "OK")))).2) :=
  (deliverAsync_follows_iff (exec_runWith _ _ _) rfl).mpr ⟨rfl, fun _ => rfl⟩

/-- The exception of a body in a charset that is not known. -/
def Exn.unknownCharset : Exn :=
  ⟨false, text "The character set provided in ContentType is invalid."⟩

/-- **An acknowledged delivery counts as failed** when the charset of the response is not known. -/
theorem unreadable_response_fails :
    (Exchange.of (delivery (answers200 (.error Exn.unknownCharset))).2).canceled = false ∧
    (Exchange.of (delivery (answers200 (.error Exn.unknownCharset))).2).acknowledged = true ∧
    ¬ FollowsOutcome (delivery (answers200 (.error Exn.unknownCharset))).1
      (Exchange.of (delivery (answers200 (.error Exn.unknownCharset))).2) := by
  refine ⟨rfl, rfl, ?_⟩
  rintro ⟨result, hr, hsuccess, -⟩
  obtain rfl := Except.ok.inj hr
  exact absurd hsuccess Bool.false_ne_true

/-! ## What is sent -/

/-- A request carries the payload, its signature, and the canonical texts of the ids. -/
structure Carries (hmac : HmacSha256) (culture : InvariantCulture) (message : OutboxMessage)
    (subscription : WebhookSubscription) (deliveryId : Guid) (request : HttpRequestMessage) : Prop where
  content : request.content = stringContent message.payload
  signature : ∃ signature, HmacSignatureGenerator.computeSignature hmac culture message.payload
    subscription.secret = .ok signature ∧ (text "X-Outbox-Signature", signature) ∈ request.headers
  deliveryId : (text "X-Outbox-Delivery-Id", guidToString deliveryId) ∈ request.headers
  subscriptionId :
    (text "X-Outbox-Subscription-Id", guidToString subscription.id) ∈ request.headers

/-- The request of a delivery, with those custom headers that are added. -/
def deliveryRequest (message : OutboxMessage) (subscription : WebhookSubscription) (deliveryId : Guid)
    (timestamp signature : Text) (custom : List (Text × Text)) : HttpRequestMessage where
  url := subscription.webhookUrl
  content := stringContent message.payload
  contentType := text "application/json"
  headers := outboxHeaders message subscription deliveryId timestamp signature ++ custom

/-- Every request a program sends has `P`. -/
abbrev SendsOnly {α : Type} (P : HttpRequestMessage → Prop) (p : Prog HttpCall HttpCall.Ans α) : Prop :=
  p.Only fun c => ∀ request, c = .send request → P request

section Sends

variable {P : HttpRequestMessage → Prop}

theorem sendsOnly_perform {c : HttpCall} (hc : ∀ request, c ≠ .send request) :
    SendsOnly P (Prog.perform c : Prog HttpCall HttpCall.Ans c.Ans) :=
  ⟨fun request h => absurd h (hc request), fun _ => trivial⟩

theorem sendsOnly_addHeaders (headers : List (Text × Text)) :
    SendsOnly P (addHeaders headers).run := by
  induction headers with
  | nil => trivial
  | cons header headers ih => exact Prog.Only.bindThrowing (sendsOnly_perform nofun) fun _ => ih

theorem sendsOnly_tryAddHeaders (headers : List (Text × Text)) :
    SendsOnly P (tryAddHeaders headers).run := by
  induction headers with
  | nil => trivial
  | cons header headers ih =>
      exact ⟨nofun, fun _ => Prog.Only.bindThrowing ih fun _ => trivial⟩

theorem sendsOnly_catchFailure (ex : Exn) : SendsOnly P (catchFailure ex).run := by
  unfold catchFailure
  split
  · refine ⟨nofun, ?_⟩
    rintro (_ | _)
    · exact ⟨nofun, fun _ => trivial⟩
    · trivial
  · exact ⟨nofun, fun _ => trivial⟩

/-- The one request of the try block. -/
theorem sendsOnly_tryDeliver {message : OutboxMessage} {subscription : WebhookSubscription}
    {deliveryId : Guid} {timestamp signature : Text}
    (hP : ∀ custom, P (deliveryRequest message subscription deliveryId timestamp signature custom)) :
    SendsOnly P (tryDeliver message subscription deliveryId timestamp signature).run := by
  unfold tryDeliver
  refine Prog.Only.bindThrowing (sendsOnly_perform nofun) fun _ => ?_
  refine Prog.Only.bindThrowing (sendsOnly_addHeaders _) fun _ => ?_
  refine Prog.Only.bindThrowing (sendsOnly_tryAddHeaders _) fun custom => ?_
  refine Prog.Only.bindThrowing (sendsOnly_perform nofun) fun _ => ?_
  refine Prog.Only.bindThrowing (x := HttpAsync.send _) ?_ fun _ => ?_
  · refine ⟨?_, fun _ => trivial⟩
    rintro request h
    rw [← HttpCall.send.inj h]
    exact hP custom
  refine Prog.Only.bindThrowing (sendsOnly_perform nofun) fun _ => ?_
  exact ⟨nofun, fun _ => trivial⟩

/-- The one request of the whole method. -/
theorem sendsOnly_deliverAsync {hmac : HmacSha256} {culture : InvariantCulture}
    {message : OutboxMessage} {subscription : WebhookSubscription} {deliveryId : Guid}
    (hP : ∀ timestamp signature custom,
      HmacSignatureGenerator.computeSignature hmac culture message.payload subscription.secret =
        .ok signature →
      P (deliveryRequest message subscription deliveryId timestamp signature custom)) :
    SendsOnly P (deliverAsync hmac culture message subscription (some deliveryId)).run := by
  refine ⟨nofun, fun utcNow => ?_⟩
  -- without a signature nothing is sent
  cases hsignature : HmacSignatureGenerator.computeSignature hmac culture message.payload
      subscription.secret with
  | error ex => trivial
  | ok signature =>
      show SendsOnly _ (Prog.bind (Prog.catching (fun _ => false) (tryDeliver message subscription
        deliveryId (unixTimeSeconds utcNow) signature)).run _)
      refine Prog.Only.bind (Prog.Only.catching _ (sendsOnly_tryDeliver fun custom => ?_)) ?_
      · exact hP (unixTimeSeconds utcNow) signature custom hsignature
      · rintro (ex | ex | result)
        · trivial
        · exact sendsOnly_catchFailure ex
        · trivial

end Sends

/-! ## What can be sent -/

section Calls

variable {message : OutboxMessage} {subscription : WebhookSubscription} {deliveryId : Guid}
variable {signature : Text}

theorem addHeaders_returns (headers : List (Text × Text)) :
    (addHeaders headers).run.Returns (.ok ()) := by
  induction headers with
  | nil => rfl
  | cons header headers ih => exact ⟨.ok (), ih⟩

/-- All custom headers may be added. -/
theorem tryAddHeaders_returns (headers : List (Text × Text)) :
    (tryAddHeaders headers).run.Returns (.ok headers) := by
  induction headers with
  | nil => rfl
  | cons header headers ih =>
      refine ⟨true, ?_⟩
      refine Prog.Returns.bindThrowing (x := tryAddHeaders headers) ih ?_
      rfl

theorem tryDeliver_calls (timestamp : Text) :
    (tryDeliver message subscription deliveryId timestamp signature).run.Calls
      (.send (deliveryRequest message subscription deliveryId timestamp signature
        (subscription.customHeaders.getD []))) := by
  unfold tryDeliver
  refine Prog.Returns.calls_bindThrowing (x := HttpAsync.newRequest _) (a := ()) ⟨.ok (), rfl⟩ ?_
  refine Prog.Returns.calls_bindThrowing (addHeaders_returns _) ?_
  refine Prog.Returns.calls_bindThrowing (tryAddHeaders_returns _) ?_
  refine Prog.Returns.calls_bindThrowing (x := HttpAsync.cancelAfter _) (a := ()) ⟨.ok (), rfl⟩ ?_
  exact .inl rfl

/-- With a signature the request can be sent. -/
theorem deliverAsync_calls {hmac : HmacSha256} {culture : InvariantCulture}
    (hsignature : HmacSignatureGenerator.computeSignature hmac culture message.payload
      subscription.secret = .ok signature) (utcNow : DateTimeOffset) :
    (deliverAsync hmac culture message subscription (some deliveryId)).run.Calls
      (.send (deliveryRequest message subscription deliveryId (unixTimeSeconds utcNow) signature
        (subscription.customHeaders.getD []))) := by
  unfold deliverAsync
  refine .inr ⟨utcNow, ?_⟩
  rw [hsignature]
  refine Prog.Calls.bindThrowing (x := Prog.catching _ (tryDeliver _ _ _ _ _)) ?_
  exact Prog.Calls.catching _ (tryDeliver_calls _)

end Calls

/-- **Every request carries its payload, signature and ids.** -/
theorem deliverAsync_sends (hmac : HmacSha256) (culture : InvariantCulture) (message : OutboxMessage)
    (subscription : WebhookSubscription) (deliveryId : Guid) :
    SendsOnly (Carries hmac culture message subscription deliveryId)
      (deliverAsync hmac culture message subscription (some deliveryId)).run := by
  refine sendsOnly_deliverAsync fun timestamp signature custom hsignature => ?_
  refine ⟨rfl, ⟨signature, hsignature, ?_⟩, ?_, ?_⟩
  · exact List.mem_append_left _ List.mem_cons_self
  · exact List.mem_append_left _ (List.mem_append_left _ (by simp))
  · exact List.mem_append_left _ (List.mem_append_left _ (by simp))

end HttpWebhookDeliverer

end OutboxNet
