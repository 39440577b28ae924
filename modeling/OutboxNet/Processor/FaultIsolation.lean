import OutboxNet.Processor.Containment
import OutboxNet.Processor.HotCold

/-!
# One message cannot stop the others, unless its exception leaves its handling

An exception that leaves the handling of a message ends the loop over the batch, and one of the reader
ends the batch before any message is handled.  As long as neither happens for a message, the others fare
as they would without it: its handling can be erased from the run, its entry from the cache, and what
remains is a run of the batch without the message.
-/

set_option autoImplicit false

namespace OutboxNet

open SubscriptionCache (Serves)

/-! ## The cache without some messages -/

/-- What the smaller cache has, the larger one has. -/
def SubscriptionCache.Sub (small large : SubscriptionCache) : Prop :=
  ∀ key subscriptions, small.tryGetValue key = some subscriptions →
    large.tryGetValue key = some subscriptions

namespace SubscriptionCache

variable {small large : SubscriptionCache} {key : CacheKey}
variable {subscriptions : List WebhookSubscription}

theorem containsKey_eq_false_iff : large.containsKey key = false ↔ large.tryGetValue key = none := by
  simp [containsKey]

theorem Sub.refl (cache : SubscriptionCache) : cache.Sub cache := fun _ _ => id

theorem Sub.not_containsKey (h : small.Sub large) (hmiss : large.containsKey key = false) :
    small.containsKey key = false := by
  rw [containsKey_eq_false_iff] at hmiss ⊢
  cases hfind : small.tryGetValue key with
  | none => rfl
  | some subscriptions =>
      rw [h key subscriptions hfind] at hmiss
      cases hmiss

/-- The same entry is made in both. -/
theorem Sub.set (h : small.Sub large) (key : CacheKey) (subscriptions : List WebhookSubscription) :
    (small.set key subscriptions).Sub (large.set key subscriptions) := by
  intro key' subscriptions' hfind
  by_cases hkey : key = key'
  · subst hkey
    rw [tryGetValue_set_self] at hfind ⊢
    exact hfind
  · rw [tryGetValue_set_of_ne hkey] at hfind ⊢
    exact h key' subscriptions' hfind

/-- An entry the larger cache has already is made in the smaller one. -/
theorem Sub.set_small (h : small.Sub large) (hhit : large.tryGetValue key = some subscriptions) :
    (small.set key subscriptions).Sub large := by
  intro key' subscriptions' hfind
  by_cases hkey : key = key'
  · subst hkey
    rw [tryGetValue_set_self] at hfind
    cases hfind
    exact hhit
  · rw [tryGetValue_set_of_ne hkey] at hfind
    exact h key' subscriptions' hfind

/-- An entry is made in the larger cache alone. -/
theorem Sub.set_large (h : small.Sub large) (hmiss : large.containsKey key = false) :
    small.Sub (large.set key subscriptions) := by
  intro key' subscriptions' hfind
  by_cases hkey : key = key'
  · subst hkey
    rw [containsKey_eq_false_iff.mp (h.not_containsKey hmiss)] at hfind
    cases hfind
  · rw [tryGetValue_set_of_ne hkey]
    exact h key' subscriptions' hfind

end SubscriptionCache

namespace Pipeline

variable {dep : Deployment} {options : OutboxOptions} {reader : SubscriptionReader}
variable {keep : Guid → Bool} {seen messages : List OutboxMessage} {message : OutboxMessage}
variable {cache cache₂ : SubscriptionCache} {x x' y : BatchSession}
variable {o : Except Exn SubscriptionCache}

/-- How the caches of the two runs end: the second one's has at most what the first one's has, or both
runs throw the same. -/
def SameEnd (o o₂ : Except Exn SubscriptionCache) : Prop :=
  match o with
  | .ok cache => ∃ cache₂, o₂ = .ok cache₂ ∧ cache₂.Sub cache
  | .error e => o₂ = .error e

/-- One step of the loop: the reader is asked, or not. -/
theorem cacheMessageAsync_cases
    (h : Prog.Exec (BatchSession.Exec dep options reader) (cacheMessageAsync cache message).run x o x') :
    (cache.containsKey message.cacheKey = true ∧ o = .ok cache ∧ x' = x) ∨
    (cache.containsKey message.cacheKey = false ∧ ∃ a : Except Exn (List WebhookSubscription),
      BatchSession.Exec dep options reader (BatchCall.getForMessage message) x a x' ∧
      o = a.map fun subscriptions => cache.set message.cacheKey subscriptions) := by
  unfold cacheMessageAsync at h
  split at h
  · next hhit =>
      obtain ⟨rfl, rfl⟩ := Prog.exec_ret_iff.mp h
      exact .inl ⟨hhit, rfl, rfl⟩
  · next hmiss =>
      refine .inr ⟨by simpa using hmiss, ?_⟩
      rcases Prog.exec_bindThrowing_iff.mp h with ⟨subscriptions, x₁, hask, hret⟩ | ⟨e, hask, rfl⟩
      · obtain ⟨a, x₂, hcall, hret'⟩ := Prog.exec_call_iff.mp hask
        obtain ⟨rfl, rfl⟩ := Prog.exec_ret_iff.mp hret'
        obtain ⟨rfl, rfl⟩ := Prog.exec_ret_iff.mp hret
        exact ⟨_, hcall, rfl⟩
      · obtain ⟨a, x₂, hcall, hret'⟩ := Prog.exec_call_iff.mp hask
        obtain ⟨rfl, rfl⟩ := Prog.exec_ret_iff.mp hret'
        exact ⟨_, hcall, rfl⟩

/-- A step that asks the reader. -/
theorem cacheMessageAsync_asked {a : Except Exn (List WebhookSubscription)}
    (hmiss : cache.containsKey message.cacheKey = false)
    (hask : BatchSession.Exec dep options reader (BatchCall.getForMessage message) x a x') :
    Prog.Exec (BatchSession.Exec dep options reader) (cacheMessageAsync cache message).run x
      (a.map fun subscriptions => cache.set message.cacheKey subscriptions) x' := by
  unfold cacheMessageAsync
  rw [if_neg (by simp [hmiss])]
  refine .call hask ?_
  cases a <;> exact .ret _ _

/-- A step that does not. -/
theorem cacheMessageAsync_found (hhit : cache.containsKey message.cacheKey = true) :
    (cacheMessageAsync cache message).run = .ret (.ok cache) := by
  unfold cacheMessageAsync
  rw [if_pos hhit]
  rfl

/-- A step for a kept message can be made in the other run. -/
theorem cacheMessageAsync_replay (hserves : Serves dep reader seen cache) (hsub : cache₂.Sub cache)
    (h : Prog.Exec (BatchSession.Exec dep options reader) (cacheMessageAsync cache message).run x o x')
    (hlike : BatchSession.Alike keep x y) :
    ∃ o₂ y', Prog.Exec (BatchSession.Exec dep options reader)
      (cacheMessageAsync cache₂ message).run y o₂ y' ∧ BatchSession.Alike keep x' y' ∧ SameEnd o o₂ := by
  rcases cacheMessageAsync_cases h with ⟨hhit, rfl, rfl⟩ | ⟨hmiss, a, hask, rfl⟩
  · cases hhit₂ : cache₂.containsKey message.cacheKey with
    | true =>
        refine ⟨.ok cache₂, y, ?_, hlike, cache₂, rfl, hsub⟩
        rw [cacheMessageAsync_found hhit₂]
        exact .ret _ _
    | false =>
        -- the reader is asked for this message only now, and answers what is cached
        obtain ⟨subscriptions, hcached⟩ := Option.isSome_iff_exists.mp hhit
        have hask : BatchSession.Exec dep options reader (BatchCall.getForMessage message) y
            (Except.ok subscriptions) ⟨y.host, y.log ++ [⟨.getForMessage message, _⟩]⟩ :=
          ⟨.effect le_rfl (.getForMessage (hserves.returns message _ hcached)), rfl⟩
        refine ⟨_, _, cacheMessageAsync_asked hhit₂ hask, hlike.ask nofun, ?_⟩
        exact ⟨_, rfl, hsub.set_small hcached⟩
  · obtain ⟨y', hask', hlike'⟩ := BatchSession.Exec.askAgain hask hlike
    refine ⟨_, y', cacheMessageAsync_asked (hsub.not_containsKey hmiss) hask', hlike', ?_⟩
    cases a with
    | error e => rfl
    | ok subscriptions => exact ⟨_, rfl, hsub.set _ _⟩

/-- The reader throws again what it threw for a key, once it is asked for a message with this key. -/
theorem foldlM_cacheMessageAsync_fails {key : CacheKey} {e : Exn}
    (hmiss : cache.containsKey key = false)
    (hother : ∃ other ∈ messages, other.cacheKey = key) (hthrew : ReaderThrew key e x.log)
    (hlike : BatchSession.Alike keep x y) :
    ∃ y', Prog.Exec (BatchSession.Exec dep options reader)
      (messages.foldlM cacheMessageAsync cache).run y (.error e) y' ∧ BatchSession.Alike keep x y' := by
  induction messages generalizing cache y with
  | nil =>
      obtain ⟨_, hmem, -⟩ := hother
      cases hmem
  | cons message messages ih =>
      rw [List.foldlM_cons]
      by_cases hkey : message.cacheKey = key
      · subst hkey
        have hask : BatchSession.Exec dep options reader (BatchCall.getForMessage message) y
            (Except.error e) ⟨y.host, y.log ++ [⟨.getForMessage message, _⟩]⟩ :=
          ⟨.failed le_rfl rfl, rfl⟩
        refine ⟨_, Prog.exec_bindThrowing_iff.mpr
          (.inr ⟨e, cacheMessageAsync_asked hmiss hask, rfl⟩), hlike.ask fun e' he => ?_⟩
        cases he
        exact hthrew
      · have hother' : ∃ other ∈ messages, other.cacheKey = key := by
          obtain ⟨other, hmem, hother⟩ := hother
          rcases List.mem_cons.mp hmem with rfl | hmem
          · exact absurd hother hkey
          · exact ⟨other, hmem, hother⟩
        -- this message has another key: it is found, or the reader answers
        cases hhit : cache.containsKey message.cacheKey with
        | true =>
            obtain ⟨y', hrest, hlike'⟩ := ih hmiss hother' hlike
            refine ⟨y', Prog.exec_bindThrowing_iff.mpr (.inl ⟨cache, y, ?_, hrest⟩), hlike'⟩
            rw [cacheMessageAsync_found hhit]
            exact .ret _ _
        | false =>
            obtain ⟨subscriptions, hreturns⟩ := reader.exists_returns dep message
            have hask : BatchSession.Exec dep options reader (BatchCall.getForMessage message) y
                (Except.ok subscriptions) ⟨y.host, y.log ++ [⟨.getForMessage message, _⟩]⟩ :=
              ⟨.effect le_rfl (.getForMessage hreturns), rfl⟩
            have hmiss' : (cache.set message.cacheKey subscriptions).containsKey key = false := by
              rw [SubscriptionCache.containsKey_eq_false_iff,
                SubscriptionCache.tryGetValue_set_of_ne hkey]
              exact SubscriptionCache.containsKey_eq_false_iff.mp hmiss
            have hlike₁ : BatchSession.Alike keep x
                ⟨y.host, y.log ++ [⟨.getForMessage message, Except.ok subscriptions⟩]⟩ :=
              hlike.ask fun _ h => by cases h
            obtain ⟨y', hrest, hlike'⟩ := ih hmiss' hother' hlike₁
            exact ⟨y', Prog.exec_bindThrowing_iff.mpr
              (.inl ⟨_, _, cacheMessageAsync_asked hhit hask, hrest⟩), hlike'⟩

/-- The reader's exceptions for a message that is erased are those of another message too. -/
def ReaderShared (keep : Guid → Bool) (messages : List OutboxMessage) (log : List BatchEntry) : Prop :=
  ∀ message ∈ messages, keep message.id = false → ∀ e,
    (⟨.getForMessage message, .error e⟩ : BatchEntry) ∈ log →
      ∃ other ∈ messages, keep other.id = true ∧ other.cacheKey = message.cacheKey

/-- **The cache of a batch without some of its messages.** -/
theorem foldlM_cacheMessageAsync_erase (messages : List OutboxMessage)
    (hserves : Serves dep reader seen cache) (hsub : cache₂.Sub cache)
    (h : Prog.Exec (BatchSession.Exec dep options reader)
      (messages.foldlM cacheMessageAsync cache).run x o x')
    (hlike : BatchSession.Alike keep x y)
    (hshared : ReaderShared keep (seen ++ messages) x'.log) :
    ∃ o₂ y', Prog.Exec (BatchSession.Exec dep options reader)
      ((messages.filter fun m => keep m.id).foldlM cacheMessageAsync cache₂).run y o₂ y' ∧
      BatchSession.Alike keep x' y' ∧ SameEnd o o₂ := by
  induction messages generalizing seen cache cache₂ x y with
  | nil =>
      obtain ⟨rfl, rfl⟩ := Prog.exec_ret_iff.mp h
      exact ⟨.ok cache₂, y, .ret _ _, hlike, cache₂, rfl, hsub⟩
  | cons message messages ih =>
      rw [List.foldlM_cons] at h
      have happend : seen ++ message :: messages = seen ++ [message] ++ messages := by simp
      rcases Prog.exec_bindThrowing_iff.mp h with ⟨cache', x₁, hstep, hrest⟩ | ⟨e, hstep, rfl⟩
      · have hserves' := cacheMessageAsync_serves hserves hstep
        rw [happend] at hshared
        cases hk : keep message.id with
        | true =>
            obtain ⟨o₂, y₁, hstep₂, hlike₁, cache₂', rfl, hsub'⟩ :=
              cacheMessageAsync_replay hserves hsub hstep hlike
            obtain ⟨o₂, y', hrest₂, hlike', hend⟩ := ih hserves' hsub' hrest hlike₁ hshared
            refine ⟨o₂, y', ?_, hlike', hend⟩
            rw [List.filter_cons_of_pos (by simpa using hk), List.foldlM_cons]
            exact Prog.exec_bindThrowing_iff.mpr (.inl ⟨cache₂', y₁, hstep₂, hrest₂⟩)
        | false =>
            rw [List.filter_cons_of_neg (by simp [hk])]
            rcases cacheMessageAsync_cases hstep with ⟨-, heq, rfl⟩ | ⟨hmiss, a, hask, heq⟩
            · cases heq
              exact ih hserves' hsub hrest hlike hshared
            · cases a with
              | error e => cases heq
              | ok subscriptions =>
                  cases heq
                  exact ih hserves' (hsub.set_large hmiss) hrest
                    (BatchSession.Exec.askedFirst hask hlike) hshared
      · rcases cacheMessageAsync_cases hstep with ⟨-, heq, -⟩ | ⟨hmiss, a, hask, heq⟩
        · cases heq
        cases a with
        | ok subscriptions => cases heq
        | error e =>
            cases heq
            have hthrown : (⟨.getForMessage message, .error e⟩ : BatchEntry) ∈ x'.log := by
              rw [hask.2]
              exact List.mem_append_right _ List.mem_cons_self
            cases hk : keep message.id with
            | true =>
                obtain ⟨o₂, y', hstep₂, hlike', hend⟩ :=
                  cacheMessageAsync_replay hserves hsub hstep hlike
                cases hend
                refine ⟨.error e, y', ?_, hlike', rfl⟩
                rw [List.filter_cons_of_pos (by simpa using hk), List.foldlM_cons]
                exact Prog.exec_bindThrowing_iff.mpr (.inr ⟨e, hstep₂, rfl⟩)
            | false =>
                -- another message with the key is still to come
                have hother : ∃ other ∈ messages.filter fun m => keep m.id,
                    other.cacheKey = message.cacheKey := by
                  obtain ⟨other, hmem, hkept, hkey⟩ := hshared message (by simp) hk e hthrown
                  refine ⟨other, List.mem_filter.mpr ⟨?_, hkept⟩, hkey⟩
                  rcases List.mem_append.mp hmem with hmem | hmem
                  · have hfound := hserves.found other hmem
                    rw [hkey, SubscriptionCache.containsKey_eq_false_iff.mp hmiss] at hfound
                    cases hfound
                  · rcases List.mem_cons.mp hmem with rfl | hmem
                    · rw [hk] at hkept
                      cases hkept
                    · exact hmem
                rw [List.filter_cons_of_neg (by simp [hk])]
                obtain ⟨y', hrest, hlike'⟩ := foldlM_cacheMessageAsync_fails
                  (hsub.not_containsKey hmiss) hother ⟨message, rfl, hthrown⟩
                  (BatchSession.Exec.askedFirst hask hlike)
                exact ⟨.error e, y', hrest, hlike', rfl⟩

/-! ## The loops without a message -/

section Loops

variable {p : Pipeline} {hasPublisher : Bool} {schedule : BatchSchedule} {r : Except Exn Unit}

/-- The queue loop, one message at a time. -/
theorem processQueueMediatedAsync_cons (p : Pipeline) (lockedBy : Text) (message : OutboxMessage)
    (messages : List OutboxMessage) :
    p.processQueueMediatedAsync lockedBy (message :: messages) = (do
      BatchAsync.handling message.id (p.processQueuedMessageAsync lockedBy message)
      p.processQueueMediatedAsync lockedBy messages) := rfl

/-- The handling of one message is not that of another. -/
theorem handling_other {α : Type} {k k' : Guid} (hne : k' ≠ k) (x : Async α) :
    (BatchAsync.handling k' x).run.Only fun c => ∀ c', c ≠ .handling k c' := by
  refine Prog.Only.mapCalls (fun c _ c' heq => ?_) (Prog.only_true _)
  cases heq
  exact hne rfl

/-- **The queue loop without some messages**, if it does not throw, or none of them throws an exception
that leaves its handling. -/
theorem processQueueMediatedAsync_erase {lockedBy : Text}
    (hnodup : (messages.map OutboxMessage.id).Nodup)
    (h : Prog.Exec (BatchSession.Exec dep options reader)
      (p.processQueueMediatedAsync lockedBy messages).run x r x')
    (hlike : BatchSession.Alike keep x y)
    (hcontained : r = .ok () ∨ ∀ m ∈ messages, keep m.id = false → handled m.id x.log = [] ∧
      (SomeThrew (handled m.id x'.log) → WroteBack (handled m.id x'.log))) :
    ∃ r' y', Prog.Exec (BatchSession.Exec dep options reader)
      (p.processQueueMediatedAsync lockedBy (messages.filter fun m => keep m.id)).run y r' y' ∧
      BatchSession.Alike keep x' y' := by
  induction messages generalizing x y with
  | nil =>
      obtain ⟨rfl, rfl⟩ := Prog.exec_ret_iff.mp h
      exact ⟨.ok (), y, .ret _ _, hlike⟩
  | cons message messages ih =>
      rw [processQueueMediatedAsync_cons] at h
      rw [List.map_cons, List.nodup_cons] at hnodup
      -- the others have not been handled after the first message either
      have hcontained₁ : ∀ {x₁ : BatchSession} {o : Except Exn Unit},
          Prog.Exec (BatchSession.Exec dep options reader) (BatchAsync.handling message.id
            (p.processQueuedMessageAsync lockedBy message)).run x o x₁ →
          r = .ok () ∨ ∀ m ∈ messages, keep m.id = false → handled m.id x₁.log = [] ∧
            (SomeThrew (handled m.id x'.log) → WroteBack (handled m.id x'.log)) := by
        intro x₁ o hhead
        refine hcontained.imp_right fun hcontained m hm hk => ?_
        have hne : message.id ≠ m.id := fun heq => hnodup.1 (heq ▸ List.mem_map_of_mem hm)
        rw [BatchSession.handled_of_exec hhead (handling_other hne _)]
        exact hcontained m (List.mem_cons_of_mem _ hm) hk
      have honly : (p.processQueuedMessageAsync lockedBy message).run.Only (Call.Concerns message.id) :=
        processQueuedMessageAsync_only
      cases hk : keep message.id with
      | true =>
          rw [List.filter_cons_of_pos (by simpa using hk), processQueueMediatedAsync_cons]
          have hreplay := BatchSession.replayable_handling hk honly
          rcases Prog.exec_bindThrowing_iff.mp h with ⟨u, x₁, hhead, hrest⟩ | ⟨e, hhead, rfl⟩
          · obtain ⟨y₁, hhead₂, hlike₁⟩ := hlike.exec_replay hhead hreplay
            obtain ⟨r', y', hrest₂, hlike'⟩ := ih hnodup.2 hrest hlike₁ (hcontained₁ hhead)
            exact ⟨r', y', Prog.exec_bindThrowing_iff.mpr (.inl ⟨u, y₁, hhead₂, hrest₂⟩), hlike'⟩
          · obtain ⟨y', hhead₂, hlike'⟩ := hlike.exec_replay hhead hreplay
            exact ⟨.error e, y', Prog.exec_bindThrowing_iff.mpr (.inr ⟨e, hhead₂, rfl⟩), hlike'⟩
      | false =>
          rw [List.filter_cons_of_neg (by simp [hk])]
          rcases Prog.exec_bindThrowing_iff.mp h with ⟨u, x₁, hhead, hrest⟩ | ⟨e, hhead, rfl⟩
          · have hlike₁ : BatchSession.Alike keep x₁ y :=
              (BatchSession.erasable dep options reader keep).exec_absorb (x := message) hk hhead
                (Prog.Only.mapCalls (fun _ hc => ⟨rfl, hc⟩) honly) hlike
            exact ih hnodup.2 hrest hlike₁ (hcontained₁ hhead)
          · -- its exception would have left its handling
            obtain ⟨hnil, hwrote⟩ :=
              (hcontained.resolve_left fun hr => by cases hr) message List.mem_cons_self hk
            have hrecorded := recorded_of_handling hhead
            rw [hnil] at hrecorded
            cases processQueuedMessageAsync_contained hrecorded hwrote

/-- The handling of no message is that of message `k`, while the cache is built. -/
theorem buildSubscriptionCacheAsync_handled (k : Guid)
    (h : Prog.Exec (BatchSession.Exec dep options reader) (buildSubscriptionCacheAsync messages).run x
      o x') : handled k x'.log = handled k x.log := by
  refine BatchSession.handled_of_exec h ((foldlM_cacheMessageAsync_asks messages []).mono ?_)
  rintro c ⟨message, rfl⟩ c' heq
  cases heq

/-- **The parallel loop without some messages**, if it does not throw, or none of them throws an
exception that leaves its handling. -/
theorem processDirectDeliveryAsync_erase {lockedBy : Text} {subCache subCache₂ : SubscriptionCache}
    (hnodup : (messages.map OutboxMessage.id).Nodup)
    (h : Prog.Exec (BatchSession.Exec dep options reader)
      (p.processDirectDeliveryAsync schedule lockedBy subCache messages).run x r x')
    (hlike : BatchSession.Alike keep x y) (hnone : ∀ m ∈ messages, handled m.id x.log = [])
    (hcache : ∀ m ∈ messages, keep m.id = true →
      subCache₂.get m.cacheKey = subCache.get m.cacheKey)
    (hcontained : r = .ok () ∨ ∀ m ∈ messages, keep m.id = false → ∀ o, Prog.Exec Call.Recorded
      (p.processCachedMessageAsync (schedule.subscriptions m.id) lockedBy subCache m).run [] o
        (handled m.id x'.log) → o = .ok ()) :
    ∃ schedule' r' y', schedule'.subscriptions = schedule.subscriptions ∧
      (schedule.Uncanceled → BatchSchedule.Uncanceled schedule') ∧
      Prog.Exec (BatchSession.Exec dep options reader) (p.processDirectDeliveryAsync schedule' lockedBy
        subCache₂ (messages.filter fun m => keep m.id)).run y r' y' ∧
      BatchSession.Alike keep x' y' := by
  unfold processDirectDeliveryAsync at h
  cases hlimit : parallelOptions p.options.maxConcurrentDeliveries with
  | error e =>
      rw [hlimit] at h
      obtain ⟨rfl, rfl⟩ := Prog.exec_ret_iff.mp h
      refine ⟨schedule, .error e, y, rfl, id, ?_, hlike⟩
      unfold processDirectDeliveryAsync
      rw [hlimit]
      exact .ret _ _
  | ok limit =>
      rw [hlimit] at h
      let program : OutboxMessage → Prog Call Call.Ans (Except Exn Unit) := fun m =>
        (p.processCachedMessageAsync (schedule.subscriptions m.id) lockedBy subCache m).run
      have hbody : ∀ m ∈ messages, (threadOf m.id (program m)).Only
          (Parallel.OnCalls (BatchCall.Concerns m.id)) :=
        fun m _ => threadOf_only (processCachedMessageAsync_only _ _)
      -- the thread of an erased message has made the calls of its handling, which ends without an exception
      have hquiet : r = .ok () ∨ ∀ threads acc', Parallel.Reaches (BatchSession.Exec dep options reader) limit
          messages (fun m => threadOf m.id (program m))
          (⟨[], (), x⟩ : Parallel.Config BatchCall BatchCall.Ans Unit Exn BatchSession)
          ⟨threads, acc', x'⟩ → ∀ (i : ℕ) m e, messages[i]? = some m → keep m.id = false →
            threads[i]? ≠ some (.ret (.error e)) := by
        refine hcontained.imp_right fun hcontained threads acc' hreach i m e hi hk hthread => ?_
        have hstart : Tracked messages program
            (⟨[], (), x⟩ : Parallel.Config BatchCall BatchCall.Ans Unit Exn BatchSession) :=
          ⟨fun i m b _ hb => by simp at hb, fun i m hi _ => hnone m (List.mem_of_getElem? hi),
            Nat.zero_le _⟩
        have hended := (hstart.reaches hnodup hreach).ended hi hthread
        cases hcontained m (List.mem_of_getElem? hi) hk _ hended
      obtain ⟨choices, r', y', hexec, hlike', hcancel, -⟩ := Parallel.forEachAsync_erase
        (BatchSession.erasable dep options reader keep) hbody Exn.operationCanceled
        (parallelOptions_all hlimit) h hlike hquiet
      refine ⟨⟨⟨schedule.messages.canceled, choices⟩, schedule.subscriptions⟩, r', y', rfl,
        fun hschedule => ⟨hschedule.1, hcancel hschedule.2⟩, ?_, hlike'⟩
      unfold processDirectDeliveryAsync
      rw [hlimit]
      -- the messages that are kept find the same subscriptions in the other cache
      have hsame : ∀ m ∈ messages.filter fun m => keep m.id, threadOf m.id (program m) =
          body m.id (p.processCachedMessageAsync (schedule.subscriptions m.id) lockedBy subCache₂
            m) := by
        intro m hm
        obtain ⟨hm, hk⟩ := List.mem_filter.mp hm
        show body m.id (p.processCachedMessageAsync (schedule.subscriptions m.id) lockedBy subCache m)
          = _
        unfold processCachedMessageAsync
        rw [hcache m hm hk]
      rw [Parallel.forEachAsync_congr hsame] at hexec
      exact hexec

end Loops

/-! ## A batch without a message -/

/-- **The other messages fare as if message `k` were not in the batch**: the calls made for them, with
their answers, and their rows and stored attempts in the end are those of a run of the batch without it,
in which nothing is cancelled and the reader throws nothing that did not happen in this run. -/
def Isolated (dep : Deployment) (reader : SubscriptionReader) (p : Pipeline) (hasPublisher : Bool)
    (schedule : BatchSchedule) (messages : List OutboxMessage) (k : Guid) (x x' : BatchSession) : Prop :=
  ∃ schedule' r' y', schedule'.subscriptions = schedule.subscriptions ∧
    (schedule.Uncanceled → BatchSchedule.Uncanceled schedule') ∧
    Prog.Exec (BatchSession.Exec dep p.options reader) (p.processLockedBatchAsync hasPublisher schedule'
      (messages.filter fun m => m.id ≠ k)).run x r' y' ∧
    BatchSession.Alike (· ≠ k) x' y'

/-- The exceptions thrown in the handling of a message are no cancellations. -/
structure NoCancellation (p : Pipeline) (schedule : BatchSchedule) (message : OutboxMessage)
    (log : List BatchEntry) : Prop where
  calls : Calm (handled message.id log)
  policy : p.retryPolicy.Calm
  loop : (schedule.subscriptions message.id).canceled = false ∧
    .cancel ∉ (schedule.subscriptions message.id).choices

/-- No exception of a message leaves its handling: the reader did not throw for it, or another message
of the batch has the same key; and if an exception was thrown that is not swallowed, a write-back of the
failure handler returned. -/
structure Contained (dep : Deployment) (reader : SubscriptionReader) (p : Pipeline)
    (hasPublisher : Bool) (messages : List OutboxMessage) (message : OutboxMessage)
    (log : List BatchEntry) : Prop where
  resolved : ∀ e, (⟨.getForMessage message, .error e⟩ : BatchEntry) ∈ log →
    ∃ other ∈ messages, other.id ≠ message.id ∧ other.cacheKey = message.cacheKey
  handled : p.Failed (p.ToQueue hasPublisher ∨ reader.Returns dep message [])
    (OutboxNet.handled message.id log) → WroteBack (OutboxNet.handled message.id log)

theorem Contained.readerShared {dep : Deployment} {reader : SubscriptionReader} {p : Pipeline}
    {hasPublisher : Bool} {messages : List OutboxMessage} {message : OutboxMessage}
    {log log' : List BatchEntry} (hnodup : (messages.map OutboxMessage.id).Nodup)
    (hmem : message ∈ messages) (h : Contained dep reader p hasPublisher messages message log)
    (hlog : ∀ entry ∈ log', entry ∈ log) : ReaderShared (· ≠ message.id) messages log' := by
  intro message' hmem' hk e he
  have hid : message'.id = message.id := by simpa using hk
  obtain rfl := List.inj_on_of_nodup_map hnodup hmem' hmem hid
  obtain ⟨other, hother, hne, hkey⟩ := h.resolved e (hlog _ he)
  exact ⟨other, hother, by simpa using hne, hkey⟩

/-- **Fault isolation.** In every run of a batch in which the exceptions thrown for a message are no
cancellations and none leaves its handling, the other messages fare as if the message were not in the
batch. -/
theorem batch_isolates {dep : Deployment} {reader : SubscriptionReader} {p : Pipeline}
    {hasPublisher : Bool} {schedule : BatchSchedule} {messages : List OutboxMessage}
    {message : OutboxMessage} {x x' : BatchSession} {r : Except Exn Unit}
    (hnodup : (messages.map OutboxMessage.id).Nodup) (hmem : message ∈ messages) (hlog : x.log = [])
    (hexec : Prog.Exec (BatchSession.Exec dep p.options reader)
      (p.processLockedBatchAsync hasPublisher schedule messages).run x r x')
    (hcalm : NoCancellation p schedule message x'.log)
    (hcontained : Contained dep reader p hasPublisher messages message x'.log) :
    Isolated dep reader p hasPublisher schedule messages message.id x x' := by
  have hlike : BatchSession.Alike (· ≠ message.id) x x := BatchSession.Alike.refl _ x
  -- only the message itself is erased
  have honly : ∀ m ∈ messages, decide (m.id ≠ message.id) = false → m = message := by
    intro m hm hk
    exact List.inj_on_of_nodup_map hnodup hm hmem (by simpa using hk)
  have hnone : ∀ m ∈ messages, handled m.id x.log = [] := by
    intro m _
    rw [hlog]
    rfl
  by_cases hqueue : p.ToQueue hasPublisher
  · unfold processLockedBatchAsync at hexec
    rw [if_pos hqueue] at hexec
    obtain ⟨r', y', hexec', hlike'⟩ := processQueueMediatedAsync_erase hnodup hexec hlike
      (.inr fun m hm hk => ⟨hnone m hm, fun hthrew => by
        rw [honly m hm hk] at hthrew ⊢
        exact hcontained.handled (.inl ⟨.inl hqueue, hthrew⟩)⟩)
    refine ⟨schedule, r', y', rfl, id, ?_, hlike'⟩
    unfold processLockedBatchAsync
    rw [if_pos hqueue]
    exact hexec'
  · unfold processLockedBatchAsync at hexec
    rw [if_neg hqueue] at hexec
    rcases Prog.exec_bindThrowing_iff.mp hexec with ⟨cache, x₁, hcache, hexec⟩ | ⟨e, hcache, rfl⟩
    · obtain ⟨new, hnew, -⟩ := BatchSession.exec_log hexec (Prog.only_true _)
      have hshared : ReaderShared (· ≠ message.id) ([] ++ messages) x₁.log :=
        hcontained.readerShared hnodup hmem fun entry hentry => by
          rw [hnew]
          exact List.mem_append_left _ hentry
      obtain ⟨o₂, y₁, hcache₂, hlike₁, cache₂, rfl, hsub⟩ := foldlM_cacheMessageAsync_erase messages
        (Serves.nil dep reader) (SubscriptionCache.Sub.refl []) hcache hlike hshared
      have hserves := buildSubscriptionCacheAsync_serves hcache
      have hserves₂ := buildSubscriptionCacheAsync_serves hcache₂
      have hsame : ∀ m ∈ messages, decide (m.id ≠ message.id) = true →
          cache₂.get m.cacheKey = cache.get m.cacheKey := by
        intro m hm hk
        obtain ⟨subscriptions, hfound⟩ := Option.isSome_iff_exists.mp
          (hserves₂.found m (List.mem_filter.mpr ⟨hm, hk⟩))
        rw [SubscriptionCache.get_of_tryGetValue hfound,
          SubscriptionCache.get_of_tryGetValue (hsub _ _ hfound)]
      have hquiet : ∀ m ∈ messages, decide (m.id ≠ message.id) = false → ∀ o,
          Prog.Exec Call.Recorded (p.processCachedMessageAsync (schedule.subscriptions m.id)
            p.options.instanceId cache m).run [] o (handled m.id x'.log) → o = .ok () := by
        intro m hm hk o ho
        rw [honly m hm hk] at ho
        obtain ⟨subscriptions, hfound⟩ := Option.isSome_iff_exists.mp (hserves.found message hmem)
        have hreturns := hserves.returns message subscriptions hfound
        have hbare : (subscriptions = []) = (p.ToQueue hasPublisher ∨ reader.Returns dep message []) := by
          refine propext ⟨fun hnil => .inr (hnil ▸ hreturns), fun h => ?_⟩
          exact (hreturns.perm (h.resolve_left hqueue)).eq_nil
        unfold processCachedMessageAsync at ho
        rw [SubscriptionCache.get_of_tryGetValue hfound] at ho
        refine processSingleMessageAsync_contained ho hcalm.loop hcalm.policy hcalm.calls fun hfailed => ?_
        rw [hbare] at hfailed
        exact hcontained.handled hfailed
      obtain ⟨schedule', r', y', hsubscriptions, hcancel, hexec', hlike'⟩ :=
        processDirectDeliveryAsync_erase hnodup hexec hlike₁ (fun m hm => by
          rw [buildSubscriptionCacheAsync_handled m.id hcache]
          exact hnone m hm) hsame (.inr hquiet)
      refine ⟨schedule', r', y', hsubscriptions, hcancel, ?_, hlike'⟩
      unfold processLockedBatchAsync
      rw [if_neg hqueue]
      exact Prog.exec_bindThrowing_iff.mpr (.inl ⟨cache₂, y₁, hcache₂, hexec'⟩)
    · obtain ⟨o₂, y', hcache₂, hlike', hend⟩ := foldlM_cacheMessageAsync_erase messages
        (Serves.nil dep reader) (SubscriptionCache.Sub.refl []) hcache hlike
        (hcontained.readerShared hnodup hmem fun _ => id)
      cases hend
      refine ⟨schedule, .error e, y', rfl, id, ?_, hlike'⟩
      unfold processLockedBatchAsync
      rw [if_neg hqueue]
      exact Prog.exec_bindThrowing_iff.mpr (.inr ⟨e, hcache₂, rfl⟩)

/-! ## Two messages without subscriptions -/

/-- A message of the shop, locked. -/
def shopLocked (id : Guid) : OutboxMessage :=
  OutboxStore.lockRow (text "worker-1") (1000 + 300 * ticksPerSecond) (shopMessage id none)

def shopPair : List OutboxMessage := [shopLocked 10, shopLocked 11]

/-- Two locked messages of the shop. -/
def pairSession : BatchSession where
  host := ⟨⟨⟨shopPair, by decide⟩, Table.empty, 1000⟩, 0⟩
  log := []

/-- Nobody subscribes. -/
def noSubscriptions : SubscriptionReader := .database Table.empty none

theorem noSubscriptions_returns (message : OutboxMessage) :
    noSubscriptions.Returns (Deployment.binary .directSql) message [] :=
  ⟨[], List.Perm.refl _, rfl⟩

/-- The exception of a database that does not answer in time. -/
def sqlTimeout : Exn := ⟨false, text "Execution Timeout Expired."⟩

/-- The loops start their items as they please, and nothing is cancelled. -/
def uncanceled : BatchSchedule := ⟨⟨false, []⟩, fun _ => ⟨false, []⟩⟩

/-- Marking message 10 as processed throws. -/
def stopped : BatchSession where
  host := pairSession.host
  log := [⟨.getForMessage (shopLocked 10), Except.ok []⟩,
    ⟨.handling 10 (.markAsProcessed 10 (text "worker-1")), Except.error sqlTimeout⟩]

/-- The loop ends there, and message 11 is not started. -/
theorem stopped_exec : Prog.Exec (BatchSession.Exec (Deployment.binary .directSql)
    (shopPipeline .directDelivery).options noSubscriptions)
    ((shopPipeline .directDelivery).processLockedBatchAsync false uncanceled shopPair).run pairSession
    (.error sqlTimeout) stopped := by
  have hask : BatchSession.Exec (Deployment.binary .directSql)
      (shopPipeline .directDelivery).options noSubscriptions (.getForMessage (shopLocked 10))
      pairSession (Except.ok [])
      ⟨pairSession.host, [⟨.getForMessage (shopLocked 10), Except.ok []⟩]⟩ :=
    ⟨.effect le_rfl (.getForMessage (noSubscriptions_returns _)), rfl⟩
  have hmark : BatchSession.Exec (Deployment.binary .directSql)
      (shopPipeline .directDelivery).options noSubscriptions
      (.handling 10 (.markAsProcessed 10 (text "worker-1")))
      ⟨pairSession.host, [⟨.getForMessage (shopLocked 10), Except.ok []⟩]⟩
      (Except.error sqlTimeout) stopped :=
    ⟨.failed le_rfl rfl, rfl⟩
  exact .call hask (.call hmark (.ret _ _))

/-- **One exception ends the loop**: message 11 is not handled, and would have been without message
10. -/
theorem not_isolated_shop : ∃ x', Prog.Exec (BatchSession.Exec (Deployment.binary .directSql)
      (shopPipeline .directDelivery).options noSubscriptions)
      ((shopPipeline .directDelivery).processLockedBatchAsync false uncanceled shopPair).run
      pairSession (.error sqlTimeout) x' ∧
    NoCancellation (shopPipeline .directDelivery) uncanceled (shopLocked 10) x'.log ∧
    ¬ Isolated (Deployment.binary .directSql) noSubscriptions (shopPipeline .directDelivery) false
      uncanceled shopPair 10 pairSession x' := by
  refine ⟨stopped, stopped_exec, ⟨?_, ?_, ?_⟩, ?_⟩
  · intro entry hentry e he
    obtain rfl := List.mem_singleton.mp hentry
    cases he
    rfl
  · exact ExponentialBackoff.policy_calm {}
  · exact ⟨rfl, List.not_mem_nil⟩
  · rintro ⟨schedule', r', y', -, huncanceled, hexec, hlike⟩
    have hdirect : ¬ (shopPipeline .directDelivery).ToQueue false := fun h => by cases h.1
    have hdegree : (shopPipeline .directDelivery).DegreeOk := ⟨some 10, by decide⟩
    have hrest : (shopPair.filter fun m => m.id ≠ 10) = [shopLocked 11] := rfl
    rw [hrest, processLockedBatchAsync_direct (huncanceled ⟨rfl, List.not_mem_nil⟩) hdirect
      hdegree] at hexec
    rcases Prog.exec_bindThrowing_iff.mp hexec with ⟨subscriptions, y₁, -, hhandle⟩ | ⟨e, hask, -⟩
    · exact handled_ne_nil hhandle (hlike.handled 11 (by decide))
    · -- the reader throws nothing it did not throw in the first run
      obtain ⟨a, y₁, hcall, hret⟩ := Prog.exec_call_iff.mp hask
      obtain ⟨rfl, rfl⟩ := Prog.exec_ret_iff.mp hret
      have hthrew : ReaderThrew (shopLocked 11).cacheKey e y'.log := by
        refine ⟨shopLocked 11, rfl, ?_⟩
        rw [hcall.2]
        exact List.mem_append_right _ List.mem_cons_self
      obtain ⟨message, -, hmem⟩ := hlike.asked _ e hthrew
      rcases List.mem_cons.mp hmem with heq | hmem
      · cases heq
      · cases List.mem_singleton.mp hmem

/-- The shop sends its messages to a queue, and retries nothing. -/
def queueShop : Pipeline :=
  { shopPipeline .queueMediated with retryPolicy := ExponentialBackoff.policy { maxRetries := 0 } }

/-- A call in the handling of a message that does what it is for, and the rest. -/
theorem exec_handled {α : Type} {k : Guid} {c : Call} {a : c.Ans}
    {f : c.Ans → Prog BatchCall BatchCall.Ans α} {db : Database} {r : α}
    (h : Database.Effect dep c x.host.db a db)
    (hrest : Prog.Exec (BatchSession.Exec dep options reader) (f a)
      ⟨{ x.host with db := db }, x.log ++ [⟨.handling k c, a⟩]⟩ r x') :
    Prog.Exec (BatchSession.Exec dep options reader) (.call (.handling k c) f) x r x' :=
  .call ⟨Host.exec_handling_iff.mpr ⟨x.host.db.now, db, le_rfl, .effect h, rfl⟩, rfl⟩ hrest

/-- The publish of message 10 throws; the message is dead-lettered, and message 11 is published. -/
def deadLettered : List Entry :=
  [⟨.publish (shopLocked 10), Except.error sqlTimeout⟩, ⟨.nextDouble, (0 : ℚ)⟩,
    ⟨.markAsDeadLettered 10 (text "worker-1"), Except.ok true⟩,
    ⟨.addMetric .messagesDeadLettered (text "order.paid"), ()⟩]

theorem queueShop_exec : ∃ x', Prog.Exec (BatchSession.Exec (Deployment.binary .directSql)
      queueShop.options noSubscriptions)
      (queueShop.processLockedBatchAsync true uncanceled shopPair).run pairSession (.ok ()) x' ∧
    handled 10 x'.log = deadLettered :=
  ⟨_, exec_handled (.publish _ (.error sqlTimeout) _)
    (exec_handled (.nextDouble _ le_rfl one_pos)
    (exec_handled (.markAsDeadLettered _ _ _)
    (exec_handled (.addMetric _ _ _)
    (exec_handled (.publish _ (.ok ()) _)
    (exec_handled (.markAsProcessed _ _ _)
    (exec_handled (.addMetric _ _ _) (.ret _ _))))))), rfl⟩

/-- Message 11 fares as if message 10 were not in the batch. -/
theorem batch_isolates_shop : ∃ x', handled 10 x'.log = deadLettered ∧
    Isolated (Deployment.binary .directSql) noSubscriptions queueShop true uncanceled shopPair 10
      pairSession x' := by
  obtain ⟨x', hexec, hlog⟩ := queueShop_exec
  have hcalm : Calm (handled 10 x'.log) := by
    rw [hlog]
    intro entry hentry e he
    rcases List.mem_cons.mp hentry with rfl | hentry
    · cases he
      rfl
    · have hnone : entry.exn? = none := by
        simp only [List.mem_cons, List.not_mem_nil, or_false] at hentry
        rcases hentry with rfl | rfl | rfl <;> rfl
      rw [hnone] at he
      cases he
  refine ⟨x', hlog, batch_isolates (by decide) List.mem_cons_self rfl hexec
    ⟨hcalm, ExponentialBackoff.policy_calm _, rfl, List.not_mem_nil⟩ ⟨fun _ _ => ?_, fun _ => ?_⟩⟩
  · exact ⟨shopLocked 11, List.mem_cons_of_mem _ List.mem_cons_self, by decide, rfl⟩
  · rw [show handled (shopLocked 10).id x'.log = deadLettered from hlog]
    exact ⟨⟨.markAsDeadLettered 10 (text "worker-1"), Except.ok true⟩,
      List.mem_of_getElem? (i := 2) rfl, rfl⟩

end Pipeline

end OutboxNet
