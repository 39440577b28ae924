import Mathlib.Logic.Relation
import OutboxNet.Lib.Parallel

/-!
# Parallel loops as interleavings

The runs of a parallel loop in an environment, without the scheduler.  A *configuration* is the list of
the bodies started so far, the accumulators and the state of the environment; a *move* starts the next
body or advances one.  What a loop does under a schedule is a sequence of moves
(`forEachAsync_reaches`), and every sequence of moves that ends all bodies is what the loop does under
some schedule (`forEachAsync_of_reaches`).

Two facts follow.  A loop over one item is the body of that item (`forEachAsync_singleton`).  And items
can be erased from a loop: when their calls do not show in what the other bodies see, the moves of the
others are moves of the loop without them (`Reaches.erase`).
-/

set_option autoImplicit false

namespace Parallel

variable {C : Type} {A : C → Type} {Acc ε ι S : Type}

/-- A running loop in its environment. -/
structure Config (C : Type) (A : C → Type) (Acc ε S : Type) where
  threads : List (Body C A Acc ε)
  acc : Acc
  state : S

/-- The number of bodies in flight. -/
def inFlight (threads : List (Body C A Acc ε)) : ℕ := threads.countP fun b => !b.ended

/-- All bodies have ended. -/
def Ended (threads : List (Body C A Acc ε)) : Prop := ∀ b ∈ threads, b.ended = true

/-- Some body has thrown. -/
def Threw (threads : List (Body C A Acc ε)) : Prop := ∃ e, .ret (.error e) ∈ threads

section Reaches

variable (exec : (c : C) → S → A c → S → Prop) (limit : Option ℕ) (items : List ι)
variable (body : ι → Body C A Acc ε)

/-- One move of a loop. -/
inductive Move : Config C A Acc ε S → Config C A Acc ε S → Prop
  | start {x : ι} {c : Config C A Acc ε S} :
      items[c.threads.length]? = some x → limit.all (inFlight c.threads < ·) = true →
      Move c { c with threads := c.threads ++ [body x] }
  | upd {i : ℕ} {f : Acc → Acc} {k : Unit → Body C A Acc ε} {c : Config C A Acc ε S} :
      c.threads[i]? = some (.call (.upd f) k) →
      Move c { c with threads := c.threads.set i (k ()), acc := f c.acc }
  | ext {i : ℕ} {call : C} {k : A call → Body C A Acc ε} {a : A call} {s' : S}
      {c : Config C A Acc ε S} :
      c.threads[i]? = some (.call (.ext call) k) → exec call c.state a s' →
      Move c { c with threads := c.threads.set i (k a), state := s' }

/-- Any number of moves. -/
abbrev Reaches : Config C A Acc ε S → Config C A Acc ε S → Prop :=
  Relation.ReflTransGen (Move exec limit items body)

end Reaches

variable {exec : (c : C) → S → A c → S → Prop} {limit : Option ℕ} {items : List ι}
variable {body : ι → Body C A Acc ε}

/-! ## What a schedule does is a sequence of moves -/

/-- The exception noted by a pool has been thrown by one of its bodies. -/
def Pool.Noted (p : Pool C A Acc ε) : Prop := ∀ e, p.fault = some e → .ret (.error e) ∈ p.threads

/-- A body that has ended stays in place when another one moves. -/
theorem mem_set_of_ended {threads : List (Body C A Acc ε)} {i : ℕ} {l : Local C Acc}
    {k : l.Ans A → Body C A Acc ε} {b : Body C A Acc ε} {r : Except ε Unit}
    (hi : threads[i]? = some (.call l k)) (hr : .ret r ∈ threads) : .ret r ∈ threads.set i b := by
  obtain ⟨j, hj⟩ := List.getElem?_of_mem hr
  exact List.mem_of_getElem? (getElem?_set_of_ended hi hj)

/-- A scheduled part of a loop. -/
theorem Pool.steps_reaches {sched : List Choice} {p p' : Pool C A Acc ε} {s s' : S}
    (h : Prog.Exec exec (Pool.steps limit items body sched p) s p' s') (hnoted : p.Noted) :
    Reaches exec limit items body ⟨p.threads, p.acc, s⟩ ⟨p'.threads, p'.acc, s'⟩ ∧ p'.Noted ∧
      (p'.canceled = true → p.canceled = true ∨ .cancel ∈ sched) := by
  induction sched generalizing p s with
  | nil =>
      obtain ⟨rfl, rfl⟩ := Prog.exec_ret_iff.mp h
      exact ⟨.refl, hnoted, .inl⟩
  | cons ch sched ih =>
      obtain ⟨p₁, s₁, hstep, hrest⟩ := Prog.exec_bind_iff.mp h
      -- one choice is at most one move
      have hone : Reaches exec limit items body ⟨p.threads, p.acc, s⟩ ⟨p₁.threads, p₁.acc, s₁⟩ ∧
          p₁.Noted ∧ (p₁.canceled = true → p.canceled = true ∨ ch = .cancel) := by
        cases ch with
        | start =>
            simp only [Pool.step] at hstep
            split at hstep
            · next x hx =>
                split at hstep
                · next hlimit =>
                    obtain ⟨rfl, rfl⟩ := Prog.exec_ret_iff.mp hstep
                    refine ⟨.single (.start hx hlimit), fun e he => ?_, .inl⟩
                    exact List.mem_append_left _ (hnoted e he)
                · obtain ⟨rfl, rfl⟩ := Prog.exec_ret_iff.mp hstep
                  exact ⟨.refl, hnoted, .inl⟩
            · obtain ⟨rfl, rfl⟩ := Prog.exec_ret_iff.mp hstep
              exact ⟨.refl, hnoted, .inl⟩
        | advance i =>
            simp only [Pool.step] at hstep
            split at hstep
            · next b hb =>
                cases b with
                | ret r =>
                    obtain ⟨rfl, rfl⟩ := Prog.exec_ret_iff.mp hstep
                    refine ⟨.refl, fun e he => ?_, .inl⟩
                    cases r with
                    | ok u => exact hnoted e he
                    | error e' =>
                        cases hfault : p.fault with
                        | some e'' =>
                            refine hnoted e ?_
                            simpa [note, hfault] using he
                        | none =>
                            obtain rfl : e' = e := by simpa [note, hfault] using he
                            exact List.mem_of_getElem? hb
                | call l k =>
                    cases l with
                    | upd f =>
                        obtain ⟨rfl, rfl⟩ := Prog.exec_ret_iff.mp hstep
                        refine ⟨.single (.upd hb), fun e he => ?_, .inl⟩
                        exact mem_set_of_ended hb (hnoted e he)
                    | ext c =>
                        obtain ⟨a, s₂, hcall, hret⟩ := Prog.exec_call_iff.mp hstep
                        obtain ⟨rfl, rfl⟩ := Prog.exec_ret_iff.mp hret
                        refine ⟨.single (.ext hb hcall), fun e he => ?_, .inl⟩
                        exact mem_set_of_ended hb (hnoted e he)
            · obtain ⟨rfl, rfl⟩ := Prog.exec_ret_iff.mp hstep
              exact ⟨.refl, hnoted, .inl⟩
        | cancel =>
            obtain ⟨rfl, rfl⟩ := Prog.exec_ret_iff.mp hstep
            exact ⟨.refl, hnoted, fun _ => .inr rfl⟩
      obtain ⟨hreach₁, hnoted₁, hcancel₁⟩ := hone
      obtain ⟨hreach, hnoted', hcancel⟩ := ih hrest hnoted₁
      refine ⟨hreach₁.trans hreach, hnoted', fun hc => ?_⟩
      rcases hcancel hc with hc | hc
      · rcases hcancel₁ hc with hc | rfl
        · exact .inl hc
        · exact .inr List.mem_cons_self
      · exact .inr (List.mem_cons_of_mem _ hc)

/-- Running one body to its end. -/
theorem finish_reaches (limit : Option ℕ) (items : List ι) (body : ι → Body C A Acc ε)
    {b : Body C A Acc ε} {acc acc' : Acc} {r : Except ε Unit} {s s' : S}
    {threads : List (Body C A Acc ε)} {i : ℕ} (hb : threads[i]? = some b)
    (h : Prog.Exec exec (finish b acc) s (acc', r) s') :
    Reaches exec limit items body ⟨threads, acc, s⟩ ⟨threads.set i (.ret r), acc', s'⟩ := by
  induction b generalizing acc s threads with
  | ret r' =>
      obtain ⟨heq, rfl⟩ := Prog.exec_ret_iff.mp h
      cases heq
      obtain ⟨hlt, heq⟩ := List.getElem?_eq_some_iff.mp hb
      rw [← heq, List.set_getElem_self]
  | call l k ih =>
      have hlt : i < threads.length := (List.getElem?_eq_some_iff.mp hb).1
      cases l with
      | upd f =>
          have hset : (threads.set i (k ()))[i]? = some (k ()) := by simp [hlt]
          have hrest := ih () hset h
          rw [List.set_set] at hrest
          exact .head (.upd hb) hrest
      | ext c =>
          obtain ⟨a, s₁, hcall, hk⟩ := Prog.exec_call_iff.mp h
          have hset : (threads.set i (k a))[i]? = some (k a) := by simp [hlt]
          have hrest := ih a hset hk
          rw [List.set_set] at hrest
          exact .head (.ext hb hcall) hrest

/-- How the threads of a loop stand when no body is in flight, `fault` being the exception noted. -/
structure Rested (threads : List (Body C A Acc ε)) (fault : Option ε) : Prop where
  ended : Ended threads
  noted : ∀ e, fault = some e → .ret (.error e) ∈ threads
  ok : fault = none → ∀ b ∈ threads, b = .ret (.ok ())

/-- Finishing the bodies after a prefix that has ended. -/
theorem finishAll_reaches (limit : Option ℕ) (items : List ι) (body : ι → Body C A Acc ε)
    {bs : List (Body C A Acc ε)} (done : List (Body C A Acc ε)) {acc acc' : Acc}
    {fault fault' : Option ε} {s s' : S}
    (h : Prog.Exec exec (finishAll bs acc fault) s (acc', fault') s') (hended : Ended done)
    (hnoted : ∀ e, fault = some e → .ret (.error e) ∈ done ++ bs)
    (hok : fault = none → ∀ b ∈ done, b = .ret (.ok ())) :
    ∃ threads, Reaches exec limit items body ⟨done ++ bs, acc, s⟩ ⟨threads, acc', s'⟩ ∧
      threads.length = done.length + bs.length ∧ Rested threads fault' := by
  induction bs generalizing done acc fault s with
  | nil =>
      obtain ⟨heq, rfl⟩ := Prog.exec_ret_iff.mp h
      cases heq
      rw [List.append_nil] at hnoted ⊢
      exact ⟨done, .refl, rfl, hended, hnoted, hok⟩
  | cons b bs ih =>
      obtain ⟨⟨acc₁, r⟩, s₁, hfirst, hrest⟩ := Prog.exec_bind_iff.mp h
      have hb : (done ++ b :: bs)[done.length]? = some b := by simp
      have hreach := finish_reaches limit items body hb hfirst
      have hset : (done ++ b :: bs).set done.length (.ret r) = (done ++ [.ret r]) ++ bs := by simp
      rw [hset] at hreach
      have hended' : Ended (done ++ [.ret r]) := by
        intro b' hb'
        rcases List.mem_append.mp hb' with hb' | hb'
        · exact hended b' hb'
        · rw [List.mem_singleton.mp hb']
          rfl
      -- the exception noted is that of the body that has just ended, or an earlier one
      have hnoted' : ∀ e, note fault r = some e → .ret (.error e) ∈ (done ++ [.ret r]) ++ bs := by
        intro e he
        have hbefore : ∀ e', fault = some e' → .ret (.error e') ∈ (done ++ [.ret r]) ++ bs := by
          intro e' he'
          rcases List.mem_append.mp (hnoted e' he') with hmem | hmem
          · simp [hmem]
          · rcases List.mem_cons.mp hmem with heq | hmem
            · subst heq
              obtain ⟨heq, -⟩ := Prog.exec_ret_iff.mp hfirst
              cases heq
              simp
            · simp [hmem]
        cases r with
        | ok u => exact hbefore e he
        | error e' =>
            cases hfault : fault with
            | some e'' =>
                obtain rfl : e'' = e := by simpa [note, hfault] using he
                exact hbefore e'' hfault
            | none =>
                obtain rfl : e' = e := by simpa [note, hfault] using he
                simp
      have hok' : note fault r = none → ∀ b ∈ done ++ [.ret r], b = .ret (.ok ()) := by
        intro hnone b' hb'
        obtain ⟨hfault, rfl⟩ := note_eq_none.mp hnone
        rcases List.mem_append.mp hb' with hb' | hb'
        · exact hok hfault b' hb'
        · exact List.mem_singleton.mp hb'
      obtain ⟨threads, hreach', hlen, hrested⟩ := ih (done ++ [.ret r]) hrest hended' hnoted' hok'
      refine ⟨threads, hreach.trans hreach', ?_, hrested⟩
      rw [hlen, List.length_append, List.length_singleton, List.length_cons]
      omega

/-- One more body has ended, after others that returned. -/
theorem Rested.snoc {threads : List (Body C A Acc ε)} (h : Rested threads none)
    (r : Except ε Unit) : Rested (threads ++ [.ret r]) (note none r) where
  ended b hb := by
    rcases List.mem_append.mp hb with hb | hb
    · exact h.ended b hb
    · rw [List.mem_singleton.mp hb]
      rfl
  noted e he := by
    cases r with
    | ok u => cases he
    | error e' =>
        obtain rfl : e' = e := by simpa [note] using he
        simp
  ok hnone b hb := by
    obtain ⟨-, rfl⟩ := note_eq_none.mp hnone
    rcases List.mem_append.mp hb with hb | hb
    · exact h.ok rfl b hb
    · exact List.mem_singleton.mp hb

/-- Running the items left, once no body is in flight. -/
theorem startAll_reaches {xs : List ι} {threads : List (Body C A Acc ε)} {acc acc' : Acc}
    {fault fault' : Option ε} {s s' : S}
    (h : Prog.Exec exec (startAll body xs acc fault) s (acc', fault') s')
    (hlimit : limit.all (0 < ·) = true) (hxs : items.drop threads.length = xs)
    (hrested : Rested threads fault) :
    ∃ threads', Reaches exec limit items body ⟨threads, acc, s⟩ ⟨threads', acc', s'⟩ ∧
      Rested threads' fault' ∧ (fault' = none → items.length ≤ threads'.length) := by
  induction xs generalizing threads acc fault s with
  | nil =>
      obtain ⟨heq, rfl⟩ := Prog.exec_ret_iff.mp h
      cases heq
      exact ⟨threads, .refl, hrested, fun _ => List.drop_eq_nil_iff.mp hxs⟩
  | cons x xs ih =>
      cases fault with
      | some e =>
          obtain ⟨heq, rfl⟩ := Prog.exec_ret_iff.mp h
          cases heq
          exact ⟨threads, .refl, hrested, fun hnone => by cases hnone⟩
      | none =>
          -- with nothing in flight there is room for the body of `x`, which runs to its end
          obtain ⟨⟨acc₁, r⟩, s₁, hfirst, hrest⟩ := Prog.exec_bind_iff.mp h
          have hx : items[threads.length]? = some x := by
            rw [← List.head?_drop, hxs, List.head?_cons]
          have hidle : inFlight threads = 0 :=
            List.countP_eq_zero.mpr fun b hb => by simp [hrested.ended b hb]
          have hstart : Move exec limit items body ⟨threads, acc, s⟩
              ⟨threads ++ [body x], acc, s⟩ := .start hx (by rw [hidle]; exact hlimit)
          have hb : (threads ++ [body x])[threads.length]? = some (body x) := by simp
          have hreach := finish_reaches limit items body hb hfirst
          have hset : (threads ++ [body x]).set threads.length (.ret r) = threads ++ [.ret r] := by
            simp
          rw [hset] at hreach
          have hxs' : items.drop (threads ++ [(.ret r : Body C A Acc ε)]).length = xs := by
            rw [List.length_append, List.length_singleton, ← List.drop_drop, hxs, List.drop_one,
              List.tail_cons]
          obtain ⟨threads', hreach', hrested', hall⟩ := ih hrest hxs' (hrested.snoc r)
          exact ⟨threads', .head hstart (hreach.trans hreach'), hrested', hall⟩

/-- **A loop moves.** What a loop does under a schedule is a sequence of moves that leaves no body in
flight.  If it returns, all bodies have returned; if it throws, the token was cancelled or a body has
thrown the exception. -/
theorem forEachAsync_reaches {onCancel : ε} {sched : List Choice} {acc : Acc} {r : Except ε Acc}
    {s s' : S} (hlimit : limit.all (0 < ·) = true)
    (h : Prog.Exec exec (forEachAsync onCancel false limit sched items body acc) s r s') :
    ∃ threads acc', Reaches exec limit items body ⟨[], acc, s⟩ ⟨threads, acc', s'⟩ ∧
      Ended threads ∧ match r with
        | .ok acc'' => acc'' = acc' ∧ items.length ≤ threads.length ∧
            ∀ b ∈ threads, b = .ret (.ok ())
        | .error e => (.cancel ∈ sched ∧ e = onCancel) ∨ .ret (.error e) ∈ threads := by
  rw [forEachAsync, if_neg Bool.false_ne_true] at h
  obtain ⟨p, s₁, hsteps, h⟩ := Prog.exec_bind_iff.mp h
  obtain ⟨hreach₁, hnoted, hcancel⟩ := Pool.steps_reaches hsteps fun e he => by cases he
  -- the schedule is used up: what is in flight is finished, and then the items left are started
  obtain ⟨⟨acc₂, fault₂⟩, s₂, hfinish, h⟩ := Prog.exec_bind_iff.mp h
  obtain ⟨threads₂, hreach₂, hlen, hrested₂⟩ :=
    finishAll_reaches limit items body [] hfinish
      (fun b hb => by cases hb) hnoted (fun _ b hb => by cases hb)
  have hreach := hreach₁.trans hreach₂
  split at h
  · next hc =>
      obtain ⟨rfl, rfl⟩ := Prog.exec_ret_iff.mp h
      refine ⟨threads₂, acc₂, hreach, hrested₂.ended, .inl ⟨?_, rfl⟩⟩
      exact (hcancel hc).resolve_left Bool.false_ne_true
  · obtain ⟨⟨acc₃, fault₃⟩, s₃, hstart, h⟩ := Prog.exec_bind_iff.mp h
    have hdrop : items.drop threads₂.length = items.drop p.threads.length := by simp [hlen]
    obtain ⟨threads₃, hreach₃, hrested₃, hall⟩ := startAll_reaches hstart hlimit hdrop hrested₂
    cases fault₃ with
    | some e =>
        obtain ⟨rfl, rfl⟩ := Prog.exec_ret_iff.mp h
        exact ⟨threads₃, acc₃, hreach.trans hreach₃, hrested₃.ended, .inr (hrested₃.noted e rfl)⟩
    | none =>
        obtain ⟨rfl, rfl⟩ := Prog.exec_ret_iff.mp h
        exact ⟨threads₃, acc₃, hreach.trans hreach₃, hrested₃.ended, rfl, hall rfl,
          hrested₃.ok rfl⟩

/-! ## The limit -/

/-- A body that moves is in flight already. -/
theorem inFlight_set_le {threads : List (Body C A Acc ε)} {i : ℕ} {l : Local C Acc}
    {k : l.Ans A → Body C A Acc ε} (hi : threads[i]? = some (.call l k)) (b : Body C A Acc ε) :
    inFlight (threads.set i b) ≤ inFlight threads := by
  obtain ⟨hlt, hget⟩ := List.getElem?_eq_some_iff.mp hi
  have hmoving : (!(threads[i]).ended) = true := by
    rw [hget]
    rfl
  have hpos : 0 < threads.countP fun b => !b.ended :=
    List.countP_pos_iff.mpr ⟨threads[i], List.getElem_mem hlt, hmoving⟩
  unfold inFlight
  rw [List.countP_set hlt, if_pos hmoving]
  split <;> omega

/-- **A loop keeps its limit.** -/
theorem Reaches.inFlight_le {n : ℕ} {c c' : Config C A Acc ε S}
    (h : Reaches exec (some n) items body c c') (hc : inFlight c.threads ≤ n) :
    inFlight c'.threads ≤ n := by
  induction h with
  | refl => exact hc
  | @tail d _ _ hmove ih =>
      cases hmove with
      | @start x _ _ hlimit =>
          have hroom : inFlight d.threads < n := by simpa using hlimit
          have hone : inFlight [body x] ≤ 1 := List.countP_le_length
          show inFlight (d.threads ++ [body x]) ≤ n
          unfold inFlight at hroom hone ⊢
          rw [List.countP_append]
          omega
      | upd hi => exact (inFlight_set_le hi _).trans ih
      | ext hi _ => exact (inFlight_set_le hi _).trans ih

/-- The scheduler may start as many bodies as the limit allows before one of them moves. -/
theorem reaches_start {n : ℕ} (hlimit : ∀ m, limit = some m → n ≤ m) (hn : n ≤ items.length)
    (acc : Acc) (s : S) :
    Reaches exec limit items body ⟨[], acc, s⟩ ⟨(items.take n).map body, acc, s⟩ := by
  induction n with
  | zero => exact .refl
  | succ n ih =>
      have hreach := ih (fun m hm => (Nat.le_succ n).trans (hlimit m hm)) (by omega)
      have hlength : ((items.take n).map body).length = n := by
        rw [List.length_map, List.length_take]
        omega
      have hget : items[((items.take n).map body).length]? = some items[n] := by
        rw [hlength]
        exact List.getElem?_eq_getElem (by omega)
      have hroom : limit.all (inFlight ((items.take n).map body) < ·) = true := by
        cases limit with
        | none => rfl
        | some m =>
            have hle : inFlight ((items.take n).map body) ≤ n :=
              List.countP_le_length.trans (le_of_eq hlength)
            have hlt : n < m := hlimit m rfl
            simp only [Option.all_some, decide_eq_true_eq]
            omega
      have htake : (items.take (n + 1)).map body =
          (items.take n).map body ++ [body items[n]] := by
        rw [List.take_succ_eq_append_getElem (by omega), List.map_append]
        rfl
      rw [htake]
      exact hreach.tail (.start hget hroom)

/-! ## A sequence of moves is what some schedule does -/

/-- The moves as choices of the scheduler. -/
theorem Reaches.steps {c c' : Config C A Acc ε S} (h : Reaches exec limit items body c c') :
    ∃ sched, .cancel ∉ sched ∧ Prog.Exec exec
      (Pool.steps limit items body sched ⟨c.acc, c.threads, none, false⟩) c.state
      ⟨c'.acc, c'.threads, none, false⟩ c'.state := by
  induction h using Relation.ReflTransGen.head_induction_on with
  | refl => exact ⟨[], List.not_mem_nil, .ret _ _⟩
  | @head c₀ c₁ hmove _ ih =>
      obtain ⟨sched, hsched, hrest⟩ := ih
      cases hmove with
      | start hx hlimit =>
          refine ⟨.start :: sched, by simp [hsched], ?_⟩
          have hroom : limit.all
              ((⟨c₀.acc, c₀.threads, none, false⟩ : Pool C A Acc ε).inFlight < ·) = true := hlimit
          rw [Pool.steps, Pool.step]
          simp only [hx]
          rw [if_pos hroom]
          exact hrest
      | @upd i f k _ hi =>
          refine ⟨.advance i :: sched, by simp [hsched], ?_⟩
          rw [Pool.steps, Pool.step]
          simp only [hi]
          exact hrest
      | @ext i call k a s' _ hi hcall =>
          refine ⟨.advance i :: sched, by simp [hsched], ?_⟩
          rw [Pool.steps, Pool.step]
          simp only [hi]
          exact .call hcall hrest

/-- Bodies that have ended have nothing left to do. -/
theorem finishAll_of_ended (exec : (c : C) → S → A c → S → Prop) {threads : List (Body C A Acc ε)} (h : Ended threads) (acc : Acc)
    (fault : Option ε) (s : S) : ∃ fault', Prog.Exec exec (finishAll threads acc fault) s
      (acc, fault') s ∧ (fault' = none ↔ fault = none ∧ ¬ Threw threads) := by
  induction threads generalizing fault with
  | nil => exact ⟨fault, .ret _ _, by simp [Threw]⟩
  | cons b threads ih =>
      cases b with
      | call l k => cases h _ List.mem_cons_self
      | ret r =>
          obtain ⟨fault', hrest, hiff⟩ :=
            ih (fun b hb => h b (List.mem_cons_of_mem _ hb)) (note fault r)
          refine ⟨fault', hrest, hiff.trans ?_⟩
          cases r with
          | ok u => simp [note, Threw]
          | error e =>
              refine iff_of_false (fun h => ?_) fun h => h.2 ⟨e, List.mem_cons_self⟩
              cases (note_eq_none.mp h.1).2

/-- What follows the scheduled part of a loop. -/
def wrapUp (onCancel : ε) (items : List ι) (body : ι → Body C A Acc ε) (p : Pool C A Acc ε) :
    Prog C A (Except ε Acc) :=
  (finishAll p.threads p.acc p.fault).bind fun x =>
    if p.canceled then .ret (.error onCancel)
    else (startAll body (items.drop p.threads.length) x.1 x.2).bind fun y =>
      match y.2 with
      | some e => .ret (.error e)
      | none => .ret (.ok y.1)

/-- **Moves are a loop.** A sequence of moves that ends all bodies it starts, and starts all or has one
that throws, is what the loop does under some schedule. -/
theorem forEachAsync_of_reaches (onCancel : ε) {threads : List (Body C A Acc ε)} {acc acc' : Acc}
    {s s' : S} (h : Reaches exec limit items body ⟨[], acc, s⟩ ⟨threads, acc', s'⟩)
    (hended : Ended threads) (hall : items.length ≤ threads.length ∨ Threw threads) :
    ∃ sched r, .cancel ∉ sched ∧
      Prog.Exec exec (forEachAsync onCancel false limit sched items body acc) s r s' ∧
      (¬ Threw threads → r = .ok acc') := by
  obtain ⟨sched, hsched, hsteps⟩ := h.steps
  obtain ⟨fault, hfinish, hfault⟩ := finishAll_of_ended exec hended acc' none s'
  -- what is left after the schedule: nothing, or the exception noted
  have htail : ∃ r, Prog.Exec exec
      (wrapUp onCancel items body ⟨acc', threads, none, false⟩) s' r s' ∧
      (¬ Threw threads → r = .ok acc') := by
    cases fault with
    | some e =>
        have hthrew : Threw threads := by
          by_contra hno
          cases hfault.mpr ⟨rfl, hno⟩
        refine ⟨.error e, Prog.exec_bind_iff.mpr ⟨_, s', hfinish, ?_⟩, fun h => absurd hthrew h⟩
        show Prog.Exec exec ((startAll body (items.drop threads.length) acc' (some e)).bind _) s' _ s'
        cases items.drop threads.length <;> exact .ret _ _
    | none =>
        have hno : ¬ Threw threads := (hfault.mp rfl).2
        refine ⟨.ok acc', Prog.exec_bind_iff.mpr ⟨_, s', hfinish, ?_⟩, fun _ => rfl⟩
        show Prog.Exec exec ((startAll body (items.drop threads.length) acc' none).bind _) s' _ s'
        rw [List.drop_eq_nil_of_le (hall.resolve_right hno)]
        exact .ret _ _
  obtain ⟨r, hr, hok⟩ := htail
  refine ⟨sched, r, hsched, ?_, hok⟩
  rw [forEachAsync, if_neg Bool.false_ne_true]
  exact Prog.exec_bind_iff.mpr ⟨_, s', hsteps, hr⟩

theorem Pool.steps_append (sched sched' : List Choice) (p : Pool C A Acc ε) :
    Pool.steps limit items body (sched ++ sched') p =
      (Pool.steps limit items body sched p).bind (Pool.steps limit items body sched') := by
  induction sched generalizing p with
  | nil => rfl
  | cons ch sched ih =>
      rw [List.cons_append, Pool.steps, Pool.steps, Prog.bind_assoc]
      exact congrArg _ (funext ih)

/-- A sequence of moves that ends all bodies it starts is what the loop does under some schedule that
cancels the token in the end. -/
theorem forEachAsync_of_reaches_cancel (onCancel : ε) {threads : List (Body C A Acc ε)}
    {acc acc' : Acc} {s s' : S}
    (h : Reaches exec limit items body ⟨[], acc, s⟩ ⟨threads, acc', s'⟩) (hended : Ended threads) :
    ∃ sched, Prog.Exec exec (forEachAsync onCancel false limit sched items body acc) s
      (.error onCancel) s' := by
  obtain ⟨sched, -, hsteps⟩ := h.steps
  obtain ⟨fault, hfinish, -⟩ := finishAll_of_ended exec hended acc' none s'
  refine ⟨sched ++ [.cancel], ?_⟩
  rw [forEachAsync, if_neg Bool.false_ne_true, Pool.steps_append, Prog.bind_assoc]
  refine Prog.exec_bind_iff.mpr ⟨_, s', hsteps, ?_⟩
  show Prog.Exec exec (wrapUp onCancel items body ⟨acc', threads, none, true⟩) s' _ s'
  exact Prog.exec_bind_iff.mpr ⟨_, s', hfinish, .ret _ _⟩

/-! ## A loop depends on the bodies of its items only -/

section Congr

variable {body' : ι → Body C A Acc ε}

theorem Pool.steps_congr (h : ∀ x ∈ items, body x = body' x) (sched : List Choice)
    (p : Pool C A Acc ε) :
    Pool.steps limit items body sched p = Pool.steps limit items body' sched p := by
  induction sched generalizing p with
  | nil => rfl
  | cons ch sched ih =>
      have hstep : p.step limit items body ch = p.step limit items body' ch := by
        cases ch with
        | start =>
            simp only [Pool.step]
            split
            · next x hx => rw [h x (List.mem_of_getElem? hx)]
            · rfl
        | advance i => rfl
        | cancel => rfl
      rw [Pool.steps, Pool.steps, hstep]
      exact congrArg _ (funext ih)

theorem startAll_congr {xs : List ι} (h : ∀ x ∈ xs, body x = body' x) (acc : Acc)
    (fault : Option ε) : startAll (A := A) body xs acc fault = startAll body' xs acc fault := by
  induction xs generalizing acc fault with
  | nil => rfl
  | cons x xs ih =>
      cases fault with
      | some e => rfl
      | none =>
          rw [startAll, startAll, h x List.mem_cons_self]
          refine congrArg _ (funext fun r => ?_)
          exact ih (fun y hy => h y (List.mem_cons_of_mem _ hy)) _ _

theorem forEachAsync_congr (h : ∀ x ∈ items, body x = body' x) (onCancel : ε) (canceled : Bool)
    (sched : List Choice) (acc : Acc) :
    forEachAsync onCancel canceled limit sched items body acc =
      forEachAsync onCancel canceled limit sched items body' acc := by
  unfold forEachAsync
  rw [Pool.steps_congr h]
  split
  · rfl
  · refine congrArg _ (funext fun p => congrArg _ (funext fun x => ?_))
    rw [startAll_congr fun y hy => h y (List.mem_of_mem_drop hy)]

end Congr

/-! ## A loop over one item -/

/-- How a loop ends once its bodies have ended. -/
def conclude (y : Acc × Except ε Unit) : Prog C A (Except ε Acc) :=
  match y.2 with
  | .ok () => .ret (.ok y.1)
  | .error e => .ret (.error e)

section Singleton

variable {onCancel : ε} {x : ι} {acc : Acc} {sched : List Choice}

/-- Once the only body has thrown, nothing happens. -/
theorem steps_thrown (h : .cancel ∉ sched) (e : ε) :
    (Pool.steps limit [x] body sched ⟨acc, [.ret (.error e)], some e, false⟩).bind
      (wrapUp onCancel [x] body) = .ret (.error e) := by
  induction sched with
  | nil => rfl
  | cons ch sched ih =>
      have hrest := ih fun hmem => h (List.mem_cons_of_mem _ hmem)
      cases ch with
      | start => exact hrest
      | advance i =>
          cases i with
          | zero => exact hrest
          | succ i => exact hrest
      | cancel => exact absurd List.mem_cons_self h

/-- From the start of the only body on, the loop is that body. -/
theorem steps_one (h : .cancel ∉ sched) (b : Body C A Acc ε) :
    (Pool.steps limit [x] body sched ⟨acc, [b], none, false⟩).bind (wrapUp onCancel [x] body) =
      (finish b acc).bind conclude := by
  induction sched generalizing b acc with
  | nil =>
      show ((finish b acc).bind fun y => finishAll [] y.1 (note none y.2)).bind _ = _
      rw [Prog.bind_assoc]
      refine congrArg _ (funext fun y => ?_)
      obtain ⟨acc', (e | u)⟩ := y <;> rfl
  | cons ch sched ih =>
      have hsched : .cancel ∉ sched := fun hmem => h (List.mem_cons_of_mem _ hmem)
      cases ch with
      | start => exact ih hsched b
      | advance i =>
          cases i with
          | zero =>
              cases b with
              | ret r =>
                  cases r with
                  | ok u => exact ih hsched _
                  | error e => exact steps_thrown hsched e
              | call l k =>
                  cases l with
                  | upd f => exact ih hsched (k ())
                  | ext c => exact congrArg (Prog.call c) (funext fun a => ih hsched (k a))
          | succ i => exact ih hsched b
      | cancel => exact absurd List.mem_cons_self h

/-- **A loop over one item is the body of that item**, unless the token is cancelled. -/
theorem forEachAsync_singleton (h : .cancel ∉ sched) (hlimit : limit.all (0 < ·) = true) :
    forEachAsync onCancel false limit sched [x] body acc = (finish (body x) acc).bind conclude := by
  show (Pool.steps limit [x] body sched ⟨acc, [], none, false⟩).bind (wrapUp onCancel [x] body) = _
  induction sched with
  | nil =>
      show (((finish (body x) acc).bind fun r => startAll body [] r.1 (note none r.2)).bind _) = _
      rw [Prog.bind_assoc]
      refine congrArg _ (funext fun y => ?_)
      obtain ⟨acc', (e | u)⟩ := y <;> rfl
  | cons ch sched ih =>
      have hsched : .cancel ∉ sched := fun hmem => h (List.mem_cons_of_mem _ hmem)
      cases ch with
      | start =>
          have hroom : limit.all ((⟨acc, [], none, false⟩ : Pool C A Acc ε).inFlight < ·) = true :=
            hlimit
          rw [Pool.steps, Pool.step]
          simp only [List.length_nil, List.getElem?_cons_zero]
          rw [if_pos hroom]
          exact steps_one hsched (body x)
      | advance i => exact ih hsched
      | cancel => exact absurd List.mem_cons_self h

end Singleton

/-! ## Erasing items -/

section Erase

variable {keep : ι → Bool}

/-- The threads of the items that are kept. -/
def keepThreads (keep : ι → Bool) : List ι → List (Body C A Acc ε) → List (Body C A Acc ε)
  | x :: xs, b :: bs => if keep x then b :: keepThreads keep xs bs else keepThreads keep xs bs
  | _, _ => []

@[simp] theorem keepThreads_nil (xs : List ι) :
    keepThreads keep xs ([] : List (Body C A Acc ε)) = [] := by
  cases xs <;> rfl

theorem mem_keepThreads {xs : List ι} {bs : List (Body C A Acc ε)} {b : Body C A Acc ε} :
    b ∈ keepThreads keep xs bs ↔ ∃ (i : ℕ) (x : ι), xs[i]? = some x ∧ keep x = true ∧ bs[i]? = some b := by
  induction xs generalizing bs with
  | nil => simp [keepThreads]
  | cons x xs ih =>
      cases bs with
      | nil => simp
      | cons b' bs =>
          have hsplit : (∃ (i : ℕ) (y : ι), (x :: xs)[i]? = some y ∧ keep y = true ∧
              (b' :: bs)[i]? = some b) ↔ (keep x = true ∧ b' = b) ∨
              ∃ (i : ℕ) (y : ι), xs[i]? = some y ∧ keep y = true ∧ bs[i]? = some b := by
            constructor
            · rintro ⟨i, y, hy, hk, hb⟩
              cases i with
              | zero =>
                  cases hy
                  cases hb
                  exact .inl ⟨hk, rfl⟩
              | succ i => exact .inr ⟨i, y, hy, hk, hb⟩
            · rintro (⟨hk, rfl⟩ | ⟨i, y, hy, hk, hb⟩)
              · exact ⟨0, x, rfl, hk, rfl⟩
              · exact ⟨i + 1, y, hy, hk, hb⟩
          rw [keepThreads, hsplit, ← ih]
          split
          · next hk => simp [hk, eq_comm]
          · next hk => simp [hk]

/-- The next item, and the threads when it is started. -/
theorem keepThreads_append {xs : List ι} {bs : List (Body C A Acc ε)} {x : ι}
    (hx : xs[bs.length]? = some x) (b : Body C A Acc ε) :
    keepThreads keep xs (bs ++ [b]) = keepThreads keep xs bs ++ (if keep x then [b] else []) := by
  induction bs generalizing xs with
  | nil =>
      cases xs with
      | nil => cases hx
      | cons y ys =>
          cases hx
          simp [keepThreads]
  | cons b' bs ih =>
      cases xs with
      | nil => cases hx
      | cons y ys =>
          have hnext : ys[bs.length]? = some x := hx
          rw [List.cons_append, keepThreads, keepThreads, ih hnext]
          split <;> rfl

/-- A kept item is the next one of the loop over the kept items. -/
theorem getElem?_filter_keep {xs : List ι} {bs : List (Body C A Acc ε)} {x : ι}
    (hx : xs[bs.length]? = some x) (hk : keep x = true) :
    (xs.filter keep)[(keepThreads keep xs bs).length]? = some x := by
  induction bs generalizing xs with
  | nil =>
      cases xs with
      | nil => cases hx
      | cons y ys =>
          cases hx
          simp [hk]
  | cons b' bs ih =>
      cases xs with
      | nil => cases hx
      | cons y ys =>
          have hnext : ys[bs.length]? = some x := hx
          have hrest := ih hnext
          rw [keepThreads]
          by_cases hy : keep y = true
          · simpa [hy] using hrest
          · simpa [hy] using hrest

theorem inFlight_keepThreads_le (xs : List ι) (bs : List (Body C A Acc ε)) :
    inFlight (keepThreads keep xs bs) ≤ inFlight bs := by
  induction bs generalizing xs with
  | nil => simp
  | cons b bs ih =>
      cases xs with
      | nil => simp [keepThreads, inFlight]
      | cons x xs =>
          have hrest := ih xs
          simp only [inFlight, keepThreads, List.countP_cons] at hrest ⊢
          split
          · rw [List.countP_cons]
            omega
          · omega

/-- The thread of an item that is not kept does not show. -/
theorem keepThreads_set_drop {xs : List ι} {bs : List (Body C A Acc ε)} {i : ℕ} {x : ι}
    (hx : xs[i]? = some x) (hk : keep x = false) (b : Body C A Acc ε) :
    keepThreads keep xs (bs.set i b) = keepThreads keep xs bs := by
  induction xs generalizing bs i with
  | nil => cases hx
  | cons y ys ih =>
      cases bs with
      | nil => rfl
      | cons b' bs =>
          cases i with
          | zero =>
              cases hx
              simp [keepThreads, hk]
          | succ i =>
              have hy : ys[i]? = some x := hx
              simp only [List.set_cons_succ, keepThreads, ih hy]

/-- The thread of a kept item, and the threads when it moves. -/
theorem keepThreads_set_keep {xs : List ι} {bs : List (Body C A Acc ε)} {i : ℕ} {x : ι}
    {b : Body C A Acc ε} (hx : xs[i]? = some x) (hk : keep x = true) (hb : bs[i]? = some b) :
    ∃ j : ℕ, (keepThreads keep xs bs)[j]? = some b ∧
      ∀ b', keepThreads keep xs (bs.set i b') = (keepThreads keep xs bs).set j b' := by
  induction xs generalizing bs i with
  | nil => cases hx
  | cons y ys ih =>
      cases bs with
      | nil => cases hb
      | cons b₀ bs =>
          cases i with
          | zero =>
              cases hx
              cases hb
              refine ⟨0, by simp [keepThreads, hk], fun b' => by simp [keepThreads, hk]⟩
          | succ i =>
              obtain ⟨j, hj, hset⟩ := ih hx hb
              by_cases hy : keep y = true
              · refine ⟨j + 1, by simpa [keepThreads, hy] using hj, fun b' => ?_⟩
                simp [keepThreads, hy, hset b']
              · refine ⟨j, by simpa [keepThreads, hy] using hj, fun b' => ?_⟩
                simp [keepThreads, hy, hset b']

/-- What makes items erasable: a call of a body that is kept can be made in the state without the others
too, with the same answer, and a call of one that is not kept does not show there. -/
structure Erasable (exec : (c : C) → S → A c → S → Prop) (keep : ι → Bool) (P : ι → C → Prop)
    (R : S → S → Prop) : Prop where
  replay : ∀ x c s a s' t, keep x = true → P x c → R s t → exec c s a s' →
    ∃ t', exec c t a t' ∧ R s' t'
  absorb : ∀ x c s a s' t, keep x = false → P x c → R s t → exec c s a s' → R s' t

/-- The calls of a body, not its updates. -/
def OnCalls (P : C → Prop) : Local C Acc → Prop
  | .ext c => P c
  | .upd _ => True

/-- A loop, and the loop over the kept items. -/
structure Erased (keep : ι → Bool) (P : ι → C → Prop) (R : S → S → Prop) (items : List ι)
    (c d : Config C A Unit ε S) : Prop where
  threads : d.threads = keepThreads keep items c.threads
  state : R c.state d.state
  bound : c.threads.length ≤ items.length
  only : ∀ (i : ℕ) x b, items[i]? = some x → c.threads[i]? = some b → b.Only (OnCalls (P x))

variable {P : ι → C → Prop} {R : S → S → Prop} {body : ι → Body C A Unit ε}
variable {c c' d : Config C A Unit ε S}

/-- What holds of the calls of all bodies holds when one has moved. -/
theorem only_set {bs : List (Body C A Unit ε)} {i : ℕ} {x : ι} {b' : Body C A Unit ε}
    (hx : items[i]? = some x) (hb' : b'.Only (OnCalls (P x)))
    (h : ∀ (i : ℕ) x b, items[i]? = some x → bs[i]? = some b → b.Only (OnCalls (P x))) :
    ∀ (j : ℕ) y b, items[j]? = some y → (bs.set i b')[j]? = some b → b.Only (OnCalls (P y)) := by
  intro j y b hy hb
  rw [List.getElem?_set] at hb
  split at hb
  · next hij =>
      subst hij
      split at hb
      · cases hb
        rw [hx] at hy
        cases hy
        exact hb'
      · cases hb
  · exact h j y b hy hb

/-- Every thread belongs to an item. -/
theorem Erased.item (h : Erased keep P R items c d) {i : ℕ} {b : Body C A Unit ε}
    (hi : c.threads[i]? = some b) : ∃ x, items[i]? = some x :=
  ⟨_, List.getElem?_eq_getElem ((List.getElem?_eq_some_iff.mp hi).1.trans_le h.bound)⟩

/-- One move: of a kept item it is a move of the other loop, of one that is not it is none. -/
theorem Erased.move (hE : Erasable exec keep P R) (hbody : ∀ x ∈ items, (body x).Only (OnCalls (P x)))
    (h : Erased keep P R items c d) (hmove : Move exec limit items body c c') :
    ∃ d', Reaches exec limit (items.filter keep) body d d' ∧ Erased keep P R items c' d' := by
  cases hmove with
  | @start x _ hx hroom =>
      have honly : ∀ (i : ℕ) y b, items[i]? = some y → (c.threads ++ [body x])[i]? = some b →
          b.Only (OnCalls (P y)) := by
        intro i y b hy hb
        rcases getElem?_concat_cases hb with hb | ⟨rfl, rfl⟩
        · exact h.only i y b hy hb
        · rw [hx] at hy
          cases hy
          exact hbody _ (List.mem_of_getElem? hx)
      have hbound : (c.threads ++ [body x]).length ≤ items.length := by
        rw [List.length_append]
        exact (List.getElem?_eq_some_iff.mp hx).1
      -- the start of an erased body does not show; for a kept one there is at least as much room
      by_cases hk : keep x = true
      · have hnext : (items.filter keep)[d.threads.length]? = some x := by
          rw [h.threads]
          exact getElem?_filter_keep hx hk
        have hroom' : limit.all (inFlight d.threads < ·) = true := by
          rw [h.threads]
          cases limit with
          | none => rfl
          | some n =>
              have hlt : inFlight c.threads < n := by simpa using hroom
              simpa using (inFlight_keepThreads_le items c.threads).trans_lt hlt
        refine ⟨_, .single (.start hnext hroom'), ?_, h.state, hbound, honly⟩
        rw [keepThreads_append hx, if_pos hk, ← h.threads]
      · refine ⟨d, .refl, ?_, h.state, hbound, honly⟩
        rw [keepThreads_append hx, if_neg hk, List.append_nil, ← h.threads]
  | @upd i f k _ hi =>
      obtain ⟨x, hx⟩ := h.item hi
      have honly := only_set hx ((h.only i _ _ hx hi).2 ()) h.only
      have hbound : (c.threads.set i (k ())).length ≤ items.length := by
        rw [List.length_set]
        exact h.bound
      cases hk : keep x with
      | true =>
          obtain ⟨j, hj, hset⟩ := keepThreads_set_keep hx hk hi
          rw [← h.threads] at hj hset
          exact ⟨_, .single (.upd hj), (hset _).symm, h.state, hbound, honly⟩
      | false =>
          refine ⟨d, .refl, ?_, h.state, hbound, honly⟩
          rw [keepThreads_set_drop hx hk, ← h.threads]
  | @ext i call k a s' _ hi hcall =>
      obtain ⟨x, hx⟩ := h.item hi
      obtain ⟨hP, hrest⟩ := h.only i _ _ hx hi
      have honly := only_set hx (hrest a) h.only
      have hbound : (c.threads.set i (k a)).length ≤ items.length := by
        rw [List.length_set]
        exact h.bound
      cases hk : keep x with
      | true =>
          -- a kept body makes its call in the other state, too
          obtain ⟨t', hcall', hR⟩ := hE.replay _ _ _ _ _ _ hk hP h.state hcall
          obtain ⟨j, hj, hset⟩ := keepThreads_set_keep hx hk hi
          rw [← h.threads] at hj hset
          exact ⟨_, .single (.ext hj hcall'), (hset _).symm, hR, hbound, honly⟩
      | false =>
          refine ⟨d, .refl, ?_, hE.absorb _ _ _ _ _ _ hk hP h.state hcall, hbound, honly⟩
          rw [keepThreads_set_drop hx hk, ← h.threads]

/-- **The moves of the others are moves of the loop without the erased items.** -/
theorem Reaches.erase (hE : Erasable exec keep P R)
    (hbody : ∀ x ∈ items, (body x).Only (OnCalls (P x)))
    (hreach : Reaches exec limit items body c c') (h : Erased keep P R items c d) :
    ∃ d', Reaches exec limit (items.filter keep) body d d' ∧ Erased keep P R items c' d' := by
  induction hreach with
  | refl => exact ⟨d, .refl, h⟩
  | tail _ hmove ih =>
      obtain ⟨d₁, hreach₁, h₁⟩ := ih
      obtain ⟨d', hreach', h'⟩ := h₁.move hE hbody hmove
      exact ⟨d', hreach₁.trans hreach', h'⟩

/-- Running a program that belongs to an item that is kept. -/
theorem Erasable.exec_replay {α : Type} (hE : Erasable exec keep P R) {x : ι} (hk : keep x = true)
    {p : Prog C A α} {r : α} {s s' t : S} (h : Prog.Exec exec p s r s') (honly : p.Only (P x))
    (hR : R s t) : ∃ t', Prog.Exec exec p t r t' ∧ R s' t' := by
  induction h generalizing t with
  | ret a s => exact ⟨t, .ret a t, hR⟩
  | call hcall _ ih =>
      obtain ⟨t₁, hcall', hR₁⟩ := hE.replay _ _ _ _ _ _ hk honly.1 hR hcall
      obtain ⟨t', hrest, hR'⟩ := ih (honly.2 _) hR₁
      exact ⟨t', .call hcall' hrest, hR'⟩

/-- Running a program that belongs to an item that is not kept. -/
theorem Erasable.exec_absorb {α : Type} (hE : Erasable exec keep P R) {x : ι} (hk : keep x = false)
    {p : Prog C A α} {r : α} {s s' t : S} (h : Prog.Exec exec p s r s') (honly : p.Only (P x))
    (hR : R s t) : R s' t := by
  induction h with
  | ret a s => exact hR
  | call hcall _ ih => exact ih (honly.2 _) (hE.absorb _ _ _ _ _ _ hk honly.1 hR hcall)

theorem length_keepThreads {xs : List ι} {bs : List (Body C A Unit ε)}
    (h : xs.length ≤ bs.length) : (xs.filter keep).length ≤ (keepThreads keep xs bs).length := by
  induction xs generalizing bs with
  | nil => simp
  | cons x xs ih =>
      cases bs with
      | nil => simp at h
      | cons b bs =>
          have hrest := ih (Nat.le_of_succ_le_succ h)
          rw [keepThreads]
          by_cases hk : keep x = true
          · simpa [hk] using hrest
          · simpa [hk] using hrest

/-- **A loop without its erasable items.** If no erased body throws, the loop over the items that are
kept can do, under some schedule, what the bodies of these items did in the whole loop. -/
theorem forEachAsync_erase (hE : Erasable exec keep P R)
    (hbody : ∀ x ∈ items, (body x).Only (OnCalls (P x))) (onCancel : ε) {canceled : Bool}
    {sched : List Choice} {r : Except ε Unit} {s s' t : S} (hlimit : limit.all (0 < ·) = true)
    (h : Prog.Exec exec (forEachAsync onCancel canceled limit sched items body ()) s r s')
    (hR : R s t)
    (hquiet : r = .ok () ∨ ∀ threads acc', Reaches exec limit items body ⟨[], (), s⟩
      ⟨threads, acc', s'⟩ → ∀ (i : ℕ) x e, items[i]? = some x → keep x = false →
        threads[i]? ≠ some (.ret (.error e))) :
    ∃ sched' r' t', Prog.Exec exec
      (forEachAsync onCancel canceled limit sched' (items.filter keep) body ()) t r' t' ∧ R s' t' ∧
      (.cancel ∉ sched → .cancel ∉ sched') ∧ (r = .ok () → r' = .ok ()) := by
  cases canceled with
  | true =>
      rw [forEachAsync, if_pos rfl] at h
      obtain ⟨rfl, rfl⟩ := Prog.exec_ret_iff.mp h
      exact ⟨sched, .error onCancel, t, .ret _ _, hR, id, id⟩
  | false =>
      obtain ⟨threads, acc', hreach, hended, hresult⟩ := forEachAsync_reaches hlimit h
      have h₀ : Erased keep P R items (⟨[], (), s⟩ : Config C A Unit ε S) ⟨[], (), t⟩ :=
        ⟨by simp, hR, Nat.zero_le _, fun i x b _ hb => by simp at hb⟩
      obtain ⟨⟨threads', acc'', t'⟩, hreach', h'⟩ := hreach.erase hE hbody h₀
      have hthreads : threads' = keepThreads keep items threads := h'.threads
      have hended' : Ended threads' := by
        intro b hb
        rw [hthreads, mem_keepThreads] at hb
        obtain ⟨i, x, -, -, hb⟩ := hb
        exact hended b (List.mem_of_getElem? hb)
      cases r with
      | ok u =>
          obtain ⟨-, hlen, hok⟩ := hresult
          have hlen' : (items.filter keep).length ≤ threads'.length := by
            rw [hthreads]
            exact length_keepThreads hlen
          -- in a loop that returned no body has thrown
          have hno : ¬ Threw threads' := by
            rintro ⟨e, he⟩
            rw [hthreads, mem_keepThreads] at he
            obtain ⟨i, x, -, -, he⟩ := he
            cases hok _ (List.mem_of_getElem? he)
          obtain ⟨sched', r', hsched', hexec, hr'⟩ :=
            forEachAsync_of_reaches onCancel hreach' hended' (.inl hlen')
          exact ⟨sched', r', t', hexec, h'.state, fun _ => hsched', fun _ => hr' hno⟩
      | error e =>
          rcases hresult with ⟨hcancel, rfl⟩ | hthrew
          · obtain ⟨sched', hexec⟩ := forEachAsync_of_reaches_cancel e hreach' hended'
            exact ⟨sched', _, t', hexec, h'.state, fun hno => absurd hcancel hno, fun hr => by cases hr⟩
          · -- the body that has thrown is a kept one
            have hthrew' : Threw threads' := by
              obtain ⟨i, hi⟩ := List.getElem?_of_mem hthrew
              obtain ⟨x, hx⟩ := h'.item hi
              refine ⟨e, ?_⟩
              rw [hthreads, mem_keepThreads]
              refine ⟨i, x, hx, ?_, hi⟩
              by_contra hk
              have hquiet' := hquiet.resolve_left fun hr => by cases hr
              exact hquiet' threads acc' hreach i x e hx (by simpa using hk) hi
            obtain ⟨sched', r', hsched', hexec, -⟩ :=
              forEachAsync_of_reaches onCancel hreach' hended' (.inr hthrew')
            exact ⟨sched', r', t', hexec, h'.state, fun _ => hsched', fun hr => by cases hr⟩

end Erase

/-! ## What the bodies keep -/

section Keeps

variable {P : C → Prop} {possible : (c : C) → A c → Prop} {I : Acc → Prop}
variable {c c' : Config C A Acc ε S} {acc : Acc}

/-- A body whose calls satisfy `P` conforms to any protocol that asks for no more. -/
theorem BodyConforms.of_only {b : Body C A Acc ε} (h : b.Only (OnCalls P)) (d : ℕ) :
    BodyConforms (fun c (_ : Unit) _ _ => P c) (fun _ : Acc => (0 : ℕ)) (fun _ _ => True)
      (fun _ _ => True) (fun _ _ _ => True) b d () := by
  induction b generalizing d with
  | ret r => exact fun _ _ => trivial
  | call l k ih =>
      cases l with
      | ext c => exact fun _ _ a => ⟨(), h.1, trivial, ih a (h.2 a) d⟩
      | upd f => exact ⟨0, fun _ => rfl, ih () (h.2 ()) (d + 0)⟩

/-- **A loop makes the calls of its bodies.** -/
theorem forEachAsync_only (hanswer : ∀ c, Nonempty (A c))
    (hbody : ∀ x ∈ items, (body x).Only (OnCalls P)) (onCancel : ε) (canceled : Bool)
    (sched : List Choice) :
    (forEachAsync onCancel canceled limit sched items body acc).Only P := by
  have hD : Discipline (fun _ : Unit => True) (fun _ _ _ => True) (fun _ _ _ => True) :=
    ⟨fun _ _ => trivial, fun _ _ _ _ _ _ => trivial, fun _ _ _ _ _ _ => trivial,
      fun _ _ _ _ _ => trivial⟩
  have hconforms : ∀ x ∈ items, BodyConforms (fun c (_ : Unit) _ _ => P c) (fun _ : Acc => (0 : ℕ))
      (fun _ _ => True) (fun _ _ => True) (fun _ _ _ => True) (body x) 0 () :=
    fun x hx => BodyConforms.of_only (hbody x hx) 0
  have hP : ∀ (c : C) (s : Unit) (a : A c) (s' : Unit), P c → P c := fun _ _ _ _ => id
  exact Prog.Conforms.only (T := fun c _ _ _ => P c) hanswer hP
    (forEachAsync_conforms hD onCancel canceled limit sched trivial
      fun _ x hi => hconforms x (List.mem_of_getElem? hi))

/-- The updates of a body keep `I` of the accumulators, as long as its calls get possible answers. -/
def Keeps (possible : (c : C) → A c → Prop) (I : Acc → Prop) : Body C A Acc ε → Prop
  | .ret _ => True
  | .call (.upd f) k => (∀ acc, I acc → I (f acc)) ∧ Keeps possible I (k ())
  | .call (.ext c) k => ∀ a, possible c a → Keeps possible I (k a)

/-- The step. -/
theorem Move.keeps (hpossible : ∀ c s a s', exec c s a s' → possible c a)
    (hbody : ∀ x ∈ items, Keeps possible I (body x)) (h : Move exec limit items body c c')
    (hacc : I c.acc) (hthreads : ∀ b ∈ c.threads, Keeps possible I b) :
    I c'.acc ∧ ∀ b ∈ c'.threads, Keeps possible I b := by
  cases h with
  | start hx _ =>
      refine ⟨hacc, fun b hb => ?_⟩
      rcases List.mem_append.mp hb with hb | hb
      · exact hthreads b hb
      · rw [List.mem_singleton.mp hb]
        exact hbody _ (List.mem_of_getElem? hx)
  | upd hi =>
      obtain ⟨hf, hk⟩ := hthreads _ (List.mem_of_getElem? hi)
      refine ⟨hf _ hacc, fun b hb => ?_⟩
      rcases List.mem_or_eq_of_mem_set hb with hb | rfl
      · exact hthreads b hb
      · exact hk
  | ext hi hcall =>
      have hk := hthreads _ (List.mem_of_getElem? hi)
      refine ⟨hacc, fun b hb => ?_⟩
      rcases List.mem_or_eq_of_mem_set hb with hb | rfl
      · exact hthreads b hb
      · exact hk _ (hpossible _ _ _ _ hcall)

/-- The run: **what every update keeps holds of the result of the loop**. -/
theorem forEachAsync_keeps (hpossible : ∀ c s a s', exec c s a s' → possible c a)
    (hbody : ∀ x ∈ items, Keeps possible I (body x)) {onCancel : ε} {canceled : Bool}
    {sched : List Choice} {acc' : Acc} {s s' : S} (hlimit : limit.all (0 < ·) = true)
    (h : Prog.Exec exec (forEachAsync onCancel canceled limit sched items body acc) s (.ok acc') s')
    (hacc : I acc) : I acc' := by
  cases canceled with
  | true =>
      rw [forEachAsync, if_pos rfl] at h
      obtain ⟨heq, -⟩ := Prog.exec_ret_iff.mp h
      cases heq
  | false =>
      obtain ⟨threads, _, hreach, -, rfl, -⟩ := forEachAsync_reaches hlimit h
      have hrun : ∀ {c : Config C A Acc ε S}, Reaches exec limit items body ⟨[], acc, s⟩ c →
          I c.acc ∧ ∀ b ∈ c.threads, Keeps possible I b := by
        intro c hreach
        induction hreach with
        | refl => exact ⟨hacc, fun b hb => by cases hb⟩
        | tail _ hmove ih => exact hmove.keeps hpossible hbody ih.1 ih.2
      exact (hrun hreach).1

end Keeps

end Parallel
