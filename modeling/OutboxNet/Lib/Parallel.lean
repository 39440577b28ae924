import Mathlib.Algebra.BigOperators.Group.Finset.Piecewise
import Mathlib.Tactic.Abel
import OutboxNet.Lib.Protocol

/-!
# Bounded parallel loops

A loop runs one *body* for each item of a list, several at a time.  A body makes calls of the outer
interface and, between them, atomic updates of accumulators shared by all bodies.  A *schedule* says
when a body starts, which one moves, and when the loop's token is cancelled; `forEachAsync` runs the
loop under a schedule and, when the schedule is used up, finishes what is still running.

Every interleaving of the bodies' atomic steps is the effect of some schedule, so a fact proved for
all schedules holds of every parallel execution.  A body that throws does not stop the others at
once: whether further bodies still start is up to the schedule, and the loop rethrows the first
exception when it ends.

The rule for loops, `forEachAsync_conforms`, is a rely-guarantee rule.  What the bodies add to the
accumulators is tracked in a commutative monoid, so the result is a sum over the items, whatever the
schedule.
-/

set_option autoImplicit false

namespace Parallel

variable {C : Type} {A : C → Type} {Acc ε ι : Type}

/-- One atomic step of a loop body: a call of the outer interface or an update of the accumulators. -/
inductive Local (C Acc : Type) : Type
  | ext (c : C)
  | upd (f : Acc → Acc)

/-- The answers to the steps of a body. -/
def Local.Ans (A : C → Type) : Local C Acc → Type
  | .ext c => A c
  | .upd _ => Unit

/-- The program of one loop body. -/
abbrev Body (C : Type) (A : C → Type) (Acc ε : Type) :=
  Prog (Local C Acc) (Local.Ans A) (Except ε Unit)

/-- One choice of the scheduler. -/
inductive Choice : Type
  | start
  | advance (i : ℕ)
  | cancel
deriving DecidableEq, Repr

/-- The state of a loop: the accumulators, the bodies started so far in the order of the items (a
body that has ended stays as its result), the first exception seen, and the token. -/
structure Pool (C : Type) (A : C → Type) (Acc ε : Type) where
  acc : Acc
  threads : List (Body C A Acc ε)
  fault : Option ε
  canceled : Bool

/-- Whether a body has ended. -/
def Body.ended : Body C A Acc ε → Bool
  | .ret _ => true
  | .call _ _ => false

/-- The number of bodies in flight. -/
def Pool.inFlight (p : Pool C A Acc ε) : ℕ := p.threads.countP fun b => !b.ended

/-- The exception a thread has ended with, noted unless an earlier one was. -/
def note (fault : Option ε) : Except ε Unit → Option ε
  | .ok () => fault
  | .error e => fault.or (some e)

/-- Moves the body in position `i` by one step. -/
def Pool.advance (p : Pool C A Acc ε) (i : ℕ) : Body C A Acc ε → Prog C A (Pool C A Acc ε)
  | .ret r => .ret { p with fault := note p.fault r }
  | .call (.upd f) k => .ret { p with acc := f p.acc, threads := p.threads.set i (k ()) }
  | .call (.ext c) k => .call c fun a => .ret { p with threads := p.threads.set i (k a) }

/-- One choice of the scheduler carried out; a choice that is not possible changes nothing. -/
def Pool.step (limit : Option ℕ) (items : List ι) (body : ι → Body C A Acc ε)
    (p : Pool C A Acc ε) : Choice → Prog C A (Pool C A Acc ε)
  | .start =>
      match items[p.threads.length]? with
      | some x =>
          if limit.all (p.inFlight < ·) then .ret { p with threads := p.threads ++ [body x] }
          else .ret p
      | none => .ret p
  | .advance i =>
      match p.threads[i]? with
      | some b => p.advance i b
      | none => .ret p
  | .cancel => .ret { p with canceled := true }

/-- The choices of a schedule carried out in turn. -/
def Pool.steps (limit : Option ℕ) (items : List ι) (body : ι → Body C A Acc ε) :
    List Choice → Pool C A Acc ε → Prog C A (Pool C A Acc ε)
  | [], p => .ret p
  | ch :: sched, p => (p.step limit items body ch).bind (Pool.steps limit items body sched)

/-- Runs one body to its end. -/
def finish : Body C A Acc ε → Acc → Prog C A (Acc × Except ε Unit)
  | .ret r, acc => .ret (acc, r)
  | .call (.upd f) k, acc => finish (k ()) (f acc)
  | .call (.ext c) k, acc => .call c fun a => finish (k a) acc

/-- Runs the bodies that are still in flight to their ends, one after another. -/
def finishAll : List (Body C A Acc ε) → Acc → Option ε → Prog C A (Acc × Option ε)
  | [], acc, fault => .ret (acc, fault)
  | b :: bs, acc, fault => (finish b acc).bind fun x => finishAll bs x.1 (note fault x.2)

/-- Starts and finishes the bodies of the items left, up to the first that throws. -/
def startAll (body : ι → Body C A Acc ε) : List ι → Acc → Option ε → Prog C A (Acc × Option ε)
  | [], acc, fault => .ret (acc, fault)
  | _ :: _, acc, some e => .ret (acc, some e)
  | x :: xs, acc, none => (finish (body x) acc).bind fun r => startAll body xs r.1 (note none r.2)

/-- The loop: at most `limit` bodies in flight, scheduled by `sched`, the token cancelled from the
beginning if `canceled`.  A cancelled token wins over an exception, an exception over the result. -/
def forEachAsync (onCancel : ε) (canceled : Bool) (limit : Option ℕ) (sched : List Choice)
    (items : List ι) (body : ι → Body C A Acc ε) (acc : Acc) : Prog C A (Except ε Acc) :=
  if canceled then .ret (.error onCancel)
  else (Pool.steps limit items body sched ⟨acc, [], none, false⟩).bind fun p =>
    (finishAll p.threads p.acc p.fault).bind fun x =>
      if p.canceled then .ret (.error onCancel)
      else (startAll body (items.drop p.threads.length) x.1 x.2).bind fun y =>
        match y.2 with
        | some e => .ret (.error e)
        | none => .ret (.ok y.1)

/-! ## The rule for one body -/

section Rule

variable {S M : Type} [AddCommMonoid M]
variable {T : (c : C) → S → A c → S → Prop} {abs : Acc → M}

/-- A body that, having added `d` to the accumulators so far, conforms to the protocol `T` from `s`:
the others may move the state by `R`, the body moves it by `G`, and it ends with a result `r`, a
contribution `d` and a state satisfying `Q r d`. -/
def BodyConforms (T : (c : C) → S → A c → S → Prop) (abs : Acc → M) (R G : S → S → Prop)
    (Q : Except ε Unit → M → S → Prop) : Body C A Acc ε → M → S → Prop
  | .ret r, d, s => ∀ s', R s s' → Q r d s'
  | .call (.upd f) k, d, s =>
      ∃ δ, (∀ acc, abs (f acc) = abs acc + δ) ∧ BodyConforms T abs R G Q (k ()) (d + δ) s
  | .call (.ext c) k, d, s => ∀ s₁, R s s₁ → ∀ a : A c, ∃ s₂,
      T c s₁ a s₂ ∧ G s₁ s₂ ∧ BodyConforms T abs R G Q (k a) d s₂

/-- Conformance of a body survives the moves of the others. -/
theorem BodyConforms.stable {R G : S → S → Prop} {Q : Except ε Unit → M → S → Prop}
    (htrans : ∀ s₁ s₂ s₃, R s₁ s₂ → R s₂ s₃ → R s₁ s₃) {b : Body C A Acc ε} {d : M} {s s' : S}
    (hR : R s s') (h : BodyConforms T abs R G Q b d s) : BodyConforms T abs R G Q b d s' := by
  induction b generalizing d with
  | ret r => exact fun s'' h'' => h s'' (htrans _ _ _ hR h'')
  | call l k ih =>
      cases l with
      | ext c => exact fun s₁ h₁ => h s₁ (htrans _ _ _ hR h₁)
      | upd f =>
          obtain ⟨δ, hδ, hk⟩ := h
          exact ⟨δ, hδ, ih () hk⟩

/-! ## The rule for loops -/

/-- What the bodies may rely on and must guarantee, one relation for each position: a relation relied
on is a preorder and allows every move the other positions may make; `K` is kept by every move. -/
structure Discipline (K : S → Prop) (R G : ℕ → S → S → Prop) : Prop where
  refl : ∀ i s, R i s s
  trans : ∀ i s₁ s₂ s₃, R i s₁ s₂ → R i s₂ s₃ → R i s₁ s₃
  guar : ∀ i j s s', i ≠ j → G i s s' → R j s s'
  keeps : ∀ i s s', K s → G i s s' → K s'

/-- The invariant of a loop, with the contribution `d i` of each position so far. -/
structure Pool.Inv (T : (c : C) → S → A c → S → Prop) (abs : Acc → M) (K : S → Prop)
    (R G : ℕ → S → S → Prop) (Q : ℕ → Except ε Unit → M → S → Prop) (items : List ι)
    (body : ι → Body C A Acc ε) (acc₀ acc : Acc) (threads : List (Body C A Acc ε))
    (fault : Option ε) (d : ℕ → M) (s : S) : Prop where
  frame : K s
  sum : abs acc = abs acc₀ + ∑ i ∈ Finset.range items.length, d i
  bound : threads.length ≤ items.length
  started : ∀ i b, threads[i]? = some b → BodyConforms T abs (R i) (G i) (Q i) b (d i) s
  pending : ∀ i x, threads.length ≤ i → items[i]? = some x →
    d i = 0 ∧ BodyConforms T abs (R i) (G i) (Q i) (body x) 0 s
  fault : ∀ e, fault = some e → ∃ i : ℕ, threads[i]? = some (Prog.ret (.error e))

/-- Adding `δ` to one position adds it to the sum. -/
theorem sum_update_add {n i : ℕ} (hi : i < n) (d : ℕ → M) (δ : M) :
    ∑ j ∈ Finset.range n, Function.update d i (d i + δ) j = ∑ j ∈ Finset.range n, d j + δ := by
  have hmem : i ∈ Finset.range n := Finset.mem_range.mpr hi
  rw [Finset.sum_update_of_mem hmem, ← Finset.add_sum_erase _ _ hmem,
    Finset.sdiff_singleton_eq_erase]
  abel

/-- With one more thread, a thread is one of the old ones or the new one. -/
theorem getElem?_concat_cases {threads : List (Body C A Acc ε)} {b b' : Body C A Acc ε} {i : ℕ}
    (h : (threads ++ [b])[i]? = some b') :
    threads[i]? = some b' ∨ (i = threads.length ∧ b' = b) := by
  rcases Nat.lt_or_ge i threads.length with hlt | hge
  · rw [List.getElem?_append_left hlt] at h
    exact .inl h
  · rw [List.getElem?_append_right hge, List.getElem?_singleton] at h
    split at h
    · next hzero =>
        cases h
        exact .inr ⟨by omega, rfl⟩
    · cases h

/-- A thread that has ended is not the one that moves. -/
theorem getElem?_set_of_ended {threads : List (Body C A Acc ε)} {i j : ℕ} {l : Local C Acc}
    {k : l.Ans A → Body C A Acc ε} {b : Body C A Acc ε} {r : Except ε Unit}
    (hi : threads[i]? = some (.call l k)) (hj : threads[j]? = some (.ret r)) :
    (threads.set i b)[j]? = some (.ret r) := by
  have hne : i ≠ j := by
    rintro rfl
    rw [hi] at hj
    cases hj
  rw [List.getElem?_set_ne hne]
  exact hj

section Inv

variable {K : S → Prop} {R G : ℕ → S → S → Prop} {Q : ℕ → Except ε Unit → M → S → Prop}
variable {items : List ι} {body : ι → Body C A Acc ε} {acc₀ acc : Acc}
variable {threads : List (Body C A Acc ε)} {fault : Option ε} {d : ℕ → M} {s : S}

/-- An update of the accumulators by one position. -/
theorem Pool.Inv.upd {i : ℕ} {f : Acc → Acc} {k : Unit → Body C A Acc ε}
    (h : Pool.Inv T abs K R G Q items body acc₀ acc threads fault d s)
    (hi : threads[i]? = some (.call (.upd f) k)) :
    ∃ d', Pool.Inv T abs K R G Q items body acc₀ (f acc) (threads.set i (k ())) fault d' s := by
  obtain ⟨δ, hδ, hk⟩ := h.started i _ hi
  have hlt : i < threads.length := (List.getElem?_eq_some_iff.mp hi).1
  refine ⟨Function.update d i (d i + δ), h.frame, ?_, ?_, ?_, ?_, ?_⟩
  · rw [hδ, h.sum, sum_update_add (hlt.trans_le h.bound), add_assoc]
  · rw [List.length_set]
    exact h.bound
  · intro j b hj
    rw [List.getElem?_set] at hj
    split at hj
    · next hij =>
        subst hij
        obtain rfl : k () = b := by simpa [hlt] using hj
        simpa using hk
    · next hij =>
        rw [Function.update_of_ne (Ne.symm hij)]
        exact h.started j b hj
  · intro j x hj hx
    rw [List.length_set] at hj
    rw [Function.update_of_ne (by omega)]
    exact h.pending j x hj hx
  · intro e he
    obtain ⟨j, hj⟩ := h.fault e he
    exact ⟨j, getElem?_set_of_ended hi hj⟩

/-- A call by one position. -/
theorem Pool.Inv.ext (hD : Discipline K R G) {i : ℕ} {c : C} {k : A c → Body C A Acc ε}
    (h : Pool.Inv T abs K R G Q items body acc₀ acc threads fault d s)
    (hi : threads[i]? = some (.call (.ext c) k)) (a : A c) :
    ∃ s', T c s a s' ∧
      Pool.Inv T abs K R G Q items body acc₀ acc (threads.set i (k a)) fault d s' := by
  obtain ⟨s', hT, hG, hk⟩ := h.started i _ hi s (hD.refl i s) a
  have hlt : i < threads.length := (List.getElem?_eq_some_iff.mp hi).1
  refine ⟨s', hT, hD.keeps i s s' h.frame hG, h.sum, by rw [List.length_set]; exact h.bound, ?_, ?_, ?_⟩
  · intro j b hj
    rw [List.getElem?_set] at hj
    split at hj
    · next hij =>
        subst hij
        obtain rfl : k a = b := by simpa [hlt] using hj
        exact hk
    · next hij => exact (h.started j b hj).stable (hD.trans j) (hD.guar i j s s' hij hG)
  · intro j x hj hx
    rw [List.length_set] at hj
    obtain ⟨hd, hb⟩ := h.pending j x hj hx
    exact ⟨hd, hb.stable (hD.trans j) (hD.guar i j s s' (by omega) hG)⟩
  · intro e he
    obtain ⟨j, hj⟩ := h.fault e he
    exact ⟨j, getElem?_set_of_ended hi hj⟩

/-- The start of the next body. -/
theorem Pool.Inv.start {x : ι} (h : Pool.Inv T abs K R G Q items body acc₀ acc threads fault d s)
    (hx : items[threads.length]? = some x) :
    Pool.Inv T abs K R G Q items body acc₀ acc (threads ++ [body x]) fault d s := by
  have hlt : threads.length < items.length := (List.getElem?_eq_some_iff.mp hx).1
  refine ⟨h.frame, h.sum, ?_, ?_, ?_, ?_⟩
  · rw [List.length_append]
    exact hlt
  · intro j b hj
    rcases getElem?_concat_cases hj with hj | ⟨rfl, rfl⟩
    · exact h.started j b hj
    · obtain ⟨hd, hb⟩ := h.pending _ x le_rfl hx
      rw [hd]
      exact hb
  · intro j y hj hy
    rw [List.length_append] at hj
    exact h.pending j y (Nat.le_of_succ_le hj) hy
  · intro e he
    obtain ⟨j, hj⟩ := h.fault e he
    refine ⟨j, ?_⟩
    rw [List.getElem?_append_left (List.getElem?_eq_some_iff.mp hj).1]
    exact hj

/-- The result of a thread is noted. -/
theorem Pool.Inv.note {i : ℕ} {r : Except ε Unit}
    (h : Pool.Inv T abs K R G Q items body acc₀ acc threads fault d s)
    (hi : threads[i]? = some (.ret r)) :
    Pool.Inv T abs K R G Q items body acc₀ acc threads (note fault r) d s := by
  refine ⟨h.frame, h.sum, h.bound, h.started, h.pending, ?_⟩
  intro e he
  cases r with
  | ok u => exact h.fault e he
  | error e' =>
      cases fault with
      | some e'' => exact h.fault e he
      | none =>
          obtain rfl : e' = e := by simpa [Parallel.note] using he
          exact ⟨i, hi⟩

@[simp] theorem note_eq_none {r : Except ε Unit} :
    Parallel.note fault r = none ↔ fault = none ∧ r = .ok () := by
  cases r with
  | ok u => simp [Parallel.note]
  | error e => cases fault <;> simp [Parallel.note]

/-! ## The rule for loops -/

/-- A scheduled part of the loop keeps the invariant. -/
theorem Pool.steps_conforms (hD : Discipline K R G) (limit : Option ℕ) (sched : List Choice)
    (p : Pool C A Acc ε)
    (h : Pool.Inv T abs K R G Q items body acc₀ p.acc p.threads p.fault d s) :
    (Pool.steps limit items body sched p).Conforms T
      (fun p' s' => (∃ d', Pool.Inv T abs K R G Q items body acc₀ p'.acc p'.threads p'.fault d' s') ∧
        (p'.canceled = true → p.canceled = true ∨ .cancel ∈ sched)) s := by
  induction sched generalizing p d s with
  | nil => exact ⟨⟨d, h⟩, fun hc => .inl hc⟩
  | cons ch sched ih =>
      -- what is left of the schedule, from a pool that satisfies the invariant again
      have rest : ∀ (p' : Pool C A Acc ε) d' s',
          Pool.Inv T abs K R G Q items body acc₀ p'.acc p'.threads p'.fault d' s' →
          (p'.canceled = true → p.canceled = true ∨ ch = .cancel) →
          (Pool.steps limit items body sched p').Conforms T
            (fun p'' s'' => (∃ d', Pool.Inv T abs K R G Q items body acc₀ p''.acc p''.threads
              p''.fault d' s'') ∧ (p''.canceled = true → p.canceled = true ∨ .cancel ∈ ch :: sched)) s' := by
        intro p' d' s' h' hc'
        refine (ih p' h').mono ?_
        rintro p'' s'' ⟨hI, hc⟩
        refine ⟨hI, fun hcc => ?_⟩
        rcases hc hcc with hcc' | hcc'
        · rcases hc' hcc' with h1 | rfl
          · exact .inl h1
          · exact .inr List.mem_cons_self
        · exact .inr (List.mem_cons_of_mem _ hcc')
      rw [Pool.steps]
      cases ch with
      | start =>
          simp only [Pool.step]
          split
          · next x hx =>
              split
              · exact rest _ d s (h.start hx) .inl
              · exact rest p d s h .inl
          · exact rest p d s h .inl
      | advance i =>
          simp only [Pool.step]
          split
          · next b hb =>
              cases b with
              | ret r => exact rest _ d s (h.note hb) .inl
              | call l k =>
                  cases l with
                  | upd f =>
                      obtain ⟨d', h'⟩ := h.upd hb
                      exact rest _ d' s h' .inl
                  | ext c =>
                      intro a
                      obtain ⟨s', hT, h'⟩ := h.ext hD hb a
                      exact ⟨s', hT, rest _ d s' h' .inl⟩
          · exact rest p d s h .inl
      | cancel => exact rest _ d s h fun _ => .inr rfl

/-- Running one thread to its end keeps the invariant. -/
theorem finish_conforms (hD : Discipline K R G) {i : ℕ} (b : Body C A Acc ε)
    (h : Pool.Inv T abs K R G Q items body acc₀ acc threads fault d s) (hb : threads[i]? = some b) :
    (finish b acc).Conforms T (fun x s' => ∃ d', Pool.Inv T abs K R G Q items body acc₀ x.1
      (threads.set i (.ret x.2)) (note fault x.2) d' s') s := by
  induction b generalizing acc threads d s with
  | ret r =>
      have hset : threads.set i (.ret r) = threads := by
        obtain ⟨hlt, heq⟩ := List.getElem?_eq_some_iff.mp hb
        rw [← heq, List.set_getElem_self]
      refine ⟨d, ?_⟩
      rw [hset]
      exact h.note hb
  | call l k ih =>
      have hlt : i < threads.length := (List.getElem?_eq_some_iff.mp hb).1
      cases l with
      | upd f =>
          obtain ⟨d', h'⟩ := h.upd hb
          have := ih () h' (by simp [hlt])
          simp only [List.set_set] at this
          exact this
      | ext c =>
          intro a
          obtain ⟨s', hT, h'⟩ := h.ext hD hb a
          refine ⟨s', hT, ?_⟩
          have := ih a h' (by simp [hlt])
          simpa only [List.set_set] using this

/-- Finishing the threads after a prefix that has ended, without an exception or with it noted. -/
theorem finishAll_conforms (hD : Discipline K R G) (bs done : List (Body C A Acc ε))
    (h : Pool.Inv T abs K R G Q items body acc₀ acc (done ++ bs) fault d s)
    (hdone : fault = none → ∀ b ∈ done, b = .ret (.ok ())) :
    (finishAll bs acc fault).Conforms T (fun x s' => ∃ threads' d',
      threads'.length = done.length + bs.length ∧
      Pool.Inv T abs K R G Q items body acc₀ x.1 threads' x.2 d' s' ∧
      (x.2 = none → ∀ b ∈ threads', b = .ret (.ok ()))) s := by
  induction bs generalizing done acc fault d s with
  | nil =>
      rw [List.append_nil] at h
      exact ⟨done, d, rfl, h, hdone⟩
  | cons b bs ih =>
      have hb : (done ++ b :: bs)[done.length]? = some b := by simp
      refine (finish_conforms hD b h hb).bind ?_
      rintro ⟨acc', r⟩ s' ⟨d', h'⟩
      have hset : (done ++ b :: bs).set done.length (.ret r) = (done ++ [.ret r]) ++ bs := by simp
      rw [hset] at h'
      have hdone' : note fault r = none → ∀ b ∈ done ++ [Prog.ret r], b = .ret (.ok ()) := by
        intro hn b hb
        obtain ⟨hf, rfl⟩ := note_eq_none.mp hn
        rcases List.mem_append.mp hb with hb | hb
        · exact hdone hf b hb
        · exact List.mem_singleton.mp hb
      refine (ih (done ++ [.ret r]) h' hdone').mono ?_
      rintro x s'' ⟨threads', d'', hlen, hI, hok⟩
      refine ⟨threads', d'', ?_, hI, hok⟩
      rw [hlen]
      simp only [List.length_append, List.length_cons, List.length_nil]
      omega

/-- Running the items left, once all started threads have ended. -/
theorem startAll_conforms (hD : Discipline K R G) (xs : List ι)
    (h : Pool.Inv T abs K R G Q items body acc₀ acc threads fault d s)
    (hxs : items.drop threads.length = xs)
    (hok : fault = none → ∀ b ∈ threads, b = .ret (.ok ())) :
    (startAll body xs acc fault).Conforms T (fun x s' => ∃ threads' d',
      Pool.Inv T abs K R G Q items body acc₀ x.1 threads' x.2 d' s' ∧
      (x.2 = none → threads'.length = items.length ∧ ∀ b ∈ threads', b = .ret (.ok ()))) s := by
  induction xs generalizing threads acc fault d s with
  | nil =>
      refine ⟨threads, d, h, fun hf => ⟨?_, hok hf⟩⟩
      exact le_antisymm h.bound (List.drop_eq_nil_iff.mp hxs)
  | cons x xs ih =>
      cases fault with
      | some e => exact ⟨threads, d, h, fun hf => by cases hf⟩
      | none =>
          have hx : items[threads.length]? = some x := by
            rw [← List.head?_drop, hxs, List.head?_cons]
          have hb : (threads ++ [body x])[threads.length]? = some (body x) := by simp
          refine (finish_conforms hD (body x) (h.start hx) hb).bind ?_
          rintro ⟨acc', r⟩ s' ⟨d', h'⟩
          have hset : (threads ++ [body x]).set threads.length (.ret r) = threads ++ [.ret r] := by
            simp
          rw [hset] at h'
          refine ih h' ?_ ?_
          · rw [List.length_append, List.length_singleton, ← List.drop_drop, hxs, List.drop_one,
              List.tail_cons]
          · intro hn b hb
            obtain ⟨-, rfl⟩ := note_eq_none.mp hn
            rcases List.mem_append.mp hb with hb | hb
            · exact hok rfl b hb
            · exact List.mem_singleton.mp hb

/-- **The rule for loops.** If every body conforms on its own, relying only on what the others
guarantee, then the loop conforms under every schedule.  If it ends without an exception, every body
has ended without one, and the accumulators have grown by the sum of the contributions; otherwise
the token was cancelled or some body threw the exception. -/
theorem forEachAsync_conforms (hD : Discipline K R G) (onCancel : ε) (canceled : Bool)
    (limit : Option ℕ) (sched : List Choice) (hK : K s)
    (hbody : ∀ i x, items[i]? = some x → BodyConforms T abs (R i) (G i) (Q i) (body x) 0 s) :
    (forEachAsync onCancel canceled limit sched items body acc).Conforms T
      (fun r s' => K s' ∧ match r with
        | .ok acc' => ∃ d : ℕ → M,
            abs acc' = abs acc + ∑ i ∈ Finset.range items.length, d i ∧
            ∀ i < items.length, Q i (.ok ()) (d i) s'
        | .error e => ((canceled = true ∨ .cancel ∈ sched) ∧ e = onCancel) ∨
            ∃ i < items.length, ∃ d, Q i (.error e) d s') s := by
  unfold forEachAsync
  split
  · next hc => exact ⟨hK, .inl ⟨.inl hc, rfl⟩⟩
  next hc =>
  have h₀ : Pool.Inv T abs K R G Q items body acc acc [] none (fun _ => 0) s :=
    ⟨hK, by simp, Nat.zero_le _, by simp, fun i x _ hx => ⟨rfl, hbody i x hx⟩, by simp⟩
  refine (Pool.steps_conforms hD limit sched ⟨acc, [], none, false⟩ h₀).bind ?_
  rintro p s₁ ⟨⟨d₁, h₁⟩, hcancel⟩
  -- the schedule is used up: what is in flight is finished, and then the items left are started
  refine (finishAll_conforms hD p.threads [] h₁ (by simp)).bind ?_
  rintro x s₂ ⟨threads₂, d₂, hlen₂, h₂, hok₂⟩
  rw [List.length_nil, Nat.zero_add] at hlen₂
  split
  · next hpc =>
      rcases hcancel hpc with h | h
      · cases h
      · exact ⟨h₂.frame, .inl ⟨.inr h, rfl⟩⟩
  refine (startAll_conforms hD _ h₂ (by rw [hlen₂]) hok₂).bind ?_
  rintro ⟨acc₃, fault₃⟩ s₃ ⟨threads₃, d₃, h₃, hok₃⟩
  have hend : ∀ i b, threads₃[i]? = some b → i < items.length := fun i b hi =>
    (List.getElem?_eq_some_iff.mp hi).1.trans_le h₃.bound
  cases fault₃ with
  | some e =>
      obtain ⟨i, hi⟩ := h₃.fault e rfl
      exact ⟨h₃.frame, .inr ⟨i, hend i _ hi, d₃ i, h₃.started i _ hi s₃ (hD.refl i s₃)⟩⟩
  | none =>
      obtain ⟨hlen, hall⟩ := hok₃ rfl
      refine ⟨h₃.frame, d₃, h₃.sum, fun i hi => ?_⟩
      have hi' : threads₃[i]? = some (.ret (.ok ())) := by
        rw [← hlen] at hi
        rw [List.getElem?_eq_getElem hi, hall _ (List.getElem_mem hi)]
      exact h₃.started i _ hi' s₃ (hD.refl i s₃)

end Inv

end Rule

end Parallel
