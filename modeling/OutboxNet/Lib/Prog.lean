import Mathlib.Logic.Basic

/-!
# Programs as trees of calls

A program over an interface `C` of calls, `A c` being the type of the answers to the call `c`,
is a finite-depth tree: it returns a value, or it makes one call and continues with the answer.
The tree says nothing about what a call does; that is the environment's part, given as a relation
`exec c s a s'` ("in state `s` the call `c` may be answered with `a`, leaving state `s'`").
The same program can so be run alone (`Prog.Exec`), interleaved call by call with other programs,
or checked against a protocol (`Lib/Protocol.lean`).  `Prog.replay` computes one run, from a list of
replies that say how the calls are to be answered.
-/

set_option autoImplicit false

/-- A program making calls from `C` and returning a value of type `α`. -/
inductive Prog (C : Type) (A : C → Type) (α : Type) : Type
  | ret (a : α)
  | call (c : C) (k : A c → Prog C A α)

namespace Prog

variable {C : Type} {A : C → Type} {α β : Type}

/-- Sequential composition. -/
def bind : Prog C A α → (α → Prog C A β) → Prog C A β
  | .ret a, f => f a
  | .call c k, f => .call c fun a => (k a).bind f

/-- The program making the single call `c`. -/
def perform (c : C) : Prog C A (A c) := .call c .ret

instance : Monad (Prog C A) where
  pure := .ret
  bind := bind

@[simp] theorem pure_eq (a : α) : (pure a : Prog C A α) = .ret a := rfl

@[simp] theorem bind_eq (p : Prog C A α) (f : α → Prog C A β) : p >>= f = p.bind f := rfl

@[simp] theorem ret_bind (a : α) (f : α → Prog C A β) : (ret a : Prog C A α).bind f = f a := rfl

@[simp] theorem call_bind (c : C) (k : A c → Prog C A α) (f : α → Prog C A β) :
    (call c k).bind f = .call c fun a => (k a).bind f := rfl

theorem bind_assoc {γ : Type} (p : Prog C A α) (f : α → Prog C A β) (g : β → Prog C A γ) :
    (p.bind f).bind g = p.bind fun a => (f a).bind g := by
  induction p with
  | ret a => rfl
  | call c k ih => exact congrArg (Prog.call c) (funext ih)

/-- The call the program makes next, unless it has ended. -/
def next? : Prog C A α → Option C
  | .ret _ => none
  | .call c _ => some c

/-- No call of the program, under any answers, satisfies `P`. -/
def Never (P : C → Prop) : Prog C A α → Prop
  | .ret _ => True
  | .call c k => ¬ P c ∧ ∀ a, (k a).Never P

/-- Every call of the program, under any answers, satisfies `P`. -/
def Only (P : C → Prop) : Prog C A α → Prop
  | .ret _ => True
  | .call c k => P c ∧ ∀ a, (k a).Only P

theorem Only.bind {P : C → Prop} {p : Prog C A α} {f : α → Prog C A β} (hp : p.Only P)
    (hf : ∀ a, (f a).Only P) : (p.bind f).Only P := by
  induction p with
  | ret a => exact hf a
  | call c k ih => exact ⟨hp.1, fun a => ih a (hp.2 a)⟩

theorem only_true (p : Prog C A α) : p.Only fun _ => True := by
  induction p with
  | ret a => trivial
  | call c k ih => exact ⟨trivial, ih⟩

theorem Only.mono {P Q : C → Prop} (hPQ : ∀ c, P c → Q c) {p : Prog C A α} (h : p.Only P) :
    p.Only Q := by
  induction p with
  | ret a => trivial
  | call c k ih => exact ⟨hPQ c h.1, fun a => ih a (h.2 a)⟩

/-- Under some answers the program makes the call `c`. -/
def Calls (c : C) : Prog C A α → Prop
  | .ret _ => False
  | .call c' k => c' = c ∨ ∃ a, (k a).Calls c

/-- Under some answers the program returns `r`. -/
def Returns (r : α) : Prog C A α → Prop
  | .ret a => a = r
  | .call _ k => ∃ a, (k a).Returns r

theorem Calls.bind {c : C} {p : Prog C A α} {f : α → Prog C A β} (h : p.Calls c) :
    (p.bind f).Calls c := by
  induction p with
  | ret a => exact h.elim
  | call c' k ih =>
      rcases h with rfl | ⟨a, ha⟩
      · exact .inl rfl
      · exact .inr ⟨a, ih a ha⟩

/-- What is called after a value that the first part may return. -/
theorem Returns.calls_bind {r : α} {c : C} {p : Prog C A α} {f : α → Prog C A β} (h : p.Returns r)
    (hf : (f r).Calls c) : (p.bind f).Calls c := by
  induction p with
  | ret a =>
      obtain rfl := h
      exact hf
  | call c' k ih =>
      obtain ⟨a, ha⟩ := h
      exact .inr ⟨a, ih a ha⟩

theorem Returns.bind {r : α} {r' : β} {p : Prog C A α} {f : α → Prog C A β} (h : p.Returns r)
    (hf : (f r).Returns r') : (p.bind f).Returns r' := by
  induction p with
  | ret a =>
      obtain rfl := h
      exact hf
  | call c' k ih =>
      obtain ⟨a, ha⟩ := h
      exact ⟨a, ih a ha⟩

/-- A call the program makes is one of those it makes only. -/
theorem Only.calls {P : C → Prop} {c : C} {p : Prog C A α} (h : p.Only P) (hc : p.Calls c) : P c := by
  induction p with
  | ret a => exact hc.elim
  | call c' k ih =>
      rcases hc with rfl | ⟨a, ha⟩
      · exact h.1
      · exact ih a (h.2 a) ha

/-- Under every possible answers the program comes to a call that satisfies `P`. -/
def MustReach (possible : (c : C) → A c → Prop) (P : C → Prop) : Prog C A α → Prop
  | .ret _ => False
  | .call c k => P c ∨ ∀ a, possible c a → (k a).MustReach possible P

/-- The program with its calls made through another interface: the call `c` is made as `f c`, and `g`
reads its answer. -/
def mapCalls {C' : Type} {A' : C' → Type} (f : C → C') (g : ∀ c, A' (f c) → A c) :
    Prog C A α → Prog C' A' α
  | .ret a => .ret a
  | .call c k => .call (f c) fun a => (k (g c a)).mapCalls f g

theorem Only.mapCalls {C' : Type} {A' : C' → Type} {f : C → C'} {g : ∀ c, A' (f c) → A c}
    {P : C → Prop} {P' : C' → Prop} (hP : ∀ c, P c → P' (f c)) {p : Prog C A α} (h : p.Only P) :
    (p.mapCalls f g).Only P' := by
  induction p with
  | ret a => trivial
  | call c k ih => exact ⟨hP c h.1, fun a => ih (g c a) (h.2 (g c a))⟩

/-! ## Running a program alone -/

section Exec

variable {S : Type} (exec : (c : C) → S → A c → S → Prop)

/-- `p` started in state `s` may return `r` in state `s'`. -/
inductive Exec : Prog C A α → S → α → S → Prop
  | ret (a : α) (s : S) : Exec (.ret a) s a s
  | call {c : C} {k : A c → Prog C A α} {s s₁ s₂ : S} {a : A c} {r : α} :
      exec c s a s₁ → Exec (k a) s₁ r s₂ → Exec (.call c k) s r s₂

variable {exec}

@[simp] theorem exec_ret_iff {a r : α} {s s' : S} :
    Exec (A := A) exec (.ret a) s r s' ↔ r = a ∧ s' = s := by
  constructor
  · rintro ⟨⟩
    exact ⟨rfl, rfl⟩
  · rintro ⟨rfl, rfl⟩
    exact .ret _ _

theorem exec_call_iff {c : C} {k : A c → Prog C A α} {r : α} {s s' : S} :
    Exec exec (.call c k) s r s' ↔ ∃ a s₁, exec c s a s₁ ∧ Exec exec (k a) s₁ r s' := by
  constructor
  · intro h
    cases h with
    | call h₁ h₂ => exact ⟨_, _, h₁, h₂⟩
  · rintro ⟨a, s₁, h₁, h₂⟩
    exact .call h₁ h₂

/-- A larger environment has the runs of a smaller one. -/
theorem Exec.mono {exec' : (c : C) → S → A c → S → Prop}
    (hexec : ∀ c s a s', exec c s a s' → exec' c s a s') {p : Prog C A α} {r : α} {s s' : S}
    (h : Exec exec p s r s') : Exec exec' p s r s' := by
  induction h with
  | ret a s => exact .ret a s
  | call hcall _ ih => exact .call (hexec _ _ _ _ hcall) ih

/-- An environment that can answer every call runs every program to its end. -/
theorem exec_total (h : ∀ c s, ∃ a s', exec c s a s') (p : Prog C A α) (s : S) :
    ∃ r s', Exec exec p s r s' := by
  induction p generalizing s with
  | ret a => exact ⟨a, s, .ret a s⟩
  | call c k ih =>
      obtain ⟨a, s₁, h₁⟩ := h c s
      obtain ⟨r, s₂, h₂⟩ := ih a s₁
      exact ⟨r, s₂, .call h₁ h₂⟩

/-- Running a sequence. -/
theorem exec_bind_iff {p : Prog C A α} {f : α → Prog C A β} {r : β} {s s' : S} :
    Exec exec (p.bind f) s r s' ↔ ∃ a s₁, Exec exec p s a s₁ ∧ Exec exec (f a) s₁ r s' := by
  induction p generalizing s with
  | ret a =>
      constructor
      · intro h
        exact ⟨a, s, .ret a s, h⟩
      · rintro ⟨a', s₁, ⟨⟩, h⟩
        exact h
  | call c k ih =>
      simp only [call_bind, exec_call_iff, ih]
      constructor
      · rintro ⟨a, s₁, hc, b, s₂, hk, hf⟩
        exact ⟨b, s₂, ⟨a, s₁, hc, hk⟩, hf⟩
      · rintro ⟨b, s₂, ⟨a, s₁, hc, hk⟩, hf⟩
        exact ⟨a, s₁, hc, b, s₂, hk, hf⟩

/-- A program whose calls are made through another interface, in the environment seen through it. -/
theorem Exec.of_mapCalls {C' : Type} {A' : C' → Type} {f : C' → C} {g : ∀ c, A (f c) → A' c}
    {p : Prog C' A' α} {r : α} {s s' : S} (h : Exec exec (p.mapCalls f g) s r s') :
    Exec (fun c s a s' => ∃ a', g c a' = a ∧ exec (f c) s a' s') p s r s' := by
  induction p generalizing s with
  | ret a =>
      obtain ⟨rfl, rfl⟩ := exec_ret_iff.mp h
      exact .ret _ _
  | call c k ih =>
      obtain ⟨a, s₁, hcall, hrest⟩ := exec_call_iff.mp h
      exact .call ⟨a, rfl, hcall⟩ (ih _ hrest)

/-- What every call of the program keeps, the program keeps. -/
theorem Only.exec_invariant {P : C → Prop} {J : S → Prop}
    (hJ : ∀ c s a s', P c → J s → exec c s a s' → J s') {p : Prog C A α} {r : α} {s s' : S}
    (h : Exec exec p s r s') (honly : p.Only P) (hs : J s) : J s' := by
  induction h with
  | ret a s => exact hs
  | call hcall _ ih => exact ih (honly.2 _) (hJ _ _ _ _ honly.1 hs hcall)

/-! ## Replaying a run -/

variable {Q : Type} {serve : (c : C) → Q → S → Option (A c × S)}

/-- The run in which the calls are answered by a list of replies, one each. -/
def replay (serve : (c : C) → Q → S → Option (A c × S)) : Prog C A α → List Q → S → Option (α × S)
  | .ret a, [], s => some (a, s)
  | .ret _, _ :: _, _ => none
  | .call _ _, [], _ => none
  | .call c k, q :: qs, s =>
      match serve c q s with
      | some (a, s') => (k a).replay serve qs s'
      | none => none

/-- What is replayed is a run, if every reply is an answer. -/
theorem Exec.of_replay (hserve : ∀ c q s a s', serve c q s = some (a, s') → exec c s a s')
    {p : Prog C A α} {qs : List Q} {s s' : S} {r : α} (h : p.replay serve qs s = some (r, s')) :
    Exec exec p s r s' := by
  induction p generalizing qs s with
  | ret a =>
      cases qs with
      | nil =>
          cases h
          exact .ret _ _
      | cons => cases h
  | call c k ih =>
      cases qs with
      | nil => cases h
      | cons q qs =>
          rw [replay] at h
          split at h
          · next a s₁ hcall => exact .call (hserve _ _ _ _ _ hcall) (ih a h)
          · cases h

/-- The state in which a replayed run ends. -/
def reached (serve : (c : C) → Q → S → Option (A c × S)) (p : Prog C A α) (qs : List Q) (s : S) : S :=
  ((p.replay serve qs s).map Prod.snd).getD s

/-- A replayed run ends there. -/
theorem Exec.reached (hserve : ∀ c q s a s', serve c q s = some (a, s') → exec c s a s')
    {p : Prog C A α} {qs : List Q} {s : S} {r : α} (h : (p.replay serve qs s).map Prod.fst = some r) :
    Exec exec p s r (p.reached serve qs s) := by
  obtain ⟨⟨r', s'⟩, hreplay, heq⟩ := Option.map_eq_some_iff.mp h
  cases heq
  have hreached : p.reached serve qs s = s' := by
    rw [Prog.reached, hreplay]
    rfl
  rw [hreached]
  exact .of_replay hserve hreplay

end Exec

end Prog
