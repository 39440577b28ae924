import OutboxNet.Lib.Prog

/-!
# Conformance of a program to a protocol

A *protocol* is a transition relation `T c s a s'` on abstract states: in state `s` the call `c` may
be made, and when it is answered with `a` the state may become `s'`.  A program *conforms* from `s`
when every call it makes is allowed by the protocol whatever the answers so far were, and it ends in
a state satisfying the postcondition.

Conformance is checked once for a program, in isolation.  `Conforms.exec` then transfers it to any
environment: an invariant that relates abstract states to concrete ones and is kept by every joint
step holds, with the postcondition, whenever the program returns.
-/

set_option autoImplicit false

namespace Prog

variable {C : Type} {A : C → Type} {α β S : Type}
variable {T : (c : C) → S → A c → S → Prop}

/-- Started in abstract state `s`, the program makes only calls the protocol `T` allows, and returns
only in states satisfying `Q`. -/
def Conforms (T : (c : C) → S → A c → S → Prop) (Q : α → S → Prop) : Prog C A α → S → Prop
  | .ret a, s => Q a s
  | .call c k, s => ∀ a, ∃ s', T c s a s' ∧ (k a).Conforms T Q s'

@[simp] theorem conforms_ret {Q : α → S → Prop} {a : α} {s : S} :
    (ret a : Prog C A α).Conforms T Q s ↔ Q a s := Iff.rfl

@[simp] theorem conforms_call {Q : α → S → Prop} {c : C} {k : A c → Prog C A α} {s : S} :
    (call c k).Conforms T Q s ↔ ∀ a, ∃ s', T c s a s' ∧ (k a).Conforms T Q s' := Iff.rfl

theorem Conforms.mono {Q Q' : α → S → Prop} (h : ∀ a s, Q a s → Q' a s) {p : Prog C A α} {s : S}
    (hp : p.Conforms T Q s) : p.Conforms T Q' s := by
  induction p generalizing s with
  | ret a => exact h a s hp
  | call c k ih =>
      intro a
      obtain ⟨s', hT, hk⟩ := hp a
      exact ⟨s', hT, ih a hk⟩

/-- A protocol may be replaced by a larger one. -/
theorem Conforms.mono_trans {T' : (c : C) → S → A c → S → Prop} {Q : α → S → Prop}
    {p : Prog C A α} {s : S} (hp : p.Conforms T Q s)
    (h : ∀ {c s a s'}, T c s a s' → T' c s a s') : p.Conforms T' Q s := by
  induction p generalizing s with
  | ret a => exact hp
  | call c k ih =>
      intro a
      obtain ⟨s', hT, hk⟩ := hp a
      exact ⟨s', h hT, ih a hk⟩

/-- A protocol may be followed by another one, on states of its own. -/
theorem Conforms.simulate {S' : Type} {T' : (c : C) → S' → A c → S' → Prop} (R : S → S' → Prop)
    {Q : α → S → Prop} {Q' : α → S' → Prop}
    (hT : ∀ c s a s' u, R s u → T c s a s' → ∃ u', T' c u a u' ∧ R s' u')
    (hQ : ∀ a s u, R s u → Q a s → Q' a u) {p : Prog C A α} {s : S} {u : S'} (hp : p.Conforms T Q s)
    (hR : R s u) : p.Conforms T' Q' u := by
  induction p generalizing s u with
  | ret a => exact hQ a s u hR hp
  | call c k ih =>
      intro a
      obtain ⟨s', h, hk⟩ := hp a
      obtain ⟨u', hT', hR'⟩ := hT c s a s' u hR h
      exact ⟨u', hT', ih a hk hR'⟩

theorem Conforms.bind {Q : α → S → Prop} {Q' : β → S → Prop} {p : Prog C A α}
    {f : α → Prog C A β} {s : S} (hp : p.Conforms T Q s)
    (hf : ∀ a s', Q a s' → (f a).Conforms T Q' s') : (p.bind f).Conforms T Q' s := by
  induction p generalizing s with
  | ret a => exact hf a s hp
  | call c k ih =>
      intro a
      obtain ⟨s', hT, hk⟩ := hp a
      exact ⟨s', hT, ih a hk⟩

/-- An abstract state may be replaced by one that allows at least as much. -/
theorem Conforms.of_le {Q Q' : α → S → Prop} {p : Prog C A α} {s₀ s₁ : S}
    (hT : ∀ c a s', T c s₁ a s' → T c s₀ a s') (hQ : ∀ a, Q a s₁ → Q' a s₀)
    (hQQ : ∀ a s, Q a s → Q' a s) (hp : p.Conforms T Q s₁) : p.Conforms T Q' s₀ := by
  cases p with
  | ret a => exact hQ a hp
  | call c k =>
      intro a
      obtain ⟨s', h, hk⟩ := hp a
      exact ⟨s', hT c a s' h, hk.mono hQQ⟩

/-- A conforming program makes only the calls its protocol has. -/
theorem Conforms.only {P : C → Prop} {Q : α → S → Prop} (hanswer : ∀ c, Nonempty (A c))
    (hP : ∀ c s a s', T c s a s' → P c) {p : Prog C A α} {s : S} (hp : p.Conforms T Q s) :
    p.Only P := by
  induction p generalizing s with
  | ret a => trivial
  | call c k ih =>
      constructor
      · obtain ⟨a⟩ := hanswer c
        obtain ⟨s', hT, -⟩ := hp a
        exact hP _ _ _ _ hT
      · intro a
        obtain ⟨s', -, hk⟩ := hp a
        exact ih a hk

/-- A program of calls that a state allows and that leave it as it is. -/
theorem Only.conforms {P : C → Prop} {s : S} (hT : ∀ c a, P c → T c s a s) {p : Prog C A α}
    (h : p.Only P) : p.Conforms T (fun _ s' => s' = s) s := by
  induction p with
  | ret a => rfl
  | call c k ih => exact fun a => ⟨s, hT c a h.1, ih a (h.2 a)⟩

theorem conforms_perform {c : C} {Q : A c → S → Prop} {s : S}
    (h : ∀ a, ∃ s', T c s a s' ∧ Q a s') : (perform c : Prog C A (A c)).Conforms T Q s := h

/-! ## Programs that may throw -/

section Throwing

variable {ε : Type}

/-- Sequencing: the continuation runs on a value, an exception skips it. -/
theorem Conforms.bindThrowing {Q : Except ε α → S → Prop} {Q' : Except ε β → S → Prop}
    {x : ExceptT ε (Prog C A) α} {f : α → ExceptT ε (Prog C A) β} {s : S}
    (hx : Conforms T Q x.run s) (hok : ∀ a s', Q (.ok a) s' → Conforms T Q' (f a).run s')
    (herr : ∀ e s', Q (.error e) s' → Q' (.error e) s') : Conforms T Q' (x >>= f).run s := by
  refine Conforms.bind hx ?_
  rintro (e | a) s' h
  · exact herr e s' h
  · exact hok a s' h

theorem Only.bindThrowing {P : C → Prop} {x : ExceptT ε (Prog C A) α}
    {f : α → ExceptT ε (Prog C A) β} (hx : Only P x.run) (hf : ∀ a, Only P (f a).run) :
    Only P (x >>= f).run := by
  refine Only.bind hx ?_
  rintro (e | a)
  · trivial
  · exact hf a

theorem Calls.bindThrowing {c : C} {x : ExceptT ε (Prog C A) α} {f : α → ExceptT ε (Prog C A) β}
    (hx : x.run.Calls c) : (x >>= f).run.Calls c :=
  Calls.bind hx

theorem Returns.calls_bindThrowing {a : α} {c : C} {x : ExceptT ε (Prog C A) α}
    {f : α → ExceptT ε (Prog C A) β} (hx : x.run.Returns (.ok a)) (hf : (f a).run.Calls c) :
    (x >>= f).run.Calls c :=
  Returns.calls_bind hx hf

theorem Returns.bindThrowing {a : α} {r : Except ε β} {x : ExceptT ε (Prog C A) α}
    {f : α → ExceptT ε (Prog C A) β} (hx : x.run.Returns (.ok a)) (hf : (f a).run.Returns r) :
    (x >>= f).run.Returns r :=
  Returns.bind hx hf

/-- `try x catch`, for the exceptions that are not `through`: they become values. -/
def catching (through : ε → Bool) (x : ExceptT ε (Prog C A) α) :
    ExceptT ε (Prog C A) (Except ε α) :=
  ExceptT.mk <| x.run.bind fun
    | .ok a => .ret (.ok (.ok a))
    | .error e => if through e then .ret (.error e) else .ret (.ok (.error e))

theorem Only.catching {P : C → Prop} (through : ε → Bool) {x : ExceptT ε (Prog C A) α}
    (hx : Only P x.run) : Only P (Prog.catching through x).run := by
  refine Only.bind hx ?_
  rintro (e | a)
  · cases he : through e
    · simp [he, Only]
    · simp [he, Only]
  · trivial

theorem Calls.catching {c : C} (through : ε → Bool) {x : ExceptT ε (Prog C A) α}
    (hx : x.run.Calls c) : (Prog.catching through x).run.Calls c :=
  Calls.bind hx

theorem Conforms.catching {through : ε → Bool} {Q : Except ε α → S → Prop}
    {Q' : Except ε (Except ε α) → S → Prop} {x : ExceptT ε (Prog C A) α} {s : S}
    (hx : Conforms T Q x.run s) (hok : ∀ a s', Q (.ok a) s' → Q' (.ok (.ok a)) s')
    (hcaught : ∀ e s', Q (.error e) s' → through e = false → Q' (.ok (.error e)) s')
    (hthrough : ∀ e s', Q (.error e) s' → through e = true → Q' (.error e) s') :
    Conforms T Q' (Prog.catching through x).run s := by
  refine Conforms.bind hx ?_
  rintro (e | a) s' h
  · cases he : through e
    · simpa [he] using hcaught e s' h he
    · simpa [he] using hthrough e s' h he
  · exact hok a s' h

/-- Running a sequence: the first part throws, or the second runs on its value. -/
theorem exec_bindThrowing_iff {exec : (c : C) → S → A c → S → Prop} {x : ExceptT ε (Prog C A) α}
    {f : α → ExceptT ε (Prog C A) β} {r : Except ε β} {s s' : S} :
    Exec exec (x >>= f).run s r s' ↔
      (∃ a s₁, Exec exec x.run s (.ok a) s₁ ∧ Exec exec (f a).run s₁ r s') ∨
      ∃ e, Exec exec x.run s (.error e) s' ∧ r = .error e := by
  refine Iff.trans exec_bind_iff ?_
  constructor
  · rintro ⟨e | a, s₁, hx, hf⟩
    · obtain ⟨rfl, rfl⟩ := exec_ret_iff.mp hf
      exact .inr ⟨e, hx, rfl⟩
    · exact .inl ⟨a, s₁, hx, hf⟩
  · rintro (⟨a, s₁, hx, hf⟩ | ⟨e, hx, rfl⟩)
    · exact ⟨.ok a, s₁, hx, hf⟩
    · exact ⟨.error e, s', hx, .ret _ _⟩

/-- Running `try x catch`: an exception of `x` becomes a value or passes through. -/
theorem exec_catching {exec : (c : C) → S → A c → S → Prop} {through : ε → Bool}
    {x : ExceptT ε (Prog C A) α} {r : Except ε (Except ε α)} {s s' : S}
    (h : Exec exec (Prog.catching through x).run s r s') :
    (∃ a, Exec exec x.run s (.ok a) s' ∧ r = .ok (.ok a)) ∨
      ∃ e, Exec exec x.run s (.error e) s' ∧
        ((through e = false ∧ r = .ok (.error e)) ∨ (through e = true ∧ r = .error e)) := by
  obtain ⟨o, s₁, hx, hr⟩ := exec_bind_iff.mp h
  cases o with
  | ok a =>
      obtain ⟨rfl, rfl⟩ := exec_ret_iff.mp hr
      exact .inl ⟨a, hx, rfl⟩
  | error e =>
      right
      cases he : through e with
      | false =>
          obtain ⟨rfl, rfl⟩ : r = .ok (.error e) ∧ s' = s₁ := by simpa [he] using hr
          exact ⟨e, hx, .inl ⟨he, rfl⟩⟩
      | true =>
          obtain ⟨rfl, rfl⟩ : r = .error e ∧ s' = s₁ := by simpa [he] using hr
          exact ⟨e, hx, .inr ⟨he, rfl⟩⟩

end Throwing

/-! ## From conformance to an environment -/

/-- **Transfer.** If every joint step of the protocol and the environment keeps `J`, a run of a
conforming program ends in a concrete state related to an abstract one satisfying the postcondition. -/
theorem Conforms.exec {D : Type} {exec : (c : C) → D → A c → D → Prop} {J : S → D → Prop}
    (hJ : ∀ c s a s' d d', J s d → T c s a s' → exec c d a d' → J s' d')
    {Q : α → S → Prop} {p : Prog C A α} {s : S} {d d' : D} {r : α}
    (hp : p.Conforms T Q s) (hr : Exec exec p d r d') (hs : J s d) : ∃ s', Q r s' ∧ J s' d' := by
  induction hr generalizing s with
  | ret a d => exact ⟨s, hp, hs⟩
  | call h _ ih =>
      obtain ⟨s', hT, hk⟩ := hp _
      exact ih hk (hJ _ _ _ _ _ _ hs hT h)

end Prog
