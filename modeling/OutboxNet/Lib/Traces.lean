import OutboxNet.Lib.Threads

/-!
# Traces of programs

A program run alone makes its calls one after the other; what it has made, with the answers, and what is
left of it is a *trace*.  The trace of a sequence is that of its first part, or that of its first part to
the end followed by one of its second (`reaches_bind`).

Among other programs, a program makes the calls of one of its traces (`Threads.reaches`), and all calls
together are a run of the state (`Threads.run_calls`).
-/

set_option autoImplicit false

namespace Prog

variable {C : Type} {A : C → Type} {α β : Type}

/-- The program makes its next call. -/
def Makes (p : Prog C A α) (e : Σ c, A c) (p' : Prog C A α) : Prop :=
  ∃ k, p = .call e.1 k ∧ p' = k e.2

/-- The program makes the calls `es`, which leave `p'` of it. -/
abbrev Reaches (p : Prog C A α) (es : List (Σ c, A c)) (p' : Prog C A α) : Prop := Steps Makes p es p'

theorem reaches_ret {a : α} {es : List (Σ c, A c)} {p' : Prog C A α}
    (h : (ret a : Prog C A α).Reaches es p') : es = [] ∧ p' = ret a := by
  cases h with
  | nil => exact ⟨rfl, rfl⟩
  | cons hmakes _ =>
      obtain ⟨k, heq, -⟩ := hmakes
      cases heq

theorem reaches_call {c : C} {k : A c → Prog C A α} {es : List (Σ c, A c)} {p' : Prog C A α}
    (h : (call c k).Reaches es p') : (es = [] ∧ p' = call c k) ∨
      ∃ a es', es = ⟨c, a⟩ :: es' ∧ (k a).Reaches es' p' := by
  cases h with
  | nil => exact .inl ⟨rfl, rfl⟩
  | @cons _ _ _ e es' hmakes hrest =>
      obtain ⟨c', a⟩ := e
      obtain ⟨k', heq, rfl⟩ := hmakes
      cases heq
      exact .inr ⟨a, es', rfl, hrest⟩

/-- **The traces of a sequence**: it is at a call of the first part, or past its end. -/
theorem reaches_bind {p : Prog C A α} {f : α → Prog C A β} {es : List (Σ c, A c)} {q : Prog C A β}
    (h : (p.bind f).Reaches es q) :
    (∃ c k, p.Reaches es (.call c k) ∧ q = .call c fun a => (k a).bind f) ∨
      ∃ es₁ es₂ r, es = es₁ ++ es₂ ∧ p.Reaches es₁ (.ret r) ∧ (f r).Reaches es₂ q := by
  induction p generalizing es with
  | ret a => exact .inr ⟨[], es, a, rfl, .nil _, h⟩
  | call c k ih =>
      rcases reaches_call h with ⟨rfl, rfl⟩ | ⟨a, es', rfl, hrest⟩
      · exact .inl ⟨c, k, .nil _, rfl⟩
      · have hmakes : Makes (.call c k) ⟨c, a⟩ (k a) := ⟨k, rfl, rfl⟩
        rcases ih a hrest with ⟨c', k', hp', rfl⟩ | ⟨es₁, es₂, r, rfl, hp, hf⟩
        · exact .inl ⟨c', k', .cons hmakes hp', rfl⟩
        · exact .inr ⟨⟨c, a⟩ :: es₁, es₂, r, rfl, .cons hmakes hp, hf⟩

end Prog

namespace Threads

variable {C : Type} {A : C → Type} {α S : Type}
variable {exec : (c : C) → S → A c → S → Prop} {starts : Prog C A α → Prop}
variable {w w' : Config C A α S} {acts : List (Event C A)}

/-- **Among others, a program makes the calls of one of its traces.** -/
theorem reaches (hrun : Run exec starts w acts w') {i : ℕ} {p : Prog C A α}
    (hp : w.threads[i]? = some p) :
    ∃ p', w'.threads[i]? = some p' ∧ p.Reaches (callsOf i acts) p' := by
  refine hrun.invariant_history
    (fun acts w' => ∃ p', w'.threads[i]? = some p' ∧ p.Reaches (callsOf i acts) p') ?_
    ⟨p, hp, .nil p⟩
  rintro acts w act w' ⟨p', hp', hreaches⟩ hmove
  rw [callsOf_append]
  cases hmove with
  | start =>
      refine ⟨p', ?_, by rwa [callsOf_start, List.append_nil]⟩
      rwa [List.getElem?_append_left (List.getElem?_eq_some_iff.mp hp').1]
  | @call j c k a s hj hexec =>
      by_cases hij : j = i
      · subst hij
        rw [hj] at hp'
        cases hp'
        refine ⟨k a, List.getElem?_set_self (List.getElem?_eq_some_iff.mp hj).1, ?_⟩
        rw [callsOf_self]
        exact hreaches.snoc _ ⟨k, rfl, rfl⟩
      · refine ⟨p', by rwa [List.getElem?_set_ne hij], ?_⟩
        rwa [callsOf_other hij, List.append_nil]

/-- Where no program is started there are as many as at first. -/
theorem length_eq (hrun : Run exec starts w acts w') (hnone : ∀ p, ¬ starts p) :
    w'.threads.length = w.threads.length := by
  refine hrun.invariant (fun w' => w'.threads.length = w.threads.length) ?_ rfl
  intro w₁ act w₂ heq hmove
  cases hmove with
  | start hp => exact absurd hp (hnone _)
  | call => rwa [List.length_set]

/-- The call of a move, with its answer. -/
def Event.call? : Event C A → Option (Σ c, A c)
  | .start => none
  | .call _ c a => some ⟨c, a⟩

/-- **The calls of all programs** are a run of the state. -/
theorem run_calls (hrun : Run exec starts w acts w') :
    Steps (fun s (e : Σ c, A c) s' => exec e.1 s e.2 s') w.state (acts.filterMap Event.call?)
      w'.state := by
  induction hrun with
  | nil => exact .nil _
  | cons hmove _ ih =>
      cases hmove with
      | start => exact ih
      | call _ hexec => exact .cons hexec ih

/-- The calls of one program are some of those. -/
theorem callsOf_sublist (i : ℕ) (acts : List (Event C A)) :
    (callsOf i acts).Sublist (acts.filterMap Event.call?) := by
  induction acts with
  | nil => exact .slnil
  | cons act acts ih =>
      cases act with
      | start => exact ih
      | call j c a =>
          have hall : (Event.call j c a :: acts).filterMap Event.call? =
              ⟨c, a⟩ :: acts.filterMap Event.call? := rfl
          by_cases hij : j = i
          · have hsome : Event.callOf i (.call j c a) = some ⟨c, a⟩ := if_pos hij
            rw [callsOf, List.filterMap_cons_some hsome, hall]
            exact ih.cons_cons _
          · have hnone : Event.callOf i (.call j c a) = none := if_neg hij
            rw [callsOf, List.filterMap_cons_none hnone, hall]
            exact ih.cons _

theorem mem_filterMap_call? {c : C} {a : A c} :
    (⟨c, a⟩ : Σ c, A c) ∈ acts.filterMap Event.call? ↔ ∃ i, .call i c a ∈ acts := by
  rw [List.mem_filterMap]
  constructor
  · rintro ⟨act, hact, heq⟩
    cases act with
    | start => cases heq
    | call i c' a' =>
        cases heq
        exact ⟨i, hact⟩
  · rintro ⟨i, hact⟩
    exact ⟨_, hact, rfl⟩

end Threads
