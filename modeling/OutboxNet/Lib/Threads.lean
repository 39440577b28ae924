import OutboxNet.Lib.Protocol
import OutboxNet.Lib.Runs

/-!
# Programs side by side

Any number of programs on one state.  A *configuration* is the state and what is left of each program
that has been started; a *move* starts a program or makes the next call of one of them, and every call
is atomic.  The labels of the moves are the history of a run.

The rules.  `Move.thread` says what a move does to one program.  When all programs have only calls of
one kind, so has the history (`calls_only`).  A protocol that every program conforms to is followed by
each of them in its own calls, whatever the others do in between (`follows`).  A run on one state is a
run on what can be seen of the state (`run_map`).
-/

set_option autoImplicit false

namespace Threads

variable {C : Type} {A : C → Type} {α S S' : Type}

/-- The state, and what is left of each program. -/
structure Config (C : Type) (A : C → Type) (α S : Type) where
  state : S
  threads : List (Prog C A α)

/-- The label of a move. -/
inductive Event (C : Type) (A : C → Type) : Type
  | start
  | call (i : ℕ) (c : C) (a : A c)

section Moves

variable (exec : (c : C) → S → A c → S → Prop) (starts : Prog C A α → Prop)

/-- One move. -/
inductive Move : Config C A α S → Event C A → Config C A α S → Prop
  | start {w : Config C A α S} {p : Prog C A α} :
      starts p → Move w .start { w with threads := w.threads ++ [p] }
  | call {w : Config C A α S} {i : ℕ} {c : C} {k : A c → Prog C A α} {a : A c} {s : S} :
      w.threads[i]? = some (.call c k) → exec c w.state a s →
      Move w (.call i c a) ⟨s, w.threads.set i (k a)⟩

/-- A run. -/
abbrev Run : Config C A α S → List (Event C A) → Config C A α S → Prop := Steps (Move exec starts)

end Moves

/-- The call of a move, if it is one of program `i`. -/
def Event.callOf (i : ℕ) : Event C A → Option (Σ c, A c)
  | .start => none
  | .call j c a => if j = i then some ⟨c, a⟩ else none

/-- The calls of program `i`, with their answers. -/
def callsOf (i : ℕ) (acts : List (Event C A)) : List (Σ c, A c) := acts.filterMap (Event.callOf i)

@[simp] theorem callsOf_nil (i : ℕ) : callsOf i ([] : List (Event C A)) = [] := rfl

@[simp] theorem callsOf_append (i : ℕ) (acts acts' : List (Event C A)) :
    callsOf i (acts ++ acts') = callsOf i acts ++ callsOf i acts' := List.filterMap_append

@[simp] theorem callsOf_start (i : ℕ) : callsOf i [(.start : Event C A)] = [] := rfl

theorem callsOf_self (i : ℕ) (c : C) (a : A c) :
    callsOf i [(.call i c a : Event C A)] = [⟨c, a⟩] := by
  simp [callsOf, Event.callOf]

theorem callsOf_other {i j : ℕ} (hne : j ≠ i) (c : C) (a : A c) :
    callsOf i [(.call j c a : Event C A)] = [] := by
  simp [callsOf, Event.callOf, hne]

theorem mem_callsOf {i : ℕ} {acts : List (Event C A)} {c : C} {a : A c} :
    (⟨c, a⟩ : Σ c, A c) ∈ callsOf i acts ↔ .call i c a ∈ acts := by
  unfold callsOf
  rw [List.mem_filterMap]
  constructor
  · rintro ⟨act, hact, heq⟩
    cases act with
    | start => cases heq
    | call j c' a' =>
        simp only [Event.callOf] at heq
        split at heq
        next hj =>
          subst hj
          cases heq
          exact hact
        · cases heq
  · intro hact
    exact ⟨_, hact, if_pos rfl⟩

variable {exec : (c : C) → S → A c → S → Prop} {starts : Prog C A α → Prop}
variable {w w' : Config C A α S} {act : Event C A} {acts : List (Event C A)}

/-- What a move does to program `i`: nothing, or it is started, or it makes its next call. -/
theorem Move.thread (h : Move exec starts w act w') {i : ℕ} {p : Prog C A α}
    (hp : w'.threads[i]? = some p) :
    (w.threads[i]? = some p ∧ callsOf i [act] = []) ∨
    (w.threads.length = i ∧ starts p ∧ callsOf i [act] = []) ∨
    ∃ c k a, act = .call i c a ∧ w.threads[i]? = some (.call c k) ∧ p = k a ∧
      exec c w.state a w'.state := by
  cases h with
  | @start q hq =>
      rcases Nat.lt_trichotomy i w.threads.length with hlt | rfl | hgt
      · rw [List.getElem?_append_left hlt] at hp
        exact .inl ⟨hp, rfl⟩
      · rw [List.getElem?_concat_length] at hp
        cases hp
        exact .inr (.inl ⟨rfl, hq, rfl⟩)
      · rw [List.getElem?_eq_none (by simp; omega)] at hp
        cases hp
  | @call j c k a s hj hexec =>
      by_cases hij : j = i
      · subst hij
        rw [List.getElem?_set_self (List.getElem?_eq_some_iff.mp hj).1] at hp
        cases hp
        exact .inr (.inr ⟨c, k, a, rfl, hj, rfl, hexec⟩)
      · rw [List.getElem?_set_ne hij] at hp
        exact .inl ⟨hp, callsOf_other hij c a⟩

/-- A program that has not been started makes no call. -/
theorem Move.callsOf_eq_nil (h : Move exec starts w act w') {i : ℕ} (hi : w'.threads.length ≤ i) :
    w.threads.length ≤ i ∧ callsOf i [act] = [] := by
  cases h with
  | start =>
      rw [List.length_append] at hi
      exact ⟨by omega, rfl⟩
  | @call j c k a s hj =>
      rw [List.length_set] at hi
      have hlt := (List.getElem?_eq_some_iff.mp hj).1
      exact ⟨hi, callsOf_other (by omega) c a⟩

/-- **The calls of a run** are of the kind all programs have. -/
theorem calls_only {P : C → Prop} (hstarts : ∀ p, starts p → p.Only P)
    (hrun : Run exec starts w acts w') (hw : ∀ p ∈ w.threads, p.Only P) :
    (∀ p ∈ w'.threads, p.Only P) ∧ ∀ i c a, .call i c a ∈ acts → P c := by
  refine hrun.invariant_history (fun acts w => (∀ p ∈ w.threads, p.Only P) ∧
    ∀ i c a, .call i c a ∈ acts → P c) ?_ ⟨hw, by simp⟩
  rintro acts w act w' ⟨hthreads, hcalls⟩ hmove
  constructor
  · intro p hp
    obtain ⟨i, hi⟩ := List.getElem?_of_mem hp
    rcases hmove.thread hi with ⟨hold, -⟩ | ⟨-, hnew, -⟩ | ⟨c, k, a, -, hcall, rfl, -⟩
    · exact hthreads p (List.mem_of_getElem? hold)
    · exact hstarts p hnew
    · exact (hthreads _ (List.mem_of_getElem? hcall)).2 a
  · intro i c a hmem
    rcases List.mem_append.mp hmem with hmem | hmem
    · exact hcalls i c a hmem
    · obtain rfl := List.mem_singleton.mp hmem
      cases hmove with
      | call hi _ => exact (hthreads _ (List.mem_of_getElem? hi)).1

/-- A program that has not been started has made no call. -/
theorem callsOf_eq_nil (hrun : Run exec starts w acts w') {i : ℕ} (hi : w'.threads.length ≤ i) :
    callsOf i acts = [] := by
  refine hrun.invariant_history (fun acts w => ∀ i, w.threads.length ≤ i → callsOf i acts = []) ?_
    (fun _ _ => rfl) i hi
  intro acts w act w' hnone hmove i hi
  obtain ⟨hi', hact⟩ := hmove.callsOf_eq_nil hi
  rw [callsOf_append, hnone i hi', hact, List.append_nil]

/-- **Each program follows the protocol in its own calls.** -/
theorem follows {L : Type} {T : (c : C) → L → A c → L → Prop} {Q : α → L → Prop} {l₀ : L}
    (hstarts : ∀ p, starts p → p.Conforms T Q l₀) {s : S}
    (hrun : Run exec starts ⟨s, []⟩ acts w) {i : ℕ} {p : Prog C A α}
    (hp : w.threads[i]? = some p) :
    ∃ l, Steps (fun l (e : Σ c, A c) l' => T e.1 l e.2 l') l₀ (callsOf i acts) l ∧
      p.Conforms T Q l := by
  have hinvariant := hrun.invariant_history (fun acts w => Run exec starts ⟨s, []⟩ acts w ∧
    ∀ i p, w.threads[i]? = some p →
      ∃ l, Steps (fun l (e : Σ c, A c) l' => T e.1 l e.2 l') l₀ (callsOf i acts) l ∧
        p.Conforms T Q l) ?_ ⟨.nil _, by simp⟩
  · exact hinvariant.2 i p hp
  rintro acts w act w' ⟨hrun, hthreads⟩ hmove
  refine ⟨hrun.snoc act hmove, fun i p hp => ?_⟩
  rw [callsOf_append]
  rcases hmove.thread hp with ⟨hold, hact⟩ | ⟨hlen, hnew, hact⟩ | ⟨c, k, a, rfl, hcall, rfl, -⟩
  · rw [hact, List.append_nil]
    exact hthreads i p hold
  · rw [hact, callsOf_eq_nil hrun (Nat.le_of_eq hlen), List.append_nil]
    exact ⟨l₀, .nil l₀, hstarts p hnew⟩
  · obtain ⟨l, hsteps, hconforms⟩ := hthreads i _ hcall
    obtain ⟨l', hT, hk⟩ := hconforms a
    rw [callsOf_self]
    exact ⟨l', hsteps.snoc _ hT, hk⟩

/-- The configuration as far as `f` shows its state. -/
def Config.map (f : S → S') (w : Config C A α S) : Config C A α S' := ⟨f w.state, w.threads⟩

/-- **A run is a run on what can be seen of the state.** -/
theorem run_map {exec' : (c : C) → S' → A c → S' → Prop} (f : S → S')
    (hexec : ∀ c s a s', exec c s a s' → exec' c (f s) a (f s')) (h : Run exec starts w acts w') :
    Run exec' starts (w.map f) acts (w'.map f) := by
  induction h with
  | nil w => exact .nil _
  | cons hmove _ ih =>
      refine .cons ?_ ih
      cases hmove with
      | start hp => exact .start hp
      | call hi hcall => exact .call hi (hexec _ _ _ _ hcall)

end Threads
