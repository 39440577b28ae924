import Mathlib.Data.List.Basic

/-!
# Runs of a labelled transition system

`Steps step s ls s'` says that the steps with the labels `ls`, in this order, lead from `s` to `s'`.
The rules used everywhere: what every step keeps, every run keeps (`Steps.invariant`), and what every
step of one kind keeps, every run of that kind keeps (`Steps.invariant_of`).  An invariant may speak of
the labels so far (`Steps.invariant_history`).  `follow` computes one run, move by move.
-/

set_option autoImplicit false

variable {σ ℓ : Type}

/-- A finite run with its labels. -/
inductive Steps (step : σ → ℓ → σ → Prop) : σ → List ℓ → σ → Prop
  | nil (s : σ) : Steps step s [] s
  | cons {s s' s'' : σ} {l : ℓ} {ls : List ℓ} :
      step s l s' → Steps step s' ls s'' → Steps step s (l :: ls) s''

namespace Steps

variable {step : σ → ℓ → σ → Prop} {s s' s'' : σ} {l : ℓ} {ls ls' : List ℓ}

theorem append (h : Steps step s ls s') (h' : Steps step s' ls' s'') :
    Steps step s (ls ++ ls') s'' := by
  induction h with
  | nil s => exact h'
  | cons hs _ ih => exact .cons hs (ih h')

/-- One more step, with its label. -/
theorem snoc (h : Steps step s ls s') (l : ℓ) (h' : step s' l s'') : Steps step s (ls ++ [l]) s'' :=
  h.append (.cons h' (.nil s''))

/-- A property kept by every step that carries a label satisfying `P` is kept by every run of such
steps. -/
theorem invariant_of (I : σ → Prop) (P : ℓ → Prop)
    (hstep : ∀ s l s', P l → I s → step s l s' → I s') (h : Steps step s ls s')
    (hP : ∀ l ∈ ls, P l) (hI : I s) : I s' := by
  induction h with
  | nil s => exact hI
  | cons hs _ ih =>
      have hl := hP _ List.mem_cons_self
      exact ih (fun l hl => hP l (List.mem_cons_of_mem _ hl)) (hstep _ _ _ hl hI hs)

/-- A property kept by every step is kept by every run. -/
theorem invariant (I : σ → Prop) (hstep : ∀ s l s', I s → step s l s' → I s')
    (h : Steps step s ls s') (hI : I s) : I s' :=
  h.invariant_of I (fun _ => True) (fun s l s' _ => hstep s l s') (fun _ _ => trivial) hI

/-- A property of the labels so far and the state, kept by every step, holds after every run. -/
theorem invariant_history (I : List ℓ → σ → Prop)
    (hstep : ∀ ls s l s', I ls s → step s l s' → I (ls ++ [l]) s') (h : Steps step s ls s')
    (hI : I [] s) : I ls s' := by
  -- the labels of the run come after some others
  have hafter : ∀ before, I before s → I (before ++ ls) s' := by
    clear hI
    induction h with
    | nil s =>
        intro before hI
        rw [List.append_nil]
        exact hI
    | @cons s s₁ s₂ l ls hs _ ih =>
        intro before hI
        have hnext := ih (before ++ [l]) (hstep _ _ _ _ hI hs)
        rwa [List.append_assoc, List.singleton_append] at hnext
  exact hafter [] hI

/-- A run in two parts. -/
theorem of_append (h : Steps step s (ls ++ ls') s'') :
    ∃ s', Steps step s ls s' ∧ Steps step s' ls' s'' := by
  induction ls generalizing s with
  | nil => exact ⟨s, .nil s, h⟩
  | cons l ls ih =>
      cases h with
      | cons hs hrest =>
          obtain ⟨s', hfirst, hsecond⟩ := ih hrest
          exact ⟨s', .cons hs hfirst, hsecond⟩

/-- The step at a label. -/
theorem split (h : Steps step s (ls ++ l :: ls') s'') :
    ∃ s₁ s₂, Steps step s ls s₁ ∧ step s₁ l s₂ ∧ Steps step s₂ ls' s'' := by
  obtain ⟨s₁, hfirst, hrest⟩ := h.of_append
  cases hrest with
  | cons hs hsecond => exact ⟨s₁, _, hfirst, hs, hsecond⟩

/-- What is seen of a run, if each of its steps is one of what is seen. -/
theorem map {σ' ℓ' : Type} {step' : σ' → ℓ' → σ' → Prop} (view : σ → σ') (f : ℓ → ℓ')
    (hstep : ∀ s l s', step s l s' → step' (view s) (f l) (view s')) (h : Steps step s ls s') :
    Steps step' (view s) (ls.map f) (view s') := by
  induction h with
  | nil s => exact .nil (view s)
  | cons hs _ ih => exact .cons (hstep _ _ _ hs) ih

/-- A step relation may be replaced by a larger one. -/
theorem mono {step' : σ → ℓ → σ → Prop} (hle : ∀ s l s', step s l s' → step' s l s')
    (h : Steps step s ls s') : Steps step' s ls s' := by
  induction h with
  | nil s => exact .nil s
  | cons hs _ ih => exact .cons (hle _ _ _ hs) ih

/-- What every step says of its label holds of the labels of a run. -/
theorem labels (P : ℓ → Prop) (hlabel : ∀ s l s', step s l s' → P l) (h : Steps step s ls s') :
    ∀ l ∈ ls, P l := by
  induction h with
  | nil s => exact List.forall_mem_nil P
  | cons hs _ ih => exact List.forall_mem_cons.mpr ⟨hlabel _ _ _ hs, ih⟩

end Steps

/-! ## Following a run -/

section Follow

variable {μ : Type}

/-- The run that takes one move after another, with its labels. -/
def follow (move : σ → μ → Option (ℓ × σ)) : σ → List μ → Option (List ℓ × σ)
  | s, [] => some ([], s)
  | s, m :: ms =>
      match move s m with
      | some (l, s₁) => (follow move s₁ ms).map fun x => (l :: x.1, x.2)
      | none => none

/-- What is followed is a run, if every move is a step. -/
theorem Steps.of_follow {step : σ → ℓ → σ → Prop} {move : σ → μ → Option (ℓ × σ)}
    (hmove : ∀ s m l s', move s m = some (l, s') → step s l s') {s s' : σ} {ms : List μ} {ls : List ℓ}
    (h : follow move s ms = some (ls, s')) : Steps step s ls s' := by
  induction ms generalizing s ls with
  | nil =>
      cases h
      exact .nil _
  | cons m ms ih =>
      rw [follow] at h
      split at h
      · next l s₁ hfirst =>
          obtain ⟨⟨ls', s''⟩, hrest, heq⟩ := Option.map_eq_some_iff.mp h
          cases heq
          exact .cons (hmove _ _ _ _ hfirst) (ih hrest)
      · cases h

/-- A run may be told by what can be computed of it. -/
theorem Steps.of_follow_map {step : σ → ℓ → σ → Prop} {move : σ → μ → Option (ℓ × σ)}
    (hmove : ∀ s m l s', move s m = some (l, s') → step s l s') {β : Type} {s : σ} {ms : List μ}
    {observe : List ℓ × σ → β} {b : β} (h : (follow move s ms).map observe = some b) :
    ∃ ls s', Steps step s ls s' ∧ observe (ls, s') = b := by
  obtain ⟨⟨ls, s'⟩, hfollow, hobserve⟩ := Option.map_eq_some_iff.mp h
  exact ⟨ls, s', .of_follow hmove hfollow, hobserve⟩

/-- The state in which a run ends that takes one move after another. -/
def followed (move : σ → μ → Option (ℓ × σ)) (s : σ) (ms : List μ) : σ :=
  ((follow move s ms).map Prod.snd).getD s

theorem Steps.of_followed {step : σ → ℓ → σ → Prop} {move : σ → μ → Option (ℓ × σ)}
    (hmove : ∀ s m l s', move s m = some (l, s') → step s l s') {s : σ} {ms : List μ}
    (h : (follow move s ms).isSome = true) : ∃ ls, Steps step s ls (followed move s ms) := by
  obtain ⟨⟨ls, s'⟩, hfollow⟩ := Option.isSome_iff_exists.mp h
  have hend : followed move s ms = s' := by
    rw [followed, hfollow]
    rfl
  rw [hend]
  exact ⟨ls, .of_follow hmove hfollow⟩

/-- What moves of one kind keep is kept to the end. -/
theorem followed_invariant {move : σ → μ → Option (ℓ × σ)} (I : σ → Prop) (P : μ → Prop)
    (hmove : ∀ s m l s', P m → I s → move s m = some (l, s') → I s') {s : σ} {ms : List μ}
    (hP : ∀ m ∈ ms, P m) (hI : I s) : I (followed move s ms) := by
  have hend : ∀ (ms : List μ) (s : σ) (x : List ℓ × σ), (∀ m ∈ ms, P m) → I s →
      follow move s ms = some x → I x.2 := by
    intro ms
    induction ms with
    | nil =>
        rintro s x - hI h
        cases h
        exact hI
    | cons m ms ih =>
        intro s x hP hI h
        rw [follow] at h
        split at h
        · next l s₁ hfirst =>
            obtain ⟨y, hrest, rfl⟩ := Option.map_eq_some_iff.mp h
            have hI₁ := hmove s m l s₁ (hP m List.mem_cons_self) hI hfirst
            exact ih s₁ y (fun m' hm' => hP m' (List.mem_cons_of_mem m hm')) hI₁ hrest
        · cases h
  cases hfollow : follow move s ms with
  | none =>
      rw [followed, hfollow]
      exact hI
  | some x =>
      rw [followed, hfollow]
      exact hend ms s x hP hI hfollow

end Follow
