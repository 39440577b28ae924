import Mathlib.Data.List.Forall2
import Mathlib.Data.List.Sort
import OutboxNet.Lib.Runs
import OutboxNet.Lib.Table

/-!
# Tables that correspond row by row

Two tables correspond when their rows do, in their order, by a relation `R` that respects the key.
A statement that does not tell corresponding rows apart finds the same keys in both tables, and leaves
tables that correspond.  Over runs this gives a simulation in which one side takes steps of its own
(`Steps.extra_steps`).
-/

set_option autoImplicit false

namespace List

variable {α β γ : Type} {R : α → β → Prop} {l : List α} {l' : List β}

/-- Every element has a counterpart. -/
theorem Forall₂.exists_right (h : Forall₂ R l l') {a : α} (ha : a ∈ l) : ∃ b ∈ l', R a b := by
  induction h with
  | nil => cases ha
  | @cons a₁ b₁ l l' hr _ ih =>
      rcases mem_cons.mp ha with rfl | ha
      · exact ⟨b₁, mem_cons_self, hr⟩
      · obtain ⟨b, hb, hab⟩ := ih ha
        exact ⟨b, mem_cons_of_mem _ hb, hab⟩

/-- Corresponding elements are taken for the same. -/
theorem Forall₂.map_eq (h : Forall₂ R l l') {f : α → γ} {g : β → γ} (hfg : ∀ a b, R a b → f a = g b) :
    l.map f = l'.map g := by
  induction h with
  | nil => rfl
  | cons hr _ ih => rw [map_cons, map_cons, hfg _ _ hr, ih]

/-- A condition that does not tell corresponding elements apart finds both or neither. -/
theorem Forall₂.any_eq (h : Forall₂ R l l') {p : α → Bool} {q : β → Bool}
    (hpq : ∀ a b, R a b → p a = q b) : l.any p = l'.any q := by
  induction h with
  | nil => rfl
  | cons hr _ ih => rw [any_cons, any_cons, hpq _ _ hr, ih]

theorem Forall₂.filter (h : Forall₂ R l l') {p : α → Bool} {q : β → Bool}
    (hpq : ∀ a b, R a b → p a = q b) : Forall₂ R (l.filter p) (l'.filter q) :=
  rel_filter (fun a b hr => show p a = true ↔ q b = true by rw [hpq a b hr]) h

/-- The first element that a condition finds has the first counterpart that it finds. -/
theorem Forall₂.find?_map_eq (h : Forall₂ R l l') {p : α → Bool} {q : β → Bool} {f : α → γ} {g : β → γ}
    (hpq : ∀ a b, R a b → p a = q b) (hfg : ∀ a b, R a b → f a = g b) :
    (l.find? p).map f = (l'.find? q).map g := by
  induction h with
  | nil => rfl
  | @cons a b _ _ hr _ ih =>
      by_cases hp : p a = true
      · rw [find?_cons_of_pos hp, find?_cons_of_pos (hpq a b hr ▸ hp)]
        exact congrArg some (hfg a b hr)
      · rw [find?_cons_of_neg hp, find?_cons_of_neg (hpq a b hr ▸ hp)]
        exact ih

section Sorted

variable {r : α → α → Prop} {r' : β → β → Prop} [DecidableRel r] [DecidableRel r']

theorem Forall₂.orderedInsert (h : Forall₂ R l l') {a : α} {b : β} (hab : R a b)
    (hr : ∀ a b a₁ b₁, R a b → R a₁ b₁ → (r a a₁ ↔ r' b b₁)) :
    Forall₂ R (l.orderedInsert r a) (l'.orderedInsert r' b) := by
  induction h with
  | nil => exact .cons hab .nil
  | @cons a₁ b₁ _ _ hab₁ hrest ih =>
      by_cases hle : r a a₁
      · rw [orderedInsert_cons_of_le r _ hle,
          orderedInsert_cons_of_le r' _ ((hr _ _ _ _ hab hab₁).mp hle)]
        exact .cons hab (.cons hab₁ hrest)
      · rw [orderedInsert_of_not_le r _ hle,
          orderedInsert_of_not_le r' _ fun hle' => hle ((hr _ _ _ _ hab hab₁).mpr hle')]
        exact .cons hab₁ ih

/-- Lists that correspond are sorted alike, by orders that do not tell corresponding elements apart. -/
theorem Forall₂.insertionSort (h : Forall₂ R l l')
    (hr : ∀ a b a₁ b₁, R a b → R a₁ b₁ → (r a a₁ ↔ r' b b₁)) :
    Forall₂ R (l.insertionSort r) (l'.insertionSort r') := by
  induction h with
  | nil => exact .nil
  | cons hab _ ih =>
      rw [insertionSort_cons, insertionSort_cons]
      exact ih.orderedInsert hab hr

end Sorted

end List

namespace Table

variable {ρ κ : Type} {key : ρ → κ} {R : ρ → ρ → Prop} {t u : Table key}

/-- The rows of `u` correspond to those of `t`, in their order. -/
def Alike (R : ρ → ρ → Prop) (t u : Table key) : Prop := List.Forall₂ R t.rows u.rows

namespace Alike

theorem refl (hR : ∀ r, R r r) (t : Table key) : Alike R t t := List.forall₂_same.mpr fun r _ => hR r

theorem mono {R' : ρ → ρ → Prop} (h : Alike R t u) (hle : ∀ r r', R r r' → R' r r') : Alike R' t u :=
  List.Forall₂.imp hle h

/-- The same keys in two tables that correspond, listed in the same order, are rows that correspond. -/
theorem forall₂ (h : Alike R t u) (hkey : ∀ r r', R r r' → key r' = key r) {l l' : List ρ}
    (hl : ∀ r ∈ l, r ∈ t.rows) (hl' : ∀ r ∈ l', r ∈ u.rows) (heq : l.map key = l'.map key) :
    List.Forall₂ R l l' := by
  induction l generalizing l' with
  | nil =>
      rw [List.map_nil, eq_comm, List.map_eq_nil_iff] at heq
      rw [heq]
      exact .nil
  | cons r l ih =>
      cases l' with
      | nil => cases heq
      | cons r' l' =>
          rw [List.map_cons, List.map_cons, List.cons.injEq] at heq
          refine .cons ?_ (ih (fun x hx => hl x (List.mem_cons_of_mem _ hx))
            (fun x hx => hl' x (List.mem_cons_of_mem _ hx)) heq.2)
          obtain ⟨r₁, hr₁, hrel⟩ := List.Forall₂.exists_right h (hl r List.mem_cons_self)
          have hsame : key r₁ = key r' := (hkey r r₁ hrel).trans heq.1
          rwa [u.eq_of_key_eq hr₁ (hl' r' List.mem_cons_self) hsame] at hrel

/-- An update on each side. -/
theorem update (h : Alike R t u) {R' : ρ → ρ → Prop} {p q : ρ → Bool} {f g : ρ → ρ}
    {hf : ∀ r, key (f r) = key r} {hg : ∀ r, key (g r) = key r}
    (hrow : ∀ r r', R r r' → R' (if p r then f r else r) (if q r' then g r' else r')) :
    Alike R' (t.update p f hf) (u.update q g hg) :=
  List.forall₂_map_left_iff.mpr (List.forall₂_map_right_iff.mpr (List.Forall₂.imp hrow h))

/-- An update on one side. -/
theorem update_right (h : Alike R t u) {R' : ρ → ρ → Prop} {q : ρ → Bool} {g : ρ → ρ}
    {hg : ∀ r, key (g r) = key r} (hrow : ∀ r r', R r r' → R' r (if q r' then g r' else r')) :
    Alike R' t (u.update q g hg) :=
  List.forall₂_map_right_iff.mpr (List.Forall₂.imp hrow h)

theorem delete (h : Alike R t u) {p q : ρ → Bool} (hpq : ∀ r r', R r r' → p r = q r') :
    Alike R (t.delete p) (u.delete q) :=
  List.Forall₂.filter h fun r r' hr => by rw [hpq r r' hr]

variable [DecidableEq κ]

/-- The same row is inserted into both tables, or refused by both. -/
theorem insert (h : Alike R t u) (hkey : ∀ r r', R r r' → key r' = key r) (hR : ∀ r, R r r) (r : ρ) :
    t.insertAll? [r] = none ∧ u.insertAll? [r] = none ∨
    ∃ t' u', t.insertAll? [r] = some t' ∧ u.insertAll? [r] = some u' ∧ Alike R t' u' := by
  have hkeys : (t.rows ++ [r]).map key = (u.rows ++ [r]).map key := by
    rw [List.map_append, List.map_append, List.Forall₂.map_eq h fun r r' hr => (hkey r r' hr).symm]
  unfold insertAll?
  by_cases hnodup : ((t.rows ++ [r]).map key).Nodup
  · right
    rw [dif_pos hnodup, dif_pos (hkeys ▸ hnodup)]
    exact ⟨_, _, rfl, rfl, List.rel_append h (.cons (hR r) .nil)⟩
  · left
    rw [dif_neg hnodup, dif_neg (hkeys ▸ hnodup)]
    exact ⟨rfl, rfl⟩

end Alike

end Table

namespace Steps

variable {σ τ ℓ ℓ' : Type} {step : σ → ℓ → σ → Prop} {step' : τ → ℓ' → τ → Prop}
variable {s s' : σ} {t t' : τ} {ls : List ℓ} {ls' : List ℓ'}

/-- **Extra steps do not show.** If the extra steps of the second run keep the relation, and of two
matching steps both do the same and keep it, then the second run does what the first does. -/
theorem extra_steps (R : σ → τ → Prop) (extra : ℓ' → Bool) (Matches Agrees : ℓ → ℓ' → Prop)
    (hextra : ∀ s t l' t', R s t → extra l' = true → step' t l' t' → R s t')
    (hstep : ∀ s t l s' l' t', R s t → extra l' = false → Matches l l' → step s l s' → step' t l' t' →
      Agrees l l' ∧ R s' t')
    (h : Steps step s ls s') (h' : Steps step' t ls' t')
    (hmatch : List.Forall₂ Matches ls (ls'.filter fun l' => !extra l')) (hR : R s t) :
    List.Forall₂ Agrees ls (ls'.filter fun l' => !extra l') ∧ R s' t' := by
  induction h' generalizing s ls with
  | nil t =>
      rw [List.filter_nil, List.forall₂_nil_right_iff] at hmatch
      subst hmatch
      cases h
      exact ⟨.nil, hR⟩
  | @cons t t₁ t' l' ls' hs' _ ih =>
      by_cases hl' : extra l' = true
      · rw [List.filter_cons_of_neg (by rw [hl']; exact Bool.false_ne_true)] at hmatch ⊢
        exact ih h hmatch (hextra _ _ _ _ hR hl' hs')
      · rw [List.filter_cons_of_pos (by rw [Bool.not_eq_true _ |>.mp hl']; rfl)] at hmatch ⊢
        obtain ⟨l, ls₁, hl, hrest, rfl⟩ := List.forall₂_cons_right_iff.mp hmatch
        cases h with
        | cons hs h =>
            obtain ⟨hagree, hR'⟩ := hstep _ _ _ _ _ _ hR (Bool.eq_false_iff.mpr hl') hl hs hs'
            obtain ⟨hall, hend⟩ := ih h hrest hR'
            exact ⟨.cons hagree hall, hend⟩

end Steps
