import OutboxNet.Lib.Runs
import OutboxNet.Lib.Table

/-!
# A part of a table

`t.only mine` is the part of a table whose keys satisfy `mine`.  A statement that finds rows of the part
only does to the part what it does to the table; one that finds none of them leaves the part alone.
Over runs this gives a projection (`Steps.project`): what can be seen of a run in a part of the state is a
run there.
-/

set_option autoImplicit false

namespace Table

variable {ρ κ : Type} {key : ρ → κ} {t : Table key} {mine : κ → Bool} {p : ρ → Bool}

/-- The rows with the keys in `mine`. -/
def only (t : Table key) (mine : κ → Bool) : Table key where
  rows := t.rows.filter fun r => mine (key r)
  nodup := t.nodup.sublist (List.filter_sublist.map key)

theorem mem_only {r : ρ} : r ∈ (t.only mine).rows ↔ r ∈ t.rows ∧ mine (key r) = true :=
  List.mem_filter

/-- A condition on rows of the part. -/
theorem filter_only (hp : ∀ r ∈ t.rows, p r = true → mine (key r) = true) :
    (t.only mine).rows.filter p = t.rows.filter p := by
  rw [only, List.filter_filter]
  apply List.filter_congr
  intro r hr
  by_cases hpr : p r = true
  · rw [hpr, hp r hr hpr]
    rfl
  · rw [Bool.eq_false_iff.mpr hpr]
    rfl

theorem any_only (hp : ∀ r ∈ t.rows, p r = true → mine (key r) = true) :
    (t.only mine).rows.any p = t.rows.any p := by
  have hany : ∀ l : List ρ, l.any p = !(l.filter p).isEmpty := by
    intro l
    induction l with
    | nil => rfl
    | cons r l ih => by_cases hpr : p r = true <;> simp [hpr, ih]
  rw [hany, hany, filter_only hp]

theorem find?_only (hp : ∀ r ∈ t.rows, p r = true → mine (key r) = true) :
    (t.only mine).rows.find? p = t.rows.find? p := by
  rw [← List.head?_filter, ← List.head?_filter, filter_only hp]

theorem only_delete : (t.delete p).only mine = (t.only mine).delete p := by
  refine ext ?_
  show (t.rows.filter _).filter _ = (t.rows.filter _).filter _
  rw [List.filter_filter, List.filter_filter]
  exact List.filter_congr fun r _ => Bool.and_comm _ _

section Update

variable {f : ρ → ρ} {hf : ∀ r, key (f r) = key r}

theorem only_update : (t.update p f hf).only mine = (t.only mine).update p f hf := by
  refine ext ?_
  show (t.rows.map _).filter _ = (t.rows.filter _).map _
  rw [List.filter_map]
  congr 1
  apply List.filter_congr
  intro r _
  show mine (key (if p r = true then f r else r)) = mine (key r)
  split
  · rw [hf]
  · rfl

/-- An update of other rows. -/
theorem only_update_of_other (hp : ∀ r ∈ t.rows, p r = true → mine (key r) = false) :
    (t.update p f hf).only mine = t.only mine := by
  rw [only_update]
  refine update_eq_self fun r hr => ?_
  obtain ⟨hr, hmine⟩ := mem_only.mp hr
  by_contra hpr
  rw [Bool.not_eq_false] at hpr
  exact absurd hmine (by simp [hp r hr hpr])

end Update

section Insert

variable [DecidableEq κ] {r : ρ}

/-- The insert of a row of the part. -/
theorem insert_only (hr : mine (key r) = true) :
    (t.only mine).insertAll? [r] = (t.insertAll? [r]).map (·.only mine) := by
  cases hins : t.insertAll? [r] with
  | some t' =>
      apply insertAll?_eq_some_iff.mpr
      show t'.rows.filter _ = t.rows.filter _ ++ [r]
      rw [insertAll?_eq_some_iff.mp hins, List.filter_append, List.filter_singleton, hr]
      rfl
  | none =>
      by_contra hne
      obtain ⟨-, hfresh⟩ := insertAll?_isSome.mp (Option.isSome_iff_ne_none.mpr hne)
      have hsome : (t.insertAll? [r]).isSome := by
        refine insertAll?_isSome.mpr ⟨List.nodup_singleton _, ?_⟩
        intro r₁ hr₁ r' hr' hkey
        obtain rfl := List.mem_singleton.mp hr₁
        exact hfresh r₁ hr₁ r' (mem_only.mpr ⟨hr', hkey ▸ hr⟩) hkey
      rw [hins] at hsome
      cases hsome

/-- The insert of another row. -/
theorem only_insert_of_other {t' : Table key} (hins : t.insertAll? [r] = some t')
    (hr : mine (key r) = false) : t'.only mine = t.only mine := by
  refine ext ?_
  show t'.rows.filter _ = t.rows.filter _
  rw [insertAll?_eq_some_iff.mp hins, List.filter_append, List.filter_singleton, hr]
  exact List.append_nil _

end Insert

end Table

namespace Steps

variable {σ τ ℓ ℓ' : Type} {step : σ → ℓ → σ → Prop} {step' : τ → ℓ' → τ → Prop}
variable {s s' : σ} {t : τ} {ls : List ℓ}

/-- **Projection.** If every visible step of a system can be followed by a smaller one, and the others keep
what relates the two, then the visible part of every run is a run of the smaller system. -/
theorem project (R : σ → τ → Prop) (visible : ℓ → Bool) (Shows : ℓ → ℓ' → Prop) (P : ℓ → Prop)
    (hhidden : ∀ s l s' t, R s t → P l → visible l = false → step s l s' → R s' t)
    (hvisible : ∀ s l s' t, R s t → P l → visible l = true → step s l s' →
      ∃ l' t', step' t l' t' ∧ Shows l l' ∧ R s' t')
    (h : Steps step s ls s') (hP : ∀ l ∈ ls, P l) (hR : R s t) :
    ∃ ls' t', Steps step' t ls' t' ∧ List.Forall₂ Shows (ls.filter visible) ls' ∧ R s' t' := by
  induction h generalizing t with
  | nil s => exact ⟨[], t, .nil t, .nil, hR⟩
  | @cons s s₁ s₂ l ls hs _ ih =>
      have hl := hP l List.mem_cons_self
      have hrest : ∀ l ∈ ls, P l := fun l hl => hP l (List.mem_cons_of_mem _ hl)
      by_cases hv : visible l = true
      · obtain ⟨l', t₁, hs', hshow, hR₁⟩ := hvisible s l s₁ t hR hl hv hs
        obtain ⟨ls', t', hrun, hshows, hR'⟩ := ih hrest hR₁
        rw [List.filter_cons_of_pos hv]
        exact ⟨l' :: ls', t', .cons hs' hrun, .cons hshow hshows, hR'⟩
      · rw [List.filter_cons_of_neg hv]
        exact ih hrest (hhidden s l s₁ t hR hl (Bool.eq_false_iff.mpr hv) hs)

end Steps
