import Mathlib.Data.List.Nodup

/-!
# Tables with a primary key

A table is a list of rows with distinct keys.  The four statements the rest of the development needs
are an update of the rows satisfying a condition, an atomic insert of several rows, a delete, and the
look-up of a row by its key.  An update may not touch the key, an insert is refused as a whole when it
would repeat one; so every table keeps its key.
-/

set_option autoImplicit false

/-- The rows of a table with primary key `key`. -/
structure Table {ρ κ : Type} (key : ρ → κ) where
  rows : List ρ
  nodup : (rows.map key).Nodup

namespace Table

variable {ρ κ : Type} {key : ρ → κ}

@[ext] theorem ext {t t' : Table key} (h : t.rows = t'.rows) : t = t' := by
  cases t
  cases t'
  cases h
  rfl

instance [DecidableEq ρ] : DecidableEq (Table key) := fun t t' =>
  decidable_of_iff (t.rows = t'.rows) ⟨ext, fun h => by rw [h]⟩

/-- The table without rows. -/
def empty : Table key := ⟨[], List.nodup_nil⟩

/-- Two rows of a table with the same key are the same row. -/
theorem eq_of_key_eq (t : Table key) {r r' : ρ} (hr : r ∈ t.rows) (hr' : r' ∈ t.rows)
    (h : key r = key r') : r = r' :=
  List.inj_on_of_nodup_map t.nodup hr hr' h

/-! ## Looking a row up -/

section Find

variable [DecidableEq κ]

/-- The row with key `k`. -/
def find? (t : Table key) (k : κ) : Option ρ := t.rows.find? fun r => key r = k

theorem find?_eq_some_iff {t : Table key} {k : κ} {r : ρ} :
    t.find? k = some r ↔ r ∈ t.rows ∧ key r = k := by
  constructor
  · intro h
    exact ⟨List.mem_of_find?_eq_some h, by simpa using List.find?_some h⟩
  · rintro ⟨hr, rfl⟩
    cases h : t.find? (key r) with
    | none =>
        have := List.find?_eq_none.mp h r hr
        simp at this
    | some r' =>
        have hr' := List.mem_of_find?_eq_some h
        have hk : key r' = key r := by simpa using List.find?_some h
        rw [t.eq_of_key_eq hr' hr hk]

theorem find?_eq_none_iff {t : Table key} {k : κ} : t.find? k = none ↔ ∀ r ∈ t.rows, key r ≠ k := by
  simp [find?]

theorem find?_key {t : Table key} {k : κ} {r : ρ} (h : t.find? k = some r) : key r = k :=
  (find?_eq_some_iff.mp h).2

/-- Whether a row with key `k` satisfies a condition. -/
theorem any_key (t : Table key) {p : ρ → Bool} {k : κ} (hp : ∀ r, p r = true → key r = k) :
    t.rows.any p = (t.find? k).any p := by
  cases h : t.find? k with
  | none =>
      rw [Option.any_none, List.any_eq_false]
      intro r hr hpr
      have hnone := List.find?_eq_none.mp h r hr
      simp [hp r hpr] at hnone
  | some r =>
      obtain ⟨hr, hk⟩ := find?_eq_some_iff.mp h
      rw [Option.any_some, Bool.eq_iff_iff, List.any_eq_true]
      constructor
      · rintro ⟨r', hr', hpr'⟩
        rwa [t.eq_of_key_eq hr hr' (hk.trans (hp r' hpr').symm)]
      · exact fun hpr => ⟨r, hr, hpr⟩

/-- A condition that one row satisfies and no row with another key does. -/
theorem filter_eq_singleton {t : Table key} {p : ρ → Bool} {k : κ} {r : ρ} (hr : t.find? k = some r)
    (hp : p r = true) (honly : ∀ x ∈ t.rows, p x = true → key x = k) : t.rows.filter p = [r] := by
  obtain ⟨hmem, hk⟩ := find?_eq_some_iff.mp hr
  have hall : ∀ x ∈ t.rows.filter p, x = r := by
    intro x hx
    obtain ⟨hx, hpx⟩ := List.mem_filter.mp hx
    exact t.eq_of_key_eq hx hmem ((honly x hx hpx).trans hk.symm)
  have hnodup : (t.rows.filter p).Nodup := (List.Nodup.of_map _ t.nodup).filter _
  have hin : r ∈ t.rows.filter p := List.mem_filter.mpr ⟨hmem, hp⟩
  refine List.perm_singleton.mp ((List.perm_ext_iff_of_nodup hnodup (List.nodup_singleton r)).mpr ?_)
  intro x
  rw [List.mem_singleton]
  refine ⟨hall x, ?_⟩
  rintro rfl
  exact hin

theorem find?_mem {t : Table key} {k : κ} {r : ρ} (h : t.find? k = some r) : r ∈ t.rows :=
  (find?_eq_some_iff.mp h).1

end Find

/-! ## Update -/

/-- `UPDATE … SET f WHERE p`, for an `f` that does not touch the key. -/
def update (t : Table key) (p : ρ → Bool) (f : ρ → ρ) (hf : ∀ r, key (f r) = key r) : Table key where
  rows := t.rows.map fun r => if p r then f r else r
  nodup := by
    have : (t.rows.map fun r => if p r then f r else r).map key = t.rows.map key := by
      rw [List.map_map]
      refine List.map_congr_left fun r _ => ?_
      simp only [Function.comp]
      split
      · exact hf r
      · rfl
    rw [this]
    exact t.nodup

section Update

variable {t : Table key} {p : ρ → Bool} {f : ρ → ρ} {hf : ∀ r, key (f r) = key r}

/-- The row with key `k` after an update. -/
theorem find?_update [DecidableEq κ] {k : κ} :
    (t.update p f hf).find? k = (t.find? k).map fun r => if p r then f r else r := by
  simp only [find?, update, List.find?_map]
  congr 2
  funext r
  simp only [Function.comp]
  split
  · rw [hf]
  · rfl

/-- An update whose condition no row meets changes nothing. -/
theorem update_eq_self (h : ∀ r ∈ t.rows, p r = false) : t.update p f hf = t := by
  refine ext ?_
  conv_rhs => rw [← List.map_id t.rows]
  refine List.map_congr_left fun r hr => ?_
  simp [h r hr]

end Update

/-! ## Delete -/

/-- `DELETE … WHERE p`. -/
def delete (t : Table key) (p : ρ → Bool) : Table key where
  rows := t.rows.filter fun r => !p r
  nodup := t.nodup.sublist (List.filter_sublist.map key)

theorem mem_delete {t : Table key} {p : ρ → Bool} {r : ρ} :
    r ∈ (t.delete p).rows ↔ r ∈ t.rows ∧ p r = false := by
  simp [delete]

theorem find?_delete [DecidableEq κ] {t : Table key} {p : ρ → Bool} {k : κ} :
    (t.delete p).find? k = (t.find? k).filter fun r => !p r := by
  cases h : (t.delete p).find? k with
  | none =>
      symm
      rw [Option.filter_eq_none_iff]
      intro r hr hp
      have hr' := find?_eq_some_iff.mp hr
      exact find?_eq_none_iff.mp h r (mem_delete.mpr ⟨hr'.1, by simpa using hp⟩) hr'.2
  | some r =>
      obtain ⟨hr, hk⟩ := find?_eq_some_iff.mp h
      obtain ⟨hr, hp⟩ := mem_delete.mp hr
      rw [find?_eq_some_iff.mpr ⟨hr, hk⟩]
      simp [Option.filter, hp]

/-! ## Insert -/

/-- `INSERT … VALUES rs`: refused as a whole when a key would be repeated. -/
def insertAll? [DecidableEq κ] (t : Table key) (rs : List ρ) : Option (Table key) :=
  if h : ((t.rows ++ rs).map key).Nodup then some ⟨t.rows ++ rs, h⟩ else none

section Insert

variable [DecidableEq κ] {t t' : Table key} {rs : List ρ}

theorem insertAll?_eq_some_iff :
    t.insertAll? rs = some t' ↔ t'.rows = t.rows ++ rs := by
  unfold insertAll?
  split
  · next h =>
      constructor
      · intro h'
        cases h'
        rfl
      · intro h'
        rw [Option.some_inj]
        exact ext h'.symm
  · next h =>
      constructor
      · intro h'
        cases h'
      · intro h'
        exact absurd (h' ▸ t'.nodup) h

theorem mem_insertAll? (h : t.insertAll? rs = some t') {r : ρ} :
    r ∈ t'.rows ↔ r ∈ t.rows ∨ r ∈ rs := by
  rw [insertAll?_eq_some_iff.mp h, List.mem_append]

/-- An insert succeeds exactly when the new keys are distinct and not in the table. -/
theorem insertAll?_isSome :
    (t.insertAll? rs).isSome ↔
      (rs.map key).Nodup ∧ ∀ r ∈ rs, ∀ r' ∈ t.rows, key r' ≠ key r := by
  have hiff : ((t.rows ++ rs).map key).Nodup ↔
      (rs.map key).Nodup ∧ ∀ r ∈ rs, ∀ r' ∈ t.rows, key r' ≠ key r := by
    rw [List.map_append, List.nodup_append]
    constructor
    · rintro ⟨-, h₂, h₃⟩
      exact ⟨h₂, fun r hr r' hr' => h₃ _ (List.mem_map_of_mem hr') _ (List.mem_map_of_mem hr)⟩
    · rintro ⟨h₂, h₃⟩
      refine ⟨t.nodup, h₂, ?_⟩
      rintro _ ha _ hb
      obtain ⟨r', hr', rfl⟩ := List.mem_map.mp ha
      obtain ⟨r, hr, rfl⟩ := List.mem_map.mp hb
      exact h₃ r hr r' hr'
  rw [← hiff]
  unfold insertAll?
  split
  · next h => exact ⟨fun _ => h, fun _ => rfl⟩
  · next h => exact ⟨fun h' => absurd h' Bool.false_ne_true, fun h' => absurd h' h⟩

/-- The row with key `k` after an insert. -/
theorem find?_insertAll? (h : t.insertAll? rs = some t') {k : κ} :
    t'.find? k = (t.find? k).or (rs.find? fun r => key r = k) := by
  simp only [find?, insertAll?_eq_some_iff.mp h, List.find?_append]

end Insert

end Table
