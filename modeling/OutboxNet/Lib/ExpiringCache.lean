import Mathlib.Algebra.Order.Group.Int
import OutboxNet.Lib.Runs

/-!
# A cache with lifetimes

Values are set under keys for a lifetime, and looked up.  An entry is not found any more once its lifetime
is over, and before that the cache may have dropped it: `drops before after` says what it may drop at any
time.

The rules.  What is found under a key was set under it within its lifetime, and nothing was set since
(`found_was_set`).  A cache that drops nothing finds the value set last as long as the lifetime of an
earlier one lasts (`found_of_set`).
-/

set_option autoImplicit false

namespace ExpiringCache

variable {K V : Type} [DecidableEq K]

structure Item (K V : Type) where
  key : K
  value : V
  expires : ℤ

structure Cache (K V : Type) where
  now : ℤ
  items : List (Item K V)

/-- What is done at an instant, and what a lookup finds. -/
inductive Op (K V : Type) : Type
  | lookup (key : K) (instant : ℤ) (found : Option V)
  | set (key : K) (value : V) (lifetime instant : ℤ)
  | pass (instant : ℤ)

/-- The instant of an operation. -/
def Op.instant : Op K V → ℤ
  | .lookup _ instant _ => instant
  | .set _ _ _ instant => instant
  | .pass instant => instant

/-- What is found under a key at an instant. -/
def find? (items : List (Item K V)) (key : K) (instant : ℤ) : Option V :=
  (items.find? fun item => item.key = key ∧ instant < item.expires).map (·.value)

/-- The items after one is put in the place of those of its key. -/
def put (item : Item K V) (items : List (Item K V)) : List (Item K V) :=
  item :: items.filter fun x => x.key ≠ item.key

/-- The value is set under this key. -/
def Op.Sets (key : K) : Op K V → Prop
  | .set k _ _ _ => k = key
  | _ => False

/-- The value an operation sets under a key. -/
def Op.value? (key : K) : Op K V → Option V
  | .set k value _ _ => if k = key then some value else none
  | _ => none

/-- The value set last under a key by some operations, or one from before. -/
def lastValue (key : K) (value : V) (ops : List (Op K V)) : V :=
  (ops.filterMap (Op.value? key)).getLast?.getD value

/-- One operation. -/
inductive Step (drops : List (Item K V) → List (Item K V) → Prop) : Cache K V → Op K V → Cache K V → Prop
  | lookup {cache : Cache K V} {key : K} {instant : ℤ} {kept : List (Item K V)} :
      cache.now ≤ instant → drops cache.items kept →
      Step drops cache (.lookup key instant (find? kept key instant)) ⟨instant, kept⟩
  | set {cache : Cache K V} {key : K} {value : V} {lifetime instant : ℤ} {kept : List (Item K V)} :
      cache.now ≤ instant → drops (put ⟨key, value, instant + lifetime⟩ cache.items) kept →
      Step drops cache (.set key value lifetime instant) ⟨instant, kept⟩
  | pass {cache : Cache K V} {instant : ℤ} :
      cache.now ≤ instant → Step drops cache (.pass instant) ⟨instant, cache.items⟩

/-- A cache that may drop any items at any time. -/
def DropsAny (items kept : List (Item K V)) : Prop := kept.Sublist items

variable {drops : List (Item K V) → List (Item K V) → Prop} {cache cache' : Cache K V} {op : Op K V}
  {ops : List (Op K V)} {key : K} {value : V} {instant : ℤ}

theorem find?_eq_some {items : List (Item K V)} (h : find? items key instant = some value) :
    ∃ item ∈ items, item.key = key ∧ item.value = value ∧ instant < item.expires := by
  obtain ⟨item, hitem, hvalue⟩ := Option.map_eq_some_iff.mp h
  have hfound := List.find?_some hitem
  rw [decide_eq_true_eq] at hfound
  exact ⟨item, List.mem_of_find?_eq_some hitem, hfound.1, hvalue, hfound.2⟩

theorem find?_isSome {items : List (Item K V)} {item : Item K V} (hmem : item ∈ items)
    (hkey : item.key = key) (hlt : instant < item.expires) :
    (find? items key instant).isSome = true := by
  rw [find?, Option.isSome_map, List.find?_isSome]
  exact ⟨item, hmem, decide_eq_true ⟨hkey, hlt⟩⟩

theorem mem_put {item x : Item K V} {items : List (Item K V)} :
    x ∈ put item items ↔ x = item ∨ x ∈ items ∧ x.key ≠ item.key := by
  rw [put, List.mem_cons, List.mem_filter, decide_eq_true_eq]

/-- Time does not go back. -/
theorem Step.now_le (h : Step drops cache op cache') : cache.now ≤ cache'.now := by
  cases h with
  | lookup hle _ => exact hle
  | set hle _ => exact hle
  | pass hle => exact hle

theorem Step.now_eq (h : Step drops cache op cache') : cache'.now = op.instant := by
  cases h <;> rfl

/-- The operations of a run come in the order of their instants. -/
theorem instants_ordered (h : Steps (Step drops) cache ops cache') :
    ops.Pairwise (fun op op' => op.instant ≤ op'.instant) ∧
      (∀ op ∈ ops, cache.now ≤ op.instant ∧ op.instant ≤ cache'.now) ∧ cache.now ≤ cache'.now := by
  induction h with
  | nil cache => exact ⟨.nil, List.forall_mem_nil _, le_refl _⟩
  | cons hstep _ ih =>
      obtain ⟨hordered, hbounds, hle⟩ := ih
      have hnow := hstep.now_le
      have hinstant := hstep.now_eq
      refine ⟨List.pairwise_cons.mpr ⟨fun op' hop' => ?_, hordered⟩, fun op' hop' => ?_, hnow.trans hle⟩
      · exact hinstant ▸ (hbounds op' hop').1
      · rcases List.mem_cons.mp hop' with rfl | hop'
        · exact ⟨hinstant ▸ hnow, hinstant ▸ hle⟩
        · exact ⟨hnow.trans (hbounds op' hop').1, (hbounds op' hop').2⟩

/-! ## What is found was set -/

/-- An item was put by one of the operations, and none has set its key since. -/
def Put (ops : List (Op K V)) (now : ℤ) (item : Item K V) : Prop :=
  ∃ before since lifetime instant, ops = before ++ .set item.key item.value lifetime instant :: since ∧
    item.expires = instant + lifetime ∧ instant ≤ now ∧ ∀ op ∈ since, ¬ op.Sets item.key

omit [DecidableEq K] in
theorem Put.snoc {now now' : ℤ} {item : Item K V} (h : Put ops now item) (hnow : now ≤ now')
    (hop : ¬ op.Sets item.key) : Put (ops ++ [op]) now' item := by
  obtain ⟨before, since, lifetime, instant, rfl, hexpires, hle, hsince⟩ := h
  refine ⟨before, since ++ [op], lifetime, instant, by simp, hexpires, hle.trans hnow, ?_⟩
  intro op' hop'
  rcases List.mem_append.mp hop' with hop' | hop'
  · exact hsince op' hop'
  · rw [List.mem_singleton.mp hop']
    exact hop

/-- The step lemma: an operation leaves items that were put. -/
theorem put_step (hdrops : ∀ items kept, drops items kept → kept ⊆ items)
    (hput : ∀ item ∈ cache.items, Put ops cache.now item) (hstep : Step drops cache op cache') :
    ∀ item ∈ cache'.items, Put (ops ++ [op]) cache'.now item := by
  intro item hitem
  cases hstep with
  | lookup hle hkept => exact (hput item (hdrops _ _ hkept hitem)).snoc hle id
  | pass hle => exact (hput item hitem).snoc hle id
  | @set key value lifetime instant kept hle hkept =>
      rcases mem_put.mp (hdrops _ _ hkept hitem) with rfl | ⟨hold, hne⟩
      · exact ⟨ops, [], lifetime, instant, rfl, rfl, le_refl _, List.forall_mem_nil _⟩
      · exact (hput item hold).snoc hle fun hsets => hne hsets.symm

/-- **What is found was set**, within its lifetime, and nothing was set under the key since. -/
theorem found_was_set (hdrops : ∀ items kept, drops items kept → kept ⊆ items) {now : ℤ}
    (hrun : Steps (Step drops) ⟨now, []⟩ ops cache)
    (hlookup : Step drops cache (.lookup key instant (some value)) cache') :
    ∃ before since lifetime start, ops = before ++ .set key value lifetime start :: since ∧
      start ≤ instant ∧ instant < start + lifetime ∧ ∀ op ∈ since, ¬ op.Sets key := by
  have hput : ∀ item ∈ cache.items, Put ops cache.now item := by
    refine hrun.invariant_history (fun ops cache => ∀ item ∈ cache.items, Put ops cache.now item) ?_
      (List.forall_mem_nil _)
    exact fun ops cache op cache' h hstep => put_step hdrops h hstep
  generalize hop : (.lookup key instant (some value) : Op K V) = op at hlookup
  cases hlookup with
  | @lookup _ _ kept hle hkept =>
      simp only [Op.lookup.injEq] at hop
      obtain ⟨rfl, rfl, hfound⟩ := hop
      obtain ⟨item, hitem, rfl, rfl, hlt⟩ := find?_eq_some hfound.symm
      obtain ⟨before, since, lifetime, start, hops, hexpires, hstart, hsince⟩ :=
        hput item (hdrops _ _ hkept hitem)
      exact ⟨before, since, lifetime, start, hops, hstart.trans hle, hexpires ▸ hlt, hsince⟩
  | _ => cases hop

/-! ## What was set is found -/

/-- The only item of its key is `item`. -/
def Holds (item : Item K V) (cache : Cache K V) : Prop :=
  item ∈ cache.items ∧ ∀ x ∈ cache.items, x.key = item.key → x = item

theorem Holds.put (item : Item K V) (instant : ℤ) (items : List (Item K V)) :
    Holds item ⟨instant, put item items⟩ := by
  refine ⟨mem_put.mpr (.inl rfl), fun x hx hkey => ?_⟩
  rcases mem_put.mp hx with rfl | ⟨-, hne⟩
  · rfl
  · exact absurd hkey hne

/-- What is found under the key is the item's value, until it expires. -/
theorem Holds.find? {item : Item K V} (h : Holds item cache) (hlt : instant < item.expires) :
    find? cache.items item.key instant = some item.value := by
  obtain ⟨value, hvalue⟩ := Option.isSome_iff_exists.mp (find?_isSome h.1 rfl hlt)
  obtain ⟨item', hmem, hkey, rfl, -⟩ := find?_eq_some hvalue
  rw [hvalue, h.2 item' hmem hkey]

omit [DecidableEq K] in
/-- A cache that drops nothing keeps an item that is not replaced. -/
theorem Holds.of_items {item : Item K V} (h : Holds item cache) (hitems : cache'.items = cache.items) :
    Holds item cache' := by
  rw [Holds, hitems]
  exact h

theorem lastValue_append (key : K) (value : V) (ops : List (Op K V)) (op : Op K V) :
    lastValue key value (ops ++ [op]) = (op.value? key).getD (lastValue key value ops) := by
  rw [lastValue, List.filterMap_append]
  cases hop : op.value? key with
  | none => simp [hop, lastValue]
  | some v => simp [hop]

/-- The step lemma: an item that lasts is replaced by one that lasts as long. -/
theorem Holds.step {last lifetime : ℤ} {item : Item K V} (h : Holds item cache) (hkey : item.key = key)
    (hlast : last ≤ item.expires) (hstep : Step Eq cache op cache')
    (hnow : last ≤ cache.now + lifetime)
    (hlifetime : ∀ value lifetime' instant, op = .set key value lifetime' instant → lifetime ≤ lifetime') :
    ∃ item', Holds item' cache' ∧ item'.key = key ∧ last ≤ item'.expires ∧
      item'.value = (op.value? key).getD item.value := by
  cases hstep with
  | lookup _ hkept => exact ⟨item, h.of_items hkept.symm, hkey, hlast, rfl⟩
  | pass => exact ⟨item, h.of_items rfl, hkey, hlast, rfl⟩
  | @set key' value lifetime' instant _ hle hkept =>
      subst hkept
      by_cases hsame : key' = key
      · subst hsame
        have hlonger := hlifetime value lifetime' instant rfl
        refine ⟨_, Holds.put _ _ _, rfl, ?_, ?_⟩
        · show last ≤ instant + lifetime'
          omega
        · rw [Op.value?, if_pos rfl, Option.getD_some]
      · refine ⟨item, ⟨mem_put.mpr (.inr ⟨h.1, ?_⟩), fun x hx hxkey => ?_⟩, hkey, hlast, ?_⟩
        · exact fun heq => hsame (heq.symm.trans hkey)
        · rcases mem_put.mp hx with rfl | ⟨hold, -⟩
          · exact absurd (hxkey.trans hkey) hsame
          · exact h.2 x hold hxkey
        · rw [Op.value?, if_neg hsame, Option.getD_none]

/-- **What was set last is found** as long as the lifetime of a value set before lasts, if the cache drops
nothing and what is set under the key in between has no shorter lifetime. -/
theorem found_of_set {lifetime start : ℤ} {cache₁ cache₂ cache₃ : Cache K V} {found : Option V}
    (hset : Step Eq cache (.set key value lifetime start) cache₁)
    (hrun : Steps (Step Eq) cache₁ ops cache₂)
    (hlifetime : ∀ value lifetime' instant, .set key value lifetime' instant ∈ ops →
      lifetime ≤ lifetime')
    (hlookup : Step Eq cache₂ (.lookup key instant found) cache₃)
    (hlt : instant < start + lifetime) : found = some (lastValue key value ops) := by
  have hafter : cache₁.now = start ∧ Holds ⟨key, value, start + lifetime⟩ cache₁ := by
    cases hset with
    | set _ hkept =>
        subst hkept
        exact ⟨rfl, Holds.put _ _ _⟩
  have hkeeps := hrun.invariant_history
    (fun ops cache => (∀ value lifetime' instant, .set key value lifetime' instant ∈ ops →
        lifetime ≤ lifetime') → start ≤ cache.now ∧ ∃ item, Holds item cache ∧ item.key = key ∧
      start + lifetime ≤ item.expires ∧ item.value = lastValue key value ops)
    ?_ fun _ => ⟨hafter.1.ge, _, hafter.2, rfl, le_refl _, rfl⟩
  · obtain ⟨-, item, hholds, rfl, hle, hvalue⟩ := hkeeps hlifetime
    cases hlookup with
    | lookup _ hkept =>
        subst hkept
        rw [hholds.find? (hlt.trans_le hle), hvalue]
  · intro ops cache op cache' ih hstep hops
    obtain ⟨hnow, item, hholds, hkey, hle, hvalue⟩ :=
      ih fun value lifetime' instant hmem => hops _ _ _ (List.mem_append_left _ hmem)
    obtain ⟨item', hholds', hkey', hle', hvalue'⟩ := hholds.step hkey hle hstep (by omega)
      fun value lifetime' instant hop =>
        hops value lifetime' instant (List.mem_append_right _ (hop ▸ List.mem_singleton_self op))
    refine ⟨hnow.trans hstep.now_le, item', hholds', hkey', hle', ?_⟩
    rw [hvalue', hvalue, lastValue_append]

end ExpiringCache
