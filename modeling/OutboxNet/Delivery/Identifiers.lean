import Mathlib.Data.List.GetD
import OutboxNet.Store.SubscriptionStore

/-!
# The identifiers sent with a delivery

A request carries the delivery id in `X-Outbox-Delivery-Id` and, for a subscription from configuration,
a derived id in `X-Outbox-Subscription-Id`, both in the canonical text of a `Guid`.  Two questions about
them: whether the text has the version and the variant the code stamps into the hash, and whether the
id of a configured subscription tells endpoint and tenant.

The version is stamped into byte 6 of the hash.  The constructor of `Guid` reads its third field least
significant byte first, so that the third group of the text begins with byte 7.  The id of a
subscription is made of url and tenant with a separator between them, which both may contain.
-/

set_option autoImplicit false

namespace OutboxNet

open SubscriptionStore (hexDigit hexByte guidToString)

/-! ## Bytes of a `Guid` -/

/-- The bytes a `Guid` is made of are those it has. -/
theorem Guid.getD_bytes_ofBytes (bytes : List Byte) {i : ℕ} (hi : i < 16) :
    (Guid.ofBytes bytes).bytes.getD i 0 = bytes.getD i 0 := by
  have hbyte : (Guid.ofBytes bytes).bytes.getD i 0 =
      (Guid.ofBytes bytes).extractLsb' (8 * i) 8 := by
    simp [Guid.bytes, List.getD_eq_getElem?_getD, hi]
  rw [hbyte]
  apply BitVec.eq_of_getLsbD_eq
  intro j hj
  rw [BitVec.getLsbD_extractLsb', decide_eq_true hj, Bool.true_and]
  exact Guid.getLsbD_ofBytes bytes hi hj

/-- The first half of a byte with the version stamped in. -/
theorem toNat_stampVariant (b : Byte) :
    8 ≤ ((b &&& 0x3F) ||| 0x80).toNat / 16 ∧ ((b &&& 0x3F) ||| 0x80).toNat / 16 < 12 := by
  revert b
  decide +kernel

/-! ## The canonical text -/

/-- The dash of the canonical text. -/
def dash : UInt16 := 45

/-- The groups of a text. -/
def groups (s : Text) : List Text := s.splitOn dash

/-- The first digit of a group. -/
def leadingDigit (s : Text) (group : ℕ) : Option UInt16 := (groups s)[group]?.bind List.head?

/-- The digits that stand for the variant of RFC 4122. -/
def variantDigits : List UInt16 := text "89ab"

/-- A text has the shape of a versioned UUID. -/
structure VersionedUuid (version : ℕ) (s : Text) : Prop where
  shape : (groups s).map List.length = [8, 4, 4, 4, 12]
  version : leadingDigit s 2 = some (hexDigit version)
  variant : ∃ d ∈ variantDigits, leadingDigit s 3 = some d

theorem hexDigit_injOn {m n : ℕ} (hm : m < 16) (hn : n < 16) (h : hexDigit m = hexDigit n) :
    m = n := by
  have hall : ∀ m < 16, ∀ n < 16, hexDigit m = hexDigit n → m = n := by decide +kernel
  exact hall m hm n hn h

theorem hexDigit_ne_dash (n : ℕ) : hexDigit n ≠ dash := by
  have hall : ∀ u ∈ text "0123456789abcdef", decide (u ≠ dash) = true :=
    List.all_eq_true.mp (by decide +kernel)
  unfold hexDigit
  rcases Nat.lt_or_ge n (text "0123456789abcdef").length with hlt | hge
  · rw [List.getD_eq_getElem _ _ hlt]
    exact of_decide_eq_true (hall _ (List.getElem_mem hlt))
  · rw [List.getD_eq_default _ _ hge]
    decide

/-- The digits of some bytes. -/
def hexGroup (g : Guid) (indices : List ℕ) : Text := indices.flatMap fun i => hexByte (g.bytes.getD i 0)

theorem dash_not_mem_hexGroup (g : Guid) (indices : List ℕ) : dash ∉ hexGroup g indices := by
  intro h
  obtain ⟨i, -, hi⟩ := List.mem_flatMap.mp h
  rcases List.mem_cons.mp hi with hfirst | hsecond
  · exact hexDigit_ne_dash _ hfirst.symm
  · exact hexDigit_ne_dash _ (List.mem_singleton.mp hsecond).symm

theorem length_hexGroup (g : Guid) (indices : List ℕ) :
    (hexGroup g indices).length = 2 * indices.length := by
  induction indices with
  | nil => rfl
  | cons i indices ih =>
      rw [hexGroup, List.flatMap_cons, List.length_append, List.length_cons]
      rw [hexGroup] at ih
      rw [ih]
      simp [hexByte]
      omega

/-- The groups of the canonical text. -/
theorem groups_guidToString (g : Guid) : groups (guidToString g) =
    [hexGroup g [3, 2, 1, 0], hexGroup g [5, 4], hexGroup g [7, 6], hexGroup g [8, 9],
      hexGroup g [10, 11, 12, 13, 14, 15]] := by
  have htext : guidToString g = hexGroup g [3, 2, 1, 0] ++ dash :: (hexGroup g [5, 4] ++ dash ::
      (hexGroup g [7, 6] ++ dash :: (hexGroup g [8, 9] ++ dash ::
        hexGroup g [10, 11, 12, 13, 14, 15]))) := by
    have hdash : text "-" = [dash] := by decide
    unfold guidToString
    simp only [hdash, List.append_assoc, List.singleton_append]
    rfl
  unfold groups
  rw [htext]
  simp only [List.splitOn_append_cons_self_of_not_mem (dash_not_mem_hexGroup g _),
    List.splitOn_eq_singleton (dash_not_mem_hexGroup g _)]

/-- Two digits tell their byte. -/
theorem hexByte_injective : Function.Injective hexByte := by
  intro b b' h
  obtain ⟨hhigh, hrest⟩ := List.cons.inj h
  have hlow := List.head_eq_of_cons_eq hrest
  have hb := b.isLt
  have hb' := b'.isLt
  have hdiv : b.toNat / 16 = b'.toNat / 16 := hexDigit_injOn (by omega) (by omega) hhigh
  have hmod : b.toNat % 16 = b'.toNat % 16 := hexDigit_injOn (by omega) (by omega) hlow
  apply BitVec.eq_of_toNat_eq
  omega

/-- The digits of some bytes tell them. -/
theorem hexGroup_inj {g g' : Guid} {indices : List ℕ} (h : hexGroup g indices = hexGroup g' indices) :
    ∀ i ∈ indices, g.bytes.getD i 0 = g'.bytes.getD i 0 := by
  induction indices with
  | nil => exact nofun
  | cons i indices ih =>
      rw [hexGroup, hexGroup, List.flatMap_cons, List.flatMap_cons] at h
      obtain ⟨hfirst, hrest⟩ := List.append_inj h rfl
      intro j hj
      rcases List.mem_cons.mp hj with rfl | hmem
      · exact hexByte_injective hfirst
      · exact ih hrest j hmem

/-- **The canonical text tells the `Guid`.** -/
theorem guidToString_injective : Function.Injective guidToString := by
  intro g g' h
  have hgroups := congrArg groups h
  rw [groups_guidToString, groups_guidToString] at hgroups
  injection hgroups with h₁ hgroups
  injection hgroups with h₂ hgroups
  injection hgroups with h₃ hgroups
  injection hgroups with h₄ hgroups
  injection hgroups with h₅
  -- every byte is in one of the groups
  have hbyte : ∀ i < 16, g.bytes.getD i 0 = g'.bytes.getD i 0 := by
    intro i hi
    have hmem : i ∈ [3, 2, 1, 0] ∨ i ∈ [5, 4] ∨ i ∈ [7, 6] ∨ i ∈ [8, 9] ∨
        i ∈ [10, 11, 12, 13, 14, 15] := by
      simp only [List.mem_cons, List.not_mem_nil, or_false]
      omega
    rcases hmem with hi | hi | hi | hi | hi
    · exact hexGroup_inj h₁ i hi
    · exact hexGroup_inj h₂ i hi
    · exact hexGroup_inj h₃ i hi
    · exact hexGroup_inj h₄ i hi
    · exact hexGroup_inj h₅ i hi
  apply Guid.bytes_injective
  apply List.ext_getElem (by rw [Guid.length_bytes, Guid.length_bytes])
  intro i hi hi'
  rw [← List.getD_eq_getElem _ 0 hi, ← List.getD_eq_getElem _ 0 hi']
  exact hbyte i (by rwa [Guid.length_bytes] at hi)

/-- The first digit of the third group is that of byte 7, of the fourth that of byte 8. -/
theorem leadingDigit_guidToString (g : Guid) :
    leadingDigit (guidToString g) 2 = some (hexDigit ((g.bytes.getD 7 0).toNat / 16)) ∧
    leadingDigit (guidToString g) 3 = some (hexDigit ((g.bytes.getD 8 0).toNat / 16)) := by
  rw [leadingDigit, leadingDigit, groups_guidToString]
  exact ⟨rfl, rfl⟩

/-- **The version digit is that of byte 7.** A `Guid` whose byte 8 has the variant is a versioned UUID
when byte 7 has the version in its first half. -/
theorem versionedUuid_iff {g : Guid} {version : ℕ} (hversion : version < 16)
    (hvariant : 8 ≤ (g.bytes.getD 8 0).toNat / 16 ∧ (g.bytes.getD 8 0).toNat / 16 < 12) :
    VersionedUuid version (guidToString g) ↔ (g.bytes.getD 7 0).toNat / 16 = version := by
  obtain ⟨hthird, hfourth⟩ := leadingDigit_guidToString g
  constructor
  · intro h
    have hdigit : hexDigit ((g.bytes.getD 7 0).toNat / 16) = hexDigit version := by
      rw [← Option.some.injEq, ← hthird, h.version]
    have hlt := (g.bytes.getD 7 0).isLt
    exact hexDigit_injOn (by omega) hversion hdigit
  · intro h
    refine ⟨?_, by rw [hthird, h], ?_⟩
    · simp only [groups_guidToString, List.map_cons, List.map_nil, length_hexGroup]
      rfl
    · refine ⟨_, ?_, hfourth⟩
      have hall : ∀ n < 12, 8 ≤ n → hexDigit n ∈ variantDigits := by decide +kernel
      exact hall _ hvariant.2 hvariant.1

/-! ## Stamped hashes -/

theorem getD_seven_stamp (hash : List Byte) (f g : Byte → Byte) :
    ((hash.modify 6 f).modify 8 g).getD 7 0 = hash.getD 7 0 := by
  simp [List.getD_eq_getElem?_getD]

theorem getD_eight_stamp {hash : List Byte} (hlen : 8 < hash.length) (f g : Byte → Byte) :
    ((hash.modify 6 f).modify 8 g).getD 8 0 = g (hash.getD 8 0) := by
  simp [List.getD_eq_getElem?_getD, hlen]

/-- The delivery id has its version when byte 7 of the hash has it. -/
theorem deriveDeliveryId_versioned_iff (sha256 : Hash) (messageId subscriptionId : Guid)
    (attemptNumber : ℤ) :
    VersionedUuid 5
        (guidToString (deriveDeliveryId sha256 messageId subscriptionId attemptNumber)) ↔
      ((sha256.hashData (deliveryIdInput messageId subscriptionId attemptNumber)).getD 7 0).toNat / 16
        = 5 := by
  have hlen := sha256.length_hashData (deliveryIdInput messageId subscriptionId attemptNumber)
  have hbyte : ∀ i < 16,
      (deriveDeliveryId sha256 messageId subscriptionId attemptNumber).bytes.getD i 0 =
        (stampVersion5 (sha256.hashData
          (deliveryIdInput messageId subscriptionId attemptNumber))).getD i 0 := by
    intro i hi
    rw [deriveDeliveryId, Guid.getD_bytes_ofBytes _ hi, List.getD_eq_getElem?_getD,
      List.getElem?_take_of_lt hi, ← List.getD_eq_getElem?_getD]
  rw [versionedUuid_iff (by omega), hbyte 7 (by omega), stampVersion5, getD_seven_stamp]
  rw [hbyte 8 (by omega), stampVersion5, getD_eight_stamp (by omega)]
  exact toNat_stampVariant _

/-- The id of a configured subscription has its version when byte 7 of the hash has it. -/
theorem deterministicId_versioned_iff (md5 : Md5) (url : Text) (tenantId : Option Text) :
    VersionedUuid 3 (guidToString (ConfigSubscriptionStore.deterministicId md5 url tenantId)) ↔
      ((md5.hashData (utf8GetBytes (url ++ text "|" ++ tenantId.getD []))).getD 7 0).toNat / 16
        = 3 := by
  have hlen := md5.length_hashData (utf8GetBytes (url ++ text "|" ++ tenantId.getD []))
  rw [versionedUuid_iff (by omega), ConfigSubscriptionStore.deterministicId,
    Guid.getD_bytes_ofBytes _ (by omega), stampVersion3, getD_seven_stamp]
  rw [ConfigSubscriptionStore.deterministicId, Guid.getD_bytes_ofBytes _ (by omega), stampVersion3,
    getD_eight_stamp (by omega)]
  exact toNat_stampVariant _

/-- **Derived ids are versioned by chance.** The text of a delivery id has version 5, and that of the id
of a configured subscription version 3, exactly when byte 7 of the hash has it already; both always
have the variant. -/
theorem derived_ids_versioned_iff (sha256 : Hash) (md5 : Md5) (messageId subscriptionId : Guid)
    (attemptNumber : ℤ) (url : Text) (tenantId : Option Text) :
    (VersionedUuid 5
        (guidToString (deriveDeliveryId sha256 messageId subscriptionId attemptNumber)) ↔
      ((sha256.hashData (deliveryIdInput messageId subscriptionId attemptNumber)).getD 7 0).toNat / 16
        = 5) ∧
    (VersionedUuid 3 (guidToString (ConfigSubscriptionStore.deterministicId md5 url tenantId)) ↔
      ((md5.hashData (utf8GetBytes (url ++ text "|" ++ tenantId.getD []))).getD 7 0).toNat / 16
        = 3) :=
  ⟨deriveDeliveryId_versioned_iff sha256 messageId subscriptionId attemptNumber,
    deterministicId_versioned_iff md5 url tenantId⟩

/-- SHA-256 with its value for the first attempt of message 1 to subscription 7. -/
def sampleSha256 : Hash where
  hashData _ := [208, 224, 194, 205, 48, 12, 223, 197, 88, 141, 153, 139, 198, 57, 132, 27, 52, 106,
    109, 89, 48, 94, 122, 14, 6, 209, 5, 250, 79, 146, 170, 156]
  length_hashData _ := rfl

/-- MD5 with its value for `https://acme.example/hook|acme`. -/
def sampleMd5 : Md5 where
  hashData _ := [150, 149, 166, 119, 246, 107, 163, 70, 75, 118, 137, 243, 236, 233, 114, 42]
  length_hashData _ := rfl

/-- Neither id has its version there: the third groups of the texts begin with `c` and with `4`. -/
theorem version_missing :
    ¬ VersionedUuid 5 (guidToString (deriveDeliveryId sampleSha256 1 7 1)) ∧
    ¬ VersionedUuid 3 (guidToString (ConfigSubscriptionStore.deterministicId sampleMd5
      (text "https://acme.example/hook") (some (text "acme")))) := by
  rw [deriveDeliveryId_versioned_iff, deterministicId_versioned_iff]
  decide

/-! ## What the id of a configured subscription tells -/

/-- A list split at a separator in two ways: the same way, or one of the first parts goes on with the
separator and the beginning of the other's second part. -/
theorem append_cons_eq_append_cons_iff {α : Type} {x : α} {a b a' b' : List α} :
    a ++ x :: b = a' ++ x :: b' ↔ (a = a' ∧ b = b') ∨
      (∃ w, a' = a ++ x :: w ∧ b = w ++ x :: b') ∨ (∃ w, a = a' ++ x :: w ∧ b' = w ++ x :: b) := by
  rw [List.append_eq_append_iff]
  constructor
  · rintro (⟨w, rfl, hw⟩ | ⟨w, rfl, hw⟩)
    · cases w with
      | nil =>
          obtain ⟨-, rfl⟩ := List.cons.inj hw
          exact .inl ⟨(List.append_nil a).symm, rfl⟩
      | cons y w =>
          obtain ⟨rfl, rfl⟩ := List.cons.inj hw
          exact .inr (.inl ⟨w, rfl, rfl⟩)
    · cases w with
      | nil =>
          obtain ⟨-, rfl⟩ := List.cons.inj hw
          exact .inl ⟨List.append_nil a', rfl⟩
      | cons y w =>
          obtain ⟨rfl, rfl⟩ := List.cons.inj hw
          exact .inr (.inr ⟨w, rfl, rfl⟩)
  · rintro (⟨rfl, rfl⟩ | ⟨w, rfl, rfl⟩ | ⟨w, rfl, rfl⟩)
    · exact .inl ⟨[], (List.append_nil a).symm, rfl⟩
    · exact .inl ⟨x :: w, rfl, rfl⟩
    · exact .inr ⟨x :: w, rfl, rfl⟩

/-- The code points before a code unit that is no surrogate. -/
theorem codePoints_append_cons {u : UInt16} (hhigh : isHighSurrogate u = false)
    (hlow : isLowSurrogate u = false) (s t : Text) :
    codePoints (s ++ u :: t) = codePoints s ++ u.toNat :: codePoints t := by
  fun_induction codePoints s with
  | case1 => exact codePoints_cons hhigh hlow t
  | case2 v =>
      show codePoints (v :: u :: t) = _
      rw [codePoints, if_neg (by simp [hlow]), codePoints_cons hhigh hlow t]
      rfl
  | case3 v v' us hpair ih =>
      show codePoints (v :: v' :: (us ++ u :: t)) = _
      rw [codePoints, if_pos hpair, ih]
      rfl
  | case4 v v' us hpair ih =>
      show codePoints (v :: v' :: (us ++ u :: t)) = _
      rw [codePoints, if_neg hpair]
      exact congrArg (codePoint v :: ·) ih

namespace ConfigSubscriptionStore

variable {md5 : Md5} {url url' : Text} {tenantId tenantId' : Option Text}

/-- The text the id is made of. -/
def idKey (url : Text) (tenantId : Option Text) : Text := url ++ text "|" ++ tenantId.getD []

theorem deterministicId_eq (md5 : Md5) (url : Text) (tenantId : Option Text) :
    deterministicId md5 url tenantId =
      Guid.ofBytes (stampVersion3 (md5.hashData (utf8GetBytes (idKey url tenantId)))) := rfl

/-- The code point of the separator. -/
def separator : ℕ := 0x7C

/-- Two pairs of url and tenant that are no different in their key.  Strings count as their code points;
a tenant that is null counts as the empty one. -/
inductive Confused (url : Text) (tenantId : Option Text) (url' : Text) (tenantId' : Option Text) :
    Prop
  | same :
      codePoints url = codePoints url' →
      codePoints (tenantId.getD []) = codePoints (tenantId'.getD []) →
      Confused url tenantId url' tenantId'
  | left (w : List ℕ) :
      codePoints url' = codePoints url ++ separator :: w →
      codePoints (tenantId.getD []) = w ++ separator :: codePoints (tenantId'.getD []) →
      Confused url tenantId url' tenantId'
  | right (w : List ℕ) :
      codePoints url = codePoints url' ++ separator :: w →
      codePoints (tenantId'.getD []) = w ++ separator :: codePoints (tenantId.getD []) →
      Confused url tenantId url' tenantId'

theorem codePoints_idKey (url : Text) (tenantId : Option Text) :
    codePoints (idKey url tenantId) =
      codePoints url ++ separator :: codePoints (tenantId.getD []) := by
  have hbar : text "|" = [124] := by decide
  rw [idKey, hbar, List.append_assoc, List.singleton_append]
  exact codePoints_append_cons (by decide) (by decide) _ _

/-- Two keys have the same bytes when their pairs are confused. -/
theorem confused_iff :
    Confused url tenantId url' tenantId' ↔
      utf8GetBytes (idKey url tenantId) = utf8GetBytes (idKey url' tenantId') := by
  rw [utf8GetBytes_eq_iff, codePoints_idKey, codePoints_idKey, append_cons_eq_append_cons_iff]
  constructor
  · rintro (⟨hurl, htenantId⟩ | ⟨w, hurl, htenantId⟩ | ⟨w, hurl, htenantId⟩)
    · exact .inl ⟨hurl, htenantId⟩
    · exact .inr (.inl ⟨w, hurl, htenantId⟩)
    · exact .inr (.inr ⟨w, hurl, htenantId⟩)
  · rintro (⟨hurl, htenantId⟩ | ⟨w, hurl, htenantId⟩ | ⟨w, hurl, htenantId⟩)
    · exact .same hurl htenantId
    · exact .left w hurl htenantId
    · exact .right w hurl htenantId

/-- The hash, with the bits of its version, tells two inputs apart. -/
def Separates (md5 : Md5) (input input' : List Byte) : Prop :=
  Guid.ofBytes (stampVersion3 (md5.hashData input)) =
    Guid.ofBytes (stampVersion3 (md5.hashData input')) → input = input'

/-- **The id identifies endpoint and tenant unless the pairs are confused.** -/
theorem deterministicId_identifies_iff
    (hmd5 : Separates md5 (utf8GetBytes (idKey url tenantId)) (utf8GetBytes (idKey url' tenantId'))) :
    (deterministicId md5 url tenantId = deterministicId md5 url' tenantId' →
      url = url' ∧ tenantId = tenantId') ↔
    (url = url' ∧ tenantId = tenantId') ∨ ¬ Confused url tenantId url' tenantId' := by
  have hid : deterministicId md5 url tenantId = deterministicId md5 url' tenantId' ↔
      Confused url tenantId url' tenantId' := by
    rw [confused_iff, deterministicId_eq, deterministicId_eq]
    constructor
    · exact hmd5
    · intro h
      rw [h]
  rw [hid]
  constructor
  · intro h
    by_cases hconfused : Confused url tenantId url' tenantId'
    · exact .inl (h hconfused)
    · exact .inr hconfused
  · rintro (heq | hconfused) h
    · exact heq
    · exact absurd h hconfused

/-- MD5 with its values for `https://acme.example/hook|acme` and `https://acme.example/hook|`. -/
def twoTenantsMd5 : Md5 where
  hashData input :=
    if input = utf8GetBytes (text "https://acme.example/hook|") then
      [168, 115, 226, 155, 17, 82, 141, 4, 232, 96, 59, 223, 70, 175, 62, 14]
    else [150, 149, 166, 119, 246, 107, 163, 70, 75, 118, 137, 243, 236, 233, 114, 42]
  length_hashData input := by split <;> rfl

/-- One endpoint with a tenant and without one has two ids. -/
theorem two_tenants_identified :
    deterministicId twoTenantsMd5 (text "https://acme.example/hook") (some (text "acme")) ≠
      deterministicId twoTenantsMd5 (text "https://acme.example/hook") none := by
  intro h
  have hne : utf8GetBytes (idKey (text "https://acme.example/hook") (some (text "acme"))) ≠
      utf8GetBytes (idKey (text "https://acme.example/hook") none) := by decide +kernel
  have hmd5 : Separates twoTenantsMd5
      (utf8GetBytes (idKey (text "https://acme.example/hook") (some (text "acme"))))
      (utf8GetBytes (idKey (text "https://acme.example/hook") none)) := by
    intro hhash
    revert hhash
    decide +kernel
  have hsame := (deterministicId_identifies_iff hmd5).mpr
    (.inr fun hconfused => hne (confused_iff.mp hconfused)) h
  exact absurd hsame.2 (by decide)

/-- Two pairs with one id: the tenant `b|c` at one url, and the tenant `c` at the url that ends in `|b`. -/
theorem endpoint_not_identified : ∃ md5 : Md5,
    Separates md5 (utf8GetBytes (idKey (text "https://acme.example/a") (some (text "b|c"))))
      (utf8GetBytes (idKey (text "https://acme.example/a|b") (some (text "c")))) ∧
    ¬ (deterministicId md5 (text "https://acme.example/a") (some (text "b|c")) =
        deterministicId md5 (text "https://acme.example/a|b") (some (text "c")) →
      text "https://acme.example/a" = text "https://acme.example/a|b" ∧
        some (text "b|c") = some (text "c")) := by
  have hkey : idKey (text "https://acme.example/a") (some (text "b|c")) =
      idKey (text "https://acme.example/a|b") (some (text "c")) := by decide
  refine ⟨sampleMd5, fun _ => congrArg utf8GetBytes hkey, fun h => ?_⟩
  have hid : deterministicId sampleMd5 (text "https://acme.example/a") (some (text "b|c")) =
      deterministicId sampleMd5 (text "https://acme.example/a|b") (some (text "c")) := by
    rw [deterministicId_eq, deterministicId_eq, hkey]
  exact absurd (h hid).1 (by decide)

end ConfigSubscriptionStore

end OutboxNet
