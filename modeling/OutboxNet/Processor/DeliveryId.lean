import Mathlib.Data.Set.Function
import OutboxNet.Core.Encoding
import OutboxNet.Lib.Buffer

/-!
# Delivery ids

`DeriveDeliveryId` hashes the message id, the subscription id and the attempt number, laid out in a
buffer of 36 bytes, and makes a versioned identifier of the first 16 bytes of the hash.  SHA-256 is a
parameter.

The three writes tile the buffer, so that what is hashed depends on nothing else, and tells the ids and
the number.
-/

set_option autoImplicit false

namespace OutboxNet

open Buffer (littleEndian)

/-- `Guid.TryWriteBytes`: the sixteen bytes of the memory layout. -/
def Guid.bytes (g : Guid) : List Byte := (List.range 16).map fun i => g.extractLsb' (8 * i) 8

/-- `new Guid(bytes)`, for sixteen bytes. -/
def Guid.ofBytes (bytes : List Byte) : Guid :=
  (List.range 16).foldl (fun g i => g ||| (bytes.getD i 0).setWidth 128 <<< (8 * i)) 0

/-- `WriteInt32LittleEndian`: the four bytes of a 32-bit number. -/
def int32Bytes (n : ℤ) : List Byte :=
  (List.range 4).map fun i => (BitVec.ofInt 32 n).extractLsb' (8 * i) 8

/-- Writes `bytes` into a buffer from `offset` on. -/
def writeBytes (offset : ℕ) (bytes buffer : List Byte) : List Byte :=
  buffer.take offset ++ bytes ++ buffer.drop (offset + bytes.length)

/-- A hash function with an output of 32 bytes. -/
structure Hash where
  hashData : List Byte → List Byte
  length_hashData : ∀ input, (hashData input).length = 32

/-- The length of a hash that is constantly zero. -/
theorem length_replicate_zero (_input : List Byte) : (List.replicate 32 (0 : Byte)).length = 32 :=
  List.length_replicate

/-- The buffer that is hashed. -/
def deliveryIdInput (messageId subscriptionId : Guid) (attemptNumber : ℤ) : List Byte :=
  writeBytes 32 (int32Bytes attemptNumber)
    (writeBytes 16 subscriptionId.bytes (writeBytes 0 messageId.bytes (List.replicate 36 0)))

/-- The layout bits of version 5 and of the RFC 4122 variant. -/
def stampVersion5 (hash : List Byte) : List Byte :=
  (hash.modify 6 fun b => (b &&& 0x0F) ||| 0x50).modify 8 fun b => (b &&& 0x3F) ||| 0x80

/-- `DeriveDeliveryId`. -/
def deriveDeliveryId (sha256 : Hash) (messageId subscriptionId : Guid) (attemptNumber : ℤ) : Guid :=
  Guid.ofBytes
    ((stampVersion5 (sha256.hashData (deliveryIdInput messageId subscriptionId attemptNumber))).take
      16)

/-! ## The layout of a `Guid` -/

/-- The fields of a `Guid`: a number of 32 bits, two of 16 bits, and eight bytes. -/
structure Guid.Fields where
  a : BitVec 32
  b : BitVec 16
  c : BitVec 16
  d : Byte
  e : Byte
  f : Byte
  g : Byte
  h : Byte
  i : Byte
  j : Byte
  k : Byte
deriving DecidableEq, Repr

/-- The fields of the memory layout. -/
def Guid.fields (guid : Guid) : Guid.Fields where
  a := guid.extractLsb' 0 32
  b := guid.extractLsb' 32 16
  c := guid.extractLsb' 48 16
  d := guid.extractLsb' 64 8
  e := guid.extractLsb' 72 8
  f := guid.extractLsb' 80 8
  g := guid.extractLsb' 88 8
  h := guid.extractLsb' 96 8
  i := guid.extractLsb' 104 8
  j := guid.extractLsb' 112 8
  k := guid.extractLsb' 120 8

/-- The numbers least significant byte first, and the bytes in their order. -/
def Guid.Fields.bytes (fields : Guid.Fields) : List Byte :=
  littleEndian 4 fields.a ++ littleEndian 2 fields.b ++ littleEndian 2 fields.c ++
    [fields.d, fields.e, fields.f, fields.g, fields.h, fields.i, fields.j, fields.k]

/-- What `TryWriteBytes` writes, by its fields. -/
theorem Guid.bytes_eq_fields (guid : Guid) : guid.bytes = guid.fields.bytes := by
  have ha := Buffer.littleEndian_extractLsb' 4 0 guid
  have hb := Buffer.littleEndian_extractLsb' 2 32 guid
  have hc := Buffer.littleEndian_extractLsb' 2 48 guid
  show _ = littleEndian 4 (guid.extractLsb' 0 (8 * 4)) ++ littleEndian 2 (guid.extractLsb' 32 (8 * 2)) ++
    littleEndian 2 (guid.extractLsb' 48 (8 * 2)) ++ _
  rw [ha, hb, hc]
  rfl

/-- The bytes tell each field, the numbers by their order of bytes. -/
theorem Guid.Fields.bytes_injective : Function.Injective Guid.Fields.bytes := by
  intro x y h
  unfold Guid.Fields.bytes at h
  obtain ⟨hnumbers, hrest⟩ := List.append_inj h (by simp)
  obtain ⟨hab, hc⟩ := List.append_inj hnumbers (by simp)
  obtain ⟨ha, hb⟩ := List.append_inj hab (by simp)
  have ha' : x.a = y.a := Buffer.littleEndian_injective (by decide) ha
  have hb' : x.b = y.b := Buffer.littleEndian_injective (by decide) hb
  have hc' : x.c = y.c := Buffer.littleEndian_injective (by decide) hc
  simp only [List.cons.injEq, and_true] at hrest
  cases x
  cases y
  rw [Guid.Fields.mk.injEq]
  exact ⟨ha', hb', hc', hrest⟩

theorem Guid.length_bytes (guid : Guid) : guid.bytes.length = 16 := Buffer.length_littleEndian 16 guid

/-- The bytes tell the `Guid`. -/
theorem Guid.bytes_injective : Function.Injective Guid.bytes :=
  Buffer.littleEndian_injective (by decide)

/-! ## The buffer -/

/-- A number is one of 32 bits. -/
def IsInt32 (n : ℤ) : Prop := -int32Max - 1 ≤ n ∧ n ≤ int32Max

instance (n : ℤ) : Decidable (IsInt32 n) := inferInstanceAs (Decidable (_ ∧ _))

/-- The result of unchecked arithmetic is a number of 32 bits. -/
theorem isInt32_int32 (n : ℤ) : IsInt32 (int32 n) := by
  have hle : -(4294967296 / 2) ≤ Int.bmod n 4294967296 := Int.le_bmod (by decide)
  have hlt : Int.bmod n 4294967296 < (4294967296 + 1) / 2 := Int.bmod_lt (by decide)
  unfold IsInt32 int32 int32Max
  omega

theorem length_int32Bytes (n : ℤ) : (int32Bytes n).length = 4 :=
  Buffer.length_littleEndian 4 (BitVec.ofInt 32 n)

/-- The four bytes tell the number. -/
theorem int32Bytes_injOn {n n' : ℤ} (hn : IsInt32 n) (hn' : IsInt32 n')
    (h : int32Bytes n = int32Bytes n') : n = n' := by
  have hword : BitVec.ofInt 32 n = BitVec.ofInt 32 n' :=
    Buffer.littleEndian_injective (k := 4) (by decide) h
  have hint := congrArg BitVec.toInt hword
  rw [BitVec.toInt_ofInt, BitVec.toInt_ofInt] at hint
  unfold IsInt32 int32Max at hn hn'
  rwa [Int.bmod_eq_of_le (by omega) (by omega), Int.bmod_eq_of_le (by omega) (by omega)] at hint

/-- The writes into the buffer, in their order. -/
def deliveryIdWrites (messageId subscriptionId : Guid) (attemptNumber : ℤ) : List (Buffer.Write Byte) :=
  [⟨0, messageId.bytes⟩, ⟨16, subscriptionId.bytes⟩, ⟨32, int32Bytes attemptNumber⟩]

theorem deliveryIdInput_eq_writeAll (messageId subscriptionId : Guid) (attemptNumber : ℤ) :
    deliveryIdInput messageId subscriptionId attemptNumber =
      Buffer.writeAll (deliveryIdWrites messageId subscriptionId attemptNumber)
        (List.replicate 36 0) := rfl

/-- Every byte of the buffer is written, and no two writes overlap. -/
theorem tiles_deliveryIdWrites (messageId subscriptionId : Guid) (attemptNumber : ℤ) :
    Buffer.Tiles 36 (deliveryIdWrites messageId subscriptionId attemptNumber) := by
  have hmessage := messageId.length_bytes
  have hsubscription := subscriptionId.length_bytes
  have hnumber := length_int32Bytes attemptNumber
  refine ⟨?_, ?_, .cons ?_ (.cons ?_ (.cons nofun .nil))⟩
  · simp [deliveryIdWrites, Buffer.Write.Within, hmessage, hsubscription, hnumber]
  · intro i hi
    simp only [deliveryIdWrites, List.mem_cons, List.not_mem_nil, or_false, exists_eq_or_imp,
      exists_eq_left, Buffer.Write.Covers, hmessage, hsubscription, hnumber]
    omega
  · -- the message id ends where the subscription id begins, before the number
    intro w hw
    apply Buffer.Write.disjoint_of_le
    simp only [List.mem_cons, List.not_mem_nil, or_false] at hw
    rcases hw with rfl | rfl
    · simp [hmessage]
    · simp [hmessage]
  · intro w hw
    apply Buffer.Write.disjoint_of_le
    obtain rfl := List.mem_singleton.mp hw
    simp [hsubscription]

/-- **What is hashed tells the ids and the number.** -/
theorem deliveryIdInput_injOn {messageId messageId' subscriptionId subscriptionId' : Guid}
    {attemptNumber attemptNumber' : ℤ} (hn : IsInt32 attemptNumber) (hn' : IsInt32 attemptNumber')
    (h : deliveryIdInput messageId subscriptionId attemptNumber =
      deliveryIdInput messageId' subscriptionId' attemptNumber') :
    messageId = messageId' ∧ subscriptionId = subscriptionId' ∧ attemptNumber = attemptNumber' := by
  rw [deliveryIdInput_eq_writeAll, deliveryIdInput_eq_writeAll] at h
  have htiles := tiles_deliveryIdWrites messageId subscriptionId attemptNumber
  have htiles' := tiles_deliveryIdWrites messageId' subscriptionId' attemptNumber'
  have hlength : (List.replicate 36 (0 : Byte)).length = 36 := List.length_replicate
  have hdata : ∀ w ∈ deliveryIdWrites messageId subscriptionId attemptNumber,
      ∀ w' ∈ deliveryIdWrites messageId' subscriptionId' attemptNumber', w.offset = w'.offset →
        w.data.length = w'.data.length → w.data = w'.data :=
    fun w hw w' hw' => htiles.data_eq htiles' hlength hlength h hw hw'
  have hmessage : messageId.bytes = messageId'.bytes :=
    hdata ⟨0, messageId.bytes⟩ (.head _) ⟨0, messageId'.bytes⟩ (.head _) rfl
      (by simp only [Guid.length_bytes])
  have hsubscription : subscriptionId.bytes = subscriptionId'.bytes :=
    hdata ⟨16, subscriptionId.bytes⟩ (.tail _ (.head _)) ⟨16, subscriptionId'.bytes⟩
      (.tail _ (.head _)) rfl (by simp only [Guid.length_bytes])
  have hnumber : int32Bytes attemptNumber = int32Bytes attemptNumber' :=
    hdata ⟨32, int32Bytes attemptNumber⟩ (.tail _ (.tail _ (.head _)))
      ⟨32, int32Bytes attemptNumber'⟩ (.tail _ (.tail _ (.head _))) rfl
      (by simp only [length_int32Bytes])
  exact ⟨Guid.bytes_injective hmessage, Guid.bytes_injective hsubscription,
    int32Bytes_injOn hn hn' hnumber⟩

/-! ## A delivery id is not empty -/

/-- A byte put at position `k`, seen at bit `j` of byte `i`. -/
theorem getLsbD_byteAt (b : Byte) {i j k : ℕ} (hi : i < 16) (hj : j < 8) :
    (b.setWidth 128 <<< (8 * k)).getLsbD (8 * i + j) = (decide (k = i) && b.getLsbD j) := by
  rw [BitVec.getLsbD_shiftLeft, BitVec.getLsbD_setWidth]
  rcases Nat.lt_trichotomy k i with hlt | rfl | hgt
  · have hout : b.getLsbD (8 * i + j - 8 * k) = false := BitVec.getLsbD_of_ge _ _ (by omega)
    have hne : k ≠ i := Nat.ne_of_lt hlt
    simp [hout, hne]
  · have hsub : 8 * k + j - 8 * k = j := by omega
    have hbit : 8 * k + j < 128 := by omega
    have hlow : j < 128 := by omega
    have hge : ¬ 8 * k + j < 8 * k := by omega
    rw [hsub]
    simp [hbit, hlow, hge]
  · have hlt : 8 * i + j < 8 * k := by omega
    simp [hlt, Nat.ne_of_gt hgt]

/-- Bit `j` of byte `i`. -/
theorem Guid.getLsbD_ofBytes (bytes : List Byte) {i j : ℕ} (hi : i < 16) (hj : j < 8) :
    (Guid.ofBytes bytes).getLsbD (8 * i + j) = (bytes.getD i 0).getLsbD j := by
  have hfold : ∀ (is : List ℕ) (g : Guid),
      (is.foldl (fun g i => g ||| (bytes.getD i 0).setWidth 128 <<< (8 * i)) g).getLsbD (8 * i + j) =
        (g.getLsbD (8 * i + j) || (decide (i ∈ is) && (bytes.getD i 0).getLsbD j)) := by
    intro is
    induction is with
    | nil => simp
    | cons k is ih =>
        intro g
        rw [List.foldl_cons, ih, BitVec.getLsbD_or, getLsbD_byteAt _ hi hj]
        by_cases hk : k = i
        · subst hk
          cases (bytes.getD k 0).getLsbD j <;> simp
        · simp [hk, Ne.symm hk]
  rw [Guid.ofBytes, hfold]
  simp [hi]

/-- A delivery id carries a version, so it is not empty. -/
theorem deriveDeliveryId_ne_empty (sha256 : Hash) (messageId subscriptionId : Guid)
    (attemptNumber : ℤ) : deriveDeliveryId sha256 messageId subscriptionId attemptNumber ≠ .empty := by
  intro h
  have hlen := sha256.length_hashData (deliveryIdInput messageId subscriptionId attemptNumber)
  have hbit := congrArg (BitVec.getLsbD · (8 * 6 + 4)) h
  simp only [deriveDeliveryId, Guid.getLsbD_ofBytes _ (by decide : 6 < 16) (by decide : 4 < 8)] at hbit
  simp [stampVersion5, List.getD_eq_getElem?_getD, hlen, Guid.empty] at hbit

/-! ## What a delivery id tells -/

/-- An attempt: its message, its subscription and its number. -/
abbrev AttemptKey := Guid × Guid × ℤ

/-- The buffer that is hashed for an attempt. -/
def attemptInput (key : AttemptKey) : List Byte := deliveryIdInput key.1 key.2.1 key.2.2

/-- The identifier made of a hash: its first 16 bytes, with the layout bits. -/
def Hash.guid (sha256 : Hash) (input : List Byte) : Guid :=
  Guid.ofBytes ((stampVersion5 (sha256.hashData input)).take 16)

theorem deriveDeliveryId_eq_guid (sha256 : Hash) (key : AttemptKey) :
    deriveDeliveryId sha256 key.1 key.2.1 key.2.2 = sha256.guid (attemptInput key) := rfl

/-- No two of the inputs have one identifier.  An identifier has 122 bits of the hash, so that this
cannot be for all buffers; it is assumed for those that are hashed. -/
def Hash.CollisionFree (sha256 : Hash) (inputs : Set (List Byte)) : Prop :=
  Set.InjOn sha256.guid inputs

/-- **A delivery id tells its attempt**, among attempts without a collision. -/
theorem deriveDeliveryId_injOn {sha256 : Hash} {attempts : Set AttemptKey}
    (hfree : sha256.CollisionFree (Set.image attemptInput attempts))
    (hnumbers : ∀ key ∈ attempts, IsInt32 key.2.2) :
    Set.InjOn (fun key : AttemptKey => deriveDeliveryId sha256 key.1 key.2.1 key.2.2) attempts := by
  intro key hkey key' hkey' h
  have hguid : sha256.guid (attemptInput key) = sha256.guid (attemptInput key') := by
    rwa [← deriveDeliveryId_eq_guid, ← deriveDeliveryId_eq_guid]
  have hinput : attemptInput key = attemptInput key' :=
    hfree (Set.mem_image_of_mem _ hkey) (Set.mem_image_of_mem _ hkey') hguid
  obtain ⟨hmessage, hsubscription, hnumber⟩ :=
    deliveryIdInput_injOn (hnumbers key hkey) (hnumbers key' hkey') hinput
  exact Prod.ext hmessage (Prod.ext hsubscription hnumber)

end OutboxNet
