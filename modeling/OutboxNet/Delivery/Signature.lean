import Mathlib.Data.List.GetD
import OutboxNet.Store.SubscriptionStore

/-!
# Signatures

`HmacSignatureGenerator`, and the two receivers the repository shows: the one of the README and the
`WebhookReceiver` of the load tests.  HMAC-SHA256 is a parameter.  The receivers read the body through a
`StreamReader`, which decodes it and drops a byte-order mark, and hash the encoding of what they read.

The generator writes the hash in lower case.  The receiver of the load tests lowers both sides before it
compares them; that of the README compares the bytes of the upper-case text.
-/

set_option autoImplicit false

namespace OutboxNet

/-- `HMACSHA256.HashData` of a key and a payload, with an output of 32 bytes. -/
structure HmacSha256 where
  hashData : List Byte → List Byte → List Byte
  length_hashData : ∀ key input, (hashData key input).length = 32

/-- The exception of `GetBytes` for a null. -/
def Exn.argumentNull : Exn :=
  ⟨false, text "String reference not set to an instance of a String. (Parameter 's')"⟩

/-- A letter of ASCII in lower case. -/
def asciiToLower (u : UInt16) : UInt16 := if 65 ≤ u ∧ u ≤ 90 then u + 32 else u

/-- `string.ToLowerInvariant`; the casing of other letters is that of the invariant culture. -/
structure InvariantCulture where
  toLower : Text → Text
  toLower_ascii : ∀ s : Text, (∀ u ∈ s, u < 128) → toLower s = s.map asciiToLower

/-- `InvariantCulture` that changes letters of ASCII only. -/
def InvariantCulture.ascii : InvariantCulture where
  toLower s := s.map asciiToLower
  toLower_ascii _ _ := rfl

/-- A digit in upper case. -/
def upperHexDigit (n : ℕ) : UInt16 := (text "0123456789ABCDEF").getD n 0

/-- `Convert.ToHexString`. -/
def toHexString (bytes : List Byte) : Text :=
  bytes.flatMap fun b => [upperHexDigit (b.toNat / 16), upperHexDigit (b.toNat % 16)]

namespace HmacSignatureGenerator

/-- `ComputeSignature`.  A secret that is null has no bytes. -/
def computeSignature (hmac : HmacSha256) (culture : InvariantCulture) (payload : Text)
    (secret : Option Text) : Except Exn Text :=
  match secret with
  | none => .error .argumentNull
  | some secret =>
      let hash := hmac.hashData (utf8GetBytes secret) (utf8GetBytes payload)
      .ok (text "sha256=" ++ culture.toLower (toHexString hash))

end HmacSignatureGenerator

/-- The bytes of `new StringContent(payload, Encoding.UTF8)`. -/
def stringContent (payload : Text) : List Byte := utf8GetBytes payload

/-! ## Reading a body -/

/-- The encodings a `StreamReader` tells by the first bytes. -/
inductive ByteOrderMark : Type
  | utf8 | utf16BigEndian | utf16LittleEndian | utf32BigEndian | utf32LittleEndian
deriving DecidableEq, Repr

/-- The marks in the order in which they are tried: that of UTF-32 begins like that of UTF-16. -/
def byteOrderMarks : List (ByteOrderMark × List Byte) :=
  [(.utf16BigEndian, [0xFE, 0xFF]), (.utf32LittleEndian, [0xFF, 0xFE, 0, 0]),
    (.utf16LittleEndian, [0xFF, 0xFE]), (.utf8, [0xEF, 0xBB, 0xBF]),
    (.utf32BigEndian, [0, 0, 0xFE, 0xFF])]

/-- `StreamReader.ReadToEnd` of a reader for UTF-8 that looks for a mark; `decoders` are those of the
other encodings. -/
def readToEnd (decoders : ByteOrderMark → List Byte → Text) (bytes : List Byte) : Text :=
  match byteOrderMarks.find? fun m => m.2.isPrefixOf bytes with
  | some (.utf8, mark) => utf8GetString (bytes.drop mark.length)
  | some (encoding, mark) => decoders encoding (bytes.drop mark.length)
  | none => utf8GetString bytes

/-- The byte-order mark as a code unit. -/
def byteOrderMark : UInt16 := 0xFEFF

/-! ## Receivers -/

/-- `CryptographicOperations.FixedTimeEquals`. -/
def fixedTimeEquals (left right : List Byte) : Bool := left.length = right.length && left = right

/-- The receiver of the README: whether it goes on to process the event. -/
def readmeReceives (hmac : HmacSha256) (decoders : ByteOrderMark → List Byte → Text)
    (webhookSecret : Text) (body : List Byte) (received : Text) : Bool :=
  let rawBody := readToEnd decoders body
  let expected := text "sha256=" ++
    toHexString (hmac.hashData (utf8GetBytes webhookSecret) (utf8GetBytes rawBody))
  fixedTimeEquals (utf8GetBytes expected) (utf8GetBytes received)

/-- `Encoding.ASCII.GetBytes`: a question mark for every other `char`, so two for a surrogate pair. -/
def asciiGetBytes (s : Text) : List Byte :=
  s.map fun u => if u < 128 then BitVec.ofNat 8 u.toNat else 63

/-- `WebhookReceiver`: whether a request passes the verification of its signature. -/
def webhookReceiverReceives (hmac : HmacSha256) (culture : InvariantCulture)
    (decoders : ByteOrderMark → List Byte → Text) (verifyHmac : Bool) (secret : Text)
    (body : List Byte) (receivedSig : Text) : Bool :=
  let rawBody := readToEnd decoders body
  if verifyHmac then
    let expectedHex := text "sha256=" ++
      toHexString (hmac.hashData (utf8GetBytes secret) (utf8GetBytes rawBody))
    let expectedBytes := asciiGetBytes (culture.toLower expectedHex)
    let receivedBytes := asciiGetBytes (culture.toLower receivedSig)
    !(expectedBytes.length ≠ receivedBytes.length || !fixedTimeEquals expectedBytes receivedBytes)
  else true

@[simp] theorem fixedTimeEquals_iff {left right : List Byte} :
    fixedTimeEquals left right = true ↔ left = right := by
  simp only [fixedTimeEquals, Bool.and_eq_true, decide_eq_true_eq]
  exact ⟨fun h => h.2, fun h => ⟨congrArg List.length h, h⟩⟩

/-! ## The body arrives -/

/-- No byte of an encoded string is one that only other encodings use. -/
theorem toNat_lt_of_mem_utf8GetBytes {s : Text} {b : Byte} (h : b ∈ utf8GetBytes s) :
    b.toNat < 0xF8 := by
  obtain ⟨n, hn, hb⟩ := List.mem_flatMap.mp h
  have hscalar := isScalar_of_mem_codePoints hn
  unfold IsScalar at hscalar
  unfold utf8Bytes at hb
  simp only [Nat.pow_zero, Nat.div_one, Nat.pow_one, Nat.reducePow] at hb
  have htoNat : ∀ {k : ℕ}, b = BitVec.ofNat 8 k → k < 0xF8 → b.toNat < 0xF8 := by
    rintro k rfl hk
    rw [BitVec.toNat_ofNat]
    omega
  -- one case for each length of the encoding, and one for each byte
  split at hb
  · exact htoNat (List.mem_singleton.mp hb) (by omega)
  split at hb
  · simp only [List.mem_cons, List.not_mem_nil, or_false] at hb
    rcases hb with hb | hb
    · exact htoNat hb (by omega)
    · exact htoNat hb (by omega)
  split at hb
  · simp only [List.mem_cons, List.not_mem_nil, or_false] at hb
    rcases hb with hb | hb | hb
    · exact htoNat hb (by omega)
    · exact htoNat hb (by omega)
    · exact htoNat hb (by omega)
  · simp only [List.mem_cons, List.not_mem_nil, or_false] at hb
    rcases hb with hb | hb | hb | hb
    · exact htoNat hb (by omega)
    · exact htoNat hb (by omega)
    · exact htoNat hb (by omega)
    · exact htoNat hb (by omega)

/-- A body that begins with the mark of UTF-8 is that of a string that begins with it. -/
theorem head?_of_utf8_mark {s : Text} (h : [0xEF, 0xBB, 0xBF] <+: utf8GetBytes s) :
    s.head? = some byteOrderMark := by
  obtain ⟨rest, hrest⟩ := h
  have hmark : utf8Bytes 0xFEFF = [0xEF, 0xBB, 0xBF] := by decide
  -- decoded, the bytes begin with the code point of the mark
  have hpoints : codePoints s = 0xFEFF :: decodeFrom none rest := by
    calc codePoints s = decodeFrom none (utf8GetBytes s) :=
          (decodeFrom_flatMap_utf8Bytes fun _ => isScalar_of_mem_codePoints).symm
      _ = decodeFrom none (utf8Bytes 0xFEFF ++ rest) := by rw [← hrest, hmark]
      _ = 0xFEFF :: decodeFrom none rest := decodeFrom_utf8Bytes (by unfold IsScalar; omega) rest
  have hunit : ∀ u : UInt16, codePoint u = 0xFEFF → u = byteOrderMark := by
    intro u hu
    unfold codePoint at hu
    split at hu
    · omega
    · exact UInt16.toNat_inj.mp hu
  -- the code unit of the mark is no surrogate, so it is the first of the string
  fun_cases codePoints s with
  | case1 => cases hpoints
  | case2 u =>
      rw [codePoints] at hpoints
      exact congrArg some (hunit u (List.cons.inj hpoints).1)
  | case3 u v us hpair =>
      rw [codePoints, if_pos hpair] at hpoints
      have hfirst := (List.cons.inj hpoints).1
      simp only [isHighSurrogate, isLowSurrogate, Bool.and_eq_true, decide_eq_true_eq] at hpair
      omega
  | case4 u v us hpair =>
      rw [codePoints, if_neg hpair] at hpoints
      exact congrArg some (hunit u (List.cons.inj hpoints).1)

/-- A body without a mark is read as it is. -/
theorem readToEnd_stringContent (decoders : ByteOrderMark → List Byte → Text) {payload : Text}
    (h : payload.head? ≠ some byteOrderMark) :
    readToEnd decoders (stringContent payload) = utf8GetString (utf8GetBytes payload) := by
  have hnone : byteOrderMarks.find? (fun m => m.2.isPrefixOf (stringContent payload)) = none := by
    rw [List.find?_eq_none]
    intro m hm hbegins
    rw [List.isPrefixOf_iff_prefix] at hbegins
    have hbyte : ∀ b ∈ m.2, b.toNat < 0xF8 :=
      fun b hb => toNat_lt_of_mem_utf8GetBytes (hbegins.subset hb)
    simp only [byteOrderMarks, List.mem_cons, List.not_mem_nil, or_false] at hm
    rcases hm with rfl | rfl | rfl | rfl | rfl
    · exact absurd (hbyte 0xFE (by decide)) (by decide)
    · exact absurd (hbyte 0xFF (by decide)) (by decide)
    · exact absurd (hbyte 0xFF (by decide)) (by decide)
    · exact h (head?_of_utf8_mark hbegins)
    · exact absurd (hbyte 0xFE (by decide)) (by decide)
  rw [readToEnd, hnone]
  rfl

/-! ## Hexadecimal texts -/

open SubscriptionStore (hexDigit hexByte)

/-- A digit below ten is the same in both cases, one from ten on is not. -/
theorem upperHexDigit_eq_iff {n : ℕ} (hn : n < 16) : upperHexDigit n = hexDigit n ↔ n < 10 := by
  have hall : ∀ n < 16, upperHexDigit n = hexDigit n ↔ n < 10 := by decide +kernel
  exact hall n hn

theorem asciiToLower_upperHexDigit {n : ℕ} (hn : n < 16) :
    asciiToLower (upperHexDigit n) = hexDigit n := by
  have hall : ∀ n < 16, asciiToLower (upperHexDigit n) = hexDigit n := by decide +kernel
  exact hall n hn

theorem upperHexDigit_lt (n : ℕ) : upperHexDigit n < 128 := by
  have hall : ∀ u ∈ text "0123456789ABCDEF", decide (u < 128) = true :=
    List.all_eq_true.mp (by decide +kernel)
  unfold upperHexDigit
  rcases Nat.lt_or_ge n (text "0123456789ABCDEF").length with hlt | hge
  · rw [List.getD_eq_getElem _ _ hlt]
    exact of_decide_eq_true (hall _ (List.getElem_mem hlt))
  · rw [List.getD_eq_default _ _ hge]
    decide

theorem lt_of_mem_toHexString {bytes : List Byte} {u : UInt16} (h : u ∈ toHexString bytes) :
    u < 128 := by
  obtain ⟨b, -, hu⟩ := List.mem_flatMap.mp h
  rcases List.mem_cons.mp hu with rfl | hu
  · exact upperHexDigit_lt _
  · rw [List.mem_singleton.mp hu]
    exact upperHexDigit_lt _

/-- The text of a hash in lower case. -/
theorem map_asciiToLower_toHexString (bytes : List Byte) :
    (toHexString bytes).map asciiToLower = bytes.flatMap hexByte := by
  unfold toHexString
  rw [List.map_flatMap]
  congr 1
  funext b
  have hlt := b.isLt
  simp only [List.map_cons, List.map_nil, hexByte]
  rw [asciiToLower_upperHexDigit (by omega), asciiToLower_upperHexDigit (by omega)]

/-- Every half of every byte is a decimal digit. -/
def DecimalDigits (bytes : List Byte) : Prop :=
  ∀ b ∈ bytes, b.toNat / 16 < 10 ∧ b.toNat % 16 < 10

instance (bytes : List Byte) : Decidable (DecimalDigits bytes) :=
  inferInstanceAs (Decidable (∀ b ∈ bytes, b.toNat / 16 < 10 ∧ b.toNat % 16 < 10))

/-- The text of a hash is the same in both cases when it has no letter. -/
theorem toHexString_eq_iff (bytes : List Byte) :
    toHexString bytes = bytes.flatMap hexByte ↔ DecimalDigits bytes := by
  unfold DecimalDigits toHexString
  induction bytes with
  | nil => simp
  | cons b bytes ih =>
      have hlt := b.isLt
      simp only [List.flatMap_cons, hexByte, List.cons_append, List.nil_append, List.cons.injEq,
        List.forall_mem_cons]
      rw [upperHexDigit_eq_iff (by omega), upperHexDigit_eq_iff (by omega), and_assoc]
      exact and_congr_right fun _ => and_congr_right fun _ => ih

/-- A text of ASCII is its code points. -/
theorem codePoints_ascii {s : Text} (h : ∀ u ∈ s, u < 128) : codePoints s = s.map UInt16.toNat := by
  induction s with
  | nil => rfl
  | cons u s ih =>
      have hu : u.toNat < 128 := UInt16.lt_iff_toNat_lt.mp (h u List.mem_cons_self)
      have hhigh : isHighSurrogate u = false := by
        simp only [isHighSurrogate, Bool.and_eq_false_iff, decide_eq_false_iff_not]
        omega
      have hlow : isLowSurrogate u = false := by
        simp only [isLowSurrogate, Bool.and_eq_false_iff, decide_eq_false_iff_not]
        omega
      rw [codePoints_cons hhigh hlow, ih fun v hv => h v (List.mem_cons_of_mem _ hv)]
      rfl

/-- Texts of ASCII with the same bytes are the same. -/
theorem utf8GetBytes_ascii_inj {s s' : Text} (h : ∀ u ∈ s, u < 128) (h' : ∀ u ∈ s', u < 128) :
    utf8GetBytes s = utf8GetBytes s' ↔ s = s' := by
  rw [utf8GetBytes_eq_iff, codePoints_ascii h, codePoints_ascii h']
  constructor
  · intro heq
    exact List.map_injective_iff.mpr (fun _ _ => UInt16.toNat_inj.mp) heq
  · intro heq
    rw [heq]

/-! ## Genuine signatures -/

section Receivers

variable {hmac : HmacSha256} {culture : InvariantCulture}
  {decoders : ByteOrderMark → List Byte → Text} {payload secret : Text}

/-- The hash the signature of a payload is made of. -/
def signatureHash (hmac : HmacSha256) (payload secret : Text) : List Byte :=
  hmac.hashData (utf8GetBytes secret) (utf8GetBytes payload)

/-- The prefix and the digits of a hash are ASCII. -/
theorem lt_of_mem_upperSignature {hash : List Byte} {u : UInt16}
    (h : u ∈ text "sha256=" ++ toHexString hash) : u < 128 := by
  have hbegins : ∀ u ∈ text "sha256=", decide (u < 128) = true :=
    List.all_eq_true.mp (by decide +kernel)
  rcases List.mem_append.mp h with h | h
  · exact of_decide_eq_true (hbegins u h)
  · exact lt_of_mem_toHexString h

theorem map_asciiToLower_signature (hash : List Byte) :
    (text "sha256=" ++ toHexString hash).map asciiToLower =
      text "sha256=" ++ hash.flatMap hexByte := by
  have hbegins : (text "sha256=").map asciiToLower = text "sha256=" := by decide +kernel
  rw [List.map_append, hbegins, map_asciiToLower_toHexString]

theorem asciiToLower_lt {u : UInt16} (h : u < 128) : asciiToLower u < 128 := by
  unfold asciiToLower
  split
  · next hletter =>
    have hle := UInt16.le_iff_toNat_le.mp hletter.2
    have hsum : (u + 32).toNat = (u.toNat + 32) % 65536 := UInt16.toNat_add u 32
    rw [UInt16.lt_iff_toNat_lt]
    rw [hsum]
    have h90 : (90 : UInt16).toNat = 90 := rfl
    have h128 : (128 : UInt16).toNat = 128 := rfl
    omega
  · exact h

theorem lt_of_mem_lowerSignature {hash : List Byte} {u : UInt16}
    (h : u ∈ text "sha256=" ++ hash.flatMap hexByte) : u < 128 := by
  rw [← map_asciiToLower_signature] at h
  obtain ⟨v, hv, rfl⟩ := List.mem_map.mp h
  exact asciiToLower_lt (lt_of_mem_upperSignature hv)

/-- A signature is the prefix with the lower-case text of the hash. -/
theorem computeSignature_some : HmacSignatureGenerator.computeSignature hmac culture payload
    (some secret) =
      .ok (text "sha256=" ++ (signatureHash hmac payload secret).flatMap hexByte) := by
  unfold HmacSignatureGenerator.computeSignature signatureHash
  simp only
  rw [culture.toLower_ascii _ fun _ => lt_of_mem_toHexString, map_asciiToLower_toHexString]

/-- Lower case stays lower case. -/
theorem toLower_lowerSignature (hash : List Byte) :
    culture.toLower (text "sha256=" ++ hash.flatMap hexByte) =
      text "sha256=" ++ hash.flatMap hexByte := by
  have hidem : ∀ u : UInt16, asciiToLower (asciiToLower u) = asciiToLower u := by
    intro u
    unfold asciiToLower
    split
    · next h =>
      rw [if_neg]
      rintro ⟨-, hle⟩
      have h65 := UInt16.le_iff_toNat_le.mp h.1
      have h90 := UInt16.le_iff_toNat_le.mp h.2
      have hle' := UInt16.le_iff_toNat_le.mp hle
      have hsum : (u + 32).toNat = (u.toNat + 32) % 65536 := UInt16.toNat_add u 32
      have e65 : (65 : UInt16).toNat = 65 := rfl
      have e90 : (90 : UInt16).toNat = 90 := rfl
      omega
    · rfl
  rw [culture.toLower_ascii _ fun _ => lt_of_mem_lowerSignature, ← map_asciiToLower_signature,
    List.map_map]
  exact List.map_congr_left fun u _ => hidem u

/-- The receiver of the README accepts when the hash has no letter. -/
theorem readmeReceives_iff (hbom : payload.head? ≠ some byteOrderMark) :
    readmeReceives hmac decoders secret (stringContent payload)
        (text "sha256=" ++ (signatureHash hmac payload secret).flatMap hexByte) = true ↔
      DecimalDigits (signatureHash hmac payload secret) := by
  unfold readmeReceives
  simp only
  rw [readToEnd_stringContent decoders hbom, utf8GetBytes_utf8GetString, fixedTimeEquals_iff,
    utf8GetBytes_ascii_inj (fun _ => lt_of_mem_upperSignature) fun _ => lt_of_mem_lowerSignature,
    List.append_cancel_left_eq, ← toHexString_eq_iff]
  rfl

/-- The receiver of the load tests accepts always. -/
theorem webhookReceiverReceives_genuine (verifyHmac : Bool)
    (hbom : payload.head? ≠ some byteOrderMark) :
    webhookReceiverReceives hmac culture decoders verifyHmac secret (stringContent payload)
      (text "sha256=" ++ (signatureHash hmac payload secret).flatMap hexByte) = true := by
  unfold webhookReceiverReceives
  simp only
  split
  · rw [readToEnd_stringContent decoders hbom, utf8GetBytes_utf8GetString, toLower_lowerSignature,
      culture.toLower_ascii _ fun _ => lt_of_mem_upperSignature, map_asciiToLower_signature]
    simp [signatureHash]
  · rfl

/-- The signature sent for a payload and a secret is accepted by both receivers. -/
def ReceiversAccept (hmac : HmacSha256) (culture : InvariantCulture)
    (decoders : ByteOrderMark → List Byte → Text) (verifyHmac : Bool) (payload secret : Text) :
    Prop :=
  ∃ signature,
    HmacSignatureGenerator.computeSignature hmac culture payload (some secret) = .ok signature ∧
    readmeReceives hmac decoders secret (stringContent payload) signature = true ∧
    webhookReceiverReceives hmac culture decoders verifyHmac secret (stringContent payload)
      signature = true

/-- **Genuine signatures verify when the hash has no letter.** The generator writes it in lower case, and
the receiver of the README compares it with the upper-case text. -/
theorem receiversAccept_iff (verifyHmac : Bool) (hbom : payload.head? ≠ some byteOrderMark) :
    ReceiversAccept hmac culture decoders verifyHmac payload secret ↔
      DecimalDigits (signatureHash hmac payload secret) := by
  unfold ReceiversAccept
  rw [computeSignature_some]
  constructor
  · rintro ⟨signature, hsignature, hreadme, -⟩
    rw [← Except.ok.inj hsignature] at hreadme
    exact (readmeReceives_iff hbom).mp hreadme
  · intro hdigits
    exact ⟨_, rfl, (readmeReceives_iff hbom).mpr hdigits,
      webhookReceiverReceives_genuine verifyHmac hbom⟩

end Receivers

/-- The payload of a message with one field. -/
def samplePayload : Text := text "\x7b\"id\":1\x7d"

/-- HMAC-SHA256 with its value for this payload and the secret `whsec_abc123`. -/
def sampleHmac : HmacSha256 where
  hashData _ _ := [38, 98, 81, 51, 104, 112, 157, 160, 194, 124, 45, 27, 132, 98, 182, 58, 112, 14, 0,
    128, 77, 76, 119, 56, 105, 80, 243, 96, 91, 1, 48, 250]
  length_hashData _ _ := rfl

/-- A keyed hash all of whose digits are decimal. -/
def decimalHmac : HmacSha256 where
  hashData _ _ := List.replicate 32 0x42
  length_hashData _ _ := rfl

/-- The value of HMAC-SHA256 has letters, and is not accepted; a hash without letters is. -/
theorem receiversAccept_sample :
    ¬ ReceiversAccept sampleHmac .ascii (fun _ => utf8GetString) true samplePayload
      (text "whsec_abc123") ∧
    ReceiversAccept decimalHmac .ascii (fun _ => utf8GetString) true samplePayload
      (text "whsec_abc123") := by
  constructor
  · exact fun haccept => absurd ((receiversAccept_iff true (by decide)).mp haccept) (by decide)
  · exact (receiversAccept_iff true (by decide)).mpr (by decide)

/-- The receiver of the README turns the request away. -/
theorem genuine_signature_refused :
    ¬ ReceiversAccept sampleHmac .ascii (fun _ => utf8GetString) true samplePayload
      (text "whsec_abc123") := by
  rintro ⟨signature, hsignature, hreadme, -⟩
  rw [computeSignature_some] at hsignature
  rw [← Except.ok.inj hsignature] at hreadme
  have hdigits := (readmeReceives_iff (by decide)).mp hreadme
  revert hdigits
  decide

end OutboxNet
