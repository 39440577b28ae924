import Mathlib.Algebra.Group.Nat.Defs
import Mathlib.Data.Nat.Notation
import OutboxNet.Core.Models

/-!
# Strings as bytes

`Encoding.UTF8`.  A string is encoded code point by code point; a surrogate without its partner counts
as the replacement character.  Bytes are decoded by an automaton that reads one byte at a time and
gives the replacement character for every ill-formed part.  What was encoded is decoded to the same
code points, so that encoding it once more gives the same bytes.
-/

set_option autoImplicit false

namespace OutboxNet

abbrev Byte := BitVec 8

/-! ## Encoding -/

/-- A surrogate that begins a pair. -/
def isHighSurrogate (u : UInt16) : Bool := 0xD800 ≤ u.toNat && u.toNat < 0xDC00

/-- A surrogate that ends a pair. -/
def isLowSurrogate (u : UInt16) : Bool := 0xDC00 ≤ u.toNat && u.toNat < 0xE000

/-- The code point of a single code unit; the replacement character for a surrogate. -/
def codePoint (u : UInt16) : ℕ :=
  if isHighSurrogate u || isLowSurrogate u then 0xFFFD else u.toNat

/-- The code points of a string. -/
def codePoints : Text → List ℕ
  | [] => []
  | [u] => [codePoint u]
  | u :: v :: us =>
      if isHighSurrogate u && isLowSurrogate v then
        (0x10000 + (u.toNat - 0xD800) * 0x400 + (v.toNat - 0xDC00)) :: codePoints us
      else codePoint u :: codePoints (v :: us)

/-- The UTF-8 encoding of a code point. -/
def utf8Bytes (n : ℕ) : List Byte :=
  let continuation := fun k => BitVec.ofNat 8 (0x80 + n / 0x40 ^ k % 0x40)
  if n < 0x80 then [BitVec.ofNat 8 n]
  else if n < 0x800 then [BitVec.ofNat 8 (0xC0 + n / 0x40), continuation 0]
  else if n < 0x10000 then
    [BitVec.ofNat 8 (0xE0 + n / 0x1000), continuation 1, continuation 0]
  else
    [BitVec.ofNat 8 (0xF0 + n / 0x40000), continuation 2, continuation 1, continuation 0]

/-- `Encoding.UTF8.GetBytes`. -/
def utf8GetBytes (s : Text) : List Byte := (codePoints s).flatMap utf8Bytes

/-! ## Decoding -/

/-- The decoder in the middle of a character: the bounds of the next byte, how many bytes follow that
one, and the bits read so far. -/
structure Utf8Pending where
  lower : ℕ
  upper : ℕ
  rest : ℕ
  bits : ℕ
deriving DecidableEq, Repr

/-- The first byte of a character: the code points it completes, and what it leaves pending.  The bounds
exclude overlong forms, surrogates and numbers above the last code point. -/
def startCharacter (b : ℕ) : List ℕ × Option Utf8Pending :=
  if b < 0x80 then ([b], none)
  else if 0xC2 ≤ b ∧ b ≤ 0xDF then ([], some ⟨0x80, 0xBF, 0, b - 0xC0⟩)
  else if b = 0xE0 then ([], some ⟨0xA0, 0xBF, 1, 0⟩)
  else if b = 0xED then ([], some ⟨0x80, 0x9F, 1, 0xD⟩)
  else if 0xE1 ≤ b ∧ b ≤ 0xEF then ([], some ⟨0x80, 0xBF, 1, b - 0xE0⟩)
  else if b = 0xF0 then ([], some ⟨0x90, 0xBF, 2, 0⟩)
  else if b = 0xF4 then ([], some ⟨0x80, 0x8F, 2, 4⟩)
  else if 0xF1 ≤ b ∧ b ≤ 0xF3 then ([], some ⟨0x80, 0xBF, 2, b - 0xF0⟩)
  else ([0xFFFD], none)

/-- One byte; one that does not continue the pending character starts the next one. -/
def decodeByte : Option Utf8Pending → ℕ → List ℕ × Option Utf8Pending
  | none, b => startCharacter b
  | some p, b =>
      if p.lower ≤ b ∧ b ≤ p.upper then
        let bits := p.bits * 0x40 + (b - 0x80)
        match p.rest with
        | 0 => ([bits], none)
        | rest + 1 => ([], some ⟨0x80, 0xBF, rest, bits⟩)
      else (0xFFFD :: (startCharacter b).1, (startCharacter b).2)

/-- The code points of the bytes to come. -/
def decodeFrom : Option Utf8Pending → List Byte → List ℕ
  | none, [] => []
  | some _, [] => [0xFFFD]
  | pending, b :: bs =>
      (decodeByte pending b.toNat).1 ++ decodeFrom (decodeByte pending b.toNat).2 bs

/-- The code units of a code point. -/
def codePointUnits (n : ℕ) : Text :=
  if n < 0x10000 then [n.toUInt16]
  else [(0xD800 + (n - 0x10000) / 0x400).toUInt16, (0xDC00 + (n - 0x10000) % 0x400).toUInt16]

/-- `Encoding.UTF8.GetString`. -/
def utf8GetString (bytes : List Byte) : Text := (decodeFrom none bytes).flatMap codePointUnits

/-! ## Decoding what was encoded -/

/-- A code point that is no surrogate. -/
def IsScalar (n : ℕ) : Prop := n < 0xD800 ∨ (0xE000 ≤ n ∧ n < 0x110000)

theorem isScalar_codePoint (u : UInt16) : IsScalar (codePoint u) := by
  have hlt := u.toNat_lt
  unfold IsScalar codePoint isHighSurrogate isLowSurrogate
  split
  · omega
  next h =>
  simp only [Bool.or_eq_true, Bool.and_eq_true, decide_eq_true_eq] at h
  omega

theorem isScalar_of_mem_codePoints {s : Text} {n : ℕ} (h : n ∈ codePoints s) : IsScalar n := by
  fun_induction codePoints s with
  | case1 => cases h
  | case2 u =>
      rw [List.mem_singleton.mp h]
      exact isScalar_codePoint u
  | case3 u v us hpair ih =>
      rcases List.mem_cons.mp h with hn | h
      · -- a pair encodes a number from 0x10000 to 0x10FFFF
        simp only [isHighSurrogate, isLowSurrogate, Bool.and_eq_true, decide_eq_true_eq] at hpair
        right
        omega
      · exact ih h
  | case4 u v us hpair ih =>
      rcases List.mem_cons.mp h with rfl | h
      · exact isScalar_codePoint u
      · exact ih h

/-- The first byte of a character is read. -/
theorem decodeFrom_none {b : ℕ} {bs : List Byte} (hb : b < 256) :
    decodeFrom none (BitVec.ofNat 8 b :: bs) =
      (startCharacter b).1 ++ decodeFrom (startCharacter b).2 bs := by
  have htoNat : (BitVec.ofNat 8 b).toNat = b := by
    rw [BitVec.toNat_ofNat]
    omega
  rw [decodeFrom, htoNat, decodeByte]

/-- A later byte within its bounds adds six bits. -/
theorem decodeByte_some {lower upper rest bits c : ℕ} (hlower : lower ≤ 0x80 + c)
    (hupper : 0x80 + c ≤ upper) :
    decodeByte (some ⟨lower, upper, rest, bits⟩) (0x80 + c) =
      match rest with
      | 0 => ([bits * 0x40 + c], none)
      | rest + 1 => ([], some ⟨0x80, 0xBF, rest, bits * 0x40 + c⟩) := by
  rw [decodeByte, if_pos ⟨hlower, hupper⟩, Nat.add_sub_cancel_left]

/-- The last byte of a character is read. -/
theorem decodeFrom_last {lower upper bits c : ℕ} {bs : List Byte} (hc : c < 0x40)
    (hlower : lower ≤ 0x80 + c) (hupper : 0x80 + c ≤ upper) :
    decodeFrom (some ⟨lower, upper, 0, bits⟩) (BitVec.ofNat 8 (0x80 + c) :: bs) =
      (bits * 0x40 + c) :: decodeFrom none bs := by
  have htoNat : (BitVec.ofNat 8 (0x80 + c)).toNat = 0x80 + c := by
    rw [BitVec.toNat_ofNat]
    omega
  rw [decodeFrom, htoNat, decodeByte_some hlower hupper]
  rfl

/-- A byte in the middle of a character is read. -/
theorem decodeFrom_middle {lower upper rest bits c : ℕ} {bs : List Byte} (hc : c < 0x40)
    (hlower : lower ≤ 0x80 + c) (hupper : 0x80 + c ≤ upper) :
    decodeFrom (some ⟨lower, upper, rest + 1, bits⟩) (BitVec.ofNat 8 (0x80 + c) :: bs) =
      decodeFrom (some ⟨0x80, 0xBF, rest, bits * 0x40 + c⟩) bs := by
  have htoNat : (BitVec.ofNat 8 (0x80 + c)).toNat = 0x80 + c := by
    rw [BitVec.toNat_ofNat]
    omega
  rw [decodeFrom, htoNat, decodeByte_some hlower hupper]
  rfl

/-- The first byte of a character of three bytes; the bounds of the second depend on it. -/
theorem startCharacter_three {n : ℕ} (hn : IsScalar n) (h800 : ¬ n < 0x800) (h : n < 0x10000) :
    ∃ lower upper, startCharacter (0xE0 + n / 0x1000) =
      ([], some ⟨lower, upper, 1, n / 0x1000⟩) ∧
      lower ≤ 0x80 + n / 0x40 % 0x40 ∧ 0x80 + n / 0x40 % 0x40 ≤ upper := by
  unfold IsScalar at hn
  unfold startCharacter
  rw [if_neg (by omega), if_neg (by omega)]
  by_cases hE0 : n / 0x1000 = 0
  · refine ⟨0xA0, 0xBF, ?_, by omega, by omega⟩
    rw [if_pos (by omega), hE0]
  by_cases hED : n / 0x1000 = 0xD
  · refine ⟨0x80, 0x9F, ?_, by omega, by omega⟩
    rw [if_neg (by omega), if_pos (by omega), hED]
  · refine ⟨0x80, 0xBF, ?_, by omega, by omega⟩
    rw [if_neg (by omega), if_neg (by omega), if_pos (by omega), Nat.add_sub_cancel_left]

/-- The first byte of a character of four bytes. -/
theorem startCharacter_four {n : ℕ} (hn : IsScalar n) (h10000 : ¬ n < 0x10000) :
    ∃ lower upper, startCharacter (0xF0 + n / 0x40000) =
      ([], some ⟨lower, upper, 2, n / 0x40000⟩) ∧
      lower ≤ 0x80 + n / 0x1000 % 0x40 ∧ 0x80 + n / 0x1000 % 0x40 ≤ upper := by
  unfold IsScalar at hn
  unfold startCharacter
  rw [if_neg (by omega), if_neg (by omega), if_neg (by omega), if_neg (by omega),
    if_neg (by omega)]
  by_cases hF0 : n / 0x40000 = 0
  · refine ⟨0x90, 0xBF, ?_, by omega, by omega⟩
    rw [if_pos (by omega), hF0]
  by_cases hF4 : n / 0x40000 = 4
  · refine ⟨0x80, 0x8F, ?_, by omega, by omega⟩
    rw [if_neg (by omega), if_pos (by omega), hF4]
  · refine ⟨0x80, 0xBF, ?_, by omega, by omega⟩
    rw [if_neg (by omega), if_neg (by omega), if_pos (by omega), Nat.add_sub_cancel_left]

/-- A character is decoded to the code point it encodes. -/
theorem decodeFrom_utf8Bytes {n : ℕ} (hn : IsScalar n) (bs : List Byte) :
    decodeFrom none (utf8Bytes n ++ bs) = n :: decodeFrom none bs := by
  unfold utf8Bytes
  simp only [Nat.pow_zero, Nat.div_one, Nat.pow_one, Nat.reducePow]
  -- the cases are the lengths of the encoding
  split
  · next h =>
    rw [List.singleton_append, decodeFrom_none (by omega), startCharacter, if_pos h]
    rfl
  next h80 =>
  split
  · next h =>
    have hstart : startCharacter (0xC0 + n / 0x40) = ([], some ⟨0x80, 0xBF, 0, n / 0x40⟩) := by
      rw [startCharacter, if_neg (by omega), if_pos (by omega), Nat.add_sub_cancel_left]
    rw [List.cons_append, decodeFrom_none (by omega), hstart, List.nil_append, List.singleton_append,
      decodeFrom_last (Nat.mod_lt _ (by omega)) (by omega) (by omega)]
    simp only [List.cons.injEq, and_true]
    omega
  next h800 =>
  split
  · next h =>
    obtain ⟨lower, upper, hstart, hlower, hupper⟩ := startCharacter_three hn h800 h
    rw [List.cons_append, decodeFrom_none (by omega), hstart, List.nil_append, List.cons_append,
      decodeFrom_middle (Nat.mod_lt _ (by omega)) hlower hupper, List.singleton_append,
      decodeFrom_last (Nat.mod_lt _ (by omega)) (by omega) (by omega)]
    simp only [List.cons.injEq, and_true]
    omega
  · next h10000 =>
    obtain ⟨lower, upper, hstart, hlower, hupper⟩ := startCharacter_four hn h10000
    have hn' := hn
    unfold IsScalar at hn'
    rw [List.cons_append, decodeFrom_none (by omega), hstart, List.nil_append, List.cons_append,
      decodeFrom_middle (Nat.mod_lt _ (by omega)) hlower hupper, List.cons_append,
      decodeFrom_middle (Nat.mod_lt _ (by omega)) (by omega) (by omega), List.singleton_append,
      decodeFrom_last (Nat.mod_lt _ (by omega)) (by omega) (by omega)]
    simp only [List.cons.injEq, and_true]
    omega

/-- **Decoding inverts encoding** on code points. -/
theorem decodeFrom_flatMap_utf8Bytes {ns : List ℕ} (h : ∀ n ∈ ns, IsScalar n) :
    decodeFrom none (ns.flatMap utf8Bytes) = ns := by
  induction ns with
  | nil => rfl
  | cons n ns ih =>
      rw [List.flatMap_cons, decodeFrom_utf8Bytes (h n List.mem_cons_self),
        ih fun m hm => h m (List.mem_cons_of_mem _ hm)]

/-- Two strings have the same bytes when they have the same code points. -/
theorem utf8GetBytes_eq_iff {s s' : Text} :
    utf8GetBytes s = utf8GetBytes s' ↔ codePoints s = codePoints s' := by
  constructor
  · intro h
    have hdecode := congrArg (decodeFrom none) h
    rwa [utf8GetBytes, utf8GetBytes,
      decodeFrom_flatMap_utf8Bytes fun _ => isScalar_of_mem_codePoints,
      decodeFrom_flatMap_utf8Bytes fun _ => isScalar_of_mem_codePoints] at hdecode
  · intro h
    rw [utf8GetBytes, utf8GetBytes, h]

/-! ## Code units -/

theorem toNat_toUInt16 {n : ℕ} (h : n < 0x10000) : n.toUInt16.toNat = n := by
  rw [Nat.toUInt16_eq, UInt16.toNat_ofNat_of_lt' h]

/-- A code unit that is no surrogate stands alone. -/
theorem codePoints_cons {u : UInt16} (hhigh : isHighSurrogate u = false)
    (hlow : isLowSurrogate u = false) (s : Text) : codePoints (u :: s) = u.toNat :: codePoints s := by
  have hpoint : codePoint u = u.toNat := by simp [codePoint, hhigh, hlow]
  cases s with
  | nil => simp [codePoints, hpoint]
  | cons v us => simp [codePoints, hpoint, hhigh]

/-- A code point is read back from its code units. -/
theorem codePoints_codePointUnits {n : ℕ} (hn : IsScalar n) (s : Text) :
    codePoints (codePointUnits n ++ s) = n :: codePoints s := by
  unfold IsScalar at hn
  unfold codePointUnits
  split
  · next h =>
    have hhigh : isHighSurrogate n.toUInt16 = false := by
      simp only [isHighSurrogate, toNat_toUInt16 h, Bool.and_eq_false_iff, decide_eq_false_iff_not]
      omega
    have hlow : isLowSurrogate n.toUInt16 = false := by
      simp only [isLowSurrogate, toNat_toUInt16 h, Bool.and_eq_false_iff, decide_eq_false_iff_not]
      omega
    rw [List.singleton_append, codePoints_cons hhigh hlow, toNat_toUInt16 h]
  · next h =>
    have hfirst := toNat_toUInt16 (n := 0xD800 + (n - 0x10000) / 0x400) (by omega)
    have hsecond := toNat_toUInt16 (n := 0xDC00 + (n - 0x10000) % 0x400) (by omega)
    have hpair : (isHighSurrogate (0xD800 + (n - 0x10000) / 0x400).toUInt16 &&
        isLowSurrogate (0xDC00 + (n - 0x10000) % 0x400).toUInt16) = true := by
      simp only [isHighSurrogate, isLowSurrogate, hfirst, hsecond, Bool.and_eq_true,
        decide_eq_true_eq]
      omega
    rw [List.cons_append, List.singleton_append, codePoints, if_pos hpair, hfirst, hsecond]
    simp only [List.cons.injEq, and_true]
    omega

theorem codePoints_flatMap_codePointUnits {ns : List ℕ} (h : ∀ n ∈ ns, IsScalar n) :
    codePoints (ns.flatMap codePointUnits) = ns := by
  induction ns with
  | nil => rfl
  | cons n ns ih =>
      rw [List.flatMap_cons, codePoints_codePointUnits (h n List.mem_cons_self),
        ih fun m hm => h m (List.mem_cons_of_mem _ hm)]

/-- **The bytes of a string survive a decoding and an encoding**, although the string need not. -/
theorem utf8GetBytes_utf8GetString (s : Text) :
    utf8GetBytes (utf8GetString (utf8GetBytes s)) = utf8GetBytes s := by
  have hscalar : ∀ n ∈ codePoints s, IsScalar n := fun _ => isScalar_of_mem_codePoints
  rw [utf8GetString, utf8GetBytes, utf8GetBytes, decodeFrom_flatMap_utf8Bytes hscalar,
    codePoints_flatMap_codePointUnits hscalar]

end OutboxNet
