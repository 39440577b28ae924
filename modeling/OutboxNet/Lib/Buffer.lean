import Mathlib.Data.Nat.Notation
import Mathlib.Logic.Function.Basic

/-!
# Writes into a buffer

A buffer is a list of fixed length; a *write* puts a block of data at an offset of it.  Several writes
*tile* the buffer when each is within it, each position is covered by one of them, and no position by
two.

The rules.  A write changes what it covers and nothing else (`getElem?_write`).  After writes that do
not overlap, each block can be read back (`read_writeAll`), in whatever order they were made.  After
writes that tile the buffer nothing is left of what was in it before (`Tiles.writeAll_eq`).

The last section has the bytes of a word, least significant first: they tell the word
(`littleEndian_injective`).
-/

set_option autoImplicit false

namespace Buffer

variable {α : Type}

/-! ## One write -/

/-- `data` put into the buffer from `offset` on. -/
def write (offset : ℕ) (data buffer : List α) : List α :=
  buffer.take offset ++ data ++ buffer.drop (offset + data.length)

/-- The `length` elements from `offset` on. -/
def read (offset length : ℕ) (buffer : List α) : List α := (buffer.drop offset).take length

variable {offset : ℕ} {data buffer : List α}

@[simp] theorem length_write (h : offset + data.length ≤ buffer.length) :
    (write offset data buffer).length = buffer.length := by
  simp only [write, List.length_append, List.length_take, List.length_drop]
  omega

/-- A write changes what it covers. -/
theorem getElem?_write_of_mem (h : offset ≤ buffer.length) {i : ℕ} (hle : offset ≤ i)
    (hlt : i < offset + data.length) : (write offset data buffer)[i]? = data[i - offset]? := by
  have htake : (buffer.take offset).length = offset := List.length_take_of_le h
  rw [write, List.append_assoc, List.getElem?_append_right (by omega), htake,
    List.getElem?_append_left (by omega)]

/-- A write leaves everything else. -/
theorem getElem?_write_of_not_mem (h : offset ≤ buffer.length) {i : ℕ}
    (hi : ¬ (offset ≤ i ∧ i < offset + data.length)) :
    (write offset data buffer)[i]? = buffer[i]? := by
  have htake : (buffer.take offset).length = offset := List.length_take_of_le h
  rw [write, List.append_assoc]
  rcases Nat.lt_or_ge i offset with hlt | hge
  · rw [List.getElem?_append_left (by omega), List.getElem?_take_of_lt hlt]
  · rw [List.getElem?_append_right (by omega), htake, List.getElem?_append_right (by omega),
      List.getElem?_drop]
    congr 1
    omega

/-! ## Several writes -/

/-- A write that is to be made. -/
structure Write (α : Type) where
  offset : ℕ
  data : List α

/-- The write covers position `i`. -/
def Write.Covers (w : Write α) (i : ℕ) : Prop := w.offset ≤ i ∧ i < w.offset + w.data.length

/-- The write ends within a buffer of length `n`. -/
def Write.Within (n : ℕ) (w : Write α) : Prop := w.offset + w.data.length ≤ n

/-- No position is covered by both writes. -/
def Write.Disjoint (w w' : Write α) : Prop := ∀ i, w.Covers i → ¬ w'.Covers i

/-- A write that ends before another begins is disjoint from it. -/
theorem Write.disjoint_of_le {w w' : Write α} (h : w.offset + w.data.length ≤ w'.offset) :
    w.Disjoint w' := by
  intro i hi hi'
  exact absurd hi.2 (Nat.not_lt_of_le (Nat.le_trans h hi'.1))

/-- The writes made one after another. -/
def writeAll (ws : List (Write α)) (buffer : List α) : List α :=
  ws.foldl (fun buffer w => write w.offset w.data buffer) buffer

variable {w : Write α} {ws : List (Write α)}

theorem length_writeAll (h : ∀ w ∈ ws, w.Within buffer.length) :
    (writeAll ws buffer).length = buffer.length := by
  induction ws generalizing buffer with
  | nil => rfl
  | cons w ws ih =>
      have hlen : (write w.offset w.data buffer).length = buffer.length :=
        length_write (h w List.mem_cons_self)
      show (writeAll ws (write w.offset w.data buffer)).length = _
      rw [ih, hlen]
      intro w' hw'
      rw [hlen]
      exact h w' (List.mem_cons_of_mem _ hw')

/-- What no write covers is as before. -/
theorem getElem?_writeAll_of_not_covers (h : ∀ w ∈ ws, w.Within buffer.length) {i : ℕ}
    (hi : ∀ w ∈ ws, ¬ w.Covers i) : (writeAll ws buffer)[i]? = buffer[i]? := by
  induction ws generalizing buffer with
  | nil => rfl
  | cons w ws ih =>
      have hw : w.Within buffer.length := h w List.mem_cons_self
      show (writeAll ws (write w.offset w.data buffer))[i]? = _
      rw [ih, getElem?_write_of_not_mem (Nat.le_of_add_right_le hw) (hi w List.mem_cons_self)]
      · intro w' hw'
        rw [length_write hw]
        exact h w' (List.mem_cons_of_mem _ hw')
      · exact fun w' hw' => hi w' (List.mem_cons_of_mem _ hw')

/-- What one of several writes that do not overlap covers is what it has written. -/
theorem getElem?_writeAll_of_covers (h : ∀ w ∈ ws, w.Within buffer.length)
    (hdisjoint : ws.Pairwise Write.Disjoint) (hw : w ∈ ws) {i : ℕ} (hi : w.Covers i) :
    (writeAll ws buffer)[i]? = w.data[i - w.offset]? := by
  induction ws generalizing buffer with
  | nil => cases hw
  | cons w' ws ih =>
      have hw' : w'.Within buffer.length := h w' List.mem_cons_self
      have hrest : ∀ w ∈ ws, w.Within (write w'.offset w'.data buffer).length := by
        intro w hw
        rw [length_write hw']
        exact h w (List.mem_cons_of_mem _ hw)
      obtain ⟨hhead, htail⟩ := List.pairwise_cons.mp hdisjoint
      show (writeAll ws (write w'.offset w'.data buffer))[i]? = _
      rcases List.mem_cons.mp hw with rfl | hmem
      · -- the later writes leave what the first has written
        rw [getElem?_writeAll_of_not_covers hrest fun w₁ hw₁ => hhead w₁ hw₁ i hi]
        exact getElem?_write_of_mem (Nat.le_of_add_right_le hw') hi.1 hi.2
      · exact ih hrest htail hmem

/-- **Each block can be read back.** -/
theorem read_writeAll (h : ∀ w ∈ ws, w.Within buffer.length) (hdisjoint : ws.Pairwise Write.Disjoint)
    (hw : w ∈ ws) : read w.offset w.data.length (writeAll ws buffer) = w.data := by
  apply List.ext_getElem?
  intro i
  unfold read
  rcases Nat.lt_or_ge i w.data.length with hlt | hge
  · rw [List.getElem?_take_of_lt hlt, List.getElem?_drop,
      getElem?_writeAll_of_covers h hdisjoint hw ⟨by omega, by omega⟩]
    congr 1
    omega
  · rw [List.getElem?_eq_none hge, List.getElem?_eq_none]
    exact Nat.le_trans (List.length_take_le _ _) hge

/-- The writes tile a buffer of length `n`: every position is written, and by one write. -/
structure Tiles (n : ℕ) (ws : List (Write α)) : Prop where
  within : ∀ w ∈ ws, w.Within n
  covered : ∀ i < n, ∃ w ∈ ws, w.Covers i
  disjoint : ws.Pairwise Write.Disjoint

variable {n : ℕ}

/-- A block of a tiling can be read back. -/
theorem Tiles.read_writeAll (h : Tiles n ws) (hbuffer : buffer.length = n) (hw : w ∈ ws) :
    read w.offset w.data.length (writeAll ws buffer) = w.data := by
  subst hbuffer
  exact Buffer.read_writeAll h.within h.disjoint hw

/-- **Nothing is left of the buffer before**, when the writes tile it. -/
theorem Tiles.writeAll_eq (h : Tiles n ws) {buffer' : List α} (hbuffer : buffer.length = n)
    (hbuffer' : buffer'.length = n) : writeAll ws buffer = writeAll ws buffer' := by
  have hwithin : ∀ w ∈ ws, w.Within buffer.length := by rw [hbuffer]; exact h.within
  have hwithin' : ∀ w ∈ ws, w.Within buffer'.length := by rw [hbuffer']; exact h.within
  apply List.ext_getElem?
  intro i
  rcases Nat.lt_or_ge i n with hlt | hge
  · obtain ⟨w, hw, hi⟩ := h.covered i hlt
    rw [getElem?_writeAll_of_covers hwithin h.disjoint hw hi,
      getElem?_writeAll_of_covers hwithin' h.disjoint hw hi]
  · rw [List.getElem?_eq_none (by rw [length_writeAll hwithin]; omega),
      List.getElem?_eq_none (by rw [length_writeAll hwithin']; omega)]

/-- **The outcome tells the blocks.** Two tilings with the same outcome have written the same where both
write a block of one length at one offset. -/
theorem Tiles.data_eq {ws' : List (Write α)} {buffer' : List α} {w' : Write α} (h : Tiles n ws)
    (h' : Tiles n ws') (hbuffer : buffer.length = n) (hbuffer' : buffer'.length = n)
    (heq : writeAll ws buffer = writeAll ws' buffer') (hw : w ∈ ws) (hw' : w' ∈ ws')
    (hoffset : w.offset = w'.offset) (hlength : w.data.length = w'.data.length) :
    w.data = w'.data :=
  calc
    w.data = read w.offset w.data.length (writeAll ws buffer) := (h.read_writeAll hbuffer hw).symm
    _ = read w'.offset w'.data.length (writeAll ws' buffer') := by rw [heq, hoffset, hlength]
    _ = w'.data := h'.read_writeAll hbuffer' hw'

/-! ## The bytes of a word -/

section Bytes

variable {v : ℕ}

/-- The first `k` bytes of a word, least significant first. -/
def littleEndian (k : ℕ) (x : BitVec v) : List (BitVec 8) :=
  (List.range k).map fun i => x.extractLsb' (8 * i) 8

@[simp] theorem length_littleEndian (k : ℕ) (x : BitVec v) : (littleEndian k x).length = k := by
  rw [littleEndian, List.length_map, List.length_range]

theorem getElem?_littleEndian {k i : ℕ} (hi : i < k) (x : BitVec v) :
    (littleEndian k x)[i]? = some (x.extractLsb' (8 * i) 8) := by
  rw [littleEndian, List.getElem?_map, List.getElem?_range hi]
  rfl

/-- **The bytes tell the word**, when there are enough of them. -/
theorem littleEndian_injective {k : ℕ} (hk : v ≤ 8 * k) :
    Function.Injective (littleEndian k : BitVec v → List (BitVec 8)) := by
  intro x y h
  apply BitVec.eq_of_getLsbD_eq
  intro j hj
  -- bit `j` is in byte `j / 8`
  have hbyte : x.extractLsb' (8 * (j / 8)) 8 = y.extractLsb' (8 * (j / 8)) 8 := by
    have hi : j / 8 < k := by omega
    rw [← Option.some.injEq, ← getElem?_littleEndian hi, ← getElem?_littleEndian hi, h]
  have hbit := congrArg (BitVec.getLsbD · (j % 8)) hbyte
  have hj' : 8 * (j / 8) + j % 8 = j := Nat.div_add_mod j 8
  have hlow : j % 8 < 8 := Nat.mod_lt _ (by decide)
  simpa only [BitVec.getLsbD_extractLsb', hj', hlow, decide_true, Bool.true_and] using hbit

/-- The bytes of a field of a word. -/
theorem littleEndian_extractLsb' (k start : ℕ) (x : BitVec v) :
    littleEndian k (x.extractLsb' start (8 * k)) =
      (List.range k).map fun i => x.extractLsb' (start + 8 * i) 8 := by
  apply List.map_congr_left
  intro i hi
  have hlt : i < k := List.mem_range.mp hi
  apply BitVec.eq_of_getLsbD_eq
  intro j hj
  have hin : 8 * i + j < 8 * k := by omega
  simp only [BitVec.getLsbD_extractLsb', hin, decide_true, Bool.true_and, Nat.add_assoc]

end Bytes

end Buffer
