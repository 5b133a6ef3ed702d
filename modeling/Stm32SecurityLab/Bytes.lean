import Mathlib.Tactic.Common
import Mathlib.Data.List.TakeDrop
import Mathlib.Tactic.IntervalCases

/-!
# Bytes, words and memory

A C pointer into readable memory is a function `ℕ → UInt8`: the byte at each offset. A buffer of
known length is a list. `slice` reads a list out of a memory and `byteAt` is the way back, and the
two meet in `byteAt_slice`.

The little-endian loads and stores are written in several files of the firmware with the same
body, so they are defined once.

## Main results

* `loadLe32_of_slice`, `storeLe32_loadLe32`, `storeLe16_loadLe16` — the two are inverse
* `slice_add`, `slice_congr`, `slice_eq_iff` — reading memory in pieces, and what a read depends on
* `loadLe32_storeWords`, `storeWords_loadLe32` — buffers of words
-/

namespace Stm32SecurityLab

/-! ### Memory -/

/-- The byte at each address. -/
abbrev Mem := ℕ → UInt8

/-- The `n` bytes at address `a`. -/
def slice (p : Mem) (a n : ℕ) : List UInt8 := (List.range' a n).map p

/-- A buffer as a pointer. Offsets past its end are never read by the code and read as zero. -/
def byteAt (l : List UInt8) : Mem := fun i => l.getD i 0

@[simp] theorem slice_length (p : Mem) (a n : ℕ) : (slice p a n).length = n := by simp [slice]

@[simp] theorem slice_zero (p : Mem) (a : ℕ) : slice p a 0 = [] := rfl

theorem slice_succ (p : Mem) (a n : ℕ) : slice p a (n + 1) = p a :: slice p (a + 1) n := rfl

theorem slice_getElem? {p : Mem} {a n i : ℕ} (h : i < n) : (slice p a n)[i]? = some (p (a + i)) := by
  simp [slice, h]

theorem slice_getElem {p : Mem} {a n i : ℕ} (h : i < (slice p a n).length) :
    (slice p a n)[i] = p (a + i) := by
  simp [slice]

@[simp] theorem byteAt_slice {p : Mem} {a n i : ℕ} (h : i < n) :
    byteAt (slice p a n) i = p (a + i) := by
  simp [byteAt, List.getD, slice_getElem? h]

theorem slice_add (p : Mem) (a m n : ℕ) : slice p a (m + n) = slice p a m ++ slice p (a + m) n := by
  have h : List.range' a (m + n) = List.range' a m ++ List.range' (a + m) n := by
    simp
  rw [slice, h, List.map_append]
  rfl

theorem slice_congr {p q : Mem} {a n : ℕ} (h : ∀ x, a ≤ x → x < a + n → p x = q x) :
    slice p a n = slice q a n := by
  refine List.map_congr_left fun x hx => ?_
  obtain ⟨h₁, h₂⟩ := List.mem_range'_1.mp hx
  exact h x h₁ h₂

/-- A read equals a given list exactly when it does byte by byte. -/
theorem slice_eq_iff {p : Mem} {a : ℕ} {l : List UInt8} :
    slice p a l.length = l ↔ ∀ i, ∀ h : i < l.length, p (a + i) = l[i] := by
  constructor
  · intro h i hi
    have := slice_getElem? (p := p) (a := a) hi
    rw [h, List.getElem?_eq_getElem hi] at this
    exact (Option.some.inj this).symm
  · intro h
    refine List.ext_getElem (by simp) fun i h₁ h₂ => ?_
    rw [slice_getElem]
    exact h i h₂

theorem byteAt_of_lt {l : List UInt8} {i : ℕ} (h : i < l.length) : byteAt l i = l[i] := by
  simp [byteAt, List.getD, List.getElem?_eq_getElem h]

theorem byteAt_replicate_zero (n i : ℕ) : byteAt (List.replicate n 0) i = 0 := by
  rw [byteAt]
  rw [List.getD, List.getElem?_replicate]
  split <;> rfl

/-- A buffer read back through its own pointer. -/
theorem slice_byteAt (l : List UInt8) : slice (byteAt l) 0 l.length = l := by
  rw [slice_eq_iff]
  intro i hi
  rw [Nat.zero_add, byteAt_of_lt hi]

/-- Comparing one chunk of a buffer with memory. -/
theorem slice_eq_chunk_iff {p : Mem} {a offset chunk : ℕ} {l : List UInt8}
    (h : offset + chunk ≤ l.length) :
    slice p (a + offset) chunk = (l.drop offset).take chunk ↔
      ∀ i, offset ≤ i → i < offset + chunk → p (a + i) = byteAt l i := by
  obtain ⟨piece, hpiece⟩ : ∃ piece, piece = (l.drop offset).take chunk := ⟨_, rfl⟩
  have hlen : piece.length = chunk := by rw [hpiece]; simp; omega
  have hget : ∀ j, ∀ hj : j < piece.length, piece[j] = byteAt l (offset + j) := by
    intro j hj
    subst hpiece
    rw [List.getElem_take, List.getElem_drop, byteAt_of_lt (by omega)]
  rw [← hpiece, show slice p (a + offset) chunk = slice p (a + offset) piece.length by rw [hlen],
    slice_eq_iff]
  constructor
  · intro hall i hi hi'
    obtain ⟨j, rfl⟩ := Nat.exists_eq_add_of_le hi
    rw [← Nat.add_assoc, hall j (by omega), hget]
  · intro hall j hj
    rw [hget, Nat.add_assoc, hall (offset + j) (by omega) (by omega)]

theorem slice_take {p : Mem} {a n k : ℕ} (h : k ≤ n) : (slice p a n).take k = slice p a k := by
  obtain ⟨m, rfl⟩ := Nat.exists_eq_add_of_le h
  rw [slice_add, List.take_left' (slice_length p a k)]

theorem slice_drop {p : Mem} {a n k : ℕ} (h : k ≤ n) :
    (slice p a n).drop k = slice p (a + k) (n - k) := by
  obtain ⟨m, rfl⟩ := Nat.exists_eq_add_of_le h
  rw [slice_add, List.drop_left' (slice_length p a k), Nat.add_sub_cancel_left]

/-! ### Little-endian words -/

/-- `load_le32`. -/
def loadLe32 (p : Mem) (off : ℕ) : UInt32 :=
  (p off).toUInt32 ||| ((p (off + 1)).toUInt32 <<< 8) ||| ((p (off + 2)).toUInt32 <<< 16) |||
    ((p (off + 3)).toUInt32 <<< 24)

/-- `store_le32`. -/
def storeLe32 (v : UInt32) : List UInt8 :=
  [(v &&& 0xFF).toUInt8, ((v >>> 8) &&& 0xFF).toUInt8, ((v >>> 16) &&& 0xFF).toUInt8,
    ((v >>> 24) &&& 0xFF).toUInt8]

/-- `load_le16`. -/
def loadLe16 (p : Mem) (off : ℕ) : UInt16 :=
  (p off).toUInt16 ||| ((p (off + 1)).toUInt16 <<< 8)

/-- `store_le16`. -/
def storeLe16 (v : UInt16) : List UInt8 := [(v &&& 0xFF).toUInt8, ((v >>> 8) &&& 0xFF).toUInt8]

@[simp] theorem storeLe32_length (v : UInt32) : (storeLe32 v).length = 4 := rfl

@[simp] theorem storeLe16_length (v : UInt16) : (storeLe16 v).length = 2 := rfl

theorem loadLe32_congr {p q : Mem} {i j : ℕ} (h : ∀ k < 4, p (i + k) = q (j + k)) :
    loadLe32 p i = loadLe32 q j := by
  have h0 : p i = q j := h 0 (by omega)
  simp only [loadLe32, h0, h 1 (by omega), h 2 (by omega), h 3 (by omega)]

/-- Four bytes assembled into a word give the word's own bytes back. -/
theorem word_bytes (b₀ b₁ b₂ b₃ : UInt8) :
    storeLe32 (b₀.toUInt32 ||| (b₁.toUInt32 <<< 8) ||| (b₂.toUInt32 <<< 16) |||
      (b₃.toUInt32 <<< 24)) = [b₀, b₁, b₂, b₃] := by
  simp only [storeLe32, List.cons.injEq, and_true]
  refine ⟨?_, ?_, ?_, ?_⟩ <;>
  · apply UInt8.eq_of_toBitVec_eq
    ext i hi
    interval_cases i <;> simp

/-- Storing a word and loading it gives the word back. -/
theorem word_of_bytes (v : UInt32) :
    ((v &&& 0xFF).toUInt8.toUInt32 ||| (((v >>> 8) &&& 0xFF).toUInt8.toUInt32 <<< 8) |||
      (((v >>> 16) &&& 0xFF).toUInt8.toUInt32 <<< 16) |||
      (((v >>> 24) &&& 0xFF).toUInt8.toUInt32 <<< 24)) = v := by
  apply UInt32.eq_of_toBitVec_eq
  ext i hi
  interval_cases i <;> simp [-UInt32.toUInt32_toUInt8]

/-- **Load after store.** -/
theorem loadLe32_of_slice {p : Mem} {off : ℕ} {v : UInt32} (h : slice p off 4 = storeLe32 v) :
    loadLe32 p off = v := by
  simp only [slice_succ, slice_zero, storeLe32, List.cons.injEq, and_true] at h
  obtain ⟨h₀, h₁, h₂, h₃⟩ := h
  rw [loadLe32, h₀, h₁, h₂, h₃]
  exact word_of_bytes v

/-- **Store after load.** -/
theorem storeLe32_loadLe32 (p : Mem) (off : ℕ) : storeLe32 (loadLe32 p off) = slice p off 4 :=
  word_bytes _ _ _ _

theorem storeLe16_loadLe16 (p : Mem) (off : ℕ) : storeLe16 (loadLe16 p off) = slice p off 2 := by
  simp only [storeLe16, loadLe16, slice_succ, slice_zero, List.cons.injEq, and_true]
  refine ⟨?_, ?_⟩ <;>
  · apply UInt8.eq_of_toBitVec_eq
    ext i hi
    interval_cases i <;> simp

theorem loadLe16_of_slice {p : Mem} {off : ℕ} {v : UInt16} (h : slice p off 2 = storeLe16 v) :
    loadLe16 p off = v := by
  simp only [slice_succ, slice_zero, storeLe16, List.cons.injEq, and_true] at h
  obtain ⟨h₀, h₁⟩ := h
  rw [loadLe16, h₀, h₁]
  apply UInt16.eq_of_toBitVec_eq
  ext i hi
  interval_cases i <;> simp [-UInt16.toUInt16_toUInt8]

/-! ### Single bytes -/

/-- Storing a byte behind a buffer appends it. -/
theorem slice_update (p : Mem) (a n : ℕ) (b : UInt8) :
    slice (Function.update p (a + n) b) a (n + 1) = slice p a n ++ [b] := by
  rw [slice_add, slice_succ, slice_zero, Function.update_self]
  congr 1
  exact slice_congr fun x _ hx => Function.update_of_ne (by omega) _ _

/-! ### Buffers of words -/

theorem byteAt_append_left {l m : List UInt8} {i : ℕ} (h : i < l.length) :
    byteAt (l ++ m) i = byteAt l i := by
  simp [byteAt, List.getD, List.getElem?_append_left h]

theorem byteAt_append_right {l m : List UInt8} {n : ℕ} (h : l.length = n) (i : ℕ) :
    byteAt (l ++ m) (n + i) = byteAt m i := by
  subst h
  simp [byteAt, List.getD, List.getElem?_append_right (Nat.le_add_right _ i)]

theorem slice_byteAt_append {l m : List UInt8} {n : ℕ} (h : l.length = n) :
    slice (byteAt (l ++ m)) 0 n = l := by
  subst h
  rw [slice_congr (q := byteAt l) fun x _ hx => byteAt_append_left (by omega), slice_byteAt]

/-- Consecutive little-endian words. -/
def storeWords (ws : List UInt32) : List UInt8 := ws.flatMap storeLe32

@[simp] theorem storeWords_length (ws : List UInt32) : (storeWords ws).length = 4 * ws.length := by
  induction ws with
  | nil => rfl
  | cons w ws ih =>
    simp only [storeWords, List.flatMap_cons, List.length_append, storeLe32_length,
      List.length_cons] at ih ⊢
    omega

theorem storeWords_append (ws vs : List UInt32) :
    storeWords (ws ++ vs) = storeWords ws ++ storeWords vs := by
  simp [storeWords]

/-- The word at index `k` of a buffer of words. -/
theorem loadLe32_storeWords {ws : List UInt32} {k : ℕ} {v : UInt32} (h : ws[k]? = some v) :
    loadLe32 (byteAt (storeWords ws)) (4 * k) = v := by
  induction ws generalizing k with
  | nil => simp at h
  | cons w ws ih =>
    have hcons : storeWords (w :: ws) = storeLe32 w ++ storeWords ws := rfl
    rw [hcons]
    cases k with
    | zero =>
      obtain rfl : w = v := by simpa using h
      exact loadLe32_of_slice (slice_byteAt_append (storeLe32_length w))
    | succ k =>
      rw [← ih (by simpa using h)]
      refine loadLe32_congr fun j _ => ?_
      rw [show 4 * (k + 1) + j = 4 + (4 * k + j) by omega,
        byteAt_append_right (storeLe32_length w)]

theorem storeLe32_injective : Function.Injective storeLe32 := by
  intro v w h
  rw [← loadLe32_of_slice (slice_byteAt (storeLe32 v)),
    loadLe32_of_slice ((slice_byteAt (storeLe32 v)).trans h)]

theorem storeLe16_injective : Function.Injective storeLe16 := by
  intro v w h
  rw [← loadLe16_of_slice (slice_byteAt (storeLe16 v)),
    loadLe16_of_slice ((slice_byteAt (storeLe16 v)).trans h)]

/-- The bytes of a buffer of words determine the words. -/
theorem storeWords_injective : Function.Injective storeWords := by
  intro ws
  induction ws with
  | nil =>
    intro vs h
    have hlength := congrArg List.length h
    rw [storeWords_length, storeWords_length, List.length_nil] at hlength
    exact (List.eq_nil_of_length_eq_zero (by omega)).symm
  | cons w ws ih =>
    intro vs h
    cases vs with
    | nil =>
      have hlength := congrArg List.length h
      rw [storeWords_length, storeWords_length, List.length_cons, List.length_nil] at hlength
      omega
    | cons v vs =>
      have happend : storeLe32 w ++ storeWords ws = storeLe32 v ++ storeWords vs := h
      obtain ⟨hw, hws⟩ := List.append_inj happend rfl
      rw [storeLe32_injective hw, ih hws]

/-- Storing the words that were loaded gives the bytes back. -/
theorem storeWords_loadLe32 (p : Mem) (a n : ℕ) :
    storeWords ((List.range n).map fun k => loadLe32 p (a + 4 * k)) = slice p a (4 * n) := by
  induction n with
  | zero => rfl
  | succ n ih =>
    rw [List.range_succ, List.map_append, storeWords_append, ih, Nat.mul_succ, slice_add]
    have hlast : storeWords [loadLe32 p (a + 4 * n)] = storeLe32 (loadLe32 p (a + 4 * n)) := by
      rw [storeWords, List.flatMap_singleton]
    rw [List.map_singleton, hlast, storeLe32_loadLe32]

end Stm32SecurityLab
