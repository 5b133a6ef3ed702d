import Stm32SecurityLab.Crc.Reflected

/-!
# Reflected CRCs detect bursts

A byte enters the register of a reflected CRC at its low end and is then shifted through. When the
polynomial has its top bit, which for a reflected polynomial is the constant term, no step loses
anything: the register before the step can be told from the register after it. So two byte strings
that differ leave different registers if they differ only inside a window that the register has
room for, wherever the window is and however long the strings are.

No polynomial algebra is needed. As many bytes as the register has room for act as one word that
is added to it before the steps, since a shift only moves the later bytes to where they will enter.

## Main definitions

* `Crc.register` — the register after some bytes
* `Crc.word` — bytes as one word, the first byte lowest
* `Crc.Burst` — two strings that differ, and only inside a window

## Main results

* `Crc.step_injective` — a step loses nothing
* `Crc.register_eq_iterate` — the bytes of a window are one word
* `Crc.register_ne_of_burst` — a burst changes the register
-/

namespace Crc

variable {w : ℕ} {poly : BitVec w}

/-! ### A step loses nothing -/

theorem eq_zero_of_step_eq_zero (hpoly : poly.msb = true) {x : BitVec w} (h : step poly x = 0) :
    x = 0 := by
  have hshift : (x >>> 1).msb = false := by
    rw [BitVec.msb_eq_getLsbD_last, BitVec.getLsbD_ushiftRight]
    exact BitVec.getLsbD_of_ge x _ (by omega)
  have hlow : x.getLsbD 0 = false := by
    by_contra hset
    rw [Bool.not_eq_false] at hset
    have hmsb : (step poly x).msb = true := by
      rw [step, if_pos hset, BitVec.msb_xor, hshift, hpoly]
      rfl
    rw [h] at hmsb
    simp at hmsb
  rw [step_of_low hlow] at h
  refine BitVec.eq_of_getLsbD_eq fun i _ => ?_
  cases i with
  | zero => simpa using hlow
  | succ i =>
    have hbit := congrArg (fun y => y.getLsbD i) h
    simp only [BitVec.getLsbD_ushiftRight] at hbit
    rw [Nat.add_comm, hbit]
    simp

/-- **A step loses nothing.** -/
theorem step_injective (hpoly : poly.msb = true) : Function.Injective (step poly) := by
  intro a b h
  have hzero : step poly (a ^^^ b) = 0 := by
    rw [step_xor, h]
    exact BitVec.xor_self
  exact BitVec.xor_eq_zero_iff.mp (eq_zero_of_step_eq_zero hpoly hzero)

/-! ### Bytes -/

/-- One byte into the register. -/
def byteStep (poly crc : BitVec w) (byte : UInt8) : BitVec w :=
  (step poly)^[8] (crc ^^^ byte.toBitVec.setWidth w)

/-- The register after the bytes. -/
def register (poly crc : BitVec w) (bytes : List UInt8) : BitVec w :=
  bytes.foldl (byteStep poly) crc

@[simp] theorem register_nil (crc : BitVec w) : register poly crc [] = crc := rfl

@[simp] theorem register_cons (crc : BitVec w) (byte : UInt8) (bytes : List UInt8) :
    register poly crc (byte :: bytes) = register poly (byteStep poly crc byte) bytes := rfl

theorem register_append (crc : BitVec w) (a b : List UInt8) :
    register poly crc (a ++ b) = register poly (register poly crc a) b :=
  List.foldl_append

/-- The bytes that follow lose nothing of the register. -/
theorem register_injective (hpoly : poly.msb = true) (bytes : List UInt8) :
    Function.Injective fun crc => register poly crc bytes := by
  induction bytes with
  | nil => exact fun _ _ h => h
  | cons byte bytes ih =>
    intro a b h
    have hsteps := (step_injective hpoly).iterate 8 (ih h)
    exact BitVec.xor_left_inj (byte.toBitVec.setWidth w) |>.mp hsteps

/-! ### A window as one word -/

/-- The bytes as a word, the first byte lowest. -/
def word (w : ℕ) : List UInt8 → BitVec w
  | [] => 0
  | byte :: bytes => byte.toBitVec.setWidth w ^^^ word w bytes <<< 8

/-- Nothing of the word is above its bytes. -/
theorem getLsbD_word_of_ge {bytes : List UInt8} {i : ℕ} (h : 8 * bytes.length ≤ i) :
    (word w bytes).getLsbD i = false := by
  induction bytes generalizing i with
  | nil => simp [word]
  | cons byte bytes ih =>
    rw [List.length_cons] at h
    rw [word, BitVec.getLsbD_xor, BitVec.getLsbD_shiftLeft, ih (by omega),
      BitVec.getLsbD_setWidth, BitVec.getLsbD_of_ge byte.toBitVec i (by omega)]
    simp

theorem getLsbD_word_cons (byte : UInt8) (bytes : List UInt8) {i : ℕ} (hi : i < w) :
    (word w (byte :: bytes)).getLsbD i =
      if i < 8 then byte.toBitVec.getLsbD i else (word w bytes).getLsbD (i - 8) := by
  rw [word, BitVec.getLsbD_xor, BitVec.getLsbD_shiftLeft, BitVec.getLsbD_setWidth]
  by_cases h8 : i < 8
  · simp [h8, hi]
  · simp [h8, hi, BitVec.getLsbD_of_ge byte.toBitVec i (Nat.not_lt.mp h8)]

/-- Eight steps bring the next byte of a word to the low end. -/
theorem iterate_step_word {bytes : List UInt8} (h : 8 * (bytes.length + 1) ≤ w) :
    (step poly)^[8] (word w bytes <<< 8) = word w bytes := by
  rw [iterate_step_shift poly]
  · refine BitVec.eq_of_getLsbD_eq fun i hi => ?_
    rw [BitVec.getLsbD_ushiftRight, BitVec.getLsbD_shiftLeft]
    by_cases hw : 8 + i < w
    · simp [hw]
    · rw [getLsbD_word_of_ge (i := i) (by omega)]
      simp [hw]
  · intro i hi
    rw [BitVec.getLsbD_shiftLeft]
    simp [hi]

/-- **The bytes of a window are one word**, added to the register before the steps. -/
theorem register_eq_iterate (crc : BitVec w) {bytes : List UInt8} (h : 8 * bytes.length ≤ w) :
    register poly crc bytes = (step poly)^[8 * bytes.length] (crc ^^^ word w bytes) := by
  induction bytes generalizing crc with
  | nil => simp [word]
  | cons byte bytes ih =>
    rw [List.length_cons] at h
    have hword : byteStep poly crc byte ^^^ word w bytes =
        (step poly)^[8] (crc ^^^ word w (byte :: bytes)) := by
      have hlinear := iterate_step_xor poly (crc ^^^ byte.toBitVec.setWidth w) (word w bytes <<< 8) 8
      rw [byteStep, word, ← BitVec.xor_assoc, hlinear, iterate_step_word h]
    rw [register_cons, ih _ (by omega), hword, ← Function.iterate_add_apply, List.length_cons,
      Nat.mul_succ]

theorem word_injective {a b : List UInt8} (hlength : a.length = b.length) (h : 8 * a.length ≤ w)
    (hword : word w a = word w b) : a = b := by
  induction a generalizing b with
  | nil => exact (List.length_eq_zero_iff.mp hlength.symm).symm
  | cons x a ih =>
    cases b with
    | nil => cases hlength
    | cons y b =>
      rw [List.length_cons] at h
      have hbit : ∀ i < w, (word w (x :: a)).getLsbD i = (word w (y :: b)).getLsbD i :=
        fun i _ => by rw [hword]
      have hhead : x = y := by
        refine UInt8.eq_of_toBitVec_eq (BitVec.eq_of_getLsbD_eq fun i hi => ?_)
        have hi' := hbit i (by omega)
        rwa [getLsbD_word_cons _ _ (by omega), getLsbD_word_cons _ _ (by omega), if_pos hi,
          if_pos hi] at hi'
      have htail : word w a = word w b := by
        refine BitVec.eq_of_getLsbD_eq fun i hi => ?_
        by_cases hw : 8 + i < w
        · have hi' := hbit (8 + i) hw
          rwa [getLsbD_word_cons _ _ hw, getLsbD_word_cons _ _ hw, if_neg (by omega),
            if_neg (by omega), Nat.add_sub_cancel_left] at hi'
        · have hlen : a.length = b.length := Nat.succ.inj hlength
          rw [getLsbD_word_of_ge (by omega), getLsbD_word_of_ge (by omega)]
      rw [hhead, ih (Nat.succ.inj hlength) (by omega) htail]

/-- A window that the register has room for can be read off the register. -/
theorem register_window (hpoly : poly.msb = true) (crc : BitVec w) {a b : List UInt8}
    (hlength : a.length = b.length) (h : 8 * a.length ≤ w)
    (heq : register poly crc a = register poly crc b) : a = b := by
  rw [register_eq_iterate crc h, register_eq_iterate crc (hlength ▸ h), ← hlength] at heq
  have hxor := (step_injective hpoly).iterate (8 * a.length) heq
  exact word_injective hlength h (BitVec.xor_right_inj crc |>.mp hxor)

/-! ### Bursts -/

/-- The two strings have the same length and differ, and only inside some window of `n`
positions. -/
structure Burst {α : Type*} (n : ℕ) (a b : List α) : Prop where
  length : b.length = a.length
  window : ∃ i, ∀ j, j < i ∨ i + n ≤ j → b[j]? = a[j]?
  ne : b ≠ a

/-- One altered position is a burst. -/
theorem Burst.set {α : Type*} {n : ℕ} (hn : 0 < n) {a : List α} {i : ℕ} {v : α}
    (hv : a[i]? ≠ some v) (hi : i < a.length) : Burst n a (a.set i v) where
  length := List.length_set
  window := ⟨i, fun j hj => List.getElem?_set_ne (by omega)⟩
  ne := by
    intro heq
    rw [← heq, List.getElem?_set_self hi] at hv
    exact hv rfl

/-- A burst does not reach into what is the same behind both strings. -/
theorem Burst.of_append_right {α : Type*} {n : ℕ} {a b c : List α} (h : Burst n (a ++ c) (b ++ c)) :
    Burst n a b := by
  have hlength : b.length = a.length := by
    have := h.length
    rw [List.length_append, List.length_append] at this
    exact Nat.add_right_cancel this
  obtain ⟨i, hi⟩ := h.window
  refine ⟨hlength, ⟨i, fun j hj => ?_⟩, fun heq => h.ne (by rw [heq])⟩
  by_cases hlt : j < a.length
  · have hij := hi j hj
    rwa [List.getElem?_append_left hlt, List.getElem?_append_left (hlength ▸ hlt)] at hij
  · rw [List.getElem?_eq_none (Nat.not_lt.mp hlt),
      List.getElem?_eq_none (hlength ▸ Nat.not_lt.mp hlt)]

/-- What is before, inside and behind the window. -/
theorem Burst.split {α : Type*} {n : ℕ} {a b : List α} (h : Burst n a b) :
    ∃ before inside inside' behind, a = before ++ (inside ++ behind) ∧
      b = before ++ (inside' ++ behind) ∧ inside.length = inside'.length ∧ inside.length ≤ n ∧
      inside ≠ inside' := by
  obtain ⟨i, hi⟩ := h.window
  have hbefore : b.take i = a.take i := by
    refine List.ext_getElem? fun j => ?_
    rw [List.getElem?_take, List.getElem?_take]
    by_cases hj : j < i
    · rw [if_pos hj, if_pos hj, hi j (Or.inl hj)]
    · rw [if_neg hj, if_neg hj]
  have hbehind : b.drop (i + n) = a.drop (i + n) := by
    refine List.ext_getElem? fun j => ?_
    rw [List.getElem?_drop, List.getElem?_drop, hi _ (Or.inr (Nat.le_add_right _ _))]
  have hsplit : ∀ l : List α, l = l.take i ++ ((l.drop i).take n ++ l.drop (i + n)) := by
    intro l
    rw [← List.drop_drop, List.take_append_drop, List.take_append_drop]
  have hb := hsplit b
  rw [hbefore, hbehind] at hb
  refine ⟨a.take i, (a.drop i).take n, (b.drop i).take n, a.drop (i + n), hsplit a, hb, ?_, ?_, ?_⟩
  · rw [List.length_take, List.length_take, List.length_drop, List.length_drop, h.length]
  · exact List.length_take_le n _
  · intro hsame
    rw [← hsame, ← hsplit a] at hb
    exact h.ne hb

/-- **A burst changes the register**, when the register has room for the window. -/
theorem register_ne_of_burst (hpoly : poly.msb = true) (crc : BitVec w) {n : ℕ} (hn : 8 * n ≤ w)
    {a b : List UInt8} (h : Burst n a b) : register poly crc b ≠ register poly crc a := by
  obtain ⟨before, inside, inside', behind, rfl, rfl, hlength, hle, hne⟩ := h.split
  intro heq
  simp only [register_append] at heq
  have hinside := register_injective hpoly behind heq
  exact hne (register_window hpoly _ hlength (by omega) hinside.symm)

end Crc
