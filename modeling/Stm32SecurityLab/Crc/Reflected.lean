import Mathlib.Tactic.Common
import Mathlib.Logic.Function.Iterate

/-!
# Reflected CRCs, bit by bit and byte by byte

The register of a reflected CRC is shifted down one bit at a time, and the polynomial is added when
the bit that falls out is set. The step is linear over exclusive or, so eight steps on a register
split into the eight steps on its low byte, which a table can hold, and a plain shift of the rest.

The width and the polynomial are arbitrary.

## Main results

* `Crc.iterate_step_xor` — steps are linear
* `Crc.iterate_step_table` — eight steps are a table lookup and a shift
-/

namespace Crc

variable {w : ℕ}

/-- One step of the register. -/
def step (poly crc : BitVec w) : BitVec w :=
  (crc >>> 1) ^^^ (if crc.getLsbD 0 then poly else 0)

theorem step_of_low {poly crc : BitVec w} (h : crc.getLsbD 0 = false) :
    step poly crc = crc >>> 1 := by
  rw [step, h]
  simp

theorem step_xor (poly a b : BitVec w) : step poly (a ^^^ b) = step poly a ^^^ step poly b := by
  have hshift : (a ^^^ b) >>> 1 = (a >>> 1) ^^^ (b >>> 1) := BitVec.ushiftRight_xor_distrib ..
  have hpoly : (if (a ^^^ b).getLsbD 0 then poly else 0) =
      (if a.getLsbD 0 then poly else 0) ^^^ (if b.getLsbD 0 then poly else 0) := by
    rw [BitVec.getLsbD_xor]
    cases a.getLsbD 0 <;> cases b.getLsbD 0 <;> simp
  rw [step, step, step, hshift, hpoly]
  ac_rfl

/-- **Steps are linear.** -/
theorem iterate_step_xor (poly a b : BitVec w) (n : ℕ) :
    (step poly)^[n] (a ^^^ b) = (step poly)^[n] a ^^^ (step poly)^[n] b := by
  induction n generalizing a b with
  | zero => rfl
  | succ n ih => rw [Function.iterate_succ_apply, step_xor, ih]; rfl

/-- As long as only zeros fall out, the register is shifted. -/
theorem iterate_step_shift (poly : BitVec w) {crc : BitVec w} {n : ℕ}
    (h : ∀ i < n, crc.getLsbD i = false) : (step poly)^[n] crc = crc >>> n := by
  induction n with
  | zero => simp
  | succ n ih =>
    have hlow : (crc >>> n).getLsbD 0 = false := by
      rw [BitVec.getLsbD_ushiftRight]
      exact h n (Nat.lt_succ_self n)
    rw [Function.iterate_succ_apply', ih fun i hi => h i (Nat.lt_succ_of_lt hi),
      step_of_low hlow, ← BitVec.shiftRight_add]

/-- **Eight steps** are those of the low byte, and a shift of the rest. -/
theorem iterate_step_table (poly crc : BitVec w) :
    (step poly)^[8] crc = (step poly)^[8] (crc &&& 255#w) ^^^ (crc >>> 8) := by
  have hbit : ∀ i, (255#w).getLsbD i = (decide (i < w) && decide (i < 8)) := by
    intro i
    rw [BitVec.getLsbD_ofNat, show (255 : ℕ) = 2 ^ 8 - 1 from rfl, Nat.testBit_two_pow_sub_one]
  have hsplit : crc = (crc &&& 255#w) ^^^ (crc &&& ~~~ 255#w) := by
    refine BitVec.eq_of_getLsbD_eq fun i hi => ?_
    simp only [BitVec.getLsbD_xor, BitVec.getLsbD_and, BitVec.getLsbD_not, hi, decide_true,
      Bool.true_and]
    cases crc.getLsbD i <;> cases (255#w).getLsbD i <;> rfl
  have hhigh : ∀ i < 8, (crc &&& ~~~ 255#w).getLsbD i = false := by
    intro i hi
    rw [BitVec.getLsbD_and, BitVec.getLsbD_not, hbit]
    by_cases hw : i < w <;> simp [hi, hw]
  have hrest : (crc &&& ~~~ 255#w) >>> 8 = crc >>> 8 := by
    refine BitVec.eq_of_getLsbD_eq fun i _ => ?_
    rw [BitVec.getLsbD_ushiftRight, BitVec.getLsbD_ushiftRight, BitVec.getLsbD_and,
      BitVec.getLsbD_not, hbit]
    by_cases hw : 8 + i < w
    · simp [hw]
    · simp [BitVec.getLsbD_of_ge crc (8 + i) (Nat.not_lt.mp hw)]
  have hlinear := iterate_step_xor poly (crc &&& 255#w) (crc &&& ~~~ 255#w) 8
  rwa [← hsplit, iterate_step_shift poly hhigh, hrest] at hlinear

end Crc
