import Stm32SecurityLab.Metadata.Checksum

/-!
# The CRC loops of the research application

The application has two CRC loops of its own, one in `runtime_monitor_core.c` and one in `fault.c`.
The first selects the polynomial with a mask, as the bootloader does, the second with a
conditional, and it has its initial and final complement written as constants. Both compute the
CRC of the bootloader.

## Main results

* `rsmCrc32Update_eq`, `faultCrc32_eq` — the loops compute the same function
-/

namespace Stm32SecurityLab

/-- `rsm_crc32_update`. -/
def rsmCrc32Update (crc : UInt32) (data : List UInt8) : UInt32 :=
  ~~~ data.foldl
    (fun crc byte =>
      (List.range 8).foldl
        (fun crc _ =>
          let mask := 0 - (crc &&& 1)
          (crc >>> 1) ^^^ (0xEDB88320 &&& mask))
        (crc ^^^ byte.toUInt32))
    (~~~ crc)

/-- `crc32` of `fault.c`. -/
def faultCrc32 (data : List UInt8) : UInt32 :=
  data.foldl
    (fun (c : UInt32) (byte : UInt8) =>
      (List.range 8).foldl
        (fun c _ => (c >>> 1) ^^^ (if c &&& 1 ≠ 0 then 0xEDB88320 else 0))
        (c ^^^ byte.toUInt32))
    (0xFFFFFFFF : UInt32) ^^^ 0xFFFFFFFF

/-- A loop over the eight bits is `Nat.repeat`. -/
theorem foldl_range_eq_repeat {α : Type} (f : α → α) (n : ℕ) (a : α) :
    (List.range n).foldl (fun a _ => f a) a = Nat.repeat f n a := by
  induction n with
  | zero => rfl
  | succ n ih => rw [List.range_succ, List.foldl_append, ih]; rfl

theorem rsmCrc32Update_eq (crc : UInt32) (data : List UInt8) :
    rsmCrc32Update crc data = crc32Update crc data := by
  have hbyte : (fun (crc : UInt32) (byte : UInt8) => (List.range 8).foldl
      (fun crc _ => crc32Bit crc) (crc ^^^ byte.toUInt32)) = crc32Byte := by
    funext crc byte
    exact foldl_range_eq_repeat crc32Bit 8 _
  rw [crc32Update, ← hbyte]
  rfl

/-- The conditional selects what the mask selects. -/
theorem conditional_eq_crc32Bit (c : UInt32) :
    (c >>> 1) ^^^ (if c &&& 1 ≠ 0 then (0xEDB88320 : UInt32) else 0) = crc32Bit c := by
  have hlow : c &&& 1 = 0 ∨ c &&& 1 = 1 := by
    have hlt : (c &&& 1).toNat = 0 ∨ (c &&& 1).toNat = 1 := by
      rw [UInt32.toNat_and]
      have : c.toNat &&& 1 ≤ 1 := Nat.and_le_right
      exact Nat.le_one_iff_eq_zero_or_eq_one.mp this
    exact hlt.imp (fun h => UInt32.toNat_inj.mp h) fun h => UInt32.toNat_inj.mp h
  rw [crc32Bit]
  rcases hlow with h | h
  · rw [h]
    rfl
  · rw [h]
    rfl

theorem faultCrc32_eq (data : List UInt8) : faultCrc32 data = crc32Update 0 data := by
  have hbyte : (fun (c : UInt32) (byte : UInt8) => (List.range 8).foldl
      (fun (c : UInt32) _ => (c >>> 1) ^^^ (if c &&& 1 ≠ 0 then 0xEDB88320 else 0))
        (c ^^^ byte.toUInt32)) = crc32Byte := by
    funext c byte
    have hbit : (fun c : UInt32 => (c >>> 1) ^^^ (if c &&& 1 ≠ 0 then 0xEDB88320 else 0)) =
        crc32Bit := funext conditional_eq_crc32Bit
    rw [crc32Byte, ← hbit]
    exact foldl_range_eq_repeat _ 8 _
  have hfinal : ∀ c : UInt32, c ^^^ 0xFFFFFFFF = ~~~ c := by
    intro c
    apply UInt32.eq_of_toBitVec_eq
    exact BitVec.xor_allOnes
  rw [faultCrc32, hbyte, hfinal, crc32Update]
  rfl

end Stm32SecurityLab
