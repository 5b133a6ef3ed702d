import Stm32SecurityLab.Bytes
import Stm32SecurityLab.Crash.Prog
import Stm32SecurityLab.Layout

/-!
# The flash access layer

`boot_flash.c`: bounds, alignment and write-region checks in front of a backend, and the readback
that follows every program operation.

The backend is the table `boot_flash_ops_t` together with its context pointer, and it is a
parameter here: `BootFlashOps σ` over whatever state the backend keeps. A handle `BootFlash` is
what `boot_flash_init` builds from the remaining arguments, so it carries what that function
checked. Its `flash_base` and `flash_end` are always the two constants and are not stored.

The guards against null pointers have no counterpart: a handle, a callback or a buffer is a value.

## Main results

* `rangeIsWriteAllowed_iff` — a range passes exactly when one region contains it
* `wp_bootFlashRead`, `wp_bootFlashEraseSector` — the checks in front of the backend
-/

namespace Stm32SecurityLab

open Crash

/-- `boot_flash_status_t` without `OK`. -/
inductive BootFlashError where
  | invalidArgument
  | outOfBounds
  | alignment
  | protectedRegion
  | backend
  | verify
  deriving DecidableEq, Repr

/-- `boot_flash_region_t`. -/
structure BootFlashRegion where
  base : ℕ
  endAddr : ℕ
  deriving DecidableEq, Repr

/-- What `boot_flash_init` asks of a write region. -/
def BootFlashRegion.IsValid (r : BootFlashRegion) : Prop :=
  r.base < r.endAddr ∧ Layout.flashBase ≤ r.base ∧ r.endAddr ≤ Layout.flashEnd

instance (r : BootFlashRegion) : Decidable r.IsValid :=
  inferInstanceAs (Decidable (_ ∧ _))

/-- `is_power_of_two`. -/
def isPowerOfTwo (value : ℕ) : Bool := value != 0 && value &&& (value - 1) == 0

/-- `boot_flash_t`, as `boot_flash_init` leaves it. -/
structure BootFlash where
  programAlignment : ℕ
  writeRegions : List BootFlashRegion
  alignment_pow : isPowerOfTwo programAlignment = true
  regions_valid : ∀ r ∈ writeRegions, r.IsValid

theorem BootFlashRegion.isValid_nil : ∀ r ∈ ([] : List BootFlashRegion), r.IsValid := by
  simp

/-- The mask test of the alignment checks is divisibility. -/
theorem BootFlash.aligned_iff (flash : BootFlash) (x : ℕ) :
    x &&& (flash.programAlignment - 1) = 0 ↔ flash.programAlignment ∣ x := by
  have h := flash.alignment_pow
  simp only [isPowerOfTwo, Bool.and_eq_true, bne_iff_ne, beq_iff_eq] at h
  obtain ⟨k, hk⟩ := Nat.ne_zero_and_sub_one_eq_zero_iff_isPowerOfTwo.mp h
  rw [hk, Nat.and_two_pow_sub_one_eq_mod]
  exact (Nat.dvd_iff_mod_eq_zero).symm

/-- `boot_flash_init`. -/
def bootFlashInit (writeRegions : List BootFlashRegion) (programAlignment : ℕ) :
    Except BootFlashError BootFlash :=
  if hp : isPowerOfTwo programAlignment = true then
    if hr : ∀ r ∈ writeRegions, r.IsValid then
      .ok ⟨programAlignment, writeRegions, hp, hr⟩
    else
      .error .outOfBounds
  else
    .error .invalidArgument

/-- `boot_flash_ops_t` over the state its context pointer leads to. -/
structure BootFlashOps (σ : Type) where
  read (address length : ℕ) : Prog σ BootFlashError (List UInt8)
  eraseSector (sectorId : ℕ) : Prog σ BootFlashError Unit
  program (address : ℕ) (data : List UInt8) : Prog σ BootFlashError Unit

/-! ### Ranges -/

/-- `checked_range_end`: the end of a range, unless computing it would wrap. -/
def checkedRangeEnd (address length : ℕ) : Option ℕ :=
  if length > uint32Max then none
  else if length > uint32Max - address then none
  else some (address + length)

/-- `range_in_bounds`. -/
def rangeInBounds (base endAddr address length : ℕ) : Bool :=
  match checkedRangeEnd address length with
  | none => false
  | some rangeEnd =>
    decide (base ≤ address) && decide (rangeEnd ≤ endAddr) && decide (address ≤ rangeEnd)

/-- `range_is_write_allowed`. -/
def rangeIsWriteAllowed (flash : BootFlash) (address length : ℕ) : Bool :=
  match checkedRangeEnd address length with
  | none => false
  | some rangeEnd =>
    flash.writeRegions.any fun region =>
      decide (region.base ≤ address) && decide (rangeEnd ≤ region.endAddr)

theorem checkedRangeEnd_of_le {address length : ℕ} (h : address + length ≤ Layout.flashEnd) :
    checkedRangeEnd address length = some (address + length) := by
  have : Layout.flashEnd < uint32Max := by decide
  rw [checkedRangeEnd]
  rw [if_neg (by omega), if_neg (by omega)]

theorem eq_of_checkedRangeEnd {address length e : ℕ} (h : checkedRangeEnd address length = some e) :
    e = address + length := by
  rw [checkedRangeEnd] at h
  split at h
  · cases h
  · split at h
    · cases h
    · exact (Option.some.inj h).symm

/-- A range is inside the flash exactly when it is so as a range of natural numbers. -/
theorem rangeInBounds_iff {base address length : ℕ} :
    rangeInBounds base Layout.flashEnd address length = true ↔
      base ≤ address ∧ address + length ≤ Layout.flashEnd := by
  rw [rangeInBounds]
  constructor
  · intro h
    split at h
    · cases h
    · rename_i e he
      obtain rfl := eq_of_checkedRangeEnd he
      simp only [Bool.and_eq_true, decide_eq_true_eq] at h
      exact ⟨h.1.1, h.1.2⟩
  · rintro ⟨h₁, h₂⟩
    rw [checkedRangeEnd_of_le h₂]
    simp [h₁, h₂]

/-- **A range may be written exactly when one region contains it.** -/
theorem rangeIsWriteAllowed_iff {flash : BootFlash} {address length : ℕ} :
    rangeIsWriteAllowed flash address length = true ↔
      ∃ r ∈ flash.writeRegions, r.base ≤ address ∧ address + length ≤ r.endAddr := by
  rw [rangeIsWriteAllowed]
  constructor
  · intro h
    split at h
    · cases h
    · rename_i e he
      obtain rfl := eq_of_checkedRangeEnd he
      obtain ⟨r, hr, hle⟩ := List.any_eq_true.mp h
      simp only [Bool.and_eq_true, decide_eq_true_eq] at hle
      exact ⟨r, hr, hle⟩
  · rintro ⟨r, hr, h₁, h₂⟩
    have := (flash.regions_valid r hr).2.2
    rw [checkedRangeEnd_of_le (by omega)]
    exact List.any_eq_true.mpr ⟨r, hr, by simp [h₁, h₂]⟩

/-! ### Operations -/

/-- `boot_flash_sector_by_id`. -/
def bootFlashSectorById (sectorId : ℕ) : Except BootFlashError BootFlashSector :=
  match bootFlashSectors[sectorId]? with
  | some sector => .ok sector
  | none => .error .invalidArgument

/-- `BOOT_FLASH_VERIFY_CHUNK`. -/
def bootFlashVerifyChunk : ℕ := 32

section Operations

variable {σ : Type} (ops : BootFlashOps σ)

/-- `boot_flash_read`. -/
def bootFlashRead (address length : ℕ) : Prog σ BootFlashError (List UInt8) := do
  .check (rangeInBounds Layout.flashBase Layout.flashEnd address length = true) .outOfBounds
  if length = 0 then
    pure []
  else
    ops.read address length

/-- `boot_flash_erase_sector`. -/
def bootFlashEraseSector (flash : BootFlash) (sectorId : ℕ) : Prog σ BootFlashError Unit := do
  let sector ← .ofExcept (bootFlashSectorById sectorId)
  .check (rangeIsWriteAllowed flash sector.base sector.size = true) .protectedRegion
  ops.eraseSector sectorId

/-- The `while` loop at the end of `boot_flash_program_aligned`. Every round advances `offset`, so
`data.length` rounds are enough. -/
def verifyLoop (address : ℕ) (data : List UInt8) : ℕ → ℕ → Prog σ BootFlashError Unit
  | 0, _ => pure ()
  | fuel + 1, offset =>
    if offset < data.length then do
      let chunk := min (data.length - offset) bootFlashVerifyChunk
      let verify ← bootFlashRead ops (address + offset) chunk
      .check (verify = (data.drop offset).take chunk) .verify
      verifyLoop address data fuel (offset + chunk)
    else
      pure ()

/-- `boot_flash_program_aligned`. -/
def bootFlashProgramAligned (flash : BootFlash) (address : ℕ) (data : List UInt8) :
    Prog σ BootFlashError Unit :=
  if data.length = 0 then
    pure ()
  else do
    .check (address &&& (flash.programAlignment - 1) = 0 ∧
      data.length &&& (flash.programAlignment - 1) = 0) .alignment
    .check (rangeInBounds Layout.flashBase Layout.flashEnd address data.length = true) .outOfBounds
    .check (rangeIsWriteAllowed flash address data.length = true) .protectedRegion
    ops.program address data
    verifyLoop ops address data data.length 0

end Operations

/-- The checks in front of a read. -/
theorem wp_bootFlashRead {σ : Type} {ops : BootFlashOps σ} {s : σ} {address length : ℕ}
    {Q : List UInt8 → σ → Prop} {E : BootFlashError → σ → Prop} {C : σ → Prop}
    (hbase : Layout.flashBase ≤ address) (hend : address + length ≤ Layout.flashEnd)
    (hlen : 0 < length) (h : wp (ops.read address length) s Q E C) :
    wp (bootFlashRead ops address length) s Q E C := by
  rw [bootFlashRead]
  simp only [wp_bind, wp_check]
  have hin := rangeInBounds_iff.mpr ⟨hbase, hend⟩
  refine ⟨fun _ => ?_, fun hn => absurd hin hn⟩
  rw [if_neg (by omega)]
  exact h

/-- The checks in front of an erase: a refused one fails and touches nothing. -/
theorem wp_bootFlashEraseSector {σ : Type} {ops : BootFlashOps σ} {s : σ} {flash : BootFlash}
    {sectorId : ℕ} {Q : Unit → σ → Prop} {E : BootFlashError → σ → Prop} {C : σ → Prop}
    (herr : ∀ e, E e s)
    (h : ∀ sector, bootFlashSectors[sectorId]? = some sector →
      (∃ r ∈ flash.writeRegions, r.base ≤ sector.base ∧ sector.endAddr ≤ r.endAddr) →
      wp (ops.eraseSector sectorId) s Q E C) :
    wp (bootFlashEraseSector ops flash sectorId) s Q E C := by
  rw [bootFlashEraseSector, bootFlashSectorById]
  simp only [wp_bind, wp_check, wp_ofExcept]
  refine ⟨fun sector hs => ⟨fun hw => ?_, fun _ => herr _⟩, fun e _ => herr e⟩
  cases hsec : bootFlashSectors[sectorId]? with
  | none => rw [hsec] at hs; cases hs
  | some sector' =>
    rw [hsec] at hs
    obtain rfl : sector' = sector := by simpa using hs
    exact h sector' hsec (rangeIsWriteAllowed_iff.mp hw)

end Stm32SecurityLab
