import Mathlib.Tactic.Common

/-!
# The flash layout of the STM32F429IGT6 profile

The generated constants of `firmware/common/stm32f429_memory_layout.h`, the sector table of
`boot_flash.c` and the slot table of `boot_slot.c`. The one-megabyte profile is the only one the
bootloader builds with (`boot_flash.c` asserts it), so the constants are literals here.

```
08000000  Stage 0           sectors 0-1
08008000  metadata copy A   sector  2
0800C000  metadata copy B   sector  3
08010000  update metadata   sector  4
08020000  slot A            sectors 5-7
08080000  slot B            sectors 8-10
080E0000  recovery          sector  11
```

Addresses and sizes are natural numbers. The places where the C code could wrap a 32-bit address
are explicit checks in `boot_flash.c` and are modelled as such there; the values below are far
away from `2 ^ 32`.
-/

namespace Stm32SecurityLab

/-! ### Constants -/

namespace Layout

def flashBase : ℕ := 0x08000000
def flashTotalSize : ℕ := 0x00100000
def flashEnd : ℕ := 0x08100000
def flashSectorCount : ℕ := 12

def bootloaderBase : ℕ := 0x08000000
def bootloaderEnd : ℕ := 0x08008000

def bootMetadataFormatVersion : UInt32 := 1
def bootMetadataRecordSize : ℕ := 0x80

def bootMetadataABase : ℕ := 0x08008000
def bootMetadataAEnd : ℕ := 0x0800C000
def bootMetadataAFirstSector : ℕ := 2

def bootMetadataBBase : ℕ := 0x0800C000
def bootMetadataBEnd : ℕ := 0x08010000
def bootMetadataBFirstSector : ℕ := 3

def updateMetadataBase : ℕ := 0x08010000
def updateMetadataEnd : ℕ := 0x08020000

def slotASignedImageBase : ℕ := 0x08020000
def slotAEnd : ℕ := 0x08080000
def slotBSignedImageBase : ℕ := 0x08080000
def slotBEnd : ℕ := 0x080E0000
def slotPayloadMaxSize : ℕ := 0x0005FE00

def recoveryBase : ℕ := 0x080E0000
def recoveryEnd : ℕ := 0x08100000

def signedManifestSize : ℕ := 0x60
def signedSignatureSize : ℕ := 0x40
def signedImageHeaderSize : ℕ := 0x200

def applicationMinSize : ℕ := 8
def applicationMspBase : UInt32 := 0x20000000
def applicationMspEnd : UInt32 := 0x20020000
def applicationMspAlignment : UInt32 := 8
def signedImageFlagsAllowedMask : UInt32 := 0

end Layout

/-- `UINT32_MAX`. -/
def uint32Max : ℕ := 0xFFFFFFFF

/-- `SIZE_MAX`: `size_t` has 32 bits on the target. -/
def sizeMax : ℕ := 0xFFFFFFFF

/-! ### Sectors -/

/-- `boot_flash_sector_t`. The bank number is 1 for all twelve sectors and is read by nothing. -/
structure BootFlashSector where
  base : ℕ
  size : ℕ
  deriving DecidableEq, Repr

/-- One past the last byte of a sector. -/
def BootFlashSector.endAddr (s : BootFlashSector) : ℕ := s.base + s.size

/-- The table `boot_flash_sectors`, indexed by sector id. -/
def bootFlashSectors : List BootFlashSector :=
  [⟨0x08000000, 0x4000⟩, ⟨0x08004000, 0x4000⟩, ⟨0x08008000, 0x4000⟩, ⟨0x0800C000, 0x4000⟩,
    ⟨0x08010000, 0x10000⟩, ⟨0x08020000, 0x20000⟩, ⟨0x08040000, 0x20000⟩, ⟨0x08060000, 0x20000⟩,
    ⟨0x08080000, 0x20000⟩, ⟨0x080A0000, 0x20000⟩, ⟨0x080C0000, 0x20000⟩, ⟨0x080E0000, 0x20000⟩]

/-! ### Slots -/

/-- `boot_slot_id_t`. -/
inductive BootSlotId where
  | a
  | b
  deriving DecidableEq, Repr

/-- The value of a slot id in a metadata record. -/
def BootSlotId.toUInt32 : BootSlotId → UInt32
  | .a => 0
  | .b => 1

/-- The other slot of the pair. -/
def BootSlotId.other : BootSlotId → BootSlotId
  | .a => .b
  | .b => .a

/-- `BOOT_SLOT_NONE`. -/
def bootSlotNone : UInt32 := 0xFFFFFFFF

/-- `boot_slot_descriptor_t`. -/
structure BootSlotDescriptor where
  id : BootSlotId
  signedImageBase : ℕ
  manifestAddress : ℕ
  signatureAddress : ℕ
  payloadBase : ℕ
  slotEnd : ℕ
  maximumPayloadSize : ℕ
  firstSector : ℕ
  lastSector : ℕ
  deriving DecidableEq, Repr

/-- The table `boot_slots`. -/
def bootSlots : BootSlotId → BootSlotDescriptor
  | .a =>
    { id := .a
      signedImageBase := 0x08020000
      manifestAddress := 0x08020000
      signatureAddress := 0x08020060
      payloadBase := 0x08020200
      slotEnd := 0x08080000
      maximumPayloadSize := Layout.slotPayloadMaxSize
      firstSector := 5
      lastSector := 7 }
  | .b =>
    { id := .b
      signedImageBase := 0x08080000
      manifestAddress := 0x08080000
      signatureAddress := 0x08080060
      payloadBase := 0x08080200
      slotEnd := 0x080E0000
      maximumPayloadSize := Layout.slotPayloadMaxSize
      firstSector := 8
      lastSector := 10 }

/-- `boot_slot_lookup`. -/
def bootSlotLookup (slotId : UInt32) : Option BootSlotDescriptor :=
  if slotId = BootSlotId.a.toUInt32 then some (bootSlots .a)
  else if slotId = BootSlotId.b.toUInt32 then some (bootSlots .b)
  else none

@[simp] theorem bootSlots_id (s : BootSlotId) : (bootSlots s).id = s := by cases s <;> rfl

@[simp] theorem bootSlotLookup_toUInt32 (s : BootSlotId) :
    bootSlotLookup s.toUInt32 = some (bootSlots s) := by cases s <;> rfl

@[simp] theorem bootSlotLookup_none : bootSlotLookup bootSlotNone = none := rfl

theorem eq_of_bootSlotLookup {v : UInt32} {d : BootSlotDescriptor} (h : bootSlotLookup v = some d) :
    ∃ s : BootSlotId, v = s.toUInt32 ∧ d = bootSlots s := by
  rw [bootSlotLookup] at h
  split at h
  · exact ⟨.a, by assumption, (Option.some.inj h).symm⟩
  · split at h
    · exact ⟨.b, by assumption, (Option.some.inj h).symm⟩
    · cases h

@[simp] theorem BootSlotId.toUInt32_inj {s t : BootSlotId} : s.toUInt32 = t.toUInt32 ↔ s = t := by
  cases s <;> cases t <;> decide

@[simp] theorem BootSlotId.toUInt32_ne_none (s : BootSlotId) : s.toUInt32 ≠ bootSlotNone := by
  cases s <;> decide

@[simp] theorem BootSlotId.other_ne (s : BootSlotId) : s.other ≠ s := by cases s <;> decide

@[simp] theorem BootSlotId.ne_other (s : BootSlotId) : s ≠ s.other := by cases s <;> decide

theorem BootSlotId.eq_other_of_ne {s t : BootSlotId} (h : s ≠ t) : s = t.other := by
  cases s <;> cases t <;> first | rfl | exact absurd rfl h

end Stm32SecurityLab
