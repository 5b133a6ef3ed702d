import Stm32SecurityLab.Crash.Logged
import Stm32SecurityLab.Flash.BootFlash

/-!
# What the flash access layer asks of its backend

`boot_flash.c` stands between the bootloader and the flash driver. This file records every call
that it makes of the driver and says which calls those are, for any driver at all: one that
fails, that reads back something else, or that loses power half way.

A program operation that passes the checks makes one `program` call for the whole range and then
reads the range back in order, chunk by chunk. Every other program operation makes no call. The
same holds of an erase, where the range is that of the sector.

## Main definitions

* `BackendCall`, `BootFlashOps.logged` — a backend that records its calls
* `InWriteRegion` — what the layer asks of a range
* `ReadBack` — the reads of the verify loop up to an offset

## Main results

* `projects_bootFlashProgramAligned`, `projects_bootFlashEraseSector` — recording is invisible
* `wp_verifyLoop` — the verify loop reads the rest of the range, in order and once
* `bootFlash_confined` — the access layer
-/

namespace Stm32SecurityLab

open Crash

/-- A call of one of the functions of `boot_flash_ops_t`. A read shows what it returned, if it
returned. -/
inductive BackendCall where
  | read (address length : ℕ) (result : Option (List UInt8))
  | eraseSector (sectorId : ℕ)
  | program (address : ℕ) (data : List UInt8)
  deriving DecidableEq, Repr

namespace BackendCall

/-- The addresses that a call reads. -/
def readAddresses : BackendCall → List ℕ
  | .read address length _ => List.range' address length
  | .eraseSector _ => []
  | .program _ _ => []

/-- The bytes that a call read back. -/
def readBytes : BackendCall → List UInt8
  | .read _ _ result => result.getD []
  | .eraseSector _ => []
  | .program _ _ => []

/-- The call is a read. -/
def IsRead (call : BackendCall) : Prop :=
  ∃ address length result, call = .read address length result

end BackendCall

/-- The backend `ops`, recording its calls. -/
def BootFlashOps.logged {σ : Type} (ops : BootFlashOps σ) :
    BootFlashOps (σ × List BackendCall) where
  read address length := (ops.read address length).logged (.read address length)
  eraseSector sectorId := (ops.eraseSector sectorId).logged fun _ => .eraseSector sectorId
  program address data := (ops.program address data).logged fun _ => .program address data

section Projects

variable {σ : Type} (ops : BootFlashOps σ)

theorem projects_bootFlashRead (address length : ℕ) :
    Projects Prod.fst (bootFlashRead ops.logged address length)
      (bootFlashRead ops address length) := by
  rw [bootFlashRead, bootFlashRead]
  exact (Projects.check _ _).bind fun _ => (Projects.pure _).ite (Projects.logged _ _)

theorem projects_verifyLoop (address : ℕ) (data : List UInt8) (fuel offset : ℕ) :
    Projects Prod.fst (verifyLoop ops.logged address data fuel offset)
      (verifyLoop ops address data fuel offset) := by
  induction fuel generalizing offset with
  | zero => exact Projects.pure ()
  | succ fuel ih =>
    rw [verifyLoop, verifyLoop]
    refine Projects.ite ?_ (Projects.pure ())
    exact (projects_bootFlashRead ops _ _).bind fun _ => (Projects.check _ _).bind fun _ => ih _

theorem projects_bootFlashProgramAligned (flash : BootFlash) (address : ℕ) (data : List UInt8) :
    Projects Prod.fst (bootFlashProgramAligned ops.logged flash address data)
      (bootFlashProgramAligned ops flash address data) := by
  rw [bootFlashProgramAligned, bootFlashProgramAligned]
  refine (Projects.pure ()).ite ?_
  refine (Projects.check _ _).bind fun _ => (Projects.check _ _).bind fun _ => ?_
  refine (Projects.check _ _).bind fun _ => ?_
  refine Projects.bind ?_ fun _ => ?_
  · exact Projects.logged (fun _ => BackendCall.program address data) (ops.program address data)
  · exact projects_verifyLoop ops address data data.length 0

theorem projects_bootFlashEraseSector (flash : BootFlash) (sectorId : ℕ) :
    Projects Prod.fst (bootFlashEraseSector ops.logged flash sectorId)
      (bootFlashEraseSector ops flash sectorId) := by
  rw [bootFlashEraseSector, bootFlashEraseSector]
  refine (Projects.ofExcept _).bind fun _ => (Projects.check _ _).bind fun _ => ?_
  exact Projects.logged (fun _ => BackendCall.eraseSector sectorId) (ops.eraseSector sectorId)

end Projects

/-! ### The verify loop -/

/-- The calls read `data` back from `address` up to `offset`: reads only, each byte once and in
order, and what they returned is the data. -/
structure ReadBack (address : ℕ) (data : List UInt8) (offset : ℕ) (calls : List BackendCall) :
    Prop where
  reads : ∀ call ∈ calls, call.IsRead
  addresses : calls.flatMap BackendCall.readAddresses = List.range' address offset
  bytes : calls.flatMap BackendCall.readBytes = data.take offset

/-- The calls read a part of a range of `length` bytes from its beginning on, each byte once and
in order. -/
structure ReadsWithin (address length : ℕ) (calls : List BackendCall) : Prop where
  reads : ∀ call ∈ calls, call.IsRead
  addresses : calls.flatMap BackendCall.readAddresses <+: List.range' address length

theorem ReadBack.nil {address : ℕ} {data : List UInt8} : ReadBack address data 0 [] :=
  ⟨fun _ h => absurd h List.not_mem_nil, rfl, rfl⟩

section Verify

variable {address : ℕ} {data : List UInt8} {offset chunk : ℕ} {calls : List BackendCall}

theorem ReadBack.reads_snoc (h : ReadBack address data offset calls)
    (result : Option (List UInt8)) :
    ∀ call ∈ calls ++ [BackendCall.read (address + offset) chunk result], call.IsRead := by
  intro call hcall
  rcases List.mem_append.mp hcall with hold | hnew
  · exact h.reads call hold
  · exact ⟨_, _, _, List.mem_singleton.mp hnew⟩

theorem ReadBack.addresses_snoc (h : ReadBack address data offset calls)
    (result : Option (List UInt8)) :
    (calls ++ [BackendCall.read (address + offset) chunk result]).flatMap BackendCall.readAddresses =
      List.range' address (offset + chunk) := by
  rw [List.flatMap_append, h.addresses, List.flatMap_singleton]
  exact List.range'_append_1

/-- One more chunk, read back as it should be. -/
theorem ReadBack.snoc (h : ReadBack address data offset calls) :
    ReadBack address data (offset + chunk)
      (calls ++ [BackendCall.read (address + offset) chunk (some ((data.drop offset).take chunk))]) where
  reads := h.reads_snoc _
  addresses := h.addresses_snoc _
  bytes := by
    rw [List.flatMap_append, h.bytes, List.flatMap_singleton, List.take_add]
    rfl

/-- One more chunk, whatever it read back. -/
theorem ReadBack.within_snoc (h : ReadBack address data offset calls)
    (hle : offset + chunk ≤ data.length) (result : Option (List UInt8)) :
    ReadsWithin address data.length (calls ++ [BackendCall.read (address + offset) chunk result]) where
  reads := h.reads_snoc result
  addresses := by
    rw [h.addresses_snoc]
    refine ⟨List.range' (address + (offset + chunk)) (data.length - (offset + chunk)), ?_⟩
    rw [List.range'_append_1, Nat.add_sub_cancel' hle]

end Verify

/-- The verify loop inside the flash: it reads what is left of the range, and it returns only
when all of it has been read back as the data. -/
theorem wp_verifyLoop {σ : Type} (ops : BootFlashOps σ) {address : ℕ} {data : List UInt8}
    (h₁ : Layout.flashBase ≤ address) (h₂ : address + data.length ≤ Layout.flashEnd)
    (before : List BackendCall) {fuel offset : ℕ} {s : σ} {calls : List BackendCall}
    (hfuel : data.length ≤ offset + fuel) (hoff : offset ≤ data.length)
    (hcalls : ReadBack address data offset calls) :
    wp (verifyLoop ops.logged address data fuel offset) (s, before ++ calls)
      (fun _ s' => ∃ reads, s'.2 = before ++ reads ∧ ReadBack address data data.length reads)
      (fun _ s' => ∃ reads, s'.2 = before ++ reads ∧ ReadsWithin address data.length reads)
      (fun s' => ∃ reads, s'.2 = before ++ reads ∧ ReadsWithin address data.length reads) := by
  induction fuel generalizing offset s calls with
  | zero =>
    obtain rfl : offset = data.length := by omega
    exact ⟨calls, rfl, hcalls⟩
  | succ fuel ih =>
    rw [verifyLoop]
    by_cases hlt : offset < data.length
    · rw [if_pos hlt]
      obtain ⟨chunk, hchunk⟩ : ∃ chunk, chunk = min (data.length - offset) bootFlashVerifyChunk :=
        ⟨_, rfl⟩
      have hpos : 0 < chunk := by rw [hchunk, bootFlashVerifyChunk]; omega
      have hle : offset + chunk ≤ data.length := by omega
      simp only [wp_bind, wp_check, ← hchunk]
      refine wp_bootFlashRead (by omega) (by omega) hpos ?_
      show wp ((ops.read (address + offset) chunk).logged _) (s, before ++ calls) _ _ _
      rw [wp_logged]
      refine wp_of_outcome (fun verify s' _ => ⟨fun heq => ?_, fun _ => ?_⟩) (fun e s' _ => ?_)
        (fun s' _ => ?_)
      · rw [List.append_assoc, heq]
        exact ih (by omega) hle hcalls.snoc
      · exact ⟨_, List.append_assoc _ _ _, hcalls.within_snoc hle _⟩
      · exact ⟨_, List.append_assoc _ _ _, hcalls.within_snoc hle _⟩
      · exact ⟨_, List.append_assoc _ _ _, hcalls.within_snoc hle _⟩
    · rw [if_neg hlt]
      obtain rfl : offset = data.length := by omega
      exact ⟨calls, rfl, hcalls⟩

/-! ### The three operations -/

/-- The whole range lies inside a single write region, and inside the flash. -/
def InWriteRegion (writeRegions : List BootFlashRegion) (address length : ℕ) : Prop :=
  Layout.flashBase ≤ address ∧ address + length ≤ Layout.flashEnd ∧
    ∃ region ∈ writeRegions, region.base ≤ address ∧ address + length ≤ region.endAddr

/-- What `boot_flash_init` keeps of its arguments. -/
theorem bootFlashInit_fields {writeRegions : List BootFlashRegion} {programAlignment : ℕ}
    {flash : BootFlash} (h : bootFlashInit writeRegions programAlignment = .ok flash) :
    flash.writeRegions = writeRegions ∧ flash.programAlignment = programAlignment := by
  rw [bootFlashInit] at h
  split at h
  · split at h
    · obtain rfl := Except.ok.inj h
      exact ⟨rfl, rfl⟩
    · cases h
  · cases h

theorem inWriteRegion_iff {flash : BootFlash} {address length : ℕ} :
    InWriteRegion flash.writeRegions address length ↔
      rangeIsWriteAllowed flash address length = true := by
  rw [rangeIsWriteAllowed_iff]
  constructor
  · rintro ⟨-, -, h⟩
    exact h
  · rintro ⟨region, hmem, hbase, hend⟩
    obtain ⟨-, hlow, hhigh⟩ := flash.regions_valid region hmem
    exact ⟨hlow.trans hbase, hend.trans hhigh, region, hmem, hbase, hend⟩

/-- Every sector begins and ends on a multiple of the smallest sector size. -/
theorem sector_aligned {sectorId : ℕ} {sector : BootFlashSector}
    (h : bootFlashSectors[sectorId]? = some sector) :
    0x4000 ∣ sector.base ∧ 0x4000 ∣ sector.size := by
  have hall : ∀ s ∈ bootFlashSectors, 0x4000 ∣ s.base ∧ 0x4000 ∣ s.size := by decide
  exact hall sector (List.mem_of_getElem? h)

/-- A program alignment that is not larger than a sector divides the sectors. -/
theorem BootFlash.alignment_dvd_sector (flash : BootFlash) (h : flash.programAlignment ≤ 0x4000) :
    flash.programAlignment ∣ 0x4000 := by
  have hp := flash.alignment_pow
  simp only [isPowerOfTwo, Bool.and_eq_true, bne_iff_ne, beq_iff_eq] at hp
  obtain ⟨k, hk⟩ := Nat.ne_zero_and_sub_one_eq_zero_iff_isPowerOfTwo.mp hp
  rw [hk] at h ⊢
  exact Nat.pow_dvd_pow 2 ((Nat.pow_le_pow_iff_right (m := 14) Nat.one_lt_two).mp h)

section Operations

variable {σ : Type} (ops : BootFlashOps σ) (flash : BootFlash) (s : σ)

/-- A program operation that passes the checks: one `program` call, and then the readback. -/
theorem wp_bootFlashProgramAligned {address : ℕ} {data : List UInt8} (hdata : data ≠ [])
    (hin : InWriteRegion flash.writeRegions address data.length)
    (haddress : flash.programAlignment ∣ address) (hlength : flash.programAlignment ∣ data.length) :
    wp (bootFlashProgramAligned ops.logged flash address data) (s, [])
      (fun _ s' => ∃ reads, s'.2 = .program address data :: reads ∧
        ReadBack address data data.length reads)
      (fun _ s' => ∃ reads, s'.2 = .program address data :: reads ∧
        ReadsWithin address data.length reads)
      (fun s' => ∃ reads, s'.2 = .program address data :: reads ∧
        ReadsWithin address data.length reads) := by
  have hne : data.length ≠ 0 := fun h => hdata (List.length_eq_zero_iff.mp h)
  have hmask := And.intro ((flash.aligned_iff address).mpr haddress)
    ((flash.aligned_iff data.length).mpr hlength)
  have hbounds := rangeInBounds_iff.mpr ⟨hin.1, hin.2.1⟩
  have hallowed := inWriteRegion_iff.mp hin
  have hnone : ReadsWithin address data.length [] :=
    ⟨fun _ h => absurd h List.not_mem_nil, List.nil_prefix⟩
  rw [bootFlashProgramAligned, if_neg hne]
  simp only [wp_bind, wp_check]
  refine ⟨fun _ => ⟨fun _ => ⟨fun _ => ?_, fun h => absurd hallowed h⟩, fun h => absurd hbounds h⟩,
    fun h => absurd hmask h⟩
  change wp ((ops.program address data).logged fun _ => BackendCall.program address data) _ _ _ _
  rw [wp_logged]
  refine wp_of_outcome (fun _ s' _ => ?_) (fun e s' _ => ⟨[], rfl, hnone⟩)
    (fun s' _ => ⟨[], rfl, hnone⟩)
  exact wp_verifyLoop ops hin.1 hin.2.1 [.program address data] (by omega) (Nat.zero_le _)
    ReadBack.nil

/-- Any other program operation, if it has anything to program, fails without a call. -/
theorem bootFlashProgramAligned_refused {address : ℕ} {data : List UInt8} (hdata : data ≠ [])
    (hrefused : ¬ (InWriteRegion flash.writeRegions address data.length ∧
      flash.programAlignment ∣ address ∧ flash.programAlignment ∣ data.length)) :
    ∃ e, bootFlashProgramAligned ops flash address data s = .err e s := by
  have hne : data.length ≠ 0 := fun h => hdata (List.length_eq_zero_iff.mp h)
  have hwp : wp (bootFlashProgramAligned ops flash address data) s (fun _ _ => False)
      (fun _ s' => s' = s) fun _ => False := by
    rw [bootFlashProgramAligned, if_neg hne]
    simp only [wp_bind, wp_check]
    refine ⟨fun hmask => ⟨fun _ => ⟨fun hallowed => ?_, fun _ => trivial⟩, fun _ => trivial⟩,
      fun _ => trivial⟩
    exact absurd ⟨inWriteRegion_iff.mpr hallowed, (flash.aligned_iff address).mp hmask.1,
      (flash.aligned_iff data.length).mp hmask.2⟩ hrefused
  cases hrun : bootFlashProgramAligned ops flash address data s with
  | ret a s' => exact (hwp.ret hrun).elim
  | err e s' =>
    obtain rfl := hwp.err hrun
    exact ⟨e, rfl⟩
  | cut s' => exact (hwp.cut hrun).elim

/-- The erase of a sector that may be written is the erase of the backend. -/
theorem bootFlashEraseSector_allowed {sectorId : ℕ} {sector : BootFlashSector}
    (hsector : bootFlashSectors[sectorId]? = some sector)
    (hin : InWriteRegion flash.writeRegions sector.base sector.size) :
    bootFlashEraseSector ops flash sectorId s = ops.eraseSector sectorId s := by
  rw [bootFlashEraseSector, bootFlashSectorById, hsector]
  change (Prog.check (rangeIsWriteAllowed flash sector.base sector.size = true) _ >>= fun _ =>
    ops.eraseSector sectorId) s = _
  rw [Prog.check, if_pos (inWriteRegion_iff.mp hin)]
  rfl

/-- Any other erase fails without a call. -/
theorem bootFlashEraseSector_refused {sectorId : ℕ}
    (hrefused : ∀ sector, bootFlashSectors[sectorId]? = some sector →
      ¬ InWriteRegion flash.writeRegions sector.base sector.size) :
    ∃ e, bootFlashEraseSector ops flash sectorId s = .err e s := by
  rw [bootFlashEraseSector, bootFlashSectorById]
  cases hsector : bootFlashSectors[sectorId]? with
  | none => exact ⟨_, rfl⟩
  | some sector =>
    have hno := mt inWriteRegion_iff.mpr (hrefused sector hsector)
    refine ⟨.protectedRegion, ?_⟩
    change (Prog.check (rangeIsWriteAllowed flash sector.base sector.size = true) _ >>= fun _ =>
      ops.eraseSector sectorId) s = _
    rw [Prog.check, if_neg hno]
    rfl

end Operations

/-! ### The access layer -/

section Specification

variable {σ : Type} (ops : BootFlashOps σ) (writeRegions : List BootFlashRegion)
  (programAlignment : ℕ) (flash : BootFlash) (s : σ)

/-- What a program operation asks of the backend. -/
structure ProgramConfined (address : ℕ) (data : List UInt8) : Prop where
  /-- The recorded operation is the operation. -/
  recorded : Projects Prod.fst (bootFlashProgramAligned ops.logged flash address data)
    (bootFlashProgramAligned ops flash address data)
  /-- With nothing to program, nothing is asked. -/
  empty : data = [] →
    bootFlashProgramAligned ops.logged flash address data (s, []) = .ret () (s, [])
  /-- An aligned range inside a write region is programmed once and read back. The operation
  returns only when the whole range has read back as the data. -/
  allowed : data ≠ [] → InWriteRegion writeRegions address data.length →
    programAlignment ∣ address → programAlignment ∣ data.length →
    wp (bootFlashProgramAligned ops.logged flash address data) (s, [])
      (fun _ s' => ∃ reads, s'.2 = .program address data :: reads ∧
        ReadBack address data data.length reads)
      (fun _ s' => ∃ reads, s'.2 = .program address data :: reads ∧
        ReadsWithin address data.length reads)
      (fun s' => ∃ reads, s'.2 = .program address data :: reads ∧
        ReadsWithin address data.length reads)
  /-- Any other range fails, and nothing is asked. -/
  refused : data ≠ [] → ¬ (InWriteRegion writeRegions address data.length ∧
      programAlignment ∣ address ∧ programAlignment ∣ data.length) →
    ∃ e, bootFlashProgramAligned ops.logged flash address data (s, []) = .err e (s, [])

/-- What an erase asks of the backend. -/
structure EraseConfined (sectorId : ℕ) : Prop where
  /-- The recorded operation is the operation. -/
  recorded : Projects Prod.fst (bootFlashEraseSector ops.logged flash sectorId)
    (bootFlashEraseSector ops flash sectorId)
  /-- A sector inside a write region is erased, and the backend says how that ends. -/
  allowed : ∀ sector, bootFlashSectors[sectorId]? = some sector →
    InWriteRegion writeRegions sector.base sector.size →
    bootFlashEraseSector ops flash sectorId s = ops.eraseSector sectorId s ∧
    (bootFlashEraseSector ops.logged flash sectorId (s, [])).state.2 = [.eraseSector sectorId]
  /-- A sector is aligned, whatever program alignment up to its size is configured. -/
  aligned : ∀ sector, bootFlashSectors[sectorId]? = some sector → programAlignment ≤ 0x4000 →
    programAlignment ∣ sector.base ∧ programAlignment ∣ sector.size
  /-- Any other sector fails, and nothing is asked. -/
  refused : (∀ sector, bootFlashSectors[sectorId]? = some sector →
      ¬ InWriteRegion writeRegions sector.base sector.size) →
    ∃ e, bootFlashEraseSector ops.logged flash sectorId (s, []) = .err e (s, [])

end Specification

/-- **The access layer is confined and honest**, whatever the backend does. -/
theorem bootFlash_confined {writeRegions : List BootFlashRegion} {programAlignment : ℕ}
    {flash : BootFlash} (hinit : bootFlashInit writeRegions programAlignment = .ok flash)
    {σ : Type} (ops : BootFlashOps σ) (s : σ) :
    (∀ address data, ProgramConfined ops writeRegions programAlignment flash s address data) ∧
      ∀ sectorId, EraseConfined ops writeRegions programAlignment flash s sectorId := by
  obtain ⟨rfl, rfl⟩ := bootFlashInit_fields hinit
  refine ⟨fun address data => ?_, fun sectorId => ?_⟩
  · refine ⟨projects_bootFlashProgramAligned ops flash address data, ?_, ?_, ?_⟩
    · intro hnil
      rw [bootFlashProgramAligned, if_pos (List.length_eq_zero_iff.mpr hnil)]
      rfl
    · exact wp_bootFlashProgramAligned ops flash s
    · exact bootFlashProgramAligned_refused ops.logged flash (s, [])
  · refine ⟨projects_bootFlashEraseSector ops flash sectorId, ?_, ?_, ?_⟩
    · intro sector hsector hin
      refine ⟨bootFlashEraseSector_allowed ops flash s hsector hin, ?_⟩
      rw [bootFlashEraseSector_allowed ops.logged flash (s, []) hsector hin]
      exact state_logged (BackendCall.eraseSector sectorId) (ops.eraseSector sectorId) (s, [])
    · intro sector hsector hle
      obtain ⟨hbase, hsize⟩ := sector_aligned hsector
      have hdvd := flash.alignment_dvd_sector hle
      exact ⟨hdvd.trans hbase, hdvd.trans hsize⟩
    · exact bootFlashEraseSector_refused ops.logged flash (s, [])

/-- A backend whose flash is a function from addresses to bytes. -/
def memoryOps : BootFlashOps (ℕ → UInt8) where
  read address length := fun mem => .ret ((List.range' address length).map mem) mem
  eraseSector sectorId := fun mem =>
    match bootFlashSectors[sectorId]? with
    | none => .err .invalidArgument mem
    | some sector => .ret () fun x =>
      if sector.base ≤ x ∧ x < sector.base + sector.size then 0xFF else mem x
  program address data := fun mem => .ret () fun x =>
    if address ≤ x ∧ x < address + data.length then mem x &&& data.getD (x - address) 0xFF
    else mem x

/-- The layer in front of slot B: the first four bytes of the slot are programmed, the first four
of slot A are not, and neither is an odd address; the first sector of slot B is erased, that of
slot A is not. -/
theorem bootFlash_confined_slotB :
    ∃ flash, bootFlashInit [⟨0x08080000, 0x080E0000⟩] 4 = .ok flash ∧
      (∃ reads, (bootFlashProgramAligned memoryOps.logged flash 0x08080000 [1, 2, 3, 4]
          (fun _ => 0xFF, [])).state.2 = .program 0x08080000 [1, 2, 3, 4] :: reads) ∧
      (∃ e, bootFlashProgramAligned memoryOps.logged flash 0x08020000 [1, 2, 3, 4]
          (fun _ => 0xFF, []) = .err e (fun _ => 0xFF, [])) ∧
      (∃ e, bootFlashProgramAligned memoryOps.logged flash 0x08080001 [1, 2, 3, 4]
          (fun _ => 0xFF, []) = .err e (fun _ => 0xFF, [])) ∧
      (bootFlashEraseSector memoryOps.logged flash 8 (fun _ => 0xFF, [])).state.2 =
        [.eraseSector 8] ∧
      ∃ e, bootFlashEraseSector memoryOps.logged flash 5 (fun _ => 0xFF, []) =
        .err e (fun _ => 0xFF, []) := by
  obtain ⟨flash, hinit⟩ : ∃ flash, bootFlashInit [⟨0x08080000, 0x080E0000⟩] 4 = .ok flash :=
    ⟨_, rfl⟩
  obtain ⟨hprogram, herase⟩ := bootFlash_confined hinit memoryOps fun _ => 0xFF
  have hin : InWriteRegion [⟨0x08080000, 0x080E0000⟩] 0x08080000 4 :=
    ⟨by decide, by decide, _, List.mem_singleton_self _, by decide, by decide⟩
  have hout : ¬ InWriteRegion [⟨0x08080000, 0x080E0000⟩] 0x08020000 4 := by
    rintro ⟨-, -, region, hmem, hbase, -⟩
    obtain rfl := List.mem_singleton.mp hmem
    exact absurd hbase (by decide)
  refine ⟨flash, hinit, ?_, ?_, ?_, ?_, ?_⟩
  · have hwp := (hprogram 0x08080000 [1, 2, 3, 4]).allowed (by decide) hin (by decide) (by decide)
    refine (wp_state_iff (P := fun s' =>
      ∃ reads, s'.2 = .program 0x08080000 [1, 2, 3, 4] :: reads)).mp (hwp.mono ?_ ?_ ?_)
    · exact fun _ _ h => h.imp fun _ h => h.1
    · exact fun _ _ h => h.imp fun _ h => h.1
    · exact fun _ h => h.imp fun _ h => h.1
  · exact (hprogram 0x08020000 [1, 2, 3, 4]).refused (by decide) fun h => hout h.1
  · exact (hprogram 0x08080001 [1, 2, 3, 4]).refused (by decide) fun h => absurd h.2.1 (by decide)
  · exact ((herase 8).allowed ⟨0x08080000, 0x20000⟩ rfl
      ⟨by decide, by decide, _, List.mem_singleton_self _, by decide, by decide⟩).2
  · refine (herase 5).refused fun sector hsector hno => ?_
    obtain rfl : ⟨0x08020000, 0x20000⟩ = sector := Option.some.inj hsector
    obtain ⟨-, -, region, hmem, hbase, -⟩ := hno
    obtain rfl := List.mem_singleton.mp hmem
    exact absurd hbase (by decide)

/-- An empty program is accepted anywhere, at an odd address in front of the only write region
here. A sector is erased under a program alignment that it does not have. -/
theorem bootFlash_unaligned :
    (∃ flash, bootFlashInit [⟨0x08080000, 0x080E0000⟩] 4 = .ok flash ∧
      ¬ InWriteRegion [⟨0x08080000, 0x080E0000⟩] 0x08020001 0 ∧ ¬ 4 ∣ 0x08020001 ∧
      bootFlashProgramAligned memoryOps.logged flash 0x08020001 [] (fun _ => 0xFF, []) =
        .ret () (fun _ => 0xFF, [])) ∧
    ∃ flash, bootFlashInit [⟨0x08000000, 0x08100000⟩] 0x8000 = .ok flash ∧
      bootFlashSectors[1]? = some ⟨0x08004000, 0x4000⟩ ∧ ¬ 0x8000 ∣ 0x08004000 ∧
      (bootFlashEraseSector memoryOps.logged flash 1 (fun _ => 0xFF, [])).state.2 =
        [.eraseSector 1] := by
  refine ⟨⟨_, rfl, ?_, by decide, rfl⟩, _, rfl, rfl, by decide, rfl⟩
  rintro ⟨-, -, region, hmem, hbase, -⟩
  obtain rfl := List.mem_singleton.mp hmem
  exact absurd hbase (by decide)

end Stm32SecurityLab
