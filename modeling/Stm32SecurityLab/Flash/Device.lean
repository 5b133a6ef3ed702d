import Stm32SecurityLab.Flash.BootFlash
import Stm32SecurityLab.Metadata.Record

/-!
# The flash device

The backend of `boot_flash_target.c`: a flash that erases whole sectors to `0xFF` and programs
bytes in address order, where programming can only clear bits.

Anything can go wrong with an operation, and the device carries the list of what will: one
`Verdict` for each operation that reaches it, consumed in order, with everything past the end of
the list succeeding. An operation can be carried out, can report failure after doing some of its
work, or can lose power after doing some of its work. Failures to unlock, to lock again and to
become ready in time are all reported failures with a suitable amount of work done.

The device also keeps a log of the erase and program operations that reached it, whatever became
of them. The log is not part of the hardware: it is what confinement theorems are about.

## Main definitions

* `Device`, `Verdict`, `Damage`
* `targetOps` — the backend
* `Device.Touches`, `Device.Extends` — the operations logged and the bytes left alone, as one frame
  relation

## Main results

* `wp_bootFlashProgramAligned`, `wp_eraseSector` — memory after each operation
* `steps_bootFlashProgramAligned`, `steps_bootFlashEraseSector` — their frames
* `quiet_bootFlashProgramAligned`, `quiet_bootFlashEraseSector` — an undisturbed device succeeds
-/

namespace Stm32SecurityLab

open Crash

/-! ### Memory under erase and program -/

/-- Every byte of the sector is `0xFF`. -/
def eraseMem (m : Mem) (sector : BootFlashSector) : Mem := fun x =>
  if sector.base ≤ x ∧ x < sector.endAddr then 0xFF else m x

/-- Programming clears the bits that are zero in the data. -/
def programMem (m : Mem) (address : ℕ) (data : List UInt8) : Mem := fun x =>
  if address ≤ x ∧ x < address + data.length then m x &&& byteAt data (x - address) else m x

theorem eraseMem_of_mem {m : Mem} {sector : BootFlashSector} {x : ℕ} (h₁ : sector.base ≤ x)
    (h₂ : x < sector.endAddr) : eraseMem m sector x = 0xFF := if_pos ⟨h₁, h₂⟩

theorem eraseMem_of_not_mem {m : Mem} {sector : BootFlashSector} {x : ℕ}
    (h : ¬ (sector.base ≤ x ∧ x < sector.endAddr)) : eraseMem m sector x = m x := if_neg h

theorem programMem_of_not_mem {m : Mem} {address : ℕ} {data : List UInt8} {x : ℕ}
    (h : ¬ (address ≤ x ∧ x < address + data.length)) : programMem m address data x = m x :=
  if_neg h

@[simp] theorem programMem_nil (m : Mem) (address : ℕ) : programMem m address [] = m := by
  funext x
  exact programMem_of_not_mem (by simp)

theorem and_ff (b : UInt8) : 0xFF &&& b = b := by
  apply UInt8.eq_of_toBitVec_eq
  rw [UInt8.toBitVec_and]
  exact BitVec.allOnes_and

/-- On erased memory the data is what ends up in the flash. -/
theorem programMem_erased {m : Mem} {address : ℕ} {data : List UInt8}
    (h : ∀ x, address ≤ x → x < address + data.length → m x = 0xFF) {x : ℕ}
    (h₁ : address ≤ x) (h₂ : x < address + data.length) :
    programMem m address data x = byteAt data (x - address) := by
  rw [programMem, if_pos ⟨h₁, h₂⟩, h x h₁ h₂, and_ff]

theorem slice_programMem_erased {m : Mem} {address : ℕ} {data : List UInt8}
    (h : ∀ x, address ≤ x → x < address + data.length → m x = 0xFF) :
    slice (programMem m address data) address data.length = data := by
  rw [slice_eq_iff]
  intro i hi
  rw [programMem_erased h (by omega) (by omega), Nat.add_sub_cancel_left, byteAt_of_lt hi]

/-! ### Faults -/

/-- Contents from which neither metadata copy decodes. -/
def Unreadable (g : Mem) : Prop :=
  ∀ base ∈ [Layout.bootMetadataABase, Layout.bootMetadataBBase], ∀ r,
    bootMetadataDecode (slice g base Layout.bootMetadataRecordSize) ≠ .ok r

/-- What an erase that was not completed leaves in its sector. A torn sector holds anything at
all, except a metadata record. -/
inductive SectorDamage where
  | unchanged
  | erased
  | torn (contents : Mem) (h : Unreadable contents)

/-- How much of an operation happened before it went wrong: the number of bytes of a program
operation, and the sector contents of an erase. -/
structure Damage where
  bytes : ℕ
  sector : SectorDamage

/-- What becomes of one operation. -/
inductive Verdict where
  /-- It is carried out. -/
  | ok
  /-- It reports failure. -/
  | fail (d : Damage)
  /-- The power goes. -/
  | cut (d : Damage)

def SectorDamage.apply (m : Mem) (sector : BootFlashSector) : SectorDamage → Mem
  | .unchanged => m
  | .erased => eraseMem m sector
  | .torn contents _ => fun x =>
    if sector.base ≤ x ∧ x < sector.endAddr then contents x else m x

theorem SectorDamage.apply_of_not_mem {m : Mem} {sector : BootFlashSector} {x : ℕ}
    (h : ¬ (sector.base ≤ x ∧ x < sector.endAddr)) (d : SectorDamage) :
    d.apply m sector x = m x := by
  cases d with
  | unchanged => rfl
  | erased => exact eraseMem_of_not_mem h
  | torn contents hc => exact if_neg h

/-! ### The device -/

/-- An operation that reached the backend. -/
inductive FlashOp where
  | erase (sector : BootFlashSector)
  | program (address length : ℕ)
  deriving DecidableEq, Repr

def FlashOp.base : FlashOp → ℕ
  | .erase sector => sector.base
  | .program address _ => address

def FlashOp.endAddr : FlashOp → ℕ
  | .erase sector => sector.endAddr
  | .program address length => address + length

/-- The operation lies inside one write region of the handle. -/
def FlashOp.Within (op : FlashOp) (flash : BootFlash) : Prop :=
  ∃ r ∈ flash.writeRegions, r.base ≤ op.base ∧ op.endAddr ≤ r.endAddr

/-- The flash, what will go wrong with it, and what has been done to it. -/
structure Device where
  mem : Mem
  script : List Verdict
  log : List FlashOp

namespace Device

/-- Nothing will go wrong. -/
def Quiet (d : Device) : Prop := d.script = []

/-- Take the next verdict. -/
def verdict : Prog Device BootFlashError Verdict := fun d =>
  match d.script with
  | [] => .ret .ok d
  | v :: vs => .ret v { d with script := vs }

/-- Log an operation and carry out as much of it as the next verdict says. -/
def operate (op : FlashOp) (full : Mem → Mem) (damaged : Damage → Mem → Mem) :
    Prog Device BootFlashError Unit := do
  .modify fun d => { d with log := d.log ++ [op] }
  match ← verdict with
  | .ok => .modify fun d => { d with mem := full d.mem }
  | .fail damage => do
    .modify fun d => { d with mem := damaged damage d.mem }
    .fail .backend
  | .cut damage => do
    .modify fun d => { d with mem := damaged damage d.mem }
    .cut

end Device

/-- `target_range_is_flash`. -/
def targetRangeIsFlash (address length : ℕ) : Bool :=
  if address < Layout.flashBase ∨ address > Layout.flashEnd ∨ length > Layout.flashTotalSize then
    false
  else
    decide (length ≤ Layout.flashEnd - address)

/-- `target_read`. -/
def targetRead (address length : ℕ) : Prog Device BootFlashError (List UInt8) := do
  .check (targetRangeIsFlash address length = true) .backend
  if length = 0 then
    pure []
  else
    match ← Device.verdict with
    | .ok => do
      let d ← .get
      pure (slice d.mem address length)
    | .fail _ => .fail .backend
    | .cut _ => .cut

/-- `target_erase_sector`. -/
def targetEraseSector (sectorId : ℕ) : Prog Device BootFlashError Unit :=
  match bootFlashSectors[sectorId]? with
  | none => .fail .backend
  | some sector =>
    Device.operate (.erase sector) (fun m => eraseMem m sector)
      fun damage m => damage.sector.apply m sector

/-- `target_program`. -/
def targetProgram (address : ℕ) (data : List UInt8) : Prog Device BootFlashError Unit := do
  .check (data.length ≠ 0 ∧ targetRangeIsFlash address data.length = true) .backend
  Device.operate (.program address data.length) (fun m => programMem m address data)
    fun damage m => programMem m address (data.take damage.bytes)

/-- `writable_ops`. -/
def targetOps : BootFlashOps Device where
  read := targetRead
  eraseSector := targetEraseSector
  program := targetProgram

/-- `BOOT_FLASH_TARGET_PROGRAM_ALIGNMENT`. -/
def bootFlashTargetProgramAlignment : ℕ := 1

/-- The table `metadata_write_regions`. -/
def metadataWriteRegions : List BootFlashRegion :=
  [⟨Layout.bootMetadataABase, Layout.bootMetadataAEnd⟩,
    ⟨Layout.bootMetadataBBase, Layout.bootMetadataBEnd⟩]

theorem bootFlashTargetProgramAlignment_pow : isPowerOfTwo bootFlashTargetProgramAlignment = true :=
  rfl

theorem metadataWriteRegions_valid : ∀ r ∈ metadataWriteRegions, r.IsValid := by
  decide

/-- `boot_flash_target_init_metadata`, with the RAM functions linked where they should be. -/
def bootFlashTargetInitMetadata : Except BootFlashError BootFlash :=
  bootFlashInit metadataWriteRegions bootFlashTargetProgramAlignment

/-- The handle `boot_flash_target_init` makes. -/
def updateModeFlash : BootFlash :=
  ⟨bootFlashTargetProgramAlignment, [], bootFlashTargetProgramAlignment_pow,
    BootFlashRegion.isValid_nil⟩

theorem targetRangeIsFlash_of_mem {address length : ℕ} (h₁ : Layout.flashBase ≤ address)
    (h₂ : address + length ≤ Layout.flashEnd) : targetRangeIsFlash address length = true := by
  have hb : Layout.flashEnd = Layout.flashBase + Layout.flashTotalSize := by decide
  rw [targetRangeIsFlash]
  rw [if_neg (by omega)]
  exact decide_eq_true (by omega)

/-! ### The frame relation -/

/-- The log grew by operations that all satisfy `R`, and the bytes none of them covers are
unchanged. -/
abbrev Device.Touches (R : FlashOp → Prop) (d d' : Device) : Prop :=
  ∃ ops, d'.log = d.log ++ ops ∧ (∀ op ∈ ops, R op) ∧
    ∀ x, (∀ op ∈ ops, ¬ (op.base ≤ x ∧ x < op.endAddr)) → d'.mem x = d.mem x

/-- The device was touched, and if it was undisturbed it still is. -/
structure Device.Extends (R : FlashOp → Prop) (d d' : Device) : Prop where
  log : d.Touches R d'
  quiet : d.Quiet → d'.Quiet

variable {R : FlashOp → Prop}

theorem Device.Touches.trans {d d' d'' : Device} (h : d.Touches R d') (h' : d'.Touches R d'') :
    d.Touches R d'' := by
  obtain ⟨ops, hlog, hR, hmem⟩ := h
  obtain ⟨ops', hlog', hR', hmem'⟩ := h'
  refine ⟨ops ++ ops', by rw [hlog', hlog, List.append_assoc], fun op hop => ?_, fun x hx => ?_⟩
  · exact (List.mem_append.mp hop).elim (hR op) (hR' op)
  · rw [hmem' x fun op hop => hx op (List.mem_append_right ops hop),
      hmem x fun op hop => hx op (List.mem_append_left ops' hop)]

theorem Device.Touches.mono {R' : FlashOp → Prop} {d d' : Device} (h : d.Touches R d')
    (hR : ∀ op, R op → R' op) : d.Touches R' d' := by
  obtain ⟨ops, hlog, hops, hmem⟩ := h
  exact ⟨ops, hlog, fun op hop => hR op (hops op hop), hmem⟩

instance : Std.Refl (Device.Extends R) where
  refl d := ⟨⟨[], by simp⟩, id⟩

instance : IsTrans Device (Device.Extends R) where
  trans _ _ _ h h' := ⟨h.log.trans h'.log, fun hq => h'.quiet (h.quiet hq)⟩

theorem Device.Extends.mono {R' : FlashOp → Prop} {d d' : Device} (h : d.Extends R d')
    (hR : ∀ op, R op → R' op) : d.Extends R' d' :=
  ⟨h.log.mono hR, h.quiet⟩

/-- Bytes that no admissible operation covers are unchanged. -/
theorem Device.Extends.mem_eq {d d' : Device} (h : d.Extends R d') {x : ℕ}
    (hx : ∀ op, R op → ¬ (op.base ≤ x ∧ x < op.endAddr)) : d'.mem x = d.mem x := by
  obtain ⟨ops, -, hR, hmem⟩ := h.log
  exact hmem x fun op hop => hx op (hR op hop)

/-- Nothing was done to the flash at all. -/
theorem Device.Extends.eq_of_false {d d' : Device} (h : d.Extends (fun _ => False) d') :
    d'.mem = d.mem ∧ d'.log = d.log := by
  obtain ⟨ops, hlog, hR, hmem⟩ := h.log
  obtain rfl : ops = [] := List.eq_nil_iff_forall_not_mem.mpr hR
  exact ⟨funext fun x => hmem x (by simp), by simpa using hlog⟩

/-! ### Specifications of the backend -/

theorem wp_verdict {d : Device} {Q : Verdict → Device → Prop} {E : BootFlashError → Device → Prop}
    {C : Device → Prop} (hnil : d.Quiet → Q .ok d)
    (hcons : ∀ v vs, d.script = v :: vs → Q v { d with script := vs }) :
    wp Device.verdict d Q E C := by
  rw [wp, Device.verdict]
  cases hs : d.script with
  | nil => exact hnil hs
  | cons v vs => exact hcons v vs hs

/-- An operation is carried out, or it is not and the device was disturbed. -/
theorem wp_operate {d : Device} {op : FlashOp} {full : Mem → Mem} {damaged : Damage → Mem → Mem}
    {Q : Unit → Device → Prop} {E : BootFlashError → Device → Prop} {C : Device → Prop}
    (hret : ∀ vs, (d.Quiet → vs = []) → Q () ⟨full d.mem, vs, d.log ++ [op]⟩)
    (herr : ∀ damage vs, ¬ d.Quiet → E .backend ⟨damaged damage d.mem, vs, d.log ++ [op]⟩)
    (hcut : ∀ damage vs, ¬ d.Quiet → C ⟨damaged damage d.mem, vs, d.log ++ [op]⟩) :
    wp (Device.operate op full damaged) d Q E C := by
  rw [Device.operate]
  simp only [wp_bind, wp_modify]
  refine wp_verdict (fun hq => ?_) fun v vs hs => ?_
  · simpa [Device.Quiet] using hret d.script id
  · have hn : ¬ d.Quiet := by simpa [Device.Quiet] using (by rw [hs]; simp : d.script ≠ [])
    cases v with
    | ok => exact hret vs fun h => absurd h hn
    | fail damage => exact herr damage vs hn
    | cut damage => exact hcut damage vs hn

/-- The frame of one operation. -/
theorem steps_operate {op : FlashOp} {full : Mem → Mem} {damaged : Damage → Mem → Mem} (hR : R op)
    (hfull : ∀ m x, ¬ (op.base ≤ x ∧ x < op.endAddr) → full m x = m x)
    (hdam : ∀ dm m x, ¬ (op.base ≤ x ∧ x < op.endAddr) → damaged dm m x = m x) :
    Steps (Device.Extends R) (Device.operate op full damaged) := by
  intro d
  refine wp_operate (fun vs hq => ?_) (fun dm vs hn => ?_) (fun dm vs hn => ?_)
  · exact ⟨⟨[op], rfl, by simpa using hR, fun x hx => hfull _ x (by simpa using hx)⟩, hq⟩
  all_goals
    exact ⟨⟨[op], rfl, by simpa using hR, fun x hx => hdam _ _ x (by simpa using hx)⟩,
      fun h => absurd h hn⟩

/-- A read returns the memory, or fails on a disturbed device. -/
theorem wp_targetRead {d : Device} {address length : ℕ} {Q : List UInt8 → Device → Prop}
    {E : BootFlashError → Device → Prop} {C : Device → Prop} (h₁ : Layout.flashBase ≤ address)
    (h₂ : address + length ≤ Layout.flashEnd) (h₃ : 0 < length)
    (hret : ∀ vs, (d.Quiet → vs = []) → Q (slice d.mem address length) { d with script := vs })
    (herr : ∀ vs, ¬ d.Quiet → E .backend { d with script := vs })
    (hcut : ∀ vs, ¬ d.Quiet → C { d with script := vs }) :
    wp (targetRead address length) d Q E C := by
  rw [targetRead]
  simp only [wp_bind, wp_check]
  refine ⟨fun _ => ?_, fun hn => absurd (targetRangeIsFlash_of_mem h₁ h₂) hn⟩
  rw [if_neg (by omega)]
  simp only [wp_bind]
  refine wp_verdict (fun hq => hret d.script id) fun v vs hs => ?_
  have hn : ¬ d.Quiet := by simpa [Device.Quiet] using (by rw [hs]; simp : d.script ≠ [])
  cases v with
  | ok => exact hret vs fun h => absurd h hn
  | fail damage => exact herr vs hn
  | cut damage => exact hcut vs hn

/-! ### Specifications of the access layer -/

theorem bootFlashRead_spec {d : Device} {address length : ℕ} {Q : List UInt8 → Device → Prop}
    {E : BootFlashError → Device → Prop} {C : Device → Prop} (h₁ : Layout.flashBase ≤ address)
    (h₂ : address + length ≤ Layout.flashEnd) (h₃ : 0 < length)
    (hret : ∀ vs, (d.Quiet → vs = []) → Q (slice d.mem address length) { d with script := vs })
    (herr : ∀ e vs, ¬ d.Quiet → E e { d with script := vs })
    (hcut : ∀ vs, ¬ d.Quiet → C { d with script := vs }) :
    wp (bootFlashRead targetOps address length) d Q E C :=
  wp_bootFlashRead h₁ h₂ h₃ (wp_targetRead h₁ h₂ h₃ hret (herr _) hcut)

/-- Reads leave the flash alone, whatever they are asked for. -/
theorem steps_bootFlashRead (address length : ℕ) :
    Steps (Device.Extends R) (bootFlashRead targetOps address length) := by
  intro d
  rw [StepsFrom, bootFlashRead]
  simp only [wp_bind, wp_check]
  have hself : ∀ vs, (d.Quiet → vs = []) → d.Extends R { d with script := vs } :=
    fun vs hvs => ⟨⟨[], by simp⟩, hvs⟩
  have hd : d.Extends R d := hself d.script id
  refine ⟨fun hin => ?_, fun _ => hd⟩
  split
  · exact hd
  · rename_i hlen
    obtain ⟨h₁, h₂⟩ := rangeInBounds_iff.mp hin
    exact wp_targetRead h₁ h₂ (by omega) hself (fun vs hn => hself vs fun h => absurd h hn)
      (fun vs hn => hself vs fun h => absurd h hn)

/-- **Erasing a sector.** -/
theorem bootFlashEraseSector_spec {d : Device} {flash : BootFlash} {sectorId : ℕ}
    {sector : BootFlashSector} (hs : bootFlashSectors[sectorId]? = some sector) :
    wp (bootFlashEraseSector targetOps flash sectorId) d
      (fun _ d' => d'.mem = eraseMem d.mem sector)
      (fun _ d' => ∃ dm : SectorDamage, d'.mem = dm.apply d.mem sector)
      (fun d' => ∃ dm : SectorDamage, d'.mem = dm.apply d.mem sector) := by
  refine wp_bootFlashEraseSector (fun e => ⟨.unchanged, rfl⟩) fun sector' hs' _ => ?_
  change wp (targetEraseSector sectorId) d _ _ _
  rw [targetEraseSector]
  rw [hs]
  exact wp_operate (fun vs _ => rfl) (fun dm vs _ => ⟨dm.sector, rfl⟩)
    (fun dm vs _ => ⟨dm.sector, rfl⟩)

theorem steps_bootFlashEraseSector {flash : BootFlash} {sectorId : ℕ}
    (hR : ∀ sector, bootFlashSectors[sectorId]? = some sector →
      (FlashOp.erase sector).Within flash → R (.erase sector)) :
    Steps (Device.Extends R) (bootFlashEraseSector targetOps flash sectorId) := by
  intro d
  refine wp_bootFlashEraseSector (fun e => Std.Refl.refl d) fun sector hs hw => ?_
  change wp (targetEraseSector sectorId) d _ _ _
  rw [targetEraseSector]
  rw [hs]
  refine steps_operate (hR sector hs hw) (fun m x hx => eraseMem_of_not_mem hx)
    (fun dm m x hx => dm.sector.apply_of_not_mem hx) d

theorem quiet_bootFlashEraseSector {d : Device} {flash : BootFlash} {sectorId : ℕ}
    {sector : BootFlashSector} (hq : d.Quiet) (hs : bootFlashSectors[sectorId]? = some sector)
    (hw : (FlashOp.erase sector).Within flash) :
    Returns (bootFlashEraseSector targetOps flash sectorId) d := by
  rw [Returns, bootFlashEraseSector, bootFlashSectorById]
  rw [hs]
  simp only [wp_bind, wp_check, wp_ofExcept, Except.ok.injEq, reduceCtorEq, false_implies,
    implies_true, and_true, forall_eq']
  refine ⟨fun _ => ?_, fun hn => hn (rangeIsWriteAllowed_iff.mpr hw)⟩
  change wp (targetEraseSector sectorId) d _ _ _
  rw [targetEraseSector]
  rw [hs]
  exact wp_operate (fun _ _ => trivial) (fun _ _ hn => hn hq) (fun _ _ hn => hn hq)

/-! ### Programming -/

/-- The readback loop reads every byte that is left. It refuses a difference, and on an
undisturbed device that is all it refuses. -/
theorem verifyLoop_spec {address : ℕ} {data : List UInt8} (h₁ : Layout.flashBase ≤ address)
    (h₂ : address + data.length ≤ Layout.flashEnd) {fuel offset : ℕ} {d : Device}
    (hfuel : data.length - offset ≤ fuel) :
    wp (verifyLoop targetOps address data fuel offset) d
      (fun _ _ => ∀ i, offset ≤ i → i < data.length → d.mem (address + i) = byteAt data i)
      (fun _ _ => d.Quiet → ¬ ∀ i < data.length, d.mem (address + i) = byteAt data i)
      (fun _ => ¬ d.Quiet) := by
  induction fuel generalizing offset d with
  | zero =>
    intro i hi hlt
    omega
  | succ fuel ih =>
    rw [verifyLoop]
    split
    · rename_i hlt
      obtain ⟨chunk, hchunk⟩ : ∃ chunk, chunk = min (data.length - offset) bootFlashVerifyChunk :=
        ⟨_, rfl⟩
      have hpos : 0 < chunk := by rw [hchunk, bootFlashVerifyChunk]; omega
      have hle : offset + chunk ≤ data.length := by omega
      simp only [wp_bind, wp_check, ← hchunk]
      have hread := slice_eq_chunk_iff (p := d.mem) (a := address) hle
      refine bootFlashRead_spec (by omega) (by omega) hpos (fun vs hvs => ⟨fun heq => ?_, ?_⟩)
        (fun e vs hn hq => absurd hq hn) (fun vs hn => hn)
      · refine (ih (by omega)).mono (fun _ _ hrest i hi hi' => ?_) (fun _ _ herr hq => herr (hvs hq))
          (fun _ hcut hq => hcut (hvs hq))
        rcases Nat.lt_or_ge i (offset + chunk) with hin | hout
        · exact hread.mp heq i hi hin
        · exact hrest i hout hi'
      · exact fun hne _ hall => hne (hread.mpr fun i _ hi' => hall i (by omega))
    · intro i hi hi'
      omega

theorem steps_verifyLoop (address : ℕ) (data : List UInt8) (fuel offset : ℕ) :
    Steps (Device.Extends R) (verifyLoop targetOps address data fuel offset) := by
  induction fuel generalizing offset with
  | zero => exact Steps.pure ()
  | succ fuel ih =>
    rw [verifyLoop]
    split
    · exact Steps.bind (steps_bootFlashRead _ _) fun _ =>
        Steps.bind (Steps.check _ _) fun _ => ih _
    · exact Steps.pure ()

theorem steps_bootFlashProgramAligned {flash : BootFlash} {address : ℕ} {data : List UInt8}
    (hR : (FlashOp.program address data.length).Within flash → R (.program address data.length)) :
    Steps (Device.Extends R) (bootFlashProgramAligned targetOps flash address data) := by
  rw [bootFlashProgramAligned]
  split
  · exact Steps.pure ()
  refine Steps.bind (Steps.check _ _) fun _ => Steps.bind (Steps.check _ _) fun _ => ?_
  intro d
  rw [StepsFrom]
  simp only [wp_bind, wp_check]
  refine ⟨fun hw => ?_, fun _ => Std.Refl.refl d⟩
  rw [← wp_bind]
  refine Steps.bind (?_ : Steps (Device.Extends R) (targetProgram address data))
    (fun _ => steps_verifyLoop address data data.length 0) d
  refine Steps.bind (Steps.check _ _) fun _ => ?_
  refine steps_operate (hR (rangeIsWriteAllowed_iff.mp hw)) (fun m x hx => programMem_of_not_mem hx)
    fun dm m x hx => programMem_of_not_mem fun hx' => hx ⟨hx'.1, ?_⟩
  exact Nat.lt_of_lt_of_le hx'.2 (Nat.add_le_add_left (List.length_take_le' dm.bytes data) address)

/-- **Programming a range.** Success means that the range reads back as the data. -/
theorem bootFlashProgramAligned_spec {d : Device} {flash : BootFlash} {address : ℕ}
    {data : List UInt8} :
    wp (bootFlashProgramAligned targetOps flash address data) d
      (fun _ d' => d'.mem = programMem d.mem address data ∧
        slice d'.mem address data.length = data)
      (fun _ d' => ∃ k, d'.mem = programMem d.mem address (data.take k))
      (fun d' => ∃ k, d'.mem = programMem d.mem address (data.take k)) := by
  have hnone : ∃ k, d.mem = programMem d.mem address (data.take k) := ⟨0, by simp⟩
  rw [bootFlashProgramAligned]
  split
  · rename_i hlen
    obtain rfl := List.length_eq_zero_iff.mp hlen
    exact ⟨(programMem_nil _ _).symm, rfl⟩
  simp only [wp_bind, wp_check]
  refine ⟨fun _ => ⟨fun hin => ⟨fun _ => ?_, fun _ => hnone⟩, fun _ => hnone⟩, fun _ => hnone⟩
  obtain ⟨h₁, h₂⟩ := rangeInBounds_iff.mp hin
  change wp (targetProgram address data) d _ _ _
  rw [targetProgram]
  simp only [wp_bind, wp_check]
  refine ⟨fun _ => ?_, fun _ => hnone⟩
  refine wp_operate (fun vs _ => ?_) (fun dm vs _ => ⟨dm.bytes, rfl⟩) (fun dm vs _ => ⟨dm.bytes, rfl⟩)
  have hfull : programMem d.mem address data = programMem d.mem address (data.take data.length) := by
    rw [List.take_length]
  refine ((verifyLoop_spec h₁ h₂ (Nat.sub_le data.length 0)).and
    (steps_verifyLoop (R := fun _ => False) address data data.length 0 _)).mono ?_ ?_ ?_
  · rintro _ d' ⟨hall, hext⟩
    rw [hext.eq_of_false.1]
    refine ⟨rfl, slice_eq_iff.mpr fun i hi => ?_⟩
    rw [← byteAt_of_lt hi]
    exact hall i (Nat.zero_le i) hi
  · rintro _ d' ⟨-, hext⟩
    exact ⟨data.length, hext.eq_of_false.1.trans hfull⟩
  · rintro d' ⟨-, hext⟩
    exact ⟨data.length, hext.eq_of_false.1.trans hfull⟩

/-- On an undisturbed device an aligned range of erased flash can be programmed. -/
theorem quiet_bootFlashProgramAligned {d : Device} {flash : BootFlash} {address : ℕ}
    {data : List UInt8} (hq : d.Quiet) (ha : flash.programAlignment ∣ address)
    (hl : flash.programAlignment ∣ data.length)
    (hw : (FlashOp.program address data.length).Within flash)
    (hff : ∀ x, address ≤ x → x < address + data.length → d.mem x = 0xFF) :
    Returns (bootFlashProgramAligned targetOps flash address data) d := by
  rw [Returns, bootFlashProgramAligned]
  split
  · trivial
  rename_i hlen
  obtain ⟨r, hr, hr₁, hr₂⟩ := hw
  obtain ⟨-, hv₁, hv₂⟩ := flash.regions_valid r hr
  have h₁ : Layout.flashBase ≤ address := Nat.le_trans hv₁ hr₁
  have h₂ : address + data.length ≤ Layout.flashEnd := Nat.le_trans hr₂ hv₂
  have hin := rangeInBounds_iff.mpr ⟨h₁, h₂⟩
  have hallow := rangeIsWriteAllowed_iff.mpr ⟨r, hr, hr₁, hr₂⟩
  simp only [wp_bind, wp_check]
  refine ⟨fun _ => ⟨fun _ => ⟨fun _ => ?_, fun hn => hn hallow⟩, fun hn => hn hin⟩,
    fun hn => hn ⟨(flash.aligned_iff _).mpr ha, (flash.aligned_iff _).mpr hl⟩⟩
  change wp (targetProgram address data) d _ _ _
  rw [targetProgram]
  simp only [wp_bind, wp_check]
  refine ⟨fun _ => ?_, fun hn => hn ⟨hlen, targetRangeIsFlash_of_mem h₁ h₂⟩⟩
  refine wp_operate (fun vs hvs => ?_) (fun _ _ hn => hn hq) (fun _ _ hn => hn hq)
  refine (verifyLoop_spec h₁ h₂ (Nat.sub_le data.length 0)).mono (fun _ _ _ => trivial)
    (fun _ _ herr => herr (hvs hq) fun i hi => ?_) (fun _ hcut => hcut (hvs hq))
  change programMem d.mem address data (address + i) = byteAt data i
  rw [programMem_erased hff (by omega) (by omega), Nat.add_sub_cancel_left]

end Stm32SecurityLab
