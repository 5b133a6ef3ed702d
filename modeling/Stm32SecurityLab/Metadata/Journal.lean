import Stm32SecurityLab.Crash.TwoCopy
import Stm32SecurityLab.Flash.Device

/-!
# The boot metadata journal

The half of `boot_metadata.c` that touches flash: recovery from the two copies, the commit of a
new record, and the rebuild used by the recovery bootstrap.

A record is written in three steps: erase the sector of the target copy, program the first 120
bytes, program the eight bytes of the commit marker. Nothing decodes without the last byte of the
marker, which is not `0xFF`, so between the erase and the very last byte the target copy does not
exist. `writeCopy_spec` says that much, and the rest is `TwoCopy`.

`journal m` is what `boot_metadata_recover_from_flash` returns on an undisturbed device with
contents `m`. Every later module speaks about metadata through it.

## Main definitions

* `bootMetadataRecover`, `bootMetadataRecoverFromFlash`, `bootMetadataCommit`,
  `bootMetadataReinitializeForRecovery`
* `journal`, `journalCurrent`

## Main results

* `writeCopy_spec` — the target copy is as it was, gone, or exactly the new record
* `bootMetadataCommit_spec` — the recovered record is the old one or exactly the new one
* `bootMetadataCommit_power_cut` — the same as one statement about every run
* `bootMetadataReinitializeForRecovery_spec`, `quiet_bootMetadataCommit`
-/

namespace Stm32SecurityLab

open Crash

/-! ### Recovery -/

/-- `boot_metadata_copy_t`. -/
inductive BootMetadataCopy where
  | none
  | a
  | b
  deriving DecidableEq, Repr

/-- `boot_metadata_recovery_t`; zero is what a cleared structure holds. -/
structure BootMetadataRecovery where
  copyAValid : Bool := false
  copyBValid : Bool := false
  selectedCopy : BootMetadataCopy := .none
  deriving DecidableEq, Repr

/-- `boot_metadata_recover`. Where the C function stores the empty record beside an error status,
the callers that go on take `bootMetadataEmpty`. -/
def bootMetadataRecover (copyA copyB : List UInt8) :
    BootMetadataRecovery × Except BootMetadataError BootMetadataRecord :=
  match bootMetadataDecode copyA, bootMetadataDecode copyB with
  | .error _, .error _ => (⟨false, false, .none⟩, .error .noValidCopy)
  | .ok a, .error _ => (⟨true, false, .a⟩, .ok a)
  | .error _, .ok b => (⟨false, true, .b⟩, .ok b)
  | .ok a, .ok b =>
    if a.sequence = b.sequence then
      if recordsAreEqual a b = false then
        (⟨true, true, .none⟩, .error .ambiguous)
      else
        (⟨true, true, .a⟩, .ok a)
    else if a.sequence > b.sequence then
      (⟨true, true, .a⟩, .ok a)
    else
      (⟨true, true, .b⟩, .ok b)

/-- `boot_metadata_recover_from_flash`. The status is a value because every caller looks at it. -/
def bootMetadataRecoverFromFlash {ε : Type} :
    Prog Device ε (BootMetadataRecovery × Except BootMetadataError BootMetadataRecord) := do
  match ← (bootFlashRead targetOps Layout.bootMetadataABase
      Layout.bootMetadataRecordSize).attempt with
  | .error _ => pure ({}, .error .flash)
  | .ok copyA =>
    match ← (bootFlashRead targetOps Layout.bootMetadataBBase
        Layout.bootMetadataRecordSize).attempt with
    | .error _ => pure ({}, .error .flash)
    | .ok copyB => pure (bootMetadataRecover copyA copyB)

/-- The two copies of `m`, recovered. -/
def recovered (m : Mem) : BootMetadataRecovery × Except BootMetadataError BootMetadataRecord :=
  bootMetadataRecover (slice m Layout.bootMetadataABase Layout.bootMetadataRecordSize)
    (slice m Layout.bootMetadataBBase Layout.bootMetadataRecordSize)

/-- What `boot_metadata_recover_from_flash` returns on an undisturbed device with contents `m`. -/
@[irreducible] def journal (m : Mem) : Except BootMetadataError BootMetadataRecord :=
  match (bootMetadataRecoverFromFlash : Prog Device Unit _) ⟨m, [], []⟩ with
  | .ret (_, status) _ => status
  | _ => .error .flash

/-- The record the next transition starts from. -/
def journalCurrent (m : Mem) : BootMetadataRecord :=
  match journal m with
  | .ok r => r
  | .error _ => bootMetadataEmpty

/-! ### Writing -/

/-- `write_copy`. -/
def writeCopy (flash : BootFlash) (copy : BootMetadataCopy) (record : BootMetadataRecord) :
    Prog Device BootMetadataError Unit := do
  let (base, sector) ← match copy with
    | .a => pure (Layout.bootMetadataABase, Layout.bootMetadataAFirstSector)
    | .b => pure (Layout.bootMetadataBBase, Layout.bootMetadataBFirstSector)
    | .none => .fail .invalidArgument
  let encoded ← Prog.ofExcept ((bootMetadataEncode record).mapError fun _ => .badFormat)
  (bootFlashEraseSector targetOps flash sector).mapErr fun _ => .flash
  (bootFlashProgramAligned targetOps flash base (encoded.take metadataCommitOffset)).mapErr
    fun _ => .flash
  (bootFlashProgramAligned targetOps flash (base + metadataCommitOffset)
    ((encoded.drop metadataCommitOffset).take metadataCommitSize)).mapErr fun _ => .flash

/-- The choice of the copy to overwrite in `boot_metadata_commit`. -/
def commitTarget (recovery : BootMetadataRecovery) : BootMetadataCopy :=
  if recovery.copyAValid = false ∧ recovery.copyBValid = false then .a
  else if recovery.copyAValid = false then .a
  else if recovery.copyBValid = false then .b
  else if recovery.selectedCopy = .a then .b
  else .a

/-- The record `boot_metadata_commit` validates the transition from. -/
def commitCurrent :
    Except BootMetadataError BootMetadataRecord → Except BootMetadataError BootMetadataRecord
  | .ok current => .ok current
  | .error .noValidCopy => .ok bootMetadataEmpty
  | .error e => .error e

/-- `boot_metadata_commit`. -/
def bootMetadataCommit (flash : BootFlash) (next : BootMetadataRecord) :
    Prog Device BootMetadataError Unit := do
  let (recovery, status) ← bootMetadataRecoverFromFlash
  let current ← .ofExcept (commitCurrent status)
  Prog.ofExcept (bootMetadataValidateTransition current next)
  writeCopy flash (commitTarget recovery) next

/-- `boot_metadata_reinitialize_for_recovery`. -/
def bootMetadataReinitializeForRecovery (flash : BootFlash) (next : BootMetadataRecord) :
    Prog Device BootMetadataError Unit := do
  .check (next.sequence = 1 ∧ next.state = .writing ∧ next.activeSlot = bootSlotNone ∧
    next.candidateSlot = BootSlotId.a.toUInt32 ∧
    bootMetadataValidateTransition bootMetadataEmpty next = .ok ()) .badTransition
  (bootFlashEraseSector targetOps flash Layout.bootMetadataAFirstSector).mapErr fun _ => .flash
  (bootFlashEraseSector targetOps flash Layout.bootMetadataBFirstSector).mapErr fun _ => .flash
  writeCopy flash .a next

/-! ### Reading -/

/-- Recovery returns what the two copies say, or `FLASH` on a disturbed device. -/
theorem bootMetadataRecoverFromFlash_spec {ε : Type} {d : Device}
    {Q : BootMetadataRecovery × Except BootMetadataError BootMetadataRecord → Device → Prop}
    {E : ε → Device → Prop} {C : Device → Prop}
    (hret : ∀ vs, (d.Quiet → vs = []) → Q (recovered d.mem) { d with script := vs })
    (herr : ∀ vs, ¬ d.Quiet → Q ({}, .error .flash) { d with script := vs })
    (hcut : ∀ vs, ¬ d.Quiet → C { d with script := vs }) :
    wp bootMetadataRecoverFromFlash d Q E C := by
  rw [bootMetadataRecoverFromFlash]
  simp only [wp_bind, wp_attempt]
  refine bootFlashRead_spec (by decide) (by decide) (by decide) (fun vs hvs => ?_)
    (fun e vs hn => herr vs hn) hcut
  refine bootFlashRead_spec (by decide) (by decide) (by decide) (fun vs' hvs' => ?_)
    (fun e vs' hn => herr vs' fun hq => hn (hvs hq)) (fun vs' hn => hcut vs' fun hq => hn (hvs hq))
  exact hret vs' fun hq => hvs' (hvs hq)

theorem journal_eq (m : Mem) : journal m = (recovered m).2 := by
  have h : wp (bootMetadataRecoverFromFlash : Prog Device Unit _) ⟨m, [], []⟩
      (fun r _ => r = recovered m) (fun _ _ => False) (fun _ => False) :=
    bootMetadataRecoverFromFlash_spec (fun _ _ => rfl) (fun _ hn => absurd rfl hn)
      (fun _ hn => hn rfl)
  rw [wp] at h
  rw [journal]
  split at h
  · rename_i r s hr
    rw [hr, ← h]
  · exact h.elim
  · exact h.elim

theorem steps_bootMetadataRecoverFromFlash {ε : Type} {R : FlashOp → Prop} :
    Steps (Device.Extends R) (bootMetadataRecoverFromFlash : Prog Device ε _) := by
  intro d
  refine bootMetadataRecoverFromFlash_spec (fun vs hvs => ?_) (fun vs hn => ?_) (fun vs hn => ?_)
  · exact ⟨⟨[], by simp⟩, hvs⟩
  all_goals exact ⟨⟨[], by simp⟩, fun hq => absurd hq hn⟩

/-! ### The two copies -/

open TwoCopy (Side)

/-- The sector of a copy. -/
def copySector : Side → BootFlashSector
  | .first => ⟨Layout.bootMetadataABase, 0x4000⟩
  | .second => ⟨Layout.bootMetadataBBase, 0x4000⟩

def copySectorId : Side → ℕ
  | .first => Layout.bootMetadataAFirstSector
  | .second => Layout.bootMetadataBFirstSector

def copyId : Side → BootMetadataCopy
  | .first => .a
  | .second => .b

theorem bootFlashSectors_copy (side : Side) :
    bootFlashSectors[copySectorId side]? = some (copySector side) := by
  cases side <;> rfl

/-- The records of the two copies. -/
def copies (m : Mem) : Side → Option BootMetadataRecord := fun side =>
  (bootMetadataDecode (slice m (copySector side).base Layout.bootMetadataRecordSize)).toOption

/-- The order of records is that of their sequence numbers. -/
def recordSeq (r : BootMetadataRecord) : ℕ := r.sequence.toNat

theorem toOption_eq_some {ε α : Type} {x : Except ε α} {a : α} :
    x.toOption = some a ↔ x = .ok a := by
  cases x <;> simp [Except.toOption]

theorem toOption_eq_none {ε α : Type} {x : Except ε α} :
    x.toOption = none ↔ ∀ a, x ≠ .ok a := by
  cases x <;> simp [Except.toOption]

/-- The firmware's recovery is `TwoCopy.read`, and its choice of a target is `TwoCopy.target`. -/
theorem recovered_eq (m : Mem) :
    (recovered m).2 = (match TwoCopy.read recordSeq (copies m) with
      | .empty => .error .noValidCopy
      | .conflict => .error .ambiguous
      | .value r => .ok r) ∧
    ((recovered m).2 ≠ .error .ambiguous →
      commitTarget (recovered m).1 = copyId (TwoCopy.target recordSeq (copies m))) := by
  have hfirst : (copySector .first).base = Layout.bootMetadataABase := rfl
  have hsecond : (copySector .second).base = Layout.bootMetadataBBase := rfl
  unfold recovered bootMetadataRecover TwoCopy.read TwoCopy.target copies
  rw [hfirst, hsecond]
  generalize bootMetadataDecode (slice m Layout.bootMetadataABase _) = x
  generalize bootMetadataDecode (slice m Layout.bootMetadataBBase _) = y
  cases x with
  | error e => cases y <;> exact ⟨rfl, fun _ => rfl⟩
  | ok a =>
    cases y with
    | error e => exact ⟨rfl, fun _ => rfl⟩
    | ok b =>
      simp only [Except.toOption, recordSeq, UInt32.toNat_inj, gt_iff_lt, UInt32.lt_iff_toNat_lt]
      by_cases heq : a.sequence = b.sequence
      · by_cases hab : a = b
        · subst hab
          simp [recordsAreEqual_iff.mpr, commitTarget, copyId]
        · have hne : recordsAreEqual a b = false := by
            rw [Bool.eq_false_iff]
            exact fun h => hab (recordsAreEqual_iff.mp h)
          simp [heq, hab, hne]
      · by_cases hlt : b.sequence.toNat < a.sequence.toNat
        · simp [heq, hlt, commitTarget, copyId, Nat.le_of_lt hlt]
        · have hge : ¬ b.sequence.toNat ≤ a.sequence.toNat := by
            intro hle
            exact heq (UInt32.toNat_inj.mp (by omega))
          simp [heq, hlt, commitTarget, copyId, hge]

theorem journal_eq_read (m : Mem) : journal m = (match TwoCopy.read recordSeq (copies m) with
      | .empty => .error .noValidCopy
      | .conflict => .error .ambiguous
      | .value r => .ok r) := by
  rw [journal_eq]
  exact (recovered_eq m).1

theorem journal_congr {m m' : Mem} (h : copies m' = copies m) : journal m' = journal m := by
  rw [journal_eq_read, journal_eq_read, h]

/-! ### Writing one copy -/

/-- Memory changed inside the sector of one copy only. -/
def OnlyCopy (side : Side) (m m' : Mem) : Prop :=
  ∀ x, ¬ ((copySector side).base ≤ x ∧ x < (copySector side).endAddr) → m' x = m x

/-- A write to one copy replaces that copy. -/
theorem OnlyCopy.copies_eq {side : Side} {m m' : Mem} (h : OnlyCopy side m m') :
    copies m' = Function.update (copies m) side (copies m' side) := by
  funext other
  by_cases hside : other = side
  · subst hside
    rw [Function.update_self]
  · rw [Function.update_of_ne hside]
    have : slice m' (copySector other).base Layout.bootMetadataRecordSize =
        slice m (copySector other).base Layout.bootMetadataRecordSize := by
      refine slice_congr fun x h₁ h₂ => h x ?_
      cases side <;> cases other <;> first
        | exact absurd rfl hside
        | (simp only [copySector, BootFlashSector.endAddr, Layout.bootMetadataABase,
            Layout.bootMetadataBBase, Layout.bootMetadataRecordSize] at *; omega)
    rw [copies, this, copies]

/-- With the last byte of the marker missing the copy does not exist. -/
theorem copies_eq_none {side : Side} {m : Mem} (h : m ((copySector side).base + 127) = 0xFF) :
    copies m side = none := by
  refine toOption_eq_none.mpr fun r => not_decode_of_marker (i := 7) (by decide) ?_
  rw [byteAt_slice (by decide), ← Nat.add_assoc]
  change m ((copySector side).base + 127) ≠ _
  rw [h]
  decide

theorem copies_eq_some {side : Side} {m : Mem} {r : BootMetadataRecord}
    (hr : stateRecordIsCanonical r = true)
    (h : slice m (copySector side).base Layout.bootMetadataRecordSize = encodedRecord r) :
    copies m side = some r := by
  rw [copies, h, bootMetadataDecode_encode hr]
  rfl

/-- An erase that has begun to take effect destroys the copy. -/
theorem copies_damaged (side : Side) (m : Mem) {dm : SectorDamage} (hdm : dm ≠ .unchanged) :
    copies (dm.apply m (copySector side)) side = none := by
  have hin : ∀ x, (copySector side).base ≤ x → x < (copySector side).base + 128 →
      (copySector side).base ≤ x ∧ x < (copySector side).endAddr := by
    intro x h₁ h₂
    have : (copySector side).endAddr = (copySector side).base + 0x4000 := by cases side <;> rfl
    omega
  cases dm with
  | unchanged => exact absurd rfl hdm
  | erased =>
    refine copies_eq_none ?_
    obtain ⟨h₁, h₂⟩ := hin ((copySector side).base + 127) (by omega) (by omega)
    exact eraseMem_of_mem h₁ h₂
  | torn contents hc =>
    refine toOption_eq_none.mpr fun r => ?_
    have : slice (SectorDamage.apply m (copySector side) (.torn contents hc))
        (copySector side).base Layout.bootMetadataRecordSize =
        slice contents (copySector side).base Layout.bootMetadataRecordSize :=
      slice_congr fun x h₁ h₂ => if_pos (hin x h₁ h₂)
    rw [this]
    exact hc _ (by cases side <;> simp [copySector]) r

/-- An erase that did not complete leaves the copy as it was or destroys it. -/
theorem copies_damage (side : Side) (m : Mem) (dm : SectorDamage) :
    copies (dm.apply m (copySector side)) side = copies m side ∨
      copies (dm.apply m (copySector side)) side = none := by
  cases dm with
  | unchanged => exact .inl rfl
  | erased => exact .inr (copies_damaged side m SectorDamage.noConfusion)
  | torn contents hc => exact .inr (copies_damaged side m SectorDamage.noConfusion)

/-- What an interrupted write to one copy may leave: the copy as it was, no copy, or the complete
new record. -/
def CopyTorn (side : Side) (next : BootMetadataRecord) (m m' : Mem) : Prop :=
  copies m' = copies m ∨ copies m' = Function.update (copies m) side none ∨
    copies m' = Function.update (copies m) side (some next)

/-- The operations `write_copy` performs. -/
def CopyOp (side : Side) (op : FlashOp) : Prop :=
  (copySector side).base ≤ op.base ∧ op.endAddr ≤ (copySector side).endAddr

theorem Device.Extends.onlyCopy {side : Side} {d d' : Device} (h : d.Extends (CopyOp side) d') :
    OnlyCopy side d.mem d'.mem := by
  intro x hx
  refine h.mem_eq fun op hop hcov => hx ?_
  obtain ⟨h₁, h₂⟩ := hop
  omega

/-- `write_copy` for a canonical record, with the target as a side. -/
theorem writeCopy_eq {flash : BootFlash} {next : BootMetadataRecord}
    (hn : stateRecordIsCanonical next = true) (side : Side) :
    writeCopy flash (copyId side) next = (do
      (bootFlashEraseSector targetOps flash (copySectorId side)).mapErr fun _ => .flash
      (bootFlashProgramAligned targetOps flash (copySector side).base
        ((encodedRecord next).take 120)).mapErr fun _ => .flash
      (bootFlashProgramAligned targetOps flash ((copySector side).base + 120)
        ((encodedRecord next).drop 120)).mapErr fun _ => .flash) := by
  have hdrop : ((encodedRecord next).drop metadataCommitOffset).take metadataCommitSize =
      (encodedRecord next).drop 120 :=
    List.take_of_length_le (by simp [metadataCommitSize, metadataCommitOffset])
  unfold writeCopy bootMetadataEncode
  rw [if_neg (by simp [hn])]
  cases side <;> simp only [copyId, Except.mapError] <;> rw [← hdrop] <;> rfl

theorem writeCopy_of_not_canonical {flash : BootFlash} {next : BootMetadataRecord}
    (hn : stateRecordIsCanonical next = false) (side : Side) :
    writeCopy flash (copyId side) next = .fail .badFormat := by
  unfold writeCopy bootMetadataEncode
  rw [if_pos hn]
  cases side <;> rfl

/-- The frame of `write_copy`. -/
theorem steps_writeCopy {flash : BootFlash} {next : BootMetadataRecord} {R : FlashOp → Prop}
    (side : Side) (hR : ∀ op, CopyOp side op → op.Within flash → R op) :
    Steps (Device.Extends R) (writeCopy flash (copyId side) next) := by
  by_cases hn : stateRecordIsCanonical next = true
  · rw [writeCopy_eq hn]
    have hend : (copySector side).endAddr = (copySector side).base + 0x4000 := by cases side <;> rfl
    refine Steps.bind (.mapErr (steps_bootFlashEraseSector fun sector hs hw => hR _ ?_ hw) _)
      fun _ => Steps.bind (.mapErr (steps_bootFlashProgramAligned (hR _ ?_)) _) fun _ =>
        .mapErr (steps_bootFlashProgramAligned (hR _ ?_)) _
    · rw [bootFlashSectors_copy] at hs
      cases hs
      exact ⟨Nat.le_refl _, Nat.le_refl _⟩
    · simp only [CopyOp, FlashOp.base, FlashOp.endAddr, List.length_take, encodedRecord_length]
      omega
    · simp only [CopyOp, FlashOp.base, FlashOp.endAddr, List.length_drop, encodedRecord_length]
      omega
  · rw [writeCopy_of_not_canonical (by simpa using hn)]
    exact Steps.fail _

/-- The body of the record is there, and the place of its commit marker is erased. -/
structure Unmarked (side : Side) (next : BootMetadataRecord) (m : Mem) : Prop where
  body : slice m (copySector side).base 120 = (encodedRecord next).take 120
  erased : ∀ x, (copySector side).base + 120 ≤ x → x < (copySector side).base + 128 → m x = 0xFF

namespace Unmarked

variable {side : Side} {next : BootMetadataRecord} {m : Mem}

/-- With its marker the copy is the record. -/
theorem marked (h : Unmarked side next m) (hn : stateRecordIsCanonical next = true) {k : ℕ}
    (hk : 8 ≤ k) : copies (programMem m ((copySector side).base + 120)
      (((encodedRecord next).drop 120).take k)) side = some next := by
  have hlength : ((encodedRecord next).drop 120).length = 8 := by simp
  have hmarker := @slice_programMem_erased m ((copySector side).base + 120)
    ((encodedRecord next).drop 120) fun x hx hx' => h.erased x hx (by omega)
  rw [hlength] at hmarker
  refine copies_eq_some hn ?_
  rw [List.take_of_length_le (by omega), show Layout.bootMetadataRecordSize = 120 + 8 from rfl,
    slice_add, slice_congr (q := m) fun x _ hx => programMem_of_not_mem (by omega), h.body, hmarker,
    List.take_append_drop]

/-- A marker that is cut short is no marker. -/
theorem marking (h : Unmarked side next m) (hn : stateRecordIsCanonical next = true) (k : ℕ) :
    copies (programMem m ((copySector side).base + 120)
        (((encodedRecord next).drop 120).take k)) side = none ∨
      copies (programMem m ((copySector side).base + 120)
        (((encodedRecord next).drop 120).take k)) side = some next := by
  rcases Nat.lt_or_ge k 8 with hk | hk
  · refine .inl (copies_eq_none ?_)
    have := List.length_take_le k ((encodedRecord next).drop 120)
    rw [programMem_of_not_mem (by omega), h.erased _ (by omega) (by omega)]
  · exact .inr (h.marked hn hk)

end Unmarked

/-- What each point of interruption leaves of the copy. -/
theorem writeCopy_copy {flash : BootFlash} {next : BootMetadataRecord} {d : Device} {side : Side}
    (hn : stateRecordIsCanonical next = true) :
    wp (writeCopy flash (copyId side) next) d
      (fun _ d' => copies d'.mem side = some next)
      (fun _ d' => copies d'.mem side = copies d.mem side ∨ copies d'.mem side = none ∨
        copies d'.mem side = some next)
      (fun d' => copies d'.mem side = copies d.mem side ∨ copies d'.mem side = none ∨
        copies d'.mem side = some next) := by
  have hend : (copySector side).endAddr = (copySector side).base + 0x4000 := by cases side <;> rfl
  have hbody : ((encodedRecord next).take 120).length = 120 := by simp
  have hmarker : ((encodedRecord next).drop 120).length = 8 := by simp
  rw [writeCopy_eq hn]
  simp only [wp_bind, wp_mapErr]
  refine (bootFlashEraseSector_spec (bootFlashSectors_copy side)).mono ?_ ?_ ?_
  rotate_left
  · rintro _ d₁ ⟨dm, h₁⟩
    rw [h₁]
    exact (copies_damage side d.mem dm).imp_right .inl
  · rintro d₁ ⟨dm, h₁⟩
    rw [h₁]
    exact (copies_damage side d.mem dm).imp_right .inl
  intro _ d₁ h₁
  have herased : ∀ x, (copySector side).base ≤ x → x < (copySector side).base + 128 →
      d₁.mem x = 0xFF := by
    intro x hx hx'
    rw [h₁]
    exact eraseMem_of_mem (by omega) (by omega)
  -- without a marker there is no copy, whatever there is of the body
  have hpart : ∀ k, copies (programMem d₁.mem (copySector side).base
      (((encodedRecord next).take 120).take k)) side = none := by
    intro k
    have := List.length_take_le' k ((encodedRecord next).take 120)
    refine copies_eq_none ?_
    rw [programMem_of_not_mem (by omega), herased _ (by omega) (by omega)]
  refine bootFlashProgramAligned_spec.mono ?_ ?_ ?_
  rotate_left
  · rintro _ d₂ ⟨k, h₂⟩
    rw [h₂]
    exact .inr (.inl (hpart k))
  · rintro d₂ ⟨k, h₂⟩
    rw [h₂]
    exact .inr (.inl (hpart k))
  rintro _ d₂ ⟨h₂, hread⟩
  have hunmarked : Unmarked side next d₂.mem := by
    refine ⟨?_, fun x hx hx' => ?_⟩
    · rw [← hread, hbody]
    · rw [h₂, programMem_of_not_mem (by omega), herased x (by omega) hx']
  refine bootFlashProgramAligned_spec.mono ?_ ?_ ?_
  · rintro _ d₃ ⟨h₃, -⟩
    rw [h₃, ← hunmarked.marked hn (Nat.le_refl 8), List.take_of_length_le (by omega)]
  · rintro _ d₃ ⟨k, h₃⟩
    rw [h₃]
    exact .inr (hunmarked.marking hn k)
  · rintro d₃ ⟨k, h₃⟩
    rw [h₃]
    exact .inr (hunmarked.marking hn k)

/-- Nothing but the copy has changed. -/
theorem copyTorn_of_copy {next : BootMetadataRecord} {d d' : Device} {side : Side}
    (hext : d.Extends (CopyOp side) d')
    (h : copies d'.mem side = copies d.mem side ∨ copies d'.mem side = none ∨
      copies d'.mem side = some next) : CopyTorn side next d.mem d'.mem := by
  rw [CopyTorn, hext.onlyCopy.copies_eq]
  rcases h with h | h | h
  · rw [h]
    exact .inl (Function.update_eq_self side (copies d.mem))
  · rw [h]
    exact .inr (.inl rfl)
  · rw [h]
    exact .inr (.inr rfl)

/-- **Writing a copy.** The target is as it was, gone, or exactly the new record, and the last of
these when the write succeeds. -/
theorem writeCopy_spec {flash : BootFlash} {next : BootMetadataRecord} {d : Device} {side : Side}
    (hn : stateRecordIsCanonical next = true) :
    wp (writeCopy flash (copyId side) next) d
      (fun _ d' => copies d'.mem = Function.update (copies d.mem) side (some next))
      (fun _ d' => CopyTorn side next d.mem d'.mem) (fun d' => CopyTorn side next d.mem d'.mem) := by
  have hframe : Steps (Device.Extends (CopyOp side)) (writeCopy flash (copyId side) next) :=
    steps_writeCopy side fun op h _ => h
  refine ((writeCopy_copy hn).and (hframe d)).mono ?_ (fun _ d' h => copyTorn_of_copy h.2 h.1)
    (fun d' h => copyTorn_of_copy h.2 h.1)
  rintro _ d' ⟨h, hext⟩
  rw [hext.onlyCopy.copies_eq, h]

/-! ### Committing -/

/-- The record `next` may follow the journal of `m`. -/
def MayFollow (m : Mem) (next : BootMetadataRecord) : Prop :=
  journal m ≠ .error .ambiguous ∧
    bootMetadataValidateTransition (journalCurrent m) next = .ok ()

/-- What a commit that did not report success leaves: nothing was done, or `next` was admissible
and the journal is as it was or holds exactly `next`. -/
def CommitTorn (next : BootMetadataRecord) (d d' : Device) : Prop :=
  (d'.mem = d.mem ∧ d'.log = d.log) ∨
    (MayFollow d.mem next ∧ (journal d'.mem = journal d.mem ∨ journal d'.mem = .ok next))

theorem CommitTorn.journal {next : BootMetadataRecord} {d d' : Device} (h : CommitTorn next d d') :
    journal d'.mem = journal d.mem ∨ (journal d'.mem = .ok next ∧ MayFollow d.mem next) := by
  rcases h with ⟨hmem, -⟩ | ⟨hm, h | h⟩
  · exact .inl (by rw [hmem])
  · exact .inl h
  · exact .inr ⟨h, hm⟩

/-- The checks an accepted transition has passed. -/
theorem bootMetadataValidateTransition_ok {current next : BootMetadataRecord}
    (h : bootMetadataValidateTransition current next = .ok ()) :
    next.sequence = current.sequence + 1 ∧ current.sequence ≠ 0xFFFFFFFF ∧
      stateRecordIsCanonical next = true ∧
      transitionStateAllowed current.state next.state = true ∧
      transitionFieldsAllowed current next = true := by
  rw [bootMetadataValidateTransition] at h
  split at h
  · cases h
  rename_i hseq
  split at h
  · cases h
  rename_i hcan
  split at h
  · cases h
  rename_i hstate
  split at h
  · cases h
  rename_i hfields
  simp only [not_or, not_not] at hseq
  exact ⟨hseq.2.2.2, hseq.2.2.1, by simpa using hcan, by simpa using hstate, by simpa using hfields⟩

theorem toNat_succ {v : UInt32} (h : v ≠ 0xFFFFFFFF) : (v + 1).toNat = v.toNat + 1 := by
  have hlt : v.toNat < 4294967296 := v.toNat_lt
  have hne : v.toNat ≠ 4294967295 := fun hv => h (UInt32.toNat_inj.mp hv)
  rw [UInt32.toNat_add]
  change (v.toNat + 1) % 4294967296 = _
  omega

theorem journalCurrent_of_ok {m : Mem} {r : BootMetadataRecord} (h : journal m = .ok r) :
    journalCurrent m = r := by
  rw [journalCurrent]
  rw [h]

theorem journalCurrent_of_error {m : Mem} {e : BootMetadataError} (h : journal m = .error e) :
    journalCurrent m = bootMetadataEmpty := by
  rw [journalCurrent]
  rw [h]

theorem read_of_journal {m : Mem} (h : journal m ≠ .error .ambiguous) :
    TwoCopy.read recordSeq (copies m) ≠ .conflict := by
  intro hc
  rw [journal_eq_read, hc] at h
  exact h rfl

theorem MayFollow.newer {m : Mem} {next r : BootMetadataRecord} (h : MayFollow m next)
    (hr : TwoCopy.read recordSeq (copies m) = .value r) : recordSeq r < recordSeq next := by
  obtain ⟨hseq, hmax, -⟩ := bootMetadataValidateTransition_ok h.2
  rw [journalCurrent_of_ok (r := r) (by rw [journal_eq_read, hr])] at hseq hmax
  unfold recordSeq
  rw [hseq, toNat_succ hmax]
  exact Nat.lt_succ_self _

/-- Completing the chosen copy is the update. -/
theorem MayFollow.journal_eq {m m' : Mem} {next : BootMetadataRecord} (h : MayFollow m next)
    (hm : copies m' =
      Function.update (copies m) (TwoCopy.target recordSeq (copies m)) (some next)) :
    journal m' = .ok next := by
  rw [journal_eq_read, hm, TwoCopy.read_update_some (read_of_journal h.1) fun r => h.newer]

/-- Overwriting the chosen copy: losing it keeps the journal, completing it is the update. -/
theorem MayFollow.journal_of_torn {m m' : Mem} {next : BootMetadataRecord} (h : MayFollow m next)
    (ht : CopyTorn (TwoCopy.target recordSeq (copies m)) next m m') :
    journal m' = journal m ∨ journal m' = .ok next := by
  rcases ht with ht | ht | ht
  · exact .inl (journal_congr ht)
  · refine .inl ?_
    rw [journal_eq_read, ht, TwoCopy.read_update_none (read_of_journal h.1), ← journal_eq_read]
  · exact .inr (h.journal_eq ht)

theorem commitCurrent_journal {m : Mem} {current : BootMetadataRecord}
    (h : commitCurrent (journal m) = .ok current) :
    journal m ≠ .error .ambiguous ∧ journalCurrent m = current := by
  rw [journalCurrent]
  cases hj : journal m with
  | ok r => rw [hj] at h; exact ⟨by simp, by simpa [commitCurrent] using h⟩
  | error e =>
    rw [hj] at h
    cases e <;> first
      | (cases h; done)
      | exact ⟨by simp, by simpa [commitCurrent] using h⟩

/-- **Committing a record.** Whatever happens, the journal is as it was or holds exactly an
admissible `next`; a refused commit does nothing at all. -/
theorem bootMetadataCommit_spec {flash : BootFlash} {next : BootMetadataRecord} {d : Device} :
    wp (bootMetadataCommit flash next) d
      (fun _ d' => journal d'.mem = .ok next ∧ MayFollow d.mem next)
      (fun _ d' => CommitTorn next d d') (fun d' => CommitTorn next d d') := by
  rw [bootMetadataCommit]
  simp only [wp_bind, wp_ofExcept]
  refine bootMetadataRecoverFromFlash_spec (fun vs _ => ?_) (fun vs _ => ?_)
    (fun vs _ => .inl ⟨rfl, rfl⟩)
  · refine ⟨fun current hcur => ⟨fun _ hval => ?_, fun _ _ => .inl ⟨rfl, rfl⟩⟩,
      fun _ _ => .inl ⟨rfl, rfl⟩⟩
    rw [← journal_eq] at hcur
    obtain ⟨hamb, hc⟩ := commitCurrent_journal hcur
    have hm : MayFollow d.mem next := ⟨hamb, by rw [hc, hval]⟩
    rw [(recovered_eq d.mem).2 (by rw [← journal_eq]; exact hamb)]
    have hcanon := (bootMetadataValidateTransition_ok hm.2).2.2.1
    exact (writeCopy_spec hcanon).mono (fun _ d' h => ⟨hm.journal_eq h, hm⟩)
      (fun _ d' h => .inr ⟨hm, hm.journal_of_torn h⟩) (fun d' h => .inr ⟨hm, hm.journal_of_torn h⟩)
  · exact ⟨fun current hcur => (by cases hcur), fun _ _ => .inl ⟨rfl, rfl⟩⟩

/-- Commits stay inside the two metadata sectors. -/
theorem steps_bootMetadataCommit {flash : BootFlash} {next : BootMetadataRecord}
    {R : FlashOp → Prop} (hR : ∀ side op, CopyOp side op → op.Within flash → R op) :
    Steps (Device.Extends R) (bootMetadataCommit flash next) := by
  rw [bootMetadataCommit]
  refine Steps.bind steps_bootMetadataRecoverFromFlash fun x => Steps.bind (Steps.ofExcept _)
    fun _ => Steps.bind (Steps.ofExcept _) fun _ => ?_
  have htarget : ∃ side, commitTarget x.1 = copyId side := by
    rw [commitTarget]
    repeat' split
    all_goals first | exact ⟨.first, rfl⟩ | exact ⟨.second, rfl⟩
  obtain ⟨side, hside⟩ := htarget
  rw [hside]
  exact steps_writeCopy side (hR side)

/-- **Power-cut atomicity of the journal.** However the commit ends, the next recovery finds the
old journal or exactly `next`, and `next` if the commit reported success. A refused commit changes
no byte. -/
theorem bootMetadataCommit_power_cut (flash : BootFlash) (next : BootMetadataRecord) (d : Device) :
    ((∃ cur, journal d.mem = .ok cur) ∨ journal d.mem = .error .noValidCopy →
      (journal (bootMetadataCommit flash next d).state.mem = journal d.mem ∨
        journal (bootMetadataCommit flash next d).state.mem = .ok next) ∧
      ∀ d', bootMetadataCommit flash next d = .ret () d' → journal d'.mem = .ok next) ∧
    (journal d.mem = .error .ambiguous ∨
        (∃ e, bootMetadataValidateTransition (journalCurrent d.mem) next = .error e) →
      (bootMetadataCommit flash next d).state.mem = d.mem ∧
      (bootMetadataCommit flash next d).state.log = d.log ∧
      ∀ d', bootMetadataCommit flash next d ≠ .ret () d') := by
  have h : wp (bootMetadataCommit flash next) d _ _ _ := bootMetadataCommit_spec
  have hfail : (journal d.mem = .error .ambiguous ∨
      ∃ e, bootMetadataValidateTransition (journalCurrent d.mem) next = .error e) →
      ¬ MayFollow d.mem next := by
    rintro (hamb | ⟨e, he⟩) ⟨hm₁, hm₂⟩
    · exact hm₁ hamb
    · rw [he] at hm₂
      cases hm₂
  have hrefused : ∀ {d'}, CommitTorn next d d' → ¬ MayFollow d.mem next →
      d'.mem = d.mem ∧ d'.log = d.log := fun ht hm => ht.resolve_right fun h => hm h.1
  rw [wp] at h
  unfold Outcome.state
  cases hrun : bootMetadataCommit flash next d with
  | ret u d' =>
    rw [hrun] at h
    refine ⟨fun _ => ⟨.inr h.1, fun d'' heq => ?_⟩, fun hrej => absurd h.2 (hfail hrej)⟩
    cases heq
    exact h.1
  | err e d' =>
    rw [hrun] at h
    refine ⟨fun _ => ⟨h.journal.imp id And.left, fun d'' heq => by cases heq⟩, fun hrej => ?_⟩
    obtain ⟨hmem, hlog⟩ := hrefused h (hfail hrej)
    exact ⟨hmem, hlog, fun d'' heq => by cases heq⟩
  | cut d' =>
    rw [hrun] at h
    refine ⟨fun _ => ⟨h.journal.imp id And.left, fun d'' heq => by cases heq⟩, fun hrej => ?_⟩
    obtain ⟨hmem, hlog⟩ := hrefused h (hfail hrej)
    exact ⟨hmem, hlog, fun d'' heq => by cases heq⟩

/-! ### Rebuilding the journal -/

/-- What an interrupted rebuild may leave. Copy A goes first, then copy B, then the new record
appears in copy A. -/
def ReinitTorn (next : BootMetadataRecord) (m m' : Mem) : Prop :=
  copies m' = copies m ∨ copies m' = Function.update (copies m) .first none ∨
    copies m' = (fun _ => none) ∨ copies m' = Function.update (fun _ => none) .first (some next)

/-- An interrupted or completed erase of one copy. -/
theorem wp_eraseCopy {flash : BootFlash} {d : Device} (side : Side) :
    wp (bootFlashEraseSector targetOps flash (copySectorId side)) d
      (fun _ d' => copies d'.mem = Function.update (copies d.mem) side none)
      (fun _ d' => copies d'.mem = copies d.mem ∨
        copies d'.mem = Function.update (copies d.mem) side none)
      (fun d' => copies d'.mem = copies d.mem ∨
        copies d'.mem = Function.update (copies d.mem) side none) := by
  have hend : (copySector side).endAddr = (copySector side).base + 0x4000 := by cases side <;> rfl
  have honly : ∀ dm : SectorDamage, OnlyCopy side d.mem (dm.apply d.mem (copySector side)) :=
    fun dm x hx => dm.apply_of_not_mem hx
  have hdamage : ∀ dm : SectorDamage, copies (dm.apply d.mem (copySector side)) = copies d.mem ∨
      copies (dm.apply d.mem (copySector side)) = Function.update (copies d.mem) side none := by
    intro dm
    rw [(honly dm).copies_eq]
    rcases copies_damage side d.mem dm with h | h
    · rw [h]
      exact .inl (Function.update_eq_self side (copies d.mem))
    · rw [h]
      exact .inr rfl
  refine (bootFlashEraseSector_spec (bootFlashSectors_copy side)).mono ?_ ?_ ?_
  · intro _ d' h
    have hnone : copies (eraseMem d.mem (copySector side)) side = none :=
      copies_eq_none (eraseMem_of_mem (by omega) (by omega))
    rw [h, ← hnone]
    exact (honly .erased).copies_eq
  · rintro _ d' ⟨dm, h⟩
    rw [h]
    exact hdamage dm
  · rintro d' ⟨dm, h⟩
    rw [h]
    exact hdamage dm

theorem journal_single {m : Mem} {next : BootMetadataRecord}
    (h : copies m = Function.update (fun _ => none) .first (some next)) : journal m = .ok next := by
  rw [journal_eq_read, h]
  rfl

/-- **Rebuilding the journal.** -/
theorem bootMetadataReinitializeForRecovery_spec {flash : BootFlash} {next : BootMetadataRecord}
    {d : Device} :
    wp (bootMetadataReinitializeForRecovery flash next) d
      (fun _ d' => journal d'.mem = .ok next ∧
        bootMetadataValidateTransition bootMetadataEmpty next = .ok ())
      (fun _ d' => (d'.mem = d.mem ∧ d'.log = d.log) ∨
        (bootMetadataValidateTransition bootMetadataEmpty next = .ok () ∧
          ReinitTorn next d.mem d'.mem))
      (fun d' => bootMetadataValidateTransition bootMetadataEmpty next = .ok () ∧
        ReinitTorn next d.mem d'.mem) := by
  rw [bootMetadataReinitializeForRecovery]
  simp only [wp_bind, wp_check, wp_mapErr]
  refine ⟨fun hnext => ?_, fun _ => .inl ⟨trivial, trivial⟩⟩
  have hval := hnext.2.2.2.2
  have hcanon := (bootMetadataValidateTransition_ok hval).2.2.1
  refine (wp_eraseCopy .first).mono ?_ ?_ ?_
  · intro _ d₁ h₁
    have hboth : Function.update (copies d₁.mem) .second none = fun _ => none := by
      funext side
      cases side <;> simp [h₁]
    refine (wp_eraseCopy .second).mono ?_ ?_ ?_
    · intro _ d₂ h₂
      rw [hboth] at h₂
      have hfirst : Function.update (copies d₂.mem) .first none = fun _ => none := by
        funext side
        cases side <;> simp [h₂]
      have htorn : ∀ {m}, CopyTorn .first next d₂.mem m → ReinitTorn next d.mem m := by
        rintro m (h | h | h)
        · exact .inr (.inr (.inl (h.trans h₂)))
        · exact .inr (.inr (.inl (h.trans hfirst)))
        · exact .inr (.inr (.inr (by rw [h, h₂])))
      exact (writeCopy_spec hcanon : wp (writeCopy flash (copyId .first) next) d₂ _ _ _).mono
        (fun _ d₃ h => ⟨journal_single (by rw [h, h₂]), hval⟩)
        (fun _ d₃ h => .inr ⟨hval, htorn h⟩) (fun d₃ h => ⟨hval, htorn h⟩)
    all_goals
      rw [hboth, h₁]
    · rintro _ d₂ (h | h)
      · exact .inr ⟨hval, .inr (.inl h)⟩
      · exact .inr ⟨hval, .inr (.inr (.inl h))⟩
    · rintro d₂ (h | h)
      · exact ⟨hval, .inr (.inl h)⟩
      · exact ⟨hval, .inr (.inr (.inl h))⟩
  · intro _ d₁ h
    exact .inr ⟨hval, h.imp_right .inl⟩
  · intro d₁ h
    exact ⟨hval, h.imp_right .inl⟩

theorem journal_of_copies {m : Mem} (h : copies m = fun _ => none) :
    journal m = .error .noValidCopy := by
  rw [journal_eq_read, h]
  rfl

theorem copies_of_noValidCopy {m : Mem} (h : journal m = .error .noValidCopy) :
    copies m = fun _ => none := by
  rw [journal_eq_read] at h
  refine TwoCopy.read_eq_empty_iff.mp (?_ : TwoCopy.read recordSeq (copies m) = .empty)
  cases hr : TwoCopy.read recordSeq (copies m) <;> rw [hr] at h <;> first | rfl | cases h

/-- With no readable copy to begin with, an interrupted rebuild leaves none or the new record. -/
theorem ReinitTorn.journal_of_none {next : BootMetadataRecord} {m m' : Mem} (h : ReinitTorn next m m')
    (hm : journal m = .error .noValidCopy) :
    journal m' = .error .noValidCopy ∨ journal m' = .ok next := by
  have hnone := copies_of_noValidCopy hm
  rcases h with h | h | h | h
  · exact .inl (journal_of_copies (h.trans hnone))
  · refine .inl (journal_of_copies (h.trans ?_))
    rw [hnone]
    exact Function.update_eq_self _ _
  · exact .inl (journal_of_copies h)
  · exact .inr (journal_single h)

theorem steps_bootMetadataReinitializeForRecovery {flash : BootFlash} {next : BootMetadataRecord}
    {R : FlashOp → Prop} (hR : ∀ side op, CopyOp side op → op.Within flash → R op) :
    Steps (Device.Extends R) (bootMetadataReinitializeForRecovery flash next) := by
  have herase : ∀ side, Steps (Device.Extends R)
      (bootFlashEraseSector targetOps flash (copySectorId side)) := by
    intro side
    refine steps_bootFlashEraseSector fun sector hs hw => hR side _ ?_ hw
    rw [bootFlashSectors_copy] at hs
    cases hs
    exact ⟨Nat.le_refl _, Nat.le_refl _⟩
  exact Steps.bind (Steps.check _ _) fun _ => Steps.bind (.mapErr (herase .first) _) fun _ =>
    Steps.bind (.mapErr (herase .second) _) fun _ => steps_writeCopy .first (hR .first)

/-! ### An undisturbed device -/

/-- The handle lets metadata be written: both sectors are in write regions, and the alignment fits
the two program operations of a record. -/
structure MetadataWritable (flash : BootFlash) : Prop where
  aligned : flash.programAlignment ∣ 8
  within : ∀ side, (FlashOp.erase (copySector side)).Within flash

/-- The write regions of the target cover the two copies. -/
theorem metadataWritable_target {flash : BootFlash} (h : bootFlashTargetInitMetadata = .ok flash) :
    MetadataWritable flash := by
  cases h
  refine ⟨one_dvd 8, fun side => ?_⟩
  cases side with
  | first => exact ⟨_, List.mem_cons_self, by decide, by decide⟩
  | second => exact ⟨_, List.mem_cons_of_mem _ List.mem_cons_self, by decide, by decide⟩

theorem quiet_writeCopy {flash : BootFlash} {next : BootMetadataRecord} {d : Device}
    (hw : MetadataWritable flash) (hq : d.Quiet) (hn : stateRecordIsCanonical next = true)
    (side : Side) :
    Returns (writeCopy flash (copyId side) next) d := by
  have hend : (copySector side).endAddr = (copySector side).base + 0x4000 := by cases side <;> rfl
  have hbase : 8 ∣ (copySector side).base := by cases side <;> decide
  obtain ⟨r, hr, hr₁, hr₂⟩ := hw.within side
  simp only [FlashOp.base, FlashOp.endAddr] at hr₁ hr₂
  obtain ⟨base, hb⟩ : ∃ base, base = (copySector side).base := ⟨_, rfl⟩
  rw [writeCopy_eq hn, ← hb]
  rw [← hb] at hbase hr₁ hend
  have hwithin : ∀ off n, off + n ≤ 128 → (FlashOp.program (base + off) n).Within flash :=
    fun off n hle => ⟨r, hr, by simp only [FlashOp.base]; omega,
      by simp only [FlashOp.endAddr]; omega⟩
  refine ((quiet_bootFlashEraseSector hq (bootFlashSectors_copy side) (hw.within side)).mapErr _).bind
    (((bootFlashEraseSector_spec (bootFlashSectors_copy side)).and
      (steps_bootFlashEraseSector (R := fun _ => True) (fun _ _ _ => trivial) d)).mapErr _) ?_
  rintro _ d₁ ⟨hmem₁, hext₁⟩
  have hff₁ : ∀ x, base ≤ x → x < base + 128 → d₁.mem x = 0xFF := by
    intro x h₁ h₂
    rw [hmem₁]
    exact eraseMem_of_mem (by omega) (by omega)
  have hlen₁ : ((encodedRecord next).take 120).length = 120 := by simp
  have hlen₂ : ((encodedRecord next).drop 120).length = 8 := by simp
  refine ((quiet_bootFlashProgramAligned (hext₁.quiet hq) (Nat.dvd_trans hw.aligned hbase)
    (by rw [hlen₁]; exact Nat.dvd_trans hw.aligned (by decide))
    (by rw [hlen₁]; exact hwithin 0 120 (by omega))
    (fun x h₁ h₂ => hff₁ x h₁ (by omega))).mapErr _).bind
    ((bootFlashProgramAligned_spec.and
      (steps_bootFlashProgramAligned (R := fun _ => True) (fun _ => trivial) d₁)).mapErr _) ?_
  rintro _ d₂ ⟨⟨hmem₂, -⟩, hext₂⟩
  refine Returns.mapErr (quiet_bootFlashProgramAligned (hext₂.quiet (hext₁.quiet hq))
    (Nat.dvd_trans hw.aligned (Nat.dvd_add hbase (by decide)))
    (by rw [hlen₂]; exact hw.aligned) (by rw [hlen₂]; exact hwithin 120 8 (by omega))
    fun x h₁ h₂ => ?_) _
  rw [hmem₂, programMem_of_not_mem (by omega)]
  exact hff₁ x (by omega) (by omega)

/-- On an undisturbed device every admissible record is committed. -/
theorem quiet_bootMetadataCommit {flash : BootFlash} {next : BootMetadataRecord} {d : Device}
    (hw : MetadataWritable flash) (hq : d.Quiet) (hm : MayFollow d.mem next) :
    Returns (bootMetadataCommit flash next) d := by
  have hstatus : commitCurrent (recovered d.mem).2 = .ok (journalCurrent d.mem) := by
    rw [← journal_eq]
    rw [journalCurrent]
    have hjr := journal_eq_read d.mem
    cases hread : TwoCopy.read recordSeq (copies d.mem) with
    | conflict => exact absurd hread (read_of_journal hm.1)
    | empty => rw [hread] at hjr; rw [hjr]; rfl
    | value r => rw [hread] at hjr; rw [hjr]; rfl
  rw [Returns, bootMetadataCommit]
  simp only [wp_bind, wp_ofExcept]
  refine bootMetadataRecoverFromFlash_spec (fun vs hvs => ?_) (fun _ hn => absurd hq hn)
    (fun _ hn => hn hq)
  rw [hstatus]
  refine ⟨fun current hcur => ⟨fun _ hval => ?_, fun e he => ?_⟩, fun e he => by cases he⟩
  · rw [(recovered_eq d.mem).2 (by rw [← journal_eq]; exact hm.1)]
    have hq' : ({ d with script := vs } : Device).Quiet := hvs hq
    exact quiet_writeCopy hw hq' (bootMetadataValidateTransition_ok hm.2).2.2.1 _
  · cases hcur
    rw [hm.2] at he
    cases he

theorem quiet_bootMetadataReinitializeForRecovery {flash : BootFlash} {next : BootMetadataRecord}
    {d : Device} (hw : MetadataWritable flash) (hq : d.Quiet)
    (hn : next.sequence = 1 ∧ next.state = .writing ∧ next.activeSlot = bootSlotNone ∧
      next.candidateSlot = BootSlotId.a.toUInt32 ∧
      bootMetadataValidateTransition bootMetadataEmpty next = .ok ()) :
    Returns (bootMetadataReinitializeForRecovery flash next) d := by
  have herase : ∀ side, ∀ d : Device, d.Quiet →
      Returns (bootFlashEraseSector targetOps flash (copySectorId side)) d := fun side d hd =>
    quiet_bootFlashEraseSector hd (bootFlashSectors_copy side) (hw.within side)
  have hquiet : ∀ side, Steps (Device.Extends fun _ => True)
      (bootFlashEraseSector targetOps flash (copySectorId side)) := fun side =>
    steps_bootFlashEraseSector fun _ _ _ => trivial
  rw [bootMetadataReinitializeForRecovery]
  refine Returns.check_bind hn ?_
  refine ((herase .first d hq).mapErr _).bind (wp.mapErr (hquiet .first d) _) fun _ d₁ h₁ => ?_
  have hq₁ := h₁.quiet hq
  refine ((herase .second d₁ hq₁).mapErr _).bind (wp.mapErr (hquiet .second d₁) _) fun _ d₂ h₂ => ?_
  exact quiet_writeCopy hw (h₂.quiet hq₁) (bootMetadataValidateTransition_ok hn.2.2.2.2).2.2.1 .first

end Stm32SecurityLab
