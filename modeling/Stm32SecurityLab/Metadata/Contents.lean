import Stm32SecurityLab.Metadata.Journal

/-!
# What a commit writes

`writeCopy_spec` speaks about records. Here is what a completed commit is about bytes: the sector of
one copy is blank but for the record at its start, and every other byte is as it was.

## Main definitions

* `storeRecord` — the memory with a record in one copy
* `committed` — the memory after a commit

## Main results

* `writeCopy_stores`, `bootMetadataCommit_stores`
* `copies_committed` — the two copies after a commit
-/

namespace Stm32SecurityLab

open Crash
open TwoCopy (Side)

variable {flash : BootFlash} {record next : BootMetadataRecord} {side : Side} {d : Device}
  {m m' : Mem}

/-- The memory with a record in a copy that is blank otherwise. -/
def storeRecord (m : Mem) (side : Side) (record : BootMetadataRecord) : Mem := fun x =>
  if (copySector side).base ≤ x ∧ x < (copySector side).endAddr then
    (encodedRecord record).getD (x - (copySector side).base) 0xFF
  else
    m x

/-- The memory after a commit: the record goes into the copy that recovery did not select. -/
def committed (m : Mem) (next : BootMetadataRecord) : Mem :=
  storeRecord m (TwoCopy.target recordSeq (copies m)) next

/-! ### One copy -/

theorem copySector_endAddr (side : Side) :
    (copySector side).endAddr = (copySector side).base + 0x4000 := by
  cases side <;> rfl

theorem storeRecord_onlyCopy : OnlyCopy side m (storeRecord m side record) := by
  intro x hx
  rw [storeRecord, if_neg hx]

/-- The bytes of a record. -/
theorem slice_storeRecord : slice (storeRecord m side record) (copySector side).base
    Layout.bootMetadataRecordSize = encodedRecord record := by
  have hend := copySector_endAddr side
  have hlength : (encodedRecord record).length = 128 := encodedRecord_length record
  rw [show Layout.bootMetadataRecordSize = (encodedRecord record).length from hlength.symm,
    slice_eq_iff]
  intro i hi
  rw [storeRecord, if_pos ⟨by omega, by omega⟩, Nat.add_sub_cancel_left, List.getD,
    List.getElem?_eq_getElem hi, Option.getD_some]

theorem copies_storeRecord (hcanonical : stateRecordIsCanonical record = true) :
    copies (storeRecord m side record) = Function.update (copies m) side (some record) := by
  rw [storeRecord_onlyCopy.copies_eq, copies_eq_some hcanonical slice_storeRecord]

/-- **Writing a copy** that succeeds leaves the record in a blank sector. -/
theorem writeCopy_stores :
    wp (writeCopy flash (copyId side) next) d (fun _ d' => d'.mem = storeRecord d.mem side next)
      (fun _ _ => True) (fun _ => True) := by
  by_cases hn : stateRecordIsCanonical next = true
  swap
  · rw [writeCopy_of_not_canonical (by simpa using hn)]
    exact trivial
  have hend := copySector_endAddr side
  obtain ⟨base, hbase⟩ : ∃ base, base = (copySector side).base := ⟨_, rfl⟩
  have hlength : (encodedRecord next).length = 128 := encodedRecord_length next
  have hbody : ((encodedRecord next).take 120).length = 120 := by simp
  have hmarker : ((encodedRecord next).drop 120).length = 8 := by simp
  rw [writeCopy_eq hn]
  simp only [wp_bind, wp_mapErr, ← hbase]
  refine (bootFlashEraseSector_spec (bootFlashSectors_copy side)).mono (fun _ d₁ h₁ => ?_)
    (fun _ _ _ => trivial) (fun _ _ => trivial)
  refine bootFlashProgramAligned_spec.mono ?_ (fun _ _ _ => trivial) (fun _ _ => trivial)
  rintro _ d₂ ⟨h₂, -⟩
  refine bootFlashProgramAligned_spec.mono ?_ (fun _ _ _ => trivial) (fun _ _ => trivial)
  rintro _ d₃ ⟨h₃, -⟩
  have hblank₁ : ∀ x, base ≤ x → x < base + 0x4000 → d₁.mem x = 0xFF := by
    intro x hx hx'
    rw [h₁]
    exact eraseMem_of_mem (by omega) (by omega)
  have hblank₂ : ∀ x, base + 120 ≤ x → x < base + 0x4000 → d₂.mem x = 0xFF := by
    intro x hx hx'
    rw [h₂, programMem_of_not_mem (by omega), hblank₁ x (by omega) hx']
  funext x
  rw [h₃, storeRecord, ← hbase]
  by_cases hcopy : base ≤ x ∧ x < (copySector side).endAddr
  · rw [if_pos hcopy]
    rcases Nat.lt_or_ge x (base + 120) with hx | hx
    · rw [programMem_of_not_mem (by omega), h₂,
        programMem_erased (fun y hy hy' => hblank₁ y hy (by omega)) hcopy.1 (by omega), byteAt,
        List.getD, List.getD, List.getElem?_take_of_lt (by omega),
        List.getElem?_eq_getElem (by omega)]
      rfl
    rcases Nat.lt_or_ge x (base + 128) with hx' | hx'
    · rw [programMem_erased (fun y hy hy' => hblank₂ y hy (by omega)) hx (by omega), byteAt,
        List.getD, List.getD, List.getElem?_drop,
        show 120 + (x - (base + 120)) = x - base by omega, List.getElem?_eq_getElem (by omega)]
      rfl
    · rw [programMem_of_not_mem (by omega), hblank₂ x (by omega) (by omega), List.getD,
        List.getElem?_eq_none (by omega)]
      rfl
  · rw [if_neg hcopy, programMem_of_not_mem (by omega), h₂, programMem_of_not_mem (by omega), h₁,
      eraseMem_of_not_mem (by rw [← hbase]; exact hcopy)]

/-! ### Commits -/

/-- **Committing a record** that succeeds leaves the record in the copy that was not selected. -/
theorem bootMetadataCommit_stores :
    wp (bootMetadataCommit flash next) d (fun _ d' => d'.mem = committed d.mem next)
      (fun _ _ => True) (fun _ => True) := by
  rw [bootMetadataCommit]
  simp only [wp_bind, wp_ofExcept]
  refine bootMetadataRecoverFromFlash_spec (fun vs _ => ?_) (fun vs _ => ?_) (fun _ _ => trivial)
  · refine ⟨fun current hcurrent => ⟨fun _ _ => ?_, fun _ _ => trivial⟩, fun _ _ => trivial⟩
    rw [← journal_eq] at hcurrent
    have htarget := (recovered_eq d.mem).2
    rw [← journal_eq] at htarget
    rw [htarget (commitCurrent_journal hcurrent).1]
    exact writeCopy_stores
  · exact ⟨fun _ h => (by cases h), fun _ _ => trivial⟩

/-- A commit changes bytes of the metadata only, and depends on them only. -/
theorem committed_congr {x : ℕ} (hcopies : copies m' = copies m) (hx : m' x = m x) :
    committed m' next x = committed m next x := by
  rw [committed, committed, hcopies, storeRecord, storeRecord, hx]

end Stm32SecurityLab
