import Stm32SecurityLab.Installer.Calls

/-!
# The installer on an undisturbed device

What the installer does when nothing goes wrong with the flash: which calls return, and not only
what holds if they do. A session is undisturbed when the device has no faults ahead, there is no
fault hook, and the program alignment is one the metadata commits can live with.

The device has no other way to fail: every erase and program operation the installer issues is
inside its write regions, aligned, and onto erased flash.

## Main results

* `returns_updateInstallerSessionInit_iff` — when a session can be opened
* `returns_updateInstallerBegin_iff` — when a header is accepted
-/

namespace Stm32SecurityLab

open Crash Installer

variable {crypto : Crypto} {publicKey headerBytes : List UInt8} {s s' : Installer}
  {R : FlashOp → Prop}

/-- Nothing will go wrong with the flash operations of the session. -/
structure Undisturbed (s : Installer) : Prop where
  quiet : s.dev.Quiet
  hook : s.session.options.faultHook = none
  aligned : s.session.restrictedFlash.programAlignment ∣ 8
  restricted : s.session.Restricted

/-- The metadata copies are write regions of every session. -/
theorem metadataWritable_of_restricted
    (haligned : s.session.restrictedFlash.programAlignment ∣ 8)
    (hrestricted : s.session.Restricted) : MetadataWritable s.session.restrictedFlash := by
  refine ⟨haligned, fun side => ?_⟩
  cases side with
  | first =>
    refine ⟨⟨Layout.bootMetadataABase, Layout.bootMetadataAEnd⟩, ?_, by decide, by decide⟩
    rw [hrestricted]
    simp [restrictedRegions]
  | second =>
    refine ⟨⟨Layout.bootMetadataBBase, Layout.bootMetadataBEnd⟩, ?_, by decide, by decide⟩
    rw [hrestricted]
    simp [restrictedRegions]

namespace Undisturbed

theorem streams (h : Undisturbed s) (hs : Streams R s s') : Undisturbed s' := by
  have hoptions : s'.session.options = s.session.options := congrArg (·.options) hs.core
  exact ⟨hs.dev.quiet h.quiet, by rw [hoptions, h.hook], by rw [hs.restrictedFlash]; exact h.aligned,
    hs.restricted h.restricted⟩

theorem steady (h : Undisturbed s) (hs : Steady R s s') : Undisturbed s' := h.streams hs.streams

/-- The slot is a write region. -/
theorem within_slot (h : Undisturbed s) {op : FlashOp} (hop : InSlot s.session.candidate op) :
    op.Within s.session.restrictedFlash := by
  refine ⟨⟨(bootSlots s.session.candidate).signedImageBase,
    (bootSlots s.session.candidate).slotEnd⟩, ?_, hop⟩
  rw [h.restricted]
  simp [restrictedRegions]

theorem metadataWritable (h : Undisturbed s) : MetadataWritable s.session.restrictedFlash :=
  metadataWritable_of_restricted h.aligned h.restricted

end Undisturbed

/-- Without a hook there are no injected faults. -/
theorem wp_maybeFault {point : UpdateInstallFaultPoint} {detail : UInt32}
    {Q : Unit → Installer → Prop} {E : UpdateInstallError → Installer → Prop}
    {C : Installer → Prop} (h : s.session.options.faultHook = none) :
    wp (maybeFault point detail) s Q E C ↔ Q () s := by
  rw [maybeFault]
  rw [wp_bind, wp_getSession, h]
  exact wp_pure

/-! ### Rounding -/

/-- Rounding up stays below every bound that is a multiple of the alignment. -/
theorem checkedRoundUp_of_le (flash : BootFlash) {value bound : ℕ} (hle : value ≤ bound)
    (hdvd : flash.programAlignment ∣ bound) (hbound : bound ≤ sizeMax) :
    ∃ rounded, checkedRoundUp value flash.programAlignment = some rounded ∧ value ≤ rounded ∧
      rounded ≤ bound := by
  have hpow := flash.alignment_pow
  simp only [isPowerOfTwo, Bool.and_eq_true, bne_iff_ne, beq_iff_eq] at hpow
  obtain ⟨k, hk⟩ := Nat.ne_zero_and_sub_one_eq_zero_iff_isPowerOfTwo.mp hpow
  have hpos : 0 < flash.programAlignment := Nat.pos_of_ne_zero hpow.1
  have hmask : value &&& (flash.programAlignment - 1) = value % flash.programAlignment := by
    rw [hk, Nat.and_two_pow_sub_one_eq_mod]
  rw [checkedRoundUp]
  rw [if_neg hpow.1, hmask]
  simp only
  split
  · exact ⟨value, rfl, Nat.le_refl _, hle⟩
  · rename_i hrem
    have hlt : value < bound := by
      refine Nat.lt_of_le_of_ne hle fun heq => hrem ?_
      rw [heq]
      exact Nat.mod_eq_zero_of_dvd hdvd
    -- the next multiple of the alignment is still within the bound
    obtain ⟨q, rfl⟩ := hdvd
    have hdiv : value / flash.programAlignment < q := Nat.div_lt_of_lt_mul hlt
    have hmul : flash.programAlignment * (value / flash.programAlignment + 1) ≤
        flash.programAlignment * q := Nat.mul_le_mul_left _ hdiv
    have hmod := Nat.div_add_mod value flash.programAlignment
    have hmodlt := Nat.mod_lt value hpos
    rw [Nat.mul_add, Nat.mul_one] at hmul
    refine ⟨value + (flash.programAlignment - value % flash.programAlignment), ?_, ?_, ?_⟩
    · rw [checkedSizeAdd]
      rw [if_neg (by omega)]
    · omega
    · omega

theorem checkedU32Add_of_le {left right : ℕ} (h : left + right ≤ Layout.flashEnd) :
    checkedU32Add left right = some (left + right) := by
  have : Layout.flashEnd < uint32Max := by decide
  unfold checkedU32Add
  rw [if_neg (by omega)]

/-- An accepted package fits its slot, padding included. -/
theorem candidatePackageFits_of_accepted {flash : BootFlash} {c : BootSlotId}
    {header : UpdatePackageHeader} (halign : flash.programAlignment ∣ 512)
    (h : HeaderAccepted crypto publicKey headerBytes (bootSlots c) header) :
    ∃ size, candidatePackageFits flash (bootSlots c) header = .ok size := by
  have hmax : (bootSlots c).maximumPayloadSize = 0x5FE00 := by cases c <;> rfl
  have hend : (bootSlots c).slotEnd = (bootSlots c).signedImageBase + 0x60000 := by cases c <;> rfl
  have hflash : (bootSlots c).slotEnd ≤ 0x080E0000 := by cases c <;> decide
  have hfits := h.fits
  have hsize : header.packageSize ≤ 0x60000 := by
    rw [h.packageSize]
    simp only [Layout.signedImageHeaderSize]
    omega
  obtain ⟨package, hpackage, -, hle⟩ := checkedRoundUp_of_le flash hsize
    (Nat.dvd_trans halign (by decide)) (by decide)
  obtain ⟨payload, hpayload, -, -⟩ := checkedRoundUp_of_le flash (hmax ▸ hfits)
    (Nat.dvd_trans halign (by decide)) (by decide)
  refine ⟨payload, ?_⟩
  have hword : uint32Max = 0xFFFFFFFF := rfl
  have hflashEnd : Layout.flashEnd = 0x08100000 := rfl
  rw [candidatePackageFits]
  rw [hpackage, hpayload]
  simp only
  rw [if_neg (by omega), checkedU32Add_of_le (by omega)]
  simp only
  rw [if_neg (by omega)]

/-- The program buffer of valid options is not empty and is a multiple of the alignment. -/
theorem programBufferSize_of_valid {flash : BootFlash} {options : UpdateInstallOptions}
    (h : optionsAreValid flash options = true) :
    0 < options.programBufferSize ∧ flash.programAlignment ∣ options.programBufferSize := by
  rw [optionsAreValid] at h
  simp only [decide_eq_true_eq, not_or, not_not] at h
  exact ⟨Nat.pos_of_ne_zero h.1, (flash.aligned_iff _).mp h.2.2.2.2.2⟩

/-! ### Erasing -/

theorem quiet_eraseSectors {sectors : List ℕ} (hu : Undisturbed s)
    (hw : ∀ sector ∈ sectors, ∃ entry, bootFlashSectors[sector]? = some entry ∧
      InSlot s.session.candidate (.erase entry)) :
    wp (eraseSectors sectors) s
      (fun _ s' => s'.session = s.session ∧ ∀ x, (s.dev.mem x = 0xFF ∨ ∃ sector ∈ sectors, ∃ entry,
        bootFlashSectors[sector]? = some entry ∧ entry.base ≤ x ∧ x < entry.endAddr) →
        s'.dev.mem x = 0xFF)
      (fun _ _ => False) (fun _ => False) := by
  induction sectors generalizing s with
  | nil =>
    refine ⟨rfl, ?_⟩
    rintro x (hx | ⟨sector, hsec, -⟩)
    · exact hx
    · cases hsec
  | cons sector sectors ih =>
    obtain ⟨entry, he, hin⟩ := hw sector (List.mem_cons_self ..)
    unfold eraseSectors onDev
    simp only [wp_bind, wp_maybeFault hu.hook, wp_getSession, wp_zoom, wp_mapErr]
    refine ((quiet_bootFlashEraseSector hu.quiet he (hu.within_slot hin)).spec
      ((bootFlashEraseSector_spec he).and (steps_bootFlashEraseSector (R := fun _ => True)
        (fun _ _ _ => trivial) s.dev))).mono ?_ (fun _ _ h => h) (fun _ h => h)
    rintro _ d₁ ⟨hmem₁, hext₁⟩
    refine wp_modifyResult fun result => ?_
    have hu₁ : Undisturbed { s with result, dev := d₁ } :=
      ⟨hext₁.quiet hu.quiet, hu.hook, hu.aligned, hu.restricted⟩
    refine (ih hu₁ fun sector' hs' => hw sector' (List.mem_cons_of_mem _ hs')).mono
      (fun _ s₂ h₂ => ⟨h₂.1, fun x hx => h₂.2 x ?_⟩) (fun _ _ h => h) (fun _ h => h)
    by_cases hcov : entry.base ≤ x ∧ x < entry.endAddr
    · exact .inl (by rw [hmem₁, eraseMem_of_mem hcov.1 hcov.2])
    rcases hx with hx | ⟨sector', hs', entry', he', hcov'⟩
    · exact .inl (by rw [hmem₁, eraseMem_of_not_mem hcov, hx])
    · rcases List.mem_cons.mp hs' with rfl | hs'
      · rw [he] at he'
        cases he'
        exact absurd hcov' hcov
      · exact .inr ⟨sector', hs', entry', he', hcov'⟩

/-- The sectors of a slot lie in the slot and cover it. -/
theorem slot_sectors (c : BootSlotId) :
    (∀ sector ∈ List.range' (bootSlots c).firstSector
      ((bootSlots c).lastSector + 1 - (bootSlots c).firstSector),
      ∃ entry, bootFlashSectors[sector]? = some entry ∧ InSlot c (.erase entry)) ∧
    ∀ x, (bootSlots c).signedImageBase ≤ x → x < (bootSlots c).slotEnd →
      ∃ sector ∈ List.range' (bootSlots c).firstSector
        ((bootSlots c).lastSector + 1 - (bootSlots c).firstSector),
        ∃ entry, bootFlashSectors[sector]? = some entry ∧ entry.base ≤ x ∧ x < entry.endAddr := by
  have hcover : ∀ (first : ℕ) (base x : ℕ), base ≤ x → x < base + 0x60000 →
      (∀ k < 3, bootFlashSectors[first + k]? = some ⟨base + k * 0x20000, 0x20000⟩) →
      ∃ sector ∈ List.range' first 3,
        ∃ entry, bootFlashSectors[sector]? = some entry ∧ entry.base ≤ x ∧ x < entry.endAddr := by
    intro first base x h₁ h₂ htable
    have hk : (x - base) / 0x20000 < 3 := by omega
    refine ⟨first + (x - base) / 0x20000, ?_, _, htable _ hk, ?_, ?_⟩
    · rw [List.mem_range'_1]
      omega
    · simp only
      omega
    · simp only [BootFlashSector.endAddr]
      omega
  cases c with
  | a =>
    refine ⟨?_, fun x h₁ h₂ => hcover 5 0x08020000 x h₁ h₂ (by decide)⟩
    have hall : ∀ sector ∈ List.range' 5 3, ∃ entry ∈ bootFlashSectors[sector]?,
        (bootSlots .a).signedImageBase ≤ entry.base ∧
          entry.base + entry.size ≤ (bootSlots .a).slotEnd := by decide
    exact hall
  | b =>
    refine ⟨?_, fun x h₁ h₂ => hcover 8 0x08080000 x h₁ h₂ (by decide)⟩
    have hall : ∀ sector ∈ List.range' 8 3, ∃ entry ∈ bootFlashSectors[sector]?,
        (bootSlots .b).signedImageBase ≤ entry.base ∧
          entry.base + entry.size ≤ (bootSlots .b).slotEnd := by decide
    exact hall

/-- The candidate slot can be erased, and is blank then. -/
theorem quiet_eraseCandidateSlot (hu : Undisturbed s) :
    wp eraseCandidateSlot s
      (fun _ s' => s'.session = s.session ∧
        ∀ x, (bootSlots s.session.candidate).signedImageBase ≤ x →
          x < (bootSlots s.session.candidate).slotEnd → s'.dev.mem x = 0xFF)
      (fun _ _ => False) (fun _ => False) := by
  obtain ⟨hin, hcover⟩ := slot_sectors s.session.candidate
  rw [eraseCandidateSlot]
  rw [wp_bind, wp_getSession]
  exact (quiet_eraseSectors hu hin).mono
    (fun _ s' h => ⟨h.1, fun x h₁ h₂ => h.2 x (.inr (hcover x h₁ h₂))⟩) (fun _ _ h => h) (fun _ h => h)

/-! ### Programming -/

theorem quiet_programAlignedBlock {address : ℕ} {data : List UInt8} (hu : Undisturbed s)
    (ha : s.session.restrictedFlash.programAlignment ∣ address)
    (hl : s.session.restrictedFlash.programAlignment ∣ data.length) (hpos : 0 < data.length)
    (hin : InSlot s.session.candidate (.program address data.length))
    (hff : ∀ x, address ≤ x → x < address + data.length → s.dev.mem x = 0xFF)
    (hcount : s.session.programmedBlockCount ≠ 0xFFFFFFFF) :
    wp (programAlignedBlock address data) s
      (fun _ s' => s'.dev.mem = programMem s.dev.mem address data ∧
        s'.session.programmedBlockCount = s.session.programmedBlockCount + 1)
      (fun _ _ => False) (fun _ => False) := by
  have hslot : Layout.flashBase ≤ (bootSlots s.session.candidate).signedImageBase ∧
      (bootSlots s.session.candidate).slotEnd ≤ Layout.flashEnd := by
    cases s.session.candidate <;> decide
  obtain ⟨h₁, h₂⟩ := hin
  simp only [FlashOp.base, FlashOp.endAddr] at h₁ h₂
  unfold programAlignedBlock onDev
  simp only [wp_bind, wp_maybeFault hu.hook, wp_getSession, wp_zoom, wp_mapErr]
  refine ((quiet_bootFlashProgramAligned hu.quiet ha hl (hu.within_slot ⟨h₁, h₂⟩) hff).spec
    (bootFlashProgramAligned_spec.and (steps_bootFlashProgramAligned (R := fun _ => True)
      (fun _ => trivial) s.dev))).mono ?_ (fun _ _ h => h) (fun _ h => h)
  rintro _ d₁ ⟨⟨hmem₁, hread₁⟩, hext₁⟩
  have hq₁ := hext₁.quiet hu.quiet
  refine (wp_maybeFault (s := { s with dev := d₁ }) hu.hook).mpr ?_
  refine bootFlashRead_spec (by omega) (by omega) hpos (fun vs _ => ?_)
    (fun _ _ hn => absurd hq₁ hn) (fun _ hn => absurd hq₁ hn)
  simp only [wp_check]
  refine ⟨fun _ => ⟨fun _ => ?_, fun hn => absurd hcount hn⟩, fun hn => absurd hread₁ hn⟩
  rw [wp_modifySession]
  exact wp_modifyResult fun _ => ⟨hmem₁, rfl⟩

/-- What a round of `program_source_range` puts into the program buffer. -/
theorem sourceChunk_apply {buffer : Mem} {source : List UInt8} {dataSize offset chunk i : ℕ}
    (hsource : dataSize ≤ source.length) (hi : i < chunk) :
    sourceChunk buffer source dataSize offset chunk i =
      if offset + i < dataSize then byteAt source (offset + i) else 0xFF := by
  have hset : memset buffer 0 0xFF chunk i = 0xFF := if_pos ⟨Nat.zero_le i, by omega⟩
  rw [sourceChunk]
  by_cases hoffset : offset < dataSize
  · have hlength : ((source.drop offset).take (min (dataSize - offset) chunk)).length =
        min (dataSize - offset) chunk := by
      rw [List.length_take, List.length_drop]
      omega
    rw [if_pos hoffset, memcpy, hlength]
    by_cases hdata : offset + i < dataSize
    · rw [if_pos ⟨Nat.zero_le i, by omega⟩, if_pos hdata, Nat.sub_zero, byteAt, List.getD,
        List.getElem?_take_of_lt (by omega), List.getElem?_drop, byteAt, List.getD]
    · rw [if_neg (by omega), if_neg hdata, hset]
  · rw [if_neg hoffset, if_neg (by omega), hset]

/-- The source has been programmed from `offset` on, and nothing else has changed. -/
structure SourceProgrammed (base : ℕ) (source : List UInt8) (dataSize paddedSize offset : ℕ)
    (s s' : Installer) : Prop where
  inside : ∀ i, offset ≤ i → i < paddedSize →
    s'.dev.mem (base + i) = if i < dataSize then byteAt source i else 0xFF
  outside : ∀ x, ¬ (base + offset ≤ x ∧ x < base + paddedSize) → s'.dev.mem x = s.dev.mem x
  blocks : s'.session.programmedBlockCount.toNat ≤ max offset paddedSize

/-- The loop programs its source into blank flash. The number of blocks stays below the number of
bytes, so the block counter cannot run out. -/
theorem quiet_programSourceLoop {base : ℕ} {source : List UInt8} {dataSize paddedSize fuel offset : ℕ}
    (hu : Undisturbed s) (hoptions : optionsAreValid s.session.restrictedFlash s.session.options = true)
    (hsource : dataSize ≤ source.length)
    (hbase : s.session.restrictedFlash.programAlignment ∣ base)
    (hpadded : s.session.restrictedFlash.programAlignment ∣ paddedSize)
    (hoffset : s.session.restrictedFlash.programAlignment ∣ offset)
    (hin : InSlot s.session.candidate (.program base paddedSize))
    (hff : ∀ x, base + offset ≤ x → x < base + paddedSize → s.dev.mem x = 0xFF)
    (hcount : s.session.programmedBlockCount.toNat ≤ offset) (hfuel : paddedSize - offset ≤ fuel) :
    wp (programSourceLoop base source dataSize paddedSize fuel offset) s
      (fun _ s' => SourceProgrammed base source dataSize paddedSize offset s s')
      (fun _ _ => False) (fun _ => False) := by
  have hdone : paddedSize ≤ offset → SourceProgrammed base source dataSize paddedSize offset s s :=
    fun hle => ⟨fun i h₁ h₂ => absurd h₂ (by omega), fun _ _ => rfl, by omega⟩
  induction fuel generalizing s offset with
  | zero => exact hdone (by omega)
  | succ fuel ih =>
    rw [programSourceLoop]
    split
    swap
    · rename_i hge
      exact hdone (by omega)
    rename_i hlt
    have hslot : (bootSlots s.session.candidate).slotEnd ≤ Layout.flashEnd := by
      cases s.session.candidate <;> decide
    have hword : Layout.flashEnd < 0xFFFFFFFF := by decide
    obtain ⟨h₁, h₂⟩ := hin
    simp only [FlashOp.base, FlashOp.endAddr] at h₁ h₂
    obtain ⟨hbuffer, hdvd⟩ := programBufferSize_of_valid hoptions
    obtain ⟨chunk, hchunk⟩ : ∃ chunk,
        chunk = min (paddedSize - offset) s.session.options.programBufferSize := ⟨_, rfl⟩
    have hchunkdvd : s.session.restrictedFlash.programAlignment ∣ chunk := by
      rcases Nat.le_total (paddedSize - offset) s.session.options.programBufferSize with h | h
      · rw [hchunk, Nat.min_eq_left h]
        exact Nat.dvd_sub hpadded hoffset
      · rw [hchunk, Nat.min_eq_right h]
        exact hdvd
    have hchunkpos : 0 < chunk := by omega
    have hchunkle : offset + chunk ≤ paddedSize := by omega
    simp only [wp_bind, wp_getSession, wp_modify, ← hchunk]
    rw [checkedU32Add_of_le (by omega)]
    simp only [wp_bind, wp_get]
    have hbytes : ∀ i < chunk, byteAt (slice (sourceChunk s.programBuffer source dataSize offset
        chunk) 0 chunk) i = if offset + i < dataSize then byteAt source (offset + i) else 0xFF := by
      intro i hi
      rw [byteAt_slice hi, Nat.zero_add, sourceChunk_apply hsource hi]
    generalize hbuf : sourceChunk s.programBuffer source dataSize offset chunk = buffer at hbytes ⊢
    have hu₁ : Undisturbed { s with programBuffer := buffer } :=
      ⟨hu.quiet, hu.hook, hu.aligned, hu.restricted⟩
    have hmax : s.session.programmedBlockCount ≠ 0xFFFFFFFF := by
      intro heq
      rw [heq] at hcount
      change 0xFFFFFFFF ≤ offset at hcount
      omega
    have hblank : ∀ x, base + offset ≤ x → x < base + offset + (slice buffer 0 chunk).length →
        s.dev.mem x = 0xFF := fun x hx hx' => hff x hx (by rw [slice_length] at hx'; omega)
    refine ((quiet_programAlignedBlock hu₁ (Nat.dvd_add hbase hoffset) (by simpa using hchunkdvd)
      (by simpa using hchunkpos) ⟨by simp only [FlashOp.base]; omega,
        by simp only [FlashOp.endAddr, slice_length]; omega⟩ hblank hmax).and
      (steps_programAlignedBlock (R := fun _ => True) fun _ => trivial)).mono ?_
      (fun _ _ h => h.1) (fun _ h => h.1)
    rintro _ s₂ ⟨⟨hmem₂, hcount₂⟩, hs₂⟩
    have hflash₂ : s₂.session.restrictedFlash = s.session.restrictedFlash := hs₂.restrictedFlash
    have hoptions₂ : s₂.session.options = s.session.options :=
      congrArg (·.options) hs₂.streams.core
    have hcand₂ : s₂.session.candidate = s.session.candidate := hs₂.candidate
    rw [← hflash₂] at hbase hpadded hoffset hchunkdvd
    have hcount' : s₂.session.programmedBlockCount.toNat ≤ offset + chunk := by
      rw [hcount₂, toNat_succ hmax]
      exact Nat.le_trans (Nat.succ_le_succ hcount) (by omega)
    refine (ih (hu₁.steady hs₂) (by rw [hflash₂, hoptions₂, hoptions]) hbase hpadded
      (Nat.dvd_add hoffset hchunkdvd) (by rw [hcand₂]; exact ⟨h₁, h₂⟩) (fun x hx hx' => ?_) hcount'
      (by omega) fun hle => ⟨fun i _ hi => absurd hi (by omega), fun _ _ => rfl, by omega⟩).mono
      (fun _ s₃ h₃ => ⟨fun i hi hi' => ?_, fun x hx => ?_, ?_⟩) (fun _ _ h => h) (fun _ h => h)
    · rw [hmem₂, programMem_of_not_mem (by rw [slice_length]; omega)]
      exact hff x (by omega) hx'
    · by_cases hhere : i < offset + chunk
      · rw [h₃.outside _ (by omega), hmem₂, programMem_erased hblank (by omega)
          (by rw [slice_length]; omega), show base + i - (base + offset) = i - offset by omega,
          hbytes _ (by omega), show offset + (i - offset) = i by omega]
      · exact h₃.inside i (by omega) hi'
    · rw [h₃.outside x (by omega), hmem₂, programMem_of_not_mem (by rw [slice_length]; omega)]
    · exact h₃.blocks.trans (by omega)

/-- The header is in the slot, and the rest of the slot is blank. -/
structure HeaderWritten (headerBytes : List UInt8) (s : Installer) : Prop where
  header : slice s.dev.mem (bootSlots s.session.candidate).signedImageBase
    Layout.signedImageHeaderSize = headerBytes
  blank : ∀ x, (bootSlots s.session.candidate).payloadBase ≤ x →
    x < (bootSlots s.session.candidate).slotEnd → s.dev.mem x = 0xFF
  blocks : s.session.programmedBlockCount.toNat ≤ Layout.signedImageHeaderSize

/-- The payload follows the header. -/
theorem payloadBase_eq (c : BootSlotId) : (bootSlots c).payloadBase =
    (bootSlots c).signedImageBase + Layout.signedImageHeaderSize := by
  cases c <;> rfl

/-- The header can be programmed. -/
theorem quiet_programHeader (hu : Undisturbed s)
    (hoptions : optionsAreValid s.session.restrictedFlash s.session.options = true)
    (hlength : headerBytes.length = Layout.signedImageHeaderSize)
    (hcount : s.session.programmedBlockCount = 0) :
    wp (programHeader headerBytes) s (fun _ s' => HeaderWritten headerBytes s') (fun _ _ => False)
      (fun _ => False) := by
  have hbase : 8 ∣ (bootSlots s.session.candidate).signedImageBase := by
    cases s.session.candidate <;> decide
  have hend : (bootSlots s.session.candidate).signedImageBase + Layout.signedImageHeaderSize ≤
      (bootSlots s.session.candidate).slotEnd := by
    cases s.session.candidate <;> decide
  rw [programHeader]
  simp only [wp_bind, wp_modifySession, wp_getSession]
  refine ((quiet_eraseCandidateSlot hu).and (steps_eraseCandidateSlot hu.restricted)).mono ?_
    (fun _ _ h => h.1) (fun _ h => h.1)
  rintro _ s₁ ⟨⟨hsession₁, hblank⟩, hs₁⟩
  rw [hsession₁]
  have hu₁ : Undisturbed { s₁ with session := { s.session with candidateErased := true } } :=
    ⟨hs₁.dev.quiet hu.quiet, hu.hook, hu.aligned, hu.restricted⟩
  have hloop : wp (programSourceLoop (bootSlots s.session.candidate).signedImageBase headerBytes
      Layout.signedImageHeaderSize Layout.signedImageHeaderSize Layout.signedImageHeaderSize 0)
      { s₁ with session := { s.session with candidateErased := true } } _ _ _ :=
    quiet_programSourceLoop hu₁ hoptions hlength.ge (Nat.dvd_trans hu.aligned hbase)
      (Nat.dvd_trans hu.aligned (by decide)) (Nat.dvd_zero _) ⟨Nat.le_refl _, hend⟩
      (fun x h₁ h₂ => hblank x (by omega) (by omega))
      (by change s.session.programmedBlockCount.toNat ≤ 0; rw [hcount]; exact Nat.le_refl _)
      (Nat.le_refl _)
  rw [programSourceRange]
  simp only [wp_bind, wp_check]
  refine ⟨fun _ => ?_, fun hn => hn (by decide)⟩
  refine (hloop.and (steps_programSourceLoop hu₁.restricted)).mono ?_ (fun _ _ h => h.1)
    (fun _ h => h.1)
  rintro _ s₂ ⟨hprog, hs₂⟩
  have hcand₂ : s₂.session.candidate = s.session.candidate := hs₂.candidate
  refine ⟨?_, fun x h₁ h₂ => ?_, hprog.blocks.trans (by decide)⟩
  · rw [hcand₂, ← hlength, slice_eq_iff]
    intro i hi
    rw [hprog.inside i (Nat.zero_le i) (by omega), if_pos (by omega), byteAt_of_lt hi]
  · rw [hcand₂, payloadBase_eq] at h₁
    rw [hcand₂] at h₂
    rw [hprog.outside x (by omega)]
    exact hblank x (by omega) h₂

/-! ### Metadata -/

theorem quiet_recover {f : BootMetadataRecovery × Except BootMetadataError BootMetadataRecord →
      Prog Installer UpdateInstallError Unit} (hu : s.dev.Quiet)
    (h : ∀ s', Reads s s' → Returns (f ((recovered s.dev.mem).1, journal s.dev.mem)) s') :
    Returns (onDev bootMetadataRecoverFromFlash >>= f) s := by
  rw [Returns]
  rw [wp_bind]
  refine wp_recover (fun s' hs => ?_) (fun _ _ hn => absurd hu hn) (fun _ _ hn => absurd hu hn)
  have hs' := h s' hs
  rw [journal_eq] at hs'
  exact hs'

theorem Undisturbed.reads (h : Undisturbed s) (hs : Reads s s') : Undisturbed s' := by
  refine ⟨hs.dev.quiet h.quiet, ?_, ?_, ?_⟩ <;> rw [hs.session]
  · exact h.hook
  · exact h.aligned
  · exact h.restricted

/-- A program of the device leaves the session alone. -/
theorem Returns.onDev_session {ε : Type} {x : Prog Device ε Unit} (h : Returns x s.dev) :
    wp (onDev x) s (fun _ s' => s'.session = s.session) (fun _ _ => False) (fun _ => False) := by
  rw [onDev]
  rw [wp_zoom]
  exact wp.mono h (fun _ _ _ => rfl) (fun _ _ h => h) (fun _ h => h)

/-- A record prepared from the recovered one can be committed. -/
theorem quiet_commitMetadataState {cur next : BootMetadataRecord} {state : BootMetadataState}
    {active candidate version : UInt32} {point : UpdateInstallFaultPoint} (hu : Undisturbed s)
    (hj : journal s.dev.mem = .ok cur)
    (hnext : bootMetadataPrepareNext cur state active candidate version 0 0 0 = .ok next) :
    wp (commitMetadataState cur state active candidate version point) s
      (fun _ s' => s'.session = s.session) (fun _ _ => False) (fun _ => False) := by
  rw [commitMetadataState]
  rw [hnext]
  simp only [Except.mapError, Prog.ofExcept, wp_bind, wp_pure, wp_maybeFault hu.hook, wp_getSession]
  refine Returns.onDev_session (Returns.mapErr (quiet_bootMetadataCommit hu.metadataWritable hu.quiet
    ⟨?_, ?_⟩) _)
  · rw [hj]
    simp
  · rw [journalCurrent_of_ok hj]
    exact (bootMetadataPrepareNext_ok.mp hnext).2.1

theorem quiet_commitWriting {flag : Bool} {next : BootMetadataRecord} (hu : Undisturbed s)
    (hsel : Selected publicKey s.session)
    (hfresh : metadataOrBootstrap s.session.options.recoveryBootstrap (journal s.dev.mem) =
      .ok (s.session.metadataBefore, flag))
    (hnext : bootMetadataPrepareNext s.session.metadataBefore .writing s.session.activeSlotId
      s.session.candidate.toUInt32 s.session.header.manifest.imageVersion 0 0 0 = .ok next) :
    wp commitWriting s (fun _ s' => s'.session = s.session) (fun _ _ => False)
      (fun _ => False) := by
  rw [commitWriting]
  rw [wp_bind, wp_getSession]
  rcases hsel.source with ⟨slot, hup⟩ | hboot
  · rw [if_neg]
    · exact quiet_commitMetadataState hu (hup.recorded hfresh) hnext
    · rintro ⟨-, ha, hb⟩
      rcases hup.recovery with h | h
      · rw [ha] at h
        cases h
      · rw [hb] at h
        cases h
  · rw [if_pos ⟨hboot.bootstrap, by rw [hboot.recovery], by rw [hboot.recovery]⟩]
    obtain ⟨-, hvalid, hfields⟩ := bootMetadataPrepareNext_ok.mp hnext
    rw [hnext]
    simp only [Except.mapError, Prog.ofExcept, wp_bind, wp_pure, wp_maybeFault hu.hook]
    rw [hboot.before] at hvalid
    refine Returns.onDev_session (Returns.mapErr (quiet_bootMetadataReinitializeForRecovery
      hu.metadataWritable hu.quiet ⟨?_, ?_, ?_, ?_, hvalid⟩) _)
    · rw [hfields, hboot.before]
      rfl
    · rw [hfields]
    · rw [hfields, hboot.activeSlotId]
    · rw [hfields, hboot.candidate]

theorem quiet_readBackWriting {writing : BootMetadataRecord} (hq : s.dev.Quiet)
    (hj : journal s.dev.mem = .ok writing) (hstate : writing.state = .writing)
    (hactive : writing.activeSlot = s.session.activeSlotId)
    (hcand : writing.candidateSlot = s.session.candidate.toUInt32) : Returns readBackWriting s := by
  rw [readBackWriting]
  refine quiet_recover hq fun s₁ h₁ => ?_
  rw [Returns]
  rw [hj, wp_bind, wp_modifySession]
  refine Returns.ofExcept_bind rfl ?_
  rw [Returns]
  rw [wp_bind, wp_getSession]
  simp only [wp_check, h₁.session]
  exact ⟨fun _ => trivial, fun hn => hn ⟨hstate, hactive, hcand⟩⟩

/-- `WRITING` can be prepared for a version that is not zero until the sequence numbers run out. -/
theorem Selected.prepare_iff {session : UpdateInstallerSession} {version : UInt32}
    (hsel : Selected publicKey session) (hversion : version ≠ 0) :
    (∃ writing, bootMetadataPrepareNext session.metadataBefore .writing session.activeSlotId
      session.candidate.toUInt32 version 0 0 0 = .ok writing) ↔
      session.metadataBefore.sequence < 0xFFFFFFFE := by
  constructor
  · rintro ⟨writing, hw⟩
    exact (bootMetadataPrepareNext_ok.mp hw).1
  intro hseq
  refine ⟨_, bootMetadataPrepareNext_ok.mpr ⟨hseq, ?_, rfl⟩⟩
  have hlt : session.metadataBefore.sequence.toNat < 0xFFFFFFFE := UInt32.lt_iff_toNat_lt.mp hseq
  have hsucc : (session.metadataBefore.sequence + 1).toNat =
      session.metadataBefore.sequence.toNat + 1 := by
    refine toNat_succ fun heq => ?_
    rw [heq] at hlt
    exact absurd hlt (by decide)
  have hne : ∀ v : UInt32, (v.toNat = 0 ∨ v.toNat = 0xFFFFFFFF) →
      session.metadataBefore.sequence + 1 ≠ v := by
    intro v hv heq
    rw [← heq, hsucc] at hv
    omega
  have hmax : session.metadataBefore.sequence ≠ 0xFFFFFFFF := by
    intro heq
    rw [heq] at hlt
    exact absurd hlt (by decide)
  have hslots : slotValueIsValid session.activeSlotId = true ∧
      session.activeSlotId ≠ session.candidate.toUInt32 ∧
      (session.metadataBefore.state = .empty ∨ session.metadataBefore.state = .confirmed ∨
        session.metadataBefore.state = .rejectedInvalid) := by
    rcases hsel.source with ⟨slot, hup⟩ | hboot
    · rw [hup.activeSlotId, hup.candidate]
      exact ⟨slotValueIsValid_iff.mpr (.inr ⟨slot, rfl⟩), by simp, .inr hup.state⟩
    · rw [hboot.activeSlotId, hboot.before]
      exact ⟨by decide, fun h => session.candidate.toUInt32_ne_none h.symm, .inl rfl⟩
  obtain ⟨hvalid, hneq, hstate⟩ := hslots
  have hcand : slotValueIsValid session.candidate.toUInt32 = true :=
    slotValueIsValid_iff.mpr (.inr ⟨_, rfl⟩)
  rw [bootMetadataValidateTransition, stateRecordIsCanonical]
  simp only
  rw [if_neg (by simp [hne 0 (.inl rfl), hne 0xFFFFFFFF (.inr rfl), hmax]), if_neg (by
      rw [if_neg (by
        simp [hne 0 (.inl rfl), hne 0xFFFFFFFF (.inr rfl), hvalid, hcand])]
      simp [hversion, hneq])]
  rcases hstate with hs | hs | hs <;> simp [hs, transitionStateAllowed, transitionFieldsAllowed]

/-! ### `update_installer_session_init` -/

/-- A confirmed or rejected record with an active slot selects the other one. -/
theorem selectInactiveSlot_of_canonical {r : BootMetadataRecord} {slot : BootSlotId}
    (hcan : Canonical r) (hs : r.state = .confirmed ∨ r.state = .rejectedInvalid)
    (ha : r.activeSlot = slot.toUInt32) : selectInactiveSlot r = .ok (slot, slot.other) := by
  have hother : (if slot.toUInt32 = BootSlotId.a.toUInt32 then BootSlotId.b.toUInt32
      else BootSlotId.a.toUInt32) = slot.other.toUInt32 := by
    cases slot <;> rfl
  rw [selectInactiveSlot]
  simp only [ha, hother, bootSlotLookup_toUInt32, except_bind_eq_ok, require_eq_ok, bootSlots_id]
  refine ⟨(), ?_, (), ?_, rfl⟩
  · rw [checkUpdatable]
    rcases hs with hs | hs <;> rw [hs]
    · exact require_eq_ok.mpr (hcan.confirmed hs).2
    · obtain ⟨⟨c, hc⟩, -, hconf⟩ := hcan.candidate (by simp [hs]) (by simp [hs])
      refine require_eq_ok.mpr ⟨by simp [ha], ?_, hconf⟩
      rw [hc]
      exact c.toUInt32_ne_none
  · rintro ⟨hrej, hne⟩
    obtain ⟨⟨c, hc⟩, hact, -⟩ := hcan.candidate (by simp [hrej]) (by simp [hrej])
    rw [ha, hc] at hact
    refine hne (hc.trans ?_)
    rw [BootSlotId.eq_other_of_ne fun h => hact (congrArg BootSlotId.toUInt32 h.symm)]

/-- The flash contents a session can be opened on. -/
def Openable (recoveryBootstrap : Bool) (m : Mem) : Prop :=
  match journal m with
  | .ok r => (r.state = .confirmed ∨ r.state = .rejectedInvalid) ∧ r.activeSlot ≠ bootSlotNone
  | .error _ => recoveryBootstrap = true

/-- **When a session can be opened.** -/
theorem returns_updateInstallerSessionInit_iff {flash : BootFlash} {options : UpdateInstallOptions}
    {withResult : Bool} (hq : s.dev.Quiet) :
    Returns (updateInstallerSessionInit flash publicKey options withResult) s ↔
      optionsAreValid flash options = true ∧ Openable options.recoveryBootstrap s.dev.mem := by
  constructor
  · intro h
    obtain ⟨_, s', hrun⟩ := returns_iff.mp h
    obtain ⟨-, hinit, hsel⟩ := updateInstallerSessionInit_spec.ret hrun
    obtain ⟨flag, hfresh⟩ := hinit.fresh
    refine ⟨?_, ?_⟩
    · rw [← optionsAreValid_congr hinit.alignment, ← hinit.options]
      exact hsel.options
    rw [Openable]
    rcases hsel.source with ⟨slot, hup⟩ | hboot
    · rw [hup.recorded hfresh]
      exact ⟨hup.state, by rw [hup.before]; exact slot.toUInt32_ne_none⟩
    · have hbootstrap := hboot.bootstrap
      rw [hinit.options] at hbootstrap
      rcases hboot.not_recorded hfresh with h | h <;> rw [h] <;> exact hbootstrap
  rintro ⟨hvalid, hopen⟩
  rw [updateInstallerSessionInit]
  rw [Returns]
  simp only [wp_bind, wp_modifySession, wp_check, wp_modify]
  refine ⟨fun _ => ?_, fun hn => hn hvalid⟩
  generalize hs₀ : (if withResult = true then _ else _ : Installer) = s₀
  have hdev₀ : s₀.dev = s.dev := by
    rw [← hs₀]
    cases withResult <;> rfl
  obtain ⟨current, bootstrap, slots, hmeta, hslots⟩ : ∃ current bootstrap slots,
      metadataOrBootstrap options.recoveryBootstrap (journal s.dev.mem) = .ok (current, bootstrap) ∧
      selectSlots bootstrap current = .ok slots := by
    rw [Openable] at hopen
    rcases journal_cases s.dev.mem with ⟨r, hr⟩ | hr | hr <;> rw [hr] at hopen ⊢
    · have hcan := canonical_of_true (journal_canonical hr)
      obtain ⟨slot, hslot⟩ := hcan.active.resolve_left hopen.2
      refine ⟨r, false, (some slot, slot.other), rfl, ?_⟩
      rw [selectSlots]
      rw [if_neg Bool.false_ne_true, selectInactiveSlot_of_canonical hcan hopen.1 hslot]
      rfl
    · exact ⟨bootMetadataEmpty, true, (none, .a), by simp [metadataOrBootstrap, hopen], rfl⟩
    · exact ⟨bootMetadataEmpty, true, (none, .a), by simp [metadataOrBootstrap, hopen], rfl⟩
  refine wp_recover (fun s₁ h₁ => ?_) (fun _ _ hn => absurd (hdev₀ ▸ hq) hn)
    (fun _ _ hn => absurd (hdev₀ ▸ hq) hn)
  obtain ⟨restricted, hr, -, -⟩ := initRestrictedFlash_ok flash slots.2
  simp only [hdev₀, ← journal_eq, wp_failSession, wp_bind, hmeta, hslots, hr, Prog.ofExcept,
    wp_pure, wp_modifySession]
  exact wp_modifyResult fun _ => trivial

/-! ### `update_installer_begin` -/

theorem HeaderAccepted.unique {c : BootSlotId} {header header' : UpdatePackageHeader}
    (h : HeaderAccepted crypto publicKey headerBytes (bootSlots c) header)
    (h' : HeaderAccepted crypto publicKey headerBytes (bootSlots c) header') : header' = header :=
  Except.ok.inj (h'.parse.symm.trans h.parse)

/-- The checks pass once the metadata has been read. -/
theorem returns_beginChecks {header : UpdatePackageHeader} {d' : Device}
    (hread : (bootMetadataRecoverFromFlash : Prog Device UpdateInstallError _) s.dev =
      .ret (recovered s.dev.mem) d') (hmem : d'.mem = s.dev.mem)
    (haligned : s.session.restrictedFlash.programAlignment ∣ 8)
    (hacc : BeginAccepted crypto s.session s.dev.mem headerBytes header) :
    Returns (beginChecks crypto headerBytes) s := by
  obtain ⟨⟨flag, hfresh⟩, haccepted, v, hv, hlt⟩ := hacc
  obtain ⟨size, hsize⟩ := candidatePackageFits_of_accepted (haligned.trans (by decide)) haccepted
  have hversion : confirmedVersionForUpdate crypto { s.session with header } d'.mem = .ok v := by
    rw [hmem]
    exact hv
  rw [journal_eq] at hfresh
  rw [Returns, beginChecks, onDev]
  simp only [wp_bind, wp_getSession, wp_zoom]
  refine wp_of_ret hread ?_
  simp only [hfresh, haccepted.verify, Prog.ofExcept, Except.mapError, wp_pure, wp_check]
  refine ⟨fun _ => wp_modifyResult fun result => ?_, fun hn => hn (recordsAreEqual_iff.mpr rfl)⟩
  simp only [wp_modifySession, wp_get, hversion, hsize, wp_pure]
  exact ⟨fun _ => wp_modifyResult fun _ => trivial, fun hn => hn hlt⟩

theorem quiet_beginChecks {header : UpdatePackageHeader} (hu : Undisturbed s)
    (hacc : BeginAccepted crypto s.session s.dev.mem headerBytes header) :
    Returns (beginChecks crypto headerBytes) s := by
  have hread : wp (bootMetadataRecoverFromFlash : Prog Device UpdateInstallError _) s.dev
      (fun r d' => r = recovered s.dev.mem ∧ d'.mem = s.dev.mem) (fun _ _ => False)
      (fun _ => False) :=
    bootMetadataRecoverFromFlash_spec (fun _ _ => ⟨rfl, rfl⟩) (fun _ hn => absurd hu.quiet hn)
      (fun _ hn => hn hu.quiet)
  cases hrun : (bootMetadataRecoverFromFlash : Prog Device UpdateInstallError _) s.dev with
  | ret r d' =>
    obtain ⟨rfl, hmem⟩ := hread.ret hrun
    exact returns_beginChecks hrun hmem hu.aligned hacc
  | err e d' => exact (hread.err hrun).elim
  | cut d' => exact (hread.cut hrun).elim

/-- An admissible header is written into the slot. -/
theorem quiet_updateInstallerBegin (hu : Undisturbed s) (hinv : SessionInv publicKey s)
    (hadm : BeginAdmitted crypto s headerBytes) :
    wp (updateInstallerBegin crypto headerBytes) s (fun _ s' => HeaderWritten headerBytes s')
      (fun _ _ => False) (fun _ => False) := by
  obtain ⟨hstate, header, next, hacc, hnext⟩ := hadm
  have hsel := hinv.selected hstate
  rw [updateInstallerBegin]
  simp only [wp_bind, wp_getSession, wp_check, wp_failSession]
  refine ⟨fun _ => ?_, fun hn => hn hstate⟩
  refine ((quiet_beginChecks hu hacc).spec beginChecks_spec).mono ?_ (fun _ _ h => h) (fun _ h => h)
  rintro _ s₁ ⟨hread, header', size, hsession₁, hacc', -⟩
  obtain rfl : header = header' := hacc'.accepted.unique hacc.accepted
  obtain ⟨flag, hfresh⟩ := hacc.fresh
  have hmem₁ : s₁.dev.mem = s.dev.mem := hread.eq_of_false.1
  have hu₁ : Undisturbed s₁ := by
    refine ⟨hread.quiet hu.quiet, ?_, ?_, ?_⟩ <;> rw [hsession₁]
    · exact hu.hook
    · exact hu.aligned
    · exact hu.restricted
  have hsel₁ : Selected publicKey s₁.session := by
    rw [hsession₁]
    exact hsel.of_header header size
  have hfresh₁ : metadataOrBootstrap s₁.session.options.recoveryBootstrap (journal s₁.dev.mem) =
      .ok (s₁.session.metadataBefore, flag) := by
    rw [hsession₁, hmem₁]
    exact hfresh
  have hnext₁ : bootMetadataPrepareNext s₁.session.metadataBefore .writing s₁.session.activeSlotId
      s₁.session.candidate.toUInt32 s₁.session.header.manifest.imageVersion 0 0 0 = .ok next := by
    rw [hsession₁]
    exact hnext
  refine ((quiet_commitWriting hu₁ hsel₁ hfresh₁ hnext₁).and (commitWriting_spec hsel₁ hfresh₁)).mono
    ?_ (fun _ _ h => h.1) (fun _ h => h.1)
  rintro _ s₂ ⟨hsession₂, hsteady₂, next', hnext', hj₂⟩
  obtain rfl : next = next' := Except.ok.inj (hnext₁.symm.trans hnext')
  obtain ⟨-, -, hfields⟩ := bootMetadataPrepareNext_ok.mp hnext₁
  rw [wp_modifySession, hsession₂]
  obtain ⟨hq₂, hh₂, ha₂, hr₂⟩ := hu₁.steady hsteady₂
  rw [hsession₂] at hh₂ ha₂ hr₂
  have hback : Returns readBackWriting
      { s₂ with session := { s₁.session with metadataWritingCommitted := true } } :=
    quiet_readBackWriting hq₂ hj₂ (by rw [hfields]) (by rw [hfields]) (by rw [hfields])
  refine (hback.spec (readBackWriting_spec hj₂)).mono ?_ (fun _ _ h => h) (fun _ h => h)
  rintro _ s₃ ⟨hread₃, hsession₃, -⟩
  have hu₃ : Undisturbed s₃ := by
    refine ⟨hread₃.quiet hq₂, ?_, ?_, ?_⟩ <;> rw [hsession₃]
    · exact hh₂
    · exact ha₂
    · exact hr₂
  refine (quiet_programHeader hu₃ ?_ hacc.accepted.length ?_).mono
    (fun _ s₄ h₄ => ⟨h₄.header, h₄.blank, h₄.blocks⟩) (fun _ _ h => h) (fun _ h => h)
  · rw [hsession₃]
    exact hsel₁.options
  · rw [hsession₃]
    exact hsel₁.blocks

/-- **An acceptable header is accepted.** -/
theorem returns_updateInstallerBegin_iff (hu : Undisturbed s) (hinv : SessionInv publicKey s) :
    Returns (updateInstallerBegin crypto headerBytes) s ↔ BeginAdmitted crypto s headerBytes := by
  constructor
  · intro h
    obtain ⟨_, s', hrun⟩ := returns_iff.mp h
    exact updateInstallerBegin_admitted hinv (.inl ⟨s', hrun⟩)
  · exact fun hadm => (quiet_updateInstallerBegin hu hinv hadm).mono (fun _ _ _ => trivial)
      (fun _ _ h => h) (fun _ h => h)

/-! ### The alignment -/

/-- A block that was programmed was aligned. -/
theorem bootFlashProgramAligned_aligned {d : Device} {flash : BootFlash} {address : ℕ}
    {data : List UInt8} (hdata : data.length ≠ 0) :
    wp (bootFlashProgramAligned targetOps flash address data) d
      (fun _ _ => flash.programAlignment ∣ data.length) (fun _ _ => True) (fun _ => True) := by
  rw [bootFlashProgramAligned, if_neg hdata, wp_bind, wp_check]
  refine ⟨fun haligned => ?_, fun _ => trivial⟩
  exact wp_of_forall fun _ _ => (flash.aligned_iff _).mp haligned.2

/-- A copy can only be written with an alignment that its commit marker has. -/
theorem writeCopy_aligned {d : Device} {flash : BootFlash} {copy : BootMetadataCopy}
    {record : BootMetadataRecord} :
    wp (writeCopy flash copy record) d (fun _ _ => flash.programAlignment ∣ 8) (fun _ _ => True)
      (fun _ => True) := by
  have hside : ∀ side, wp (writeCopy flash (copyId side) record) d
      (fun _ _ => flash.programAlignment ∣ 8) (fun _ _ => True) (fun _ => True) := by
    intro side
    by_cases hn : stateRecordIsCanonical record = true
    · have hlength : ((encodedRecord record).drop 120).length = 8 := by simp
      rw [writeCopy_eq hn]
      simp only [wp_bind, wp_mapErr]
      refine wp_of_forall fun _ _ => wp_of_forall fun _ _ => ?_
      refine (bootFlashProgramAligned_aligned (by omega)).mono (fun _ _ h => ?_) (fun _ _ h => h)
        (fun _ h => h)
      rw [hlength] at h
      exact h
    · rw [writeCopy_of_not_canonical (by simpa using hn)]
      exact trivial
  cases copy with
  | a => exact hside .first
  | b => exact hside .second
  | none => exact trivial

theorem bootMetadataCommit_aligned {d : Device} {flash : BootFlash} {next : BootMetadataRecord} :
    wp (bootMetadataCommit flash next) d (fun _ _ => flash.programAlignment ∣ 8) (fun _ _ => True)
      (fun _ => True) := by
  rw [bootMetadataCommit]
  simp only [wp_bind, wp_ofExcept]
  refine wp_of_forall fun _ _ => ?_
  exact ⟨fun _ _ => ⟨fun _ _ => writeCopy_aligned, fun _ _ => trivial⟩, fun _ _ => trivial⟩

theorem bootMetadataReinitializeForRecovery_aligned {d : Device} {flash : BootFlash}
    {next : BootMetadataRecord} :
    wp (bootMetadataReinitializeForRecovery flash next) d (fun _ _ => flash.programAlignment ∣ 8)
      (fun _ _ => True) (fun _ => True) := by
  rw [bootMetadataReinitializeForRecovery]
  simp only [wp_bind, wp_check, wp_mapErr]
  refine ⟨fun _ => ?_, fun _ => trivial⟩
  exact wp_of_forall fun _ _ => wp_of_forall fun _ _ => writeCopy_aligned

/-- `WRITING` can only be committed with an alignment that the metadata can live with. -/
theorem commitWriting_aligned :
    wp commitWriting s (fun _ _ => s.session.restrictedFlash.programAlignment ∣ 8)
      (fun _ _ => True) (fun _ => True) := by
  have hflash : ∀ {s'}, Steady (fun _ => True) s s' →
      s'.session.restrictedFlash = s.session.restrictedFlash := fun h => h.restrictedFlash
  rw [commitWriting, wp_bind, wp_getSession]
  split
  · simp only [wp_bind, wp_ofExcept]
    refine ⟨fun next _ => ?_, fun _ _ => trivial⟩
    refine wp.mono (steps_maybeFault (R := fun _ => True) _ _) (fun _ s₁ h₁ => ?_)
      (fun _ _ _ => trivial) (fun _ _ => trivial)
    rw [onDev, wp_zoom, wp_mapErr]
    exact bootMetadataReinitializeForRecovery_aligned
  · rw [commitMetadataState]
    simp only [wp_bind, wp_ofExcept, wp_getSession]
    refine ⟨fun next _ => ?_, fun _ _ => trivial⟩
    refine wp.mono (steps_maybeFault (R := fun _ => True) _ _) (fun _ s₁ h₁ => ?_)
      (fun _ _ _ => trivial) (fun _ _ => trivial)
    rw [onDev, wp_zoom, wp_mapErr, ← hflash h₁]
    exact bootMetadataCommit_aligned

/-- **A header can only be accepted with an alignment that the metadata can live with.** -/
theorem updateInstallerBegin_aligned :
    wp (updateInstallerBegin crypto headerBytes) s
      (fun _ _ => s.session.restrictedFlash.programAlignment ∣ 8) (fun _ _ => True)
      (fun _ => True) := by
  rw [updateInstallerBegin]
  simp only [wp_bind, wp_getSession, wp_check, wp_failSession]
  refine ⟨fun _ => ?_, fun _ => trivial⟩
  refine beginChecks_spec.mono ?_ (fun _ _ _ => trivial) (fun _ _ => trivial)
  rintro _ s₁ ⟨-, header, size, hsession₁, -⟩
  refine commitWriting_aligned.mono (fun _ s₂ haligned => ?_) (fun _ _ _ => trivial)
    (fun _ _ => trivial)
  rw [hsession₁] at haligned
  exact wp_of_forall fun _ _ => wp_of_forall fun _ _ => wp_of_forall fun _ _ => haligned

end Stm32SecurityLab
