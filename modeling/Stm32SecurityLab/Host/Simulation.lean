import Stm32SecurityLab.Installer.Contents

/-!
# An install on the host

`install_simulated` of `tools/update_package.py` computes the flash that an install leaves, out of
slices of one byte array. The records come from `boot_metadata_provision_core.c`, which prepares and
encodes them as the device does, but never writes or recovers one.

Python integers are natural numbers. The tool takes them as decimal texts, and refuses what does not
fit a word. Of the report, the layout and the repeated result of the verifier are left out.

## Main definitions

* `bootMetadataProvisionUpdateSequence`, `metadataUpdateSequence` — the three records
* `installSimulated`
* `confirmedFlash` — the flash of a device with one confirmed image

## Main results

* `installSimulated_agrees` — the host refuses what the device refuses, and computes what it writes
-/

namespace Stm32SecurityLab

open Crash

namespace Host

/-! ### The records -/

/-- `prepare_confirmed`. -/
def prepareConfirmed (activeSlot imageVersion : UInt32) :
    Except BootMetadataError BootMetadataRecord :=
  bootMetadataPrepareNext bootMetadataEmpty .confirmed activeSlot bootSlotNone imageVersion 0 1 0

/-- `boot_metadata_provision_confirmed_image`. -/
def bootMetadataProvisionConfirmedImage (activeSlot imageVersion : UInt32) :
    Except BootMetadataError (List UInt8) := do
  let record ← prepareConfirmed activeSlot imageVersion
  bootMetadataEncode record

/-- The three outputs of `boot_metadata_provision_update_sequence`. -/
structure UpdateSequence where
  confirmed : List UInt8
  writing : List UInt8
  candidateReady : List UInt8
  deriving DecidableEq, Repr

/-- `boot_metadata_provision_update_sequence`. -/
def bootMetadataProvisionUpdateSequence
    (activeSlot candidateSlot activeImageVersion candidateImageVersion : UInt32) :
    Except BootMetadataError UpdateSequence := do
  require (¬ (activeSlot = candidateSlot ∨ candidateImageVersion ≤ activeImageVersion)) .badFormat
  let confirmedRecord ← prepareConfirmed activeSlot activeImageVersion
  let writingRecord ← bootMetadataPrepareNext confirmedRecord .writing activeSlot candidateSlot
    candidateImageVersion 0 0 0
  let readyRecord ← bootMetadataPrepareNext writingRecord .candidateReady activeSlot candidateSlot
    candidateImageVersion 0 0 0
  let confirmed ← bootMetadataEncode confirmedRecord
  let writing ← bootMetadataEncode writingRecord
  let candidateReady ← bootMetadataEncode readyRecord
  pure { confirmed, writing, candidateReady }

/-- The texts of `PackageError` in `install_simulated` and what it calls. -/
inductive SimulationError where
  | package (error : PackageError)
  | versionNotAdvanced
  | addressOutsideFlash
  | metadataSequence
  | recordSize
  | hashChanged
  deriving DecidableEq, Repr

/-- `parse_u32` of the tool, on the text of a Python integer. -/
def parseU32 (value : ℕ) : Option UInt32 :=
  if value > uint32Max then none else some (UInt32.ofNat value)

/-- `run_create_update_sequence` of the tool: the files it writes, if it does. -/
def runCreateUpdateSequence (activeSlot : BootSlotId) (activeVersion : ℕ)
    (candidateSlot : BootSlotId) (candidateVersion : ℕ) : Option UpdateSequence := do
  let activeVersion ← parseU32 activeVersion
  let candidateVersion ← parseU32 candidateVersion
  (bootMetadataProvisionUpdateSequence activeSlot.toUInt32 candidateSlot.toUInt32 activeVersion
    candidateVersion).toOption

/-- The exit status of the tool. -/
def checkCall : Option UpdateSequence → Except SimulationError UpdateSequence
  | none => .error .metadataSequence
  | some records => .ok records

/-- `metadata_update_sequence`. -/
def metadataUpdateSequence (activeSlot : BootSlotId) (activeVersion : ℕ)
    (candidateSlot : BootSlotId) (candidateVersion : ℕ) :
    Except SimulationError UpdateSequence := do
  let records ← checkCall
    (runCreateUpdateSequence activeSlot activeVersion candidateSlot candidateVersion)
  require (records.confirmed.length = Layout.bootMetadataRecordSize ∧
    records.writing.length = Layout.bootMetadataRecordSize ∧
    records.candidateReady.length = Layout.bootMetadataRecordSize) .recordSize
  pure records

/-! ### The install -/

/-- `flash_offset`. -/
def flashOffset (address : ℕ) : Except SimulationError ℕ := do
  require (Layout.flashBase ≤ address ∧ address ≤ Layout.flashEnd) .addressOutsideFlash
  pure (address - Layout.flashBase)

/-- `flash[offset:offset + len(data)] = data`. -/
def sliceAssign (flash : List UInt8) (offset : ℕ) (data : List UInt8) : List UInt8 :=
  flash.take offset ++ data ++ flash.drop (offset + data.length)

/-- The report of `install_simulated`. -/
structure SimulationReport where
  activeSlot : BootSlotId
  inactiveSlot : BootSlotId
  activeVersion : ℕ
  candidateVersion : ℕ
  metadataStates : List BootMetadataState
  installedAddress : ℕ
  installedSize : ℕ
  deriving DecidableEq, Repr

/-- The flash that `install_simulated` starts from. -/
def blankFlash : List UInt8 := List.replicate Layout.flashTotalSize 0xFF

/-- `install_simulated`. -/
def installSimulated (crypto : Crypto) (package publicKey : List UInt8) (activeSlot : BootSlotId)
    (activeVersion : ℕ) : Except SimulationError (List UInt8 × SimulationReport) := do
  let inactiveSlot := activeSlot.other
  let verified ←
    (verifyPackageBytes crypto package publicKey inactiveSlot none).mapError .package
  let imageVersion := verified.2.manifest.imageVersion
  require (¬ imageVersion ≤ activeVersion) .versionNotAdvanced
  let records ← metadataUpdateSequence activeSlot activeVersion inactiveSlot imageVersion
  let aOff ← flashOffset Layout.bootMetadataABase
  let bOff ← flashOffset Layout.bootMetadataBBase
  let flash := sliceAssign blankFlash aOff records.confirmed
  let flash := sliceAssign flash bOff records.writing
  let slotBase := (bootSlots inactiveSlot).signedImageBase
  let slotOff ← flashOffset slotBase
  let flash := sliceAssign flash slotOff package
  let installed := (flash.drop slotOff).take package.length
  let installedVerified ←
    (verifyPackageBytes crypto installed publicKey inactiveSlot none).mapError .package
  require (installedVerified.2.manifest.payloadSha512 = verified.2.manifest.payloadSha512)
    .hashChanged
  let flash := sliceAssign flash aOff records.candidateReady
  pure (flash,
    { activeSlot
      inactiveSlot
      activeVersion
      candidateVersion := imageVersion
      metadataStates := [.confirmed, .writing, .candidateReady]
      installedAddress := slotBase
      installedSize := package.length })

/-- The flash of a device with one confirmed image: nothing but a record in metadata copy A. -/
def confirmedFlash (activeSlot : BootSlotId) (activeVersion : ℕ) :
    Except BootMetadataError (List UInt8) := do
  let confirmed ← bootMetadataProvisionConfirmedImage activeSlot.toUInt32
    (UInt32.ofNat activeVersion)
  pure (sliceAssign blankFlash (Layout.bootMetadataABase - Layout.flashBase) confirmed)

/-! ### Slices of the flash -/

section Slices

variable {m dst : Mem} {base offset n x : ℕ} {data src flash : List UInt8}

/-- Assigning a slice is copying to the memory. -/
theorem sliceAssign_slice (h : offset + data.length ≤ n) :
    sliceAssign (slice m base n) offset data = slice (memcpy m (base + offset) data) base n := by
  obtain ⟨rest, rfl⟩ := Nat.exists_eq_add_of_le h
  rw [sliceAssign, slice_take (by omega), slice_drop (by omega), slice_add, slice_add,
    Nat.add_sub_cancel_left, slice_memcpy,
    slice_congr (q := m) fun y _ hy => memcpy_of_not_mem (by omega),
    slice_congr (p := memcpy m (base + offset) data) (q := m) fun y hy _ =>
      memcpy_of_not_mem (by omega)]

theorem blankFlash_eq :
    blankFlash = slice (fun _ => 0xFF) Layout.flashBase Layout.flashTotalSize :=
  (slice_blank fun _ _ _ => rfl).symm

/-- A byte of what was copied, or of the blank flash behind it. -/
theorem memcpy_eq_getD (hx : offset ≤ x) (hblank : offset + src.length ≤ x → dst x = 0xFF) :
    memcpy dst offset src x = src.getD (x - offset) 0xFF := by
  rcases Nat.lt_or_ge x (offset + src.length) with hlt | hge
  · rw [memcpy, if_pos ⟨hx, hlt⟩, byteAt, List.getD, List.getD,
      List.getElem?_eq_getElem (by omega)]
    rfl
  · rw [memcpy_of_not_mem (by omega), hblank hge, List.getD, List.getElem?_eq_none (by omega)]
    rfl

end Slices

/-- A byte of a filled slot. -/
theorem filled_getD {headerBytes payload : List UInt8} {c : BootSlotId} {m : Mem} {x : ℕ}
    (h : SlotFilled headerBytes payload c m) (hx : (bootSlots c).signedImageBase ≤ x)
    (hx' : x < (bootSlots c).slotEnd) :
    m x = (headerBytes ++ payload).getD (x - (bootSlots c).signedImageBase) 0xFF := by
  have hbyte := congrArg (·[x - (bootSlots c).signedImageBase]?) h
  rw [slice_getElem? (by omega), Nat.add_sub_of_le hx] at hbyte
  rcases Nat.lt_or_ge (x - (bootSlots c).signedImageBase) (headerBytes ++ payload).length with
    hlt | hge
  · rw [List.getElem?_append_left hlt] at hbyte
    rw [List.getD, ← hbyte, Option.getD_some]
  · rw [List.getElem?_append_right hge, List.getElem?_replicate] at hbyte
    rw [List.getD, List.getElem?_eq_none hge, Option.getD_none]
    split at hbyte
    · exact Option.some.inj hbyte
    · cases hbyte

/-! ### The records of an update -/

section Records

variable {active : BootSlotId} {version activeVersion candidateVersion : UInt32}

/-- The record of a device that has only ever had one image. -/
def confirmedRecord (active : BootSlotId) (version : UInt32) : BootMetadataRecord where
  sequence := 1
  state := .confirmed
  activeSlot := active.toUInt32
  candidateSlot := bootSlotNone
  candidateImageVersion := version
  bootAttemptCount := 0
  confirmationState := 1
  result := 0

/-- The record of its first update. -/
def writingRecord (active : BootSlotId) (version : UInt32) : BootMetadataRecord where
  sequence := 2
  state := .writing
  activeSlot := active.toUInt32
  candidateSlot := active.other.toUInt32
  candidateImageVersion := version
  bootAttemptCount := 0
  confirmationState := 0
  result := 0

/-- The record of its first update, once it can be tried. -/
def readyRecord (active : BootSlotId) (version : UInt32) : BootMetadataRecord :=
  { writingRecord active version with sequence := 3, state := .candidateReady }

theorem prepareConfirmed_eq (h : version ≠ 0) :
    prepareConfirmed active.toUInt32 version = .ok (confirmedRecord active version) := by
  refine bootMetadataPrepareNext_ok.mpr ⟨by decide, ?_, rfl⟩
  cases active <;> simp [bootMetadataValidateTransition, stateRecordIsCanonical,
    transitionStateAllowed, transitionFieldsAllowed, confirmedRecord, bootMetadataEmpty, h] <;> decide

theorem prepare_writing (h : candidateVersion ≠ 0) :
    bootMetadataPrepareNext (confirmedRecord active activeVersion) .writing active.toUInt32
      active.other.toUInt32 candidateVersion 0 0 0 = .ok (writingRecord active candidateVersion) := by
  refine bootMetadataPrepareNext_ok.mpr ⟨show (1 : UInt32) < 0xFFFFFFFE by decide, ?_, rfl⟩
  cases active <;> simp [bootMetadataValidateTransition, stateRecordIsCanonical,
    transitionStateAllowed, transitionFieldsAllowed, confirmedRecord, writingRecord,
    BootSlotId.other, h] <;> decide

theorem prepare_ready (h : candidateVersion ≠ 0) :
    bootMetadataPrepareNext (writingRecord active candidateVersion) .candidateReady active.toUInt32
      active.other.toUInt32 candidateVersion 0 0 0 = .ok (readyRecord active candidateVersion) := by
  refine bootMetadataPrepareNext_ok.mpr ⟨show (2 : UInt32) < 0xFFFFFFFE by decide, ?_, rfl⟩
  cases active <;> simp [bootMetadataValidateTransition, stateRecordIsCanonical,
    transitionStateAllowed, transitionFieldsAllowed, readyRecord, writingRecord,
    BootSlotId.other, h] <;> decide

theorem canonical_of_prepare {current next : BootMetadataRecord} {state : BootMetadataState}
    {active candidate version attempts confirmation result : UInt32}
    (h : bootMetadataPrepareNext current state active candidate version attempts confirmation result =
      .ok next) : stateRecordIsCanonical next = true :=
  (bootMetadataValidateTransition_ok (bootMetadataPrepareNext_ok.mp h).2.1).2.2.1

theorem bootMetadataEncode_of_prepare {current next : BootMetadataRecord} {state : BootMetadataState}
    {active candidate version attempts confirmation result : UInt32}
    (h : bootMetadataPrepareNext current state active candidate version attempts confirmation result =
      .ok next) : bootMetadataEncode next = .ok (encodedRecord next) := by
  rw [bootMetadataEncode, if_neg (by rw [canonical_of_prepare h]; exact Bool.noConfusion)]

/-- The three records, encoded. -/
def encodedSequence (active : BootSlotId) (activeVersion candidateVersion : UInt32) :
    UpdateSequence where
  confirmed := encodedRecord (confirmedRecord active activeVersion)
  writing := encodedRecord (writingRecord active candidateVersion)
  candidateReady := encodedRecord (readyRecord active candidateVersion)

/-- The core of the tool prepares the three records for every newer version. -/
theorem bootMetadataProvisionUpdateSequence_eq (hactive : activeVersion ≠ 0)
    (hnewer : activeVersion < candidateVersion) :
    bootMetadataProvisionUpdateSequence active.toUInt32 active.other.toUInt32 activeVersion
      candidateVersion = .ok (encodedSequence active activeVersion candidateVersion) := by
  have hcandidate : candidateVersion ≠ 0 := by
    rintro rfl
    exact absurd hnewer UInt32.not_lt_zero
  have hslots : active.toUInt32 ≠ active.other.toUInt32 := by cases active <;> decide
  have hconfirmed := @prepareConfirmed_eq active _ hactive
  have hwriting := @prepare_writing active activeVersion _ hcandidate
  have hready := @prepare_ready active _ hcandidate
  rw [bootMetadataProvisionUpdateSequence]
  simp only [except_bind_eq_ok, require_eq_ok, Unique.exists_iff, hconfirmed, hwriting, hready,
    bootMetadataEncode_of_prepare hconfirmed, bootMetadataEncode_of_prepare hwriting,
    bootMetadataEncode_of_prepare hready, Except.ok.injEq, exists_eq_left']
  refine ⟨fun h => h.elim hslots fun hle => absurd hnewer (UInt32.not_lt.mpr hle), rfl⟩

/-- The tool writes the three records for versions that fit a word. -/
theorem metadataUpdateSequence_eq {v v' : ℕ} (hv : 0 < v) (hlt : v < v') (hv' : v' ≤ uint32Max) :
    metadataUpdateSequence active v active.other v' =
      .ok (encodedSequence active (UInt32.ofNat v) (UInt32.ofNat v')) := by
  have htoNat : (UInt32.ofNat v).toNat = v := Signer.toNat_ofNat_of_le (by omega)
  have htoNat' : (UInt32.ofNat v').toNat = v' := Signer.toNat_ofNat_of_le hv'
  have hne : UInt32.ofNat v ≠ 0 := by
    intro hzero
    rw [hzero] at htoNat
    exact absurd htoNat (Nat.ne_of_lt hv)
  have hnewer : UInt32.ofNat v < UInt32.ofNat v' := by
    rw [UInt32.lt_iff_toNat_lt, htoNat, htoNat']
    exact hlt
  have hrun : runCreateUpdateSequence active v active.other v' =
      some (encodedSequence active (UInt32.ofNat v) (UInt32.ofNat v')) := by
    rw [runCreateUpdateSequence, parseU32, parseU32, if_neg (by omega), if_neg (by omega)]
    simp only [Option.bind_eq_bind, Option.bind_some,
      bootMetadataProvisionUpdateSequence_eq hne hnewer]
    rfl
  rw [metadataUpdateSequence, hrun]
  simp only [checkCall, except_bind_eq_ok, require_eq_ok, Unique.exists_iff, Except.ok.injEq,
    exists_eq_left', encodedSequence, encodedRecord_length]
  exact ⟨⟨rfl, rfl, rfl⟩, rfl⟩

end Records

/-! ### The host -/

section Simulation

variable {crypto : Crypto} {package publicKey : List UInt8} {active : BootSlotId} {v : ℕ}

/-- The result of the verifier holds the manifest of the package. -/
theorem verifyPackageBytes_manifest {slot : BootSlotId}
    {result : Inspected × ReleaseArtifacts.Verified}
    (h : verifyPackageBytes crypto package publicKey slot none = .ok result) :
    result.2.manifest = manifestOf (decodeManifestBytes (byteAt package)) := by
  simp only [verifyPackageBytes, inspectPackageBytes, ReleaseArtifacts.verifySignedImage,
    except_bind_eq_ok, require_eq_ok, Unique.exists_iff, mapError_eq_ok] at h
  obtain ⟨_, ⟨hheader, -⟩, -, verified, ⟨_, -, -, manifest, hmanifest, hrest⟩, hresult⟩ := h
  have hle : Layout.signedManifestSize ≤ package.length := le_trans (Nat.le_add_right _ _) hheader
  rw [decodeManifest_take hle] at hmanifest
  obtain rfl := Except.ok.inj hmanifest
  obtain ⟨-, -, -, -, -, -, -, -, -, -, -, -, -, -, -, _, -, hverified⟩ := hrest
  rw [← Except.ok.inj hresult, ← Except.ok.inj hverified]

/-- The slices that `install_simulated` assigns. -/
def installedFlash (active : BootSlotId) (package : List UInt8) (records : UpdateSequence) :
    List UInt8 :=
  sliceAssign (sliceAssign (sliceAssign (sliceAssign blankFlash
    (Layout.bootMetadataABase - Layout.flashBase) records.confirmed)
    (Layout.bootMetadataBBase - Layout.flashBase) records.writing)
    ((bootSlots active.other).signedImageBase - Layout.flashBase) package)
    (Layout.bootMetadataABase - Layout.flashBase) records.candidateReady

theorem flashOffset_eq {address : ℕ} (h : Layout.flashBase ≤ address ∧ address ≤ Layout.flashEnd) :
    flashOffset address = .ok (address - Layout.flashBase) := by
  rw [flashOffset]
  simp only [except_bind_eq_ok, require_eq_ok, Unique.exists_iff]
  exact ⟨h, rfl⟩

theorem sliceAssign_length {flash data : List UInt8} {offset : ℕ}
    (h : offset + data.length ≤ flash.length) :
    (sliceAssign flash offset data).length = flash.length := by
  rw [sliceAssign, List.length_append, List.length_append, List.length_take, List.length_drop]
  omega

/-- What was assigned is read back. -/
theorem drop_take_sliceAssign {flash data : List UInt8} {offset : ℕ} (h : offset ≤ flash.length) :
    ((sliceAssign flash offset data).drop offset).take data.length = data := by
  have hlength : (flash.take offset).length = offset := by
    rw [List.length_take, Nat.min_eq_left h]
  rw [sliceAssign, List.append_assoc, List.drop_left' hlength, List.take_left]

/-- **What the host simulates.** It raises unless the package is accepted for the other slot, with a
version above the confirmed one. -/
theorem installSimulated_spec (hkey : publicKey.length = firmwarePublicKeySize) (hv : 0 < v) :
    ((∃ result, installSimulated crypto package publicKey active v = .ok result) ↔
      PackageAccepted crypto package publicKey active.other ∧
      v < (decodeManifestBytes (byteAt package)).imageVersion.toNat) ∧
    ∀ image report, installSimulated crypto package publicKey active v = .ok (image, report) →
      image = installedFlash active package (encodedSequence active (UInt32.ofNat v)
        (decodeManifestBytes (byteAt package)).imageVersion) := by
  obtain ⟨version, hversion⟩ : ∃ version,
      version = (decodeManifestBytes (byteAt package)).imageVersion := ⟨_, rfl⟩
  have hword : UInt32.ofNat version.toNat = version := UInt32.ofNat_toNat
  have hmax : version.toNat ≤ uint32Max := Nat.le_of_lt_succ version.toNat_lt
  have hA := @flashOffset_eq Layout.bootMetadataABase (by decide)
  have hB := @flashOffset_eq Layout.bootMetadataBBase (by decide)
  have hS := @flashOffset_eq (bootSlots active.other).signedImageBase (by cases active <;> decide)
  rw [← hversion]
  refine ⟨⟨?_, ?_⟩, ?_⟩
  · rintro ⟨result, h⟩
    simp only [installSimulated, except_bind_eq_ok, require_eq_ok, Unique.exists_iff,
      mapError_eq_ok] at h
    obtain ⟨verified, hverified, hnewer, -⟩ := h
    rw [verifyPackageBytes_manifest hverified, manifestOf, ← hversion] at hnewer
    exact ⟨(verifyPackageBytes_iff.mp ⟨verified, hverified⟩).2, Nat.lt_of_not_le hnewer⟩
  · rintro ⟨haccepted, hnewer⟩
    obtain ⟨verified, hverified⟩ := verifyPackageBytes_iff.mpr ⟨hkey, haccepted⟩
    have hmanifest := verifyPackageBytes_manifest hverified
    have hsequence := @metadataUpdateSequence_eq active v version.toNat hv hnewer hmax
    have himage : verified.2.manifest.imageVersion = version.toNat := by
      rw [hmanifest, manifestOf, ← hversion]
    have hblank : blankFlash.length = Layout.flashTotalSize := List.length_replicate
    have hlength : ∀ flash : List UInt8, flash.length = Layout.flashTotalSize →
        (bootSlots active.other).signedImageBase - Layout.flashBase ≤ flash.length := by
      intro flash hflash
      rw [hflash]
      cases active <;> decide
    simp only [installSimulated, except_bind_eq_ok, require_eq_ok, Unique.exists_iff,
      mapError_eq_ok]
    refine ⟨_, verified, hverified, by rw [himage]; exact Nat.not_le.mpr hnewer, _, himage ▸ hsequence,
      _, hA, _, hB, _, hS, verified, ?_, rfl, rfl⟩
    rw [drop_take_sliceAssign, hverified]
    refine hlength _ ?_
    rw [sliceAssign_length, sliceAssign_length, hblank]
    · rw [hblank, encodedSequence, encodedRecord_length]
      decide
    · rw [sliceAssign_length, hblank, encodedSequence, encodedRecord_length]
      · decide
      · rw [hblank, encodedSequence, encodedRecord_length]
        decide
  · intro image report h
    simp only [installSimulated, except_bind_eq_ok, require_eq_ok, Unique.exists_iff,
      mapError_eq_ok] at h
    obtain ⟨verified, hverified, hnewer, records, hrecords, a, ha, b, hb, slotOff, hslotOff, _, -, -,
      hresult⟩ := h
    have himage : verified.2.manifest.imageVersion = version.toNat := by
      rw [verifyPackageBytes_manifest hverified, manifestOf, ← hversion]
    rw [himage] at hrecords hnewer
    rw [metadataUpdateSequence_eq hv (Nat.lt_of_not_le hnewer) hmax, hword] at hrecords
    rw [hA] at ha
    rw [hB] at hb
    rw [hS] at hslotOff
    obtain rfl := Except.ok.inj ha
    obtain rfl := Except.ok.inj hb
    obtain rfl := Except.ok.inj hslotOff
    obtain rfl := Except.ok.inj hrecords
    exact (Prod.ext_iff.mp (Except.ok.inj hresult)).1.symm

end Simulation

/-! ### The device -/

section Device

variable {crypto : Crypto} {publicKey headerBytes payload : List UInt8} {active : BootSlotId}
  {v : ℕ} {m m' : Mem} {activeVersion version : UInt32}

/-- The bytes of a device with one confirmed image. -/
def ConfirmedBytes (active : BootSlotId) (version : UInt32) (m : Mem) : Prop :=
  ∀ x, Layout.flashBase ≤ x → x < Layout.flashBase + Layout.flashTotalSize →
    m x = memcpy (fun _ => 0xFF) Layout.bootMetadataABase
      (encodedRecord (confirmedRecord active version)) x

/-- The flash of such a device as a memory. -/
theorem confirmedFlash_eq (hv : UInt32.ofNat v ≠ 0) :
    confirmedFlash active v = .ok (slice (memcpy (fun _ => 0xFF) Layout.bootMetadataABase
      (encodedRecord (confirmedRecord active (UInt32.ofNat v)))) Layout.flashBase
      Layout.flashTotalSize) := by
  have hprepare := @prepareConfirmed_eq active _ hv
  have hlength : (encodedRecord (confirmedRecord active (UInt32.ofNat v))).length = 128 :=
    encodedRecord_length _
  simp only [confirmedFlash, bootMetadataProvisionConfirmedImage, except_bind_eq_ok, hprepare,
    bootMetadataEncode_of_prepare hprepare, Except.ok.injEq, exists_eq_left']
  rw [blankFlash_eq, sliceAssign_slice (by rw [hlength]; decide),
    Nat.add_sub_of_le (show Layout.flashBase ≤ Layout.bootMetadataABase by decide)]
  rfl

theorem confirmedBytes_of_flash (hv : UInt32.ofNat v ≠ 0)
    (h : confirmedFlash active v = .ok (slice m Layout.flashBase Layout.flashTotalSize)) :
    ConfirmedBytes active (UInt32.ofNat v) m := by
  rw [confirmedFlash_eq hv] at h
  intro x hx hx'
  have hbyte := congrArg (·[x - Layout.flashBase]?) (Except.ok.inj h)
  rw [slice_getElem? (by omega), slice_getElem? (by omega), Nat.add_sub_of_le hx] at hbyte
  exact (Option.some.inj hbyte).symm

namespace ConfirmedBytes

theorem blank (h : ConfirmedBytes active version m) {x : ℕ} (hx : Layout.flashBase ≤ x)
    (hx' : x < Layout.flashBase + Layout.flashTotalSize)
    (hout : ¬ (Layout.bootMetadataABase ≤ x ∧ x < Layout.bootMetadataABase + 128)) :
    m x = 0xFF := by
  rw [h x hx hx', memcpy_of_not_mem (by rw [encodedRecord_length]; exact hout)]

/-- The first copy holds the record, and there is no second one. -/
theorem copies_eq (h : ConfirmedBytes active version m) (hversion : version ≠ 0) :
    copies m = Function.update (fun _ => none) .first (some (confirmedRecord active version)) := by
  funext side
  cases side with
  | first =>
    rw [Function.update_self]
    refine copies_eq_some (canonical_of_prepare (prepareConfirmed_eq hversion)) ?_
    have hcopy : (copySector .first).base = Layout.bootMetadataABase := rfl
    have hlength : (encodedRecord (confirmedRecord active version)).length = 128 :=
      encodedRecord_length _
    have hsize : Layout.bootMetadataRecordSize =
        (encodedRecord (confirmedRecord active version)).length := hlength.symm
    rw [hcopy, hsize, slice_congr (q := memcpy (fun _ => 0xFF) Layout.bootMetadataABase
      (encodedRecord (confirmedRecord active version))) fun x hx hx' => h x ?_ ?_, slice_memcpy]
    · exact le_trans (by decide) hx
    · exact lt_of_lt_of_le hx' (by rw [hlength]; decide)
  | second =>
    rw [Function.update_of_ne (by decide)]
    exact copies_eq_none (h.blank (by decide) (by decide) (by decide))

theorem journal_eq (h : ConfirmedBytes active version m) (hversion : version ≠ 0) :
    journal m = .ok (confirmedRecord active version) :=
  journal_single (h.copies_eq hversion)

/-- The first commit goes into the second copy, and the next one into the first. -/
theorem committed_twice (h : ConfirmedBytes active activeVersion m) (hactive : activeVersion ≠ 0)
    (hversion : version ≠ 0) :
    committed (committed m (writingRecord active version)) (readyRecord active version) =
      storeRecord (storeRecord m .second (writingRecord active version)) .first
        (readyRecord active version) := by
  have hcopies := h.copies_eq hactive
  have hcanonical := canonical_of_prepare (@prepare_writing active activeVersion _ hversion)
  have hfirst : TwoCopy.target recordSeq (copies m) = .second := by
    rw [hcopies]
    rfl
  have hsecond : TwoCopy.target recordSeq
      (copies (storeRecord m .second (writingRecord active version))) = .first := by
    rw [copies_storeRecord hcanonical, hcopies]
    rfl
  rw [committed, committed, hfirst, hsecond]

/-- **Byte for byte**, an install leaves what the host simulates. -/
theorem slice_installed (h : ConfirmedBytes active activeVersion m) (hactive : activeVersion ≠ 0)
    (hversion : version ≠ 0) (hfilled : SlotFilled headerBytes payload active.other m')
    (honly : SlotOnly active.other
      (committed (committed m (writingRecord active version)) (readyRecord active version)) m') :
    slice m' Layout.flashBase Layout.flashTotalSize =
      installedFlash active (headerBytes ++ payload)
        (encodedSequence active activeVersion version) := by
  obtain ⟨c, hc⟩ : ∃ c, c = active.other := ⟨_, rfl⟩
  rw [← hc] at hfilled honly
  have hlength : ∀ record, (encodedRecord record).length = 128 := encodedRecord_length
  have hfits : (headerBytes ++ payload).length ≤
      (bootSlots c).slotEnd - (bootSlots c).signedImageBase := by
    have hsize := congrArg List.length hfilled
    rw [slice_length, List.length_append] at hsize
    omega
  have hslot : Layout.bootMetadataBBase + 0x4000 ≤ (bootSlots c).signedImageBase ∧
      (bootSlots c).signedImageBase ≤ (bootSlots c).slotEnd ∧
      (bootSlots c).slotEnd ≤ Layout.flashBase + Layout.flashTotalSize := by cases c <;> decide
  have hA : Layout.bootMetadataABase = Layout.flashBase + 0x8000 := rfl
  have hB : Layout.bootMetadataBBase = Layout.flashBase + 0xC000 := rfl
  have htotal : Layout.flashTotalSize = 0x100000 := rfl
  rw [installedFlash, encodedSequence, ← hc, blankFlash_eq, sliceAssign_slice (by rw [hlength]; omega),
    sliceAssign_slice (by rw [hlength]; omega), sliceAssign_slice (by omega),
    sliceAssign_slice (by rw [hlength]; omega), Nat.add_sub_of_le (by omega),
    Nat.add_sub_of_le (by omega), Nat.add_sub_of_le (by omega)]
  refine slice_congr fun x hx hx' => ?_
  by_cases hin : (bootSlots c).signedImageBase ≤ x ∧ x < (bootSlots c).slotEnd
  · rw [filled_getD hfilled hin.1 hin.2, memcpy_of_not_mem (by rw [hlength]; omega),
      memcpy_eq_getD hin.1 fun _ => ?_]
    rw [memcpy_of_not_mem (by rw [hlength]; omega), memcpy_of_not_mem (by rw [hlength]; omega)]
  rw [honly x hin, h.committed_twice hactive hversion]
  have hfirst : ∀ m record, storeRecord m .first record x =
      if Layout.bootMetadataABase ≤ x ∧ x < Layout.bootMetadataABase + 0x4000 then
        (encodedRecord record).getD (x - Layout.bootMetadataABase) 0xFF else m x := fun _ _ => rfl
  have hsecond : ∀ m record, storeRecord m .second record x =
      if Layout.bootMetadataBBase ≤ x ∧ x < Layout.bootMetadataBBase + 0x4000 then
        (encodedRecord record).getD (x - Layout.bootMetadataBBase) 0xFF else m x := fun _ _ => rfl
  by_cases hcopyA : Layout.bootMetadataABase ≤ x ∧ x < Layout.bootMetadataABase + 0x4000
  · rw [hfirst, if_pos hcopyA, memcpy_eq_getD hcopyA.1 fun hge => ?_]
    rw [hlength] at hge
    rw [memcpy_of_not_mem (by omega), memcpy_of_not_mem (by rw [hlength]; omega),
      memcpy_of_not_mem (by rw [hlength]; omega)]
  have houtA : ∀ record, ¬ (Layout.bootMetadataABase ≤ x ∧
      x < Layout.bootMetadataABase + (encodedRecord record).length) := by
    intro record hcover
    rw [hlength] at hcover
    exact hcopyA ⟨hcover.1, hcover.2.trans (Nat.add_lt_add_left (by decide) _)⟩
  rw [hfirst, if_neg hcopyA, hsecond, memcpy_of_not_mem (houtA _), memcpy_of_not_mem ?slot]
  case slot => exact fun hcover => hin ⟨hcover.1, by omega⟩
  by_cases hcopyB : Layout.bootMetadataBBase ≤ x ∧ x < Layout.bootMetadataBBase + 0x4000
  · rw [if_pos hcopyB, memcpy_eq_getD hcopyB.1 fun hge => ?_]
    rw [memcpy_of_not_mem (houtA _)]
  · have houtB : ∀ record, ¬ (Layout.bootMetadataBBase ≤ x ∧
        x < Layout.bootMetadataBBase + (encodedRecord record).length) := by
      intro record hcover
      rw [hlength] at hcover
      exact hcopyB ⟨hcover.1, hcover.2.trans (Nat.add_lt_add_left (by decide) _)⟩
    have hout := houtA (confirmedRecord active activeVersion)
    rw [hlength] at hout
    rw [if_neg hcopyB, memcpy_of_not_mem (houtB _), memcpy_of_not_mem (houtA _),
      h.blank hx hx' hout]

end ConfirmedBytes

/-! ### Both sides -/

theorem ofNat_ne_zero {v : ℕ} (hv : 1 ≤ v ∧ v ≤ uint32Max) : UInt32.ofNat v ≠ 0 := by
  intro hzero
  have htoNat := Signer.toNat_ofNat_of_le hv.2
  rw [hzero] at htoNat
  exact absurd htoNat (Nat.ne_of_lt hv.1)

/-- A session that has been opened on a device with one confirmed image. -/
structure ConfirmedOpening (flash : BootFlash) (options : UpdateInstallOptions)
    (publicKey : List UInt8) (active : BootSlotId) (v : ℕ) (s s₁ : Installer) : Prop where
  read : s.dev.Extends (fun _ => False) s₁.dev
  initialized : Initialized flash options s.dev.mem s₁.session
  selected : Selected publicKey s₁.session
  before : s₁.session.metadataBefore = confirmedRecord active (UInt32.ofNat v)
  update : SelectedUpdate s₁.session active

namespace ConfirmedOpening

variable {flash : BootFlash} {options : UpdateInstallOptions} {withResult : Bool}
  {header : UpdatePackageHeader} {s s₁ s₂ : Installer}

theorem mem (h : ConfirmedOpening flash options publicKey active v s s₁) :
    s₁.dev.mem = s.dev.mem := h.read.eq_of_false.1

theorem candidate (h : ConfirmedOpening flash options publicKey active v s s₁) :
    s₁.session.candidate = active.other := h.update.candidate

theorem inv (h : ConfirmedOpening flash options publicKey active v s s₁) :
    SessionInv publicKey s₁ := by
  rw [SessionInv, h.initialized.state]
  exact h.selected

/-- The version to exceed is the recorded one. -/
theorem floor (h : ConfirmedOpening flash options publicKey active v s s₁) :
    confirmedVersionForUpdate crypto s₁.session s₁.dev.mem = .ok (UInt32.ofNat v) := by
  rw [confirmedVersionForUpdate, h.before]
  rfl

theorem undisturbed (h : ConfirmedOpening flash options publicKey active v s s₁)
    (halign : flash.programAlignment ∣ 8) (hhook : options.faultHook = none)
    (hquiet : s.dev.Quiet) : Undisturbed s₁ := by
  refine ⟨h.read.quiet hquiet, ?_, ?_, h.selected.restricted⟩
  · rw [h.initialized.options, hhook]
  · rw [h.initialized.alignment]
    exact halign

/-- A newer package is admitted. -/
theorem admitted (h : ConfirmedOpening flash options publicKey active v s s₁)
    (hv : v ≤ uint32Max) (hheader : HeaderAccepted crypto publicKey headerBytes
      (bootSlots active.other) header) (hnewer : v < header.manifest.imageVersion.toNat) :
    BeginAdmitted crypto s₁ headerBytes := by
  have hnonzero : header.manifest.imageVersion ≠ 0 := by
    intro hzero
    rw [hzero] at hnewer
    exact absurd hnewer (Nat.not_lt_zero _)
  refine ⟨h.initialized.state, header, writingRecord active header.manifest.imageVersion,
    ⟨?_, ?_, UInt32.ofNat v, h.floor, ?_⟩, ?_⟩
  · rw [h.mem]
    exact h.initialized.fresh
  · rw [h.selected.key, h.candidate]
    exact hheader
  · rw [UInt32.lt_iff_toNat_lt, Signer.toNat_ofNat_of_le hv]
    exact hnewer
  · rw [h.before, h.update.activeSlotId, h.candidate]
    exact prepare_writing hnonzero

/-- The records of the update are those of the host. -/
theorem records (h : ConfirmedOpening flash options publicKey active v s s₁)
    (hbegins : Begins crypto publicKey headerBytes s₁ s₂)
    (hheader : HeaderAccepted crypto publicKey headerBytes (bootSlots active.other) header)
    (hnonzero : header.manifest.imageVersion ≠ 0) :
    s₂.session.header = header ∧
      s₂.session.writingMetadata = writingRecord active header.manifest.imageVersion ∧
      readyRecordOf s₂.session = readyRecord active header.manifest.imageVersion := by
  have hsame : s₂.session.header = header := by
    have haccepted := hbegins.accepted
    rw [h.candidate] at haccepted
    exact hheader.unique haccepted
  have hwriting : s₂.session.writingMetadata =
      writingRecord active header.manifest.imageVersion := by
    have hprepared := hbegins.writing
    rw [h.before, h.update.activeSlotId, h.candidate, hsame] at hprepared
    exact Except.ok.inj (hprepared.symm.trans (prepare_writing hnonzero))
  refine ⟨hsame, hwriting, ?_⟩
  rw [readyRecordOf, hwriting, hbegins.active, h.update.activeSlotId, hbegins.candidate, h.candidate,
    hsame]
  rfl

/-- **A package that the host installs** is installed by the device, byte for byte. -/
theorem installs (h : ConfirmedOpening flash options publicKey active v s s₁)
    (hinit : updateInstallerSessionInit flash publicKey options withResult s = .ret () s₁)
    (hv : 1 ≤ v ∧ v ≤ uint32Max) (halign : flash.programAlignment ∣ 8)
    (hhook : options.faultHook = none) (hquiet : s.dev.Quiet)
    (hbytes : ConfirmedBytes active (UInt32.ofNat v) s.dev.mem)
    (haccepted : PackageAccepted crypto (headerBytes ++ payload) publicKey active.other)
    (hheader : HeaderAccepted crypto publicKey headerBytes (bootSlots active.other) header)
    (hpayload : payload.length = header.payloadSize)
    (hnewer : v < header.manifest.imageVersion.toNat) :
    ∃ s', updateInstallerInstall crypto flash (headerBytes ++ payload) publicKey options
        withResult s = .ret () s' ∧
      slice s'.dev.mem Layout.flashBase Layout.flashTotalSize =
        installedFlash active (headerBytes ++ payload)
          (encodedSequence active (UInt32.ofNat v) header.manifest.imageVersion) := by
  have hnonzero : header.manifest.imageVersion ≠ 0 := by
    intro hzero
    rw [hzero] at hnewer
    exact absurd hnewer (Nat.not_lt_zero _)
  have hu := h.undisturbed halign hhook hquiet
  obtain ⟨_, s₂, hbegin⟩ := returns_iff.mp
    ((returns_updateInstallerBegin_iff hu h.inv).mpr (h.admitted hv.2 hheader hnewer))
  have hbegins := begins_of_begin h.inv hu.quiet hu.hook hbegin
  obtain ⟨hsame, hwriting, hready⟩ := h.records hbegins hheader hnonzero
  obtain ⟨s', hrun, hfilled, honly⟩ := updateInstallerInstall_stores hquiet hhook hinit h.update
    hbegin (by rw [hsame]; exact hpayload) (by rw [h.candidate]; exact haccepted)
    (by rw [hwriting]; exact show (2 : UInt32) < 0xFFFFFFFE by decide)
  rw [h.candidate] at hfilled honly
  rw [hwriting, hready] at honly
  exact ⟨s', hrun, hbytes.slice_installed (ofNat_ne_zero hv) hnonzero hfilled honly⟩

/-- **A package that the host refuses** is refused by the device. -/
theorem refuses {package : List UInt8} (h : ConfirmedOpening flash options publicKey active v s s₁)
    (hinit : updateInstallerSessionInit flash publicKey options withResult s = .ret () s₁)
    (hv : v ≤ uint32Max) (hquiet : s.dev.Quiet)
    (hrefused : ¬ (PackageAccepted crypto package publicKey active.other ∧
      v < (decodeManifestBytes (byteAt package)).imageVersion.toNat)) :
    ∃ e s', updateInstallerInstall crypto flash package publicKey options withResult s =
      .err e s' := by
  by_cases haccepted : PackageAccepted crypto package publicKey active.other
  · refine updateInstallerInstall_rejected hquiet hinit fun header hbegin => ?_
    have hheader := hbegin.accepted
    rw [h.selected.key, h.candidate] at hheader
    obtain ⟨confirmed, hconfirmed, hlt⟩ := hbegin.newer
    obtain rfl : UInt32.ofNat v = confirmed := Except.ok.inj (h.floor.symm.trans hconfirmed)
    rw [UInt32.lt_iff_toNat_lt, Signer.toNat_ofNat_of_le hv, hheader.manifest] at hlt
    have hsplit := @decodeManifestBytes_package _ (package.drop Layout.signedImageHeaderSize)
      hheader.length
    rw [List.take_append_drop] at hsplit
    rw [← hsplit] at hlt
    exact hrefused ⟨haccepted, hlt⟩
  · obtain ⟨s', hrun, -⟩ := updateInstallerInstall_refused hinit fun hparsed => by
      rw [h.candidate] at hparsed
      exact haccepted (updatePackageVerifyForSlot_iff.mp hparsed)
    exact ⟨_, s', hrun⟩

end ConfirmedOpening

/-- **The host simulates the install of the device.** On a device with one confirmed image it raises
when the device refuses the package, and otherwise returns what the device has in its flash then. -/
theorem installSimulated_agrees (crypto : Crypto) (flash : BootFlash)
    (package publicKey : List UInt8) (active : BootSlotId) (v : ℕ) (options : UpdateInstallOptions)
    (withResult : Bool) (s : Installer) (hkey : publicKey.length = firmwarePublicKeySize)
    (hv : 1 ≤ v ∧ v ≤ uint32Max) (halign : flash.programAlignment ∣ 8)
    (hvalid : optionsAreValid flash options = true) (hhook : options.faultHook = none)
    (hquiet : s.dev.Quiet)
    (hflash : confirmedFlash active v =
      .ok (slice s.dev.mem Layout.flashBase Layout.flashTotalSize)) :
    ((∃ e, installSimulated crypto package publicKey active v = .error e) ↔
      ∃ e s', updateInstallerInstall crypto flash package publicKey options withResult s =
        .err e s') ∧
    ∀ image report, installSimulated crypto package publicKey active v = .ok (image, report) →
      ∃ s', updateInstallerInstall crypto flash package publicKey options withResult s =
          .ret () s' ∧
        slice s'.dev.mem Layout.flashBase Layout.flashTotalSize = image := by
  have hbytes := confirmedBytes_of_flash (ofNat_ne_zero hv) hflash
  obtain ⟨hok, himage⟩ := @installSimulated_spec crypto package publicKey active v hkey hv.1
  obtain ⟨s₁, hinit, hread, hinitialized, hsel, hbefore, hup⟩ :=
    @opens_of_confirmed publicKey flash options withResult s _ active hquiet hvalid
      (hbytes.journal_eq (ofNat_ne_zero hv)) rfl rfl
  have hopening : ConfirmedOpening flash options publicKey active v s s₁ :=
    ⟨hread, hinitialized, hsel, hbefore, hup⟩
  have hinstall : (∃ result, installSimulated crypto package publicKey active v = .ok result) →
      ∃ s', updateInstallerInstall crypto flash package publicKey options withResult s =
          .ret () s' ∧
        slice s'.dev.mem Layout.flashBase Layout.flashTotalSize = installedFlash active package
          (encodedSequence active (UInt32.ofNat v)
            (decodeManifestBytes (byteAt package)).imageVersion) := by
    intro hresult
    obtain ⟨haccepted, hnewer⟩ := hok.mp hresult
    obtain ⟨header, hheader, -, hpayload⟩ := packageAccepted_iff.mp haccepted
    have hpackage : package.take Layout.signedImageHeaderSize ++
        package.drop Layout.signedImageHeaderSize = package := List.take_append_drop _ _
    have hversion := @decodeManifestBytes_package _ (package.drop Layout.signedImageHeaderSize)
      hheader.length
    rw [hpackage, ← hheader.manifest] at hversion
    rw [hversion] at hnewer ⊢
    rw [← hpackage] at haccepted
    have hinstalls :=
      hopening.installs hinit hv halign hhook hquiet hbytes haccepted hheader hpayload.length hnewer
    rw [hpackage] at hinstalls
    exact hinstalls
  refine ⟨⟨?_, ?_⟩, fun image report h => ?_⟩
  · rintro ⟨e, he⟩
    refine hopening.refuses hinit hv.2 hquiet fun haccepted => ?_
    obtain ⟨result, hresult⟩ := hok.mpr haccepted
    rw [he] at hresult
    cases hresult
  · rintro ⟨e, s', hrun⟩
    cases hsim : installSimulated crypto package publicKey active v with
    | error e => exact ⟨e, rfl⟩
    | ok result =>
      obtain ⟨s'', hrun', -⟩ := hinstall ⟨result, hsim⟩
      rw [hrun] at hrun'
      cases hrun'
  · obtain ⟨s', hrun, hslice⟩ := hinstall ⟨_, h⟩
    exact ⟨s', hrun, hslice.trans (himage image report h).symm⟩

/-- A device with version 1 of an image in slot A. -/
def provisioned : Installer where
  session := {}
  programBuffer := fun _ => 0
  result := {}
  dev :=
    { mem := memcpy (fun _ => 0xFF) Layout.bootMetadataABase
        (encodedRecord (confirmedRecord .a (UInt32.ofNat 1)))
      script := []
      log := [] }

/-- Such a device is updated, and the host computes its flash. -/
theorem installSimulated_update : ∃ image report s',
    installSimulated factoryCrypto (updateHeader ++ updatePayload) factoryKey .a 1 =
      .ok (image, report) ∧
    updateInstallerInstall factoryCrypto updateModeFlash (updateHeader ++ updatePayload) factoryKey
      (updateModeOptions false) false provisioned = .ret () s' ∧
    slice s'.dev.mem Layout.flashBase Layout.flashTotalSize = image := by
  have hkey : factoryKey.length = firmwarePublicKeySize := by decide
  have hnewer : 1 < (decodeManifestBytes (byteAt (updateHeader ++ updatePayload))).imageVersion.toNat := by
    rw [decodeManifestBytes_package updateHeader_accepted.length, ← updateHeader_accepted.manifest]
    decide
  obtain ⟨⟨image, report⟩, himage⟩ := (@installSimulated_spec factoryCrypto
    (updateHeader ++ updatePayload) factoryKey .a 1 hkey (by decide)).1.mpr
    ⟨updatePackage_accepted, hnewer⟩
  obtain ⟨s, hs⟩ : ∃ s, s = provisioned := ⟨_, rfl⟩
  have hquiet : s.dev.Quiet := by
    rw [hs]
    rfl
  have hflash : confirmedFlash .a 1 =
      .ok (slice s.dev.mem Layout.flashBase Layout.flashTotalSize) := by
    have hmem : provisioned.dev.mem = memcpy (fun _ => 0xFF) Layout.bootMetadataABase
        (encodedRecord (confirmedRecord .a (UInt32.ofNat 1))) := rfl
    rw [hs, hmem]
    exact @confirmedFlash_eq .a 1 (by decide)
  rw [← hs]
  obtain ⟨s', hrun, hslice⟩ := (installSimulated_agrees factoryCrypto updateModeFlash
    (updateHeader ++ updatePayload) factoryKey .a 1 (updateModeOptions false) false s hkey
    ⟨by decide, by decide⟩ (by decide) (by decide) rfl hquiet hflash).2 image report himage
  exact ⟨image, report, s', himage, hrun, hslice⟩

end Device

end Host

end Stm32SecurityLab
