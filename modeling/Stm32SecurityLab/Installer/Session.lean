import Stm32SecurityLab.Image.Package
import Stm32SecurityLab.Metadata.Journal

/-!
# The streaming installer

`update_installer.c`: a session that selects the inactive slot, commits `WRITING`, erases the
slot, programs a verified header, streams the payload through a program buffer, verifies what has
been written and commits `CANDIDATE_READY`. An aborted session commits `REJECTED_INVALID`.

The state of the installer is the session structure, the program buffer and the result structure
of the caller, and the device. Some points on the translation:

* `fail_session(session, status)` is `failSession`, which wraps the part of a function whose
  errors go through it. Errors returned directly stay outside.
* The streaming SHA-512 context is the list of bytes absorbed so far.
* A fault hook is a function of the number of earlier calls, the point and the detail. For any one
  run that is as general as a hook with a state of its own.
* `session->flash` is stored by the code and read by nothing. The readback buffer is written and
  compared within one call, so only its size is kept. The watchdog is not part of the state.
* A candidate of a session that was never initialised is a null pointer in the source; here it is
  some slot, and no function looks at it.

## Main definitions

* `UpdateInstallerSession`, `Installer`
* `updateInstallerSessionInit`, `updateInstallerBegin`, `updateInstallerWrite`,
  `updateInstallerFinish`, `updateInstallerAbort`
-/

namespace Stm32SecurityLab

open Crash

/-! ### Types -/

/-- `update_install_status_t` without `OK`. -/
inductive UpdateInstallError where
  | invalidArgument
  | package
  | metadata
  | activeState
  | slot
  | rollback
  | capacity
  | erase
  | program
  | readback
  | hash
  | installedVerify
  | injected
  | state
  | sequence
  deriving DecidableEq, Repr

/-- `update_install_fault_point_t`. -/
inductive UpdateInstallFaultPoint where
  | metadataWriting
  | eraseSector
  | programBlock
  | readback
  | hashComplete
  | verifyInstalled
  | metadataCandidateReady
  | hashBegin
  deriving DecidableEq, Repr

/-- `update_install_options_t`. -/
structure UpdateInstallOptions where
  programBufferSize : ℕ
  readbackBufferSize : ℕ
  faultHook : Option (ℕ → UpdateInstallFaultPoint → UInt32 → Except UpdateInstallError Unit)
  recoveryBootstrap : Bool

/-- The install options of `update_mode_poll_and_process_mode`. -/
def updateModeOptions (recoveryBootstrap : Bool) : UpdateInstallOptions :=
  ⟨512, 512, none, recoveryBootstrap⟩

/-- `update_install_result_t`. -/
structure UpdateInstallResult where
  activeSlot : UInt32 := bootSlotNone
  candidateSlot : UInt32 := bootSlotNone
  imageVersion : UInt32 := 0
  erasedSectorCount : UInt32 := 0
  programmedBlockCount : UInt32 := 0
  packageVerifyStatus : Except VerifyError Unit := .error .badPayloadRange
  installedVerifyStatus : Except VerifyError Unit := .error .badPayloadRange
  metadataRecovery : BootMetadataRecovery := {}

/-- `update_installer_session_state_t`. -/
inductive UpdateInstallerSessionState where
  | empty
  | initialized
  | writing
  | payloadComplete
  | finished
  | aborted
  | failed
  deriving DecidableEq, Repr

/-- A handle through which nothing can be written. -/
instance : Inhabited BootFlash := ⟨⟨1, [], rfl, BootFlashRegion.isValid_nil⟩⟩

/-- A cleared `update_package_header_t`. -/
def clearHeader : UpdatePackageHeader where
  manifest := decodeManifestBytes fun _ => 0
  manifestBytes := List.replicate Layout.signedManifestSize 0
  signatureBytes := List.replicate Layout.signedSignatureSize 0
  payloadSize := 0
  packageSize := 0

/-- `update_installer_session_t`; the defaults are a cleared structure. -/
structure UpdateInstallerSession where
  state : UpdateInstallerSessionState := .empty
  restrictedFlash : BootFlash := default
  publicKey : List UInt8 := []
  options : UpdateInstallOptions := ⟨0, 0, none, false⟩
  /-- `result != NULL`. -/
  hasResult : Bool := false
  metadataBefore : BootMetadataRecord := bootMetadataEmpty
  writingMetadata : BootMetadataRecord := bootMetadataEmpty
  metadataRecovery : BootMetadataRecovery := {}
  active : Option BootSlotId := none
  candidate : BootSlotId := .a
  activeSlotId : UInt32 := 0
  header : UpdatePackageHeader := clearHeader
  payloadHashCtx : List UInt8 := []
  payloadReceived : ℕ := 0
  payloadProgrammed : ℕ := 0
  payloadProgramSize : ℕ := 0
  programFill : ℕ := 0
  programmedBlockCount : UInt32 := 0
  metadataWritingCommitted : Bool := false
  candidateErased : Bool := false
  payloadHashFinalized : Bool := false
  /-- How often the fault hook has been called; it stands for `fault_context`. -/
  faultCalls : ℕ := 0

/-- The installer: its session, the caller's program buffer and result, and the device. -/
structure Installer where
  session : UpdateInstallerSession
  programBuffer : Mem
  result : UpdateInstallResult
  dev : Device

namespace Installer

/-- Run a program of the device. -/
def onDev {ε α : Type} (x : Prog Device ε α) : Prog Installer ε α :=
  x.zoom (·.dev) fun d s => { s with dev := d }

/-- Update the session structure. -/
def modifySession {ε : Type} (f : UpdateInstallerSession → UpdateInstallerSession) :
    Prog Installer ε Unit :=
  .modify fun s => { s with session := f s.session }

/-- Update `*session->result` unless the pointer is null. -/
def modifyResult {ε : Type} (f : UpdateInstallResult → UpdateInstallResult) :
    Prog Installer ε Unit :=
  .modify fun s => if s.session.hasResult then { s with result := f s.result } else s

/-- The session, as the code reads it through its pointer. -/
def getSession {ε : Type} : Prog Installer ε UpdateInstallerSession := do
  let s ← .get
  pure s.session

end Installer

open Installer

/-- `memcpy(&dst[offset], src, length)`. -/
def memcpy (dst : Mem) (offset : ℕ) (src : List UInt8) : Mem := fun i =>
  if offset ≤ i ∧ i < offset + src.length then byteAt src (i - offset) else dst i

theorem memcpy_of_not_mem {dst : Mem} {offset x : ℕ} {src : List UInt8}
    (h : ¬ (offset ≤ x ∧ x < offset + src.length)) : memcpy dst offset src x = dst x := if_neg h

@[simp] theorem slice_memcpy (dst : Mem) (offset : ℕ) (src : List UInt8) :
    slice (memcpy dst offset src) offset src.length = src := by
  rw [slice_eq_iff]
  intro i hi
  rw [memcpy, if_pos ⟨by omega, by omega⟩, Nat.add_sub_cancel_left, byteAt_of_lt hi]

/-- `memset(&dst[offset], value, length)`. -/
def memset (dst : Mem) (offset : ℕ) (value : UInt8) (length : ℕ) : Mem := fun i =>
  if offset ≤ i ∧ i < offset + length then value else dst i

/-! ### Helpers -/

/-- `checked_round_up`. -/
def checkedRoundUp (value alignment : ℕ) : Option ℕ :=
  if alignment = 0 then none
  else
    let remainder := value &&& (alignment - 1)
    if remainder = 0 then some value else checkedSizeAdd value (alignment - remainder)

/-- `options_are_valid`. -/
def optionsAreValid (flash : BootFlash) (options : UpdateInstallOptions) : Bool :=
  ¬ (options.programBufferSize = 0 ∨ options.readbackBufferSize < options.programBufferSize ∨
    options.programBufferSize > uint32Max ∨ flash.programAlignment = 0 ∨
    flash.programAlignment &&& (flash.programAlignment - 1) ≠ 0 ∨
    options.programBufferSize &&& (flash.programAlignment - 1) ≠ 0)

/-- `maybe_fault`. -/
def maybeFault (point : UpdateInstallFaultPoint) (detail : UInt32) :
    Prog Installer UpdateInstallError Unit := do
  let session ← getSession
  match session.options.faultHook with
  | none => pure ()
  | some hook => do
    modifySession fun session => { session with faultCalls := session.faultCalls + 1 }
    .ofExcept (hook session.faultCalls point detail)

/-- The fault hook, in its first call, lets the commit of `WRITING` go on. -/
def UpdateInstallOptions.LetsCommit (options : UpdateInstallOptions) (version : UInt32) : Prop :=
  ∀ hook ∈ options.faultHook, hook 0 .metadataWriting version = .ok ()

/-- The states from which `select_inactive_slot` goes on. -/
def checkUpdatable (metadata : BootMetadataRecord) : Except UpdateInstallError Unit :=
  match metadata.state with
  | .confirmed =>
    require (metadata.candidateSlot = bootSlotNone ∧ metadata.confirmationState = 1) .activeState
  | .rejectedInvalid =>
    require (metadata.activeSlot ≠ bootSlotNone ∧ metadata.candidateSlot ≠ bootSlotNone ∧
      metadata.confirmationState = 0) .activeState
  | _ => .error .activeState

/-- `select_inactive_slot`: the active slot and the candidate. -/
def selectInactiveSlot (metadata : BootMetadataRecord) :
    Except UpdateInstallError (BootSlotId × BootSlotId) := do
  checkUpdatable metadata
  match bootSlotLookup metadata.activeSlot with
  | none => .error .slot
  | some activeSlot => do
    let candidateSlotId :=
      if metadata.activeSlot = BootSlotId.a.toUInt32 then BootSlotId.b.toUInt32
      else BootSlotId.a.toUInt32
    match bootSlotLookup candidateSlotId with
    | none => .error .slot
    | some candidateSlot => do
      require (¬ (metadata.state = .rejectedInvalid ∧ metadata.candidateSlot ≠ candidateSlotId))
        .activeState
      pure (activeSlot.id, candidateSlot.id)

/-- `select_recovery_slot`. -/
def selectRecoverySlot : Except UpdateInstallError BootSlotId :=
  match bootSlotLookup BootSlotId.a.toUInt32 with
  | none => .error .slot
  | some candidate => .ok candidate.id

/-- The write regions of a session. -/
def restrictedRegions (candidate : BootSlotId) : List BootFlashRegion :=
  [⟨Layout.bootMetadataABase, Layout.bootMetadataAEnd⟩,
    ⟨Layout.bootMetadataBBase, Layout.bootMetadataBEnd⟩,
    ⟨(bootSlots candidate).signedImageBase, (bootSlots candidate).slotEnd⟩]

/-- `init_restricted_flash`. -/
def initRestrictedFlash (flash : BootFlash) (candidate : BootSlotId) :
    Except UpdateInstallError BootFlash :=
  match bootFlashInit (restrictedRegions candidate) flash.programAlignment with
  | .ok restricted => .ok restricted
  | .error _ => .error .invalidArgument

/-- `commit_metadata_state`. -/
def commitMetadataState (current : BootMetadataRecord) (state : BootMetadataState)
    (activeSlot candidateSlot imageVersion : UInt32) (faultPoint : UpdateInstallFaultPoint) :
    Prog Installer UpdateInstallError Unit := do
  let next ← .ofExcept ((bootMetadataPrepareNext current state activeSlot candidateSlot
    imageVersion 0 0 0).mapError fun _ => .metadata)
  maybeFault faultPoint imageVersion
  let session ← getSession
  onDev ((bootMetadataCommit session.restrictedFlash next).mapErr fun _ => .metadata)

/-- The loop of `erase_candidate_slot`. -/
def eraseSectors : List ℕ → Prog Installer UpdateInstallError Unit
  | [] => pure ()
  | sector :: sectors => do
    maybeFault .eraseSector (UInt32.ofNat sector)
    let session ← getSession
    onDev ((bootFlashEraseSector targetOps session.restrictedFlash sector).mapErr fun _ => .erase)
    modifyResult fun result => { result with erasedSectorCount := result.erasedSectorCount + 1 }
    eraseSectors sectors

/-- `erase_candidate_slot`. -/
def eraseCandidateSlot : Prog Installer UpdateInstallError Unit := do
  let session ← getSession
  let candidate := bootSlots session.candidate
  eraseSectors (List.range' candidate.firstSector
    (candidate.lastSector + 1 - candidate.firstSector))

/-- `fail_session` around the part of a function whose errors it receives. -/
def failSession {α : Type} (x : Prog Installer UpdateInstallError α) :
    Prog Installer UpdateInstallError α :=
  x.onErr fun s => { s with session := { s.session with state := .failed } }

/-- `metadata_matches_start`. -/
def metadataMatchesStart (actual expected : BootMetadataRecord) : Bool :=
  recordsAreEqual actual expected

/-- `candidate_package_fits`: the size of the programmed payload. -/
def candidatePackageFits (flash : BootFlash) (candidate : BootSlotDescriptor)
    (header : UpdatePackageHeader) : Except UpdateInstallError ℕ :=
  match checkedRoundUp header.packageSize flash.programAlignment,
      checkedRoundUp header.payloadSize flash.programAlignment with
  | some alignedPackageSize, some alignedPayloadSize =>
    if alignedPackageSize > uint32Max then .error .capacity
    else
      match checkedU32Add candidate.signedImageBase alignedPackageSize with
      | none => .error .capacity
      | some slotProgramEnd =>
        if slotProgramEnd > candidate.slotEnd then .error .capacity else .ok alignedPayloadSize
  | _, _ => .error .capacity

/-- `confirmed_version_for_update`, given the contents of the flash. -/
def confirmedVersionForUpdate (crypto : Crypto) (session : UpdateInstallerSession) (m : Mem) :
    Except UpdateInstallError UInt32 :=
  if session.metadataBefore.state = .confirmed then
    .ok session.metadataBefore.candidateImageVersion
  else
    match session.active with
    | none => .ok (minImageVersion - 1)
    | some active =>
      match slotVerify crypto session.publicKey m (bootSlots active) with
      | .error _ => .error .metadata
      | .ok () => .ok (slotVersion m (bootSlots active))

/-! ### Programming -/

/-- `program_aligned_block`, with the block counter of the session as `block_index`. -/
def programAlignedBlock (address : ℕ) (data : List UInt8) :
    Prog Installer UpdateInstallError Unit := do
  let session ← getSession
  let detail := session.programmedBlockCount
  maybeFault .programBlock detail
  onDev ((bootFlashProgramAligned targetOps session.restrictedFlash address data).mapErr
    fun _ => .program)
  maybeFault .readback detail
  let readback ← onDev ((bootFlashRead targetOps address data.length).mapErr fun _ => .readback)
  .check (readback = data) .readback
  .check (detail ≠ 0xFFFFFFFF) .capacity
  modifySession fun session =>
    { session with programmedBlockCount := session.programmedBlockCount + 1 }
  modifyResult fun result => { result with programmedBlockCount := result.programmedBlockCount + 1 }

/-- One round of `program_source_range`: the program buffer holds a chunk of the source, padded
with `0xFF`. -/
def sourceChunk (buffer : Mem) (source : List UInt8) (dataSize offset chunk : ℕ) : Mem :=
  let buffer := memset buffer 0 0xFF chunk
  if offset < dataSize then
    memcpy buffer 0 ((source.drop offset).take (min (dataSize - offset) chunk))
  else
    buffer

/-- The loop of `program_source_range`. The program buffer is not empty, so every round advances
`offset` and `paddedSize` rounds are enough. -/
def programSourceLoop (baseAddress : ℕ) (source : List UInt8) (dataSize paddedSize : ℕ) :
    ℕ → ℕ → Prog Installer UpdateInstallError Unit
  | 0, _ => pure ()
  | fuel + 1, offset =>
    if offset < paddedSize then do
      let session ← getSession
      let chunk := min (paddedSize - offset) session.options.programBufferSize
      .modify fun s =>
        { s with programBuffer := sourceChunk s.programBuffer source dataSize offset chunk }
      match checkedU32Add baseAddress offset with
      | none => .fail .capacity
      | some address => do
        let s ← .get
        programAlignedBlock address (slice s.programBuffer 0 chunk)
        programSourceLoop baseAddress source dataSize paddedSize fuel (offset + chunk)
    else
      pure ()

/-- `program_source_range`. -/
def programSourceRange (baseAddress : ℕ) (source : List UInt8) (dataSize paddedSize : ℕ) :
    Prog Installer UpdateInstallError Unit := do
  .check (dataSize ≤ paddedSize ∧ paddedSize ≤ uint32Max) .invalidArgument
  programSourceLoop baseAddress source dataSize paddedSize paddedSize 0

/-- The length `flush_payload_program_buffer` programs, with the padding of a final flush. -/
def flushLength (finalFlush : Bool) : Prog Installer UpdateInstallError ℕ := do
  let session ← getSession
  if finalFlush then
    match checkedRoundUp session.programFill session.restrictedFlash.programAlignment with
    | none => .fail .capacity
    | some programLength => do
      .modify fun s =>
        { s with
          programBuffer :=
            memset s.programBuffer session.programFill 0xFF (programLength - session.programFill) }
      pure programLength
  else do
    .check (session.programFill = session.options.programBufferSize) .state
    pure session.programFill

/-- `flush_payload_program_buffer`. -/
def flushPayloadProgramBuffer (finalFlush : Bool) : Prog Installer UpdateInstallError Unit := do
  let session ← getSession
  if session.programFill = 0 then
    pure ()
  else do
    let programLength ← flushLength finalFlush
    .check (session.payloadProgrammed ≤ session.payloadProgramSize ∧
      programLength ≤ session.payloadProgramSize - session.payloadProgrammed) .capacity
    match checkedU32Add (bootSlots session.candidate).payloadBase session.payloadProgrammed with
    | none => .fail .capacity
    | some address => do
      let s ← .get
      programAlignedBlock address (slice s.programBuffer 0 programLength)
      modifySession fun session =>
        { session with
          payloadProgrammed := session.payloadProgrammed + programLength
          programFill := 0 }

/-! ### Verification -/

/-- The loop of `hash_installed_payload`: the bytes it hashes. The readback buffer is not empty,
so `payloadSize` rounds are enough. -/
def hashInstalledLoop (payloadBase payloadSize readbackSize : ℕ) :
    ℕ → ℕ → List UInt8 → Prog Device UpdateInstallError (List UInt8)
  | 0, _, ctx => pure ctx
  | fuel + 1, offset, ctx =>
    if offset < payloadSize then do
      let chunk := min (payloadSize - offset) readbackSize
      match checkedU32Add payloadBase offset with
      | none => .fail .capacity
      | some address => do
        let bytes ← (bootFlashRead targetOps address chunk).mapErr fun _ => .readback
        hashInstalledLoop payloadBase payloadSize readbackSize fuel (offset + chunk) (ctx ++ bytes)
    else
      pure ctx

/-- `hash_installed_payload`. -/
def hashInstalledPayload (crypto : Crypto) : Prog Installer UpdateInstallError Unit := do
  let session ← getSession
  let header := session.header
  maybeFault .hashBegin header.manifest.imageVersion
  let ctx ← onDev (hashInstalledLoop (bootSlots session.candidate).payloadBase header.payloadSize
    session.options.readbackBufferSize header.payloadSize 0 [])
  maybeFault .hashComplete header.manifest.imageVersion
  .check (crypto.sha512 ctx = header.manifest.payloadSha512) .hash

/-- `manifest_matches_header`. -/
def manifestMatchesHeader (installed : SignedManifest) (header : UpdatePackageHeader) : Bool :=
  installed == header.manifest

/-- `installed_header_matches_expected`, given the contents of the flash. -/
def installedHeaderMatchesExpected (m : Mem) (candidate : BootSlotDescriptor)
    (header : UpdatePackageHeader) : Bool :=
  slice m candidate.manifestAddress Layout.signedManifestSize == header.manifestBytes &&
    slice m candidate.signatureAddress Layout.signedSignatureSize == header.signatureBytes &&
    (slice m (candidate.signatureAddress + Layout.signedSignatureSize)
      (Layout.signedImageHeaderSize -
        (Layout.signedManifestSize + Layout.signedSignatureSize))).all (· == 0xFF)

/-- The `verify_status_t` of `verify_installed_package`, given the contents of the flash. -/
def installedVerifyStatus (crypto : Crypto) (publicKey : List UInt8) (m : Mem)
    (candidate : BootSlotDescriptor) (header : UpdatePackageHeader) : Except VerifyError Unit :=
  match slotVerify crypto publicKey m candidate with
  | .error e => .error e
  | .ok () =>
    if manifestMatchesHeader (decodeManifestBytes (byteAt (slotManifestBytes m candidate))) header =
        false then
      .error .badSignature
    else if installedHeaderMatchesExpected m candidate header = false then
      .error .badSignature
    else
      .ok ()

/-- `verify_installed_package`. -/
def verifyInstalledPackage (crypto : Crypto) : Prog Installer UpdateInstallError Unit := do
  let session ← getSession
  maybeFault .verifyInstalled session.header.manifest.imageVersion
  let s ← .get
  let verifyStatus := installedVerifyStatus crypto session.publicKey s.dev.mem
    (bootSlots session.candidate) session.header
  modifyResult fun result => { result with installedVerifyStatus := verifyStatus }
  match verifyStatus with
  | .ok () => pure ()
  | .error _ => .fail .installedVerify

/-- `verify_streaming_payload_hash`. -/
def verifyStreamingPayloadHash (crypto : Crypto) : Prog Installer UpdateInstallError Unit := do
  let session ← getSession
  modifySession fun session => { session with payloadHashFinalized := true }
  .check (crypto.sha512 session.payloadHashCtx = session.header.manifest.payloadSha512) .hash

/-! ### The calls -/

/-- Recovered metadata, or the empty record where a bootstrap may start from nothing. The flag
says which. -/
def metadataOrBootstrap (recoveryBootstrap : Bool)
    (status : Except BootMetadataError BootMetadataRecord) :
    Except UpdateInstallError (BootMetadataRecord × Bool) :=
  match status with
  | .ok current => .ok (current, false)
  | .error e =>
    if recoveryBootstrap = false ∨ (e ≠ .noValidCopy ∧ e ≠ .ambiguous) then .error .metadata
    else .ok (bootMetadataEmpty, true)

/-- The slots `update_installer_session_init` selects: no active slot in a bootstrap. -/
def selectSlots (bootstrap : Bool) (current : BootMetadataRecord) :
    Except UpdateInstallError (Option BootSlotId × BootSlotId) :=
  if bootstrap then
    selectRecoverySlot.map fun candidate => (none, candidate)
  else
    (selectInactiveSlot current).map fun slots => (some slots.1, slots.2)

/-- `update_installer_session_init`. -/
def updateInstallerSessionInit (flash : BootFlash) (publicKey : List UInt8)
    (options : UpdateInstallOptions) (withResult : Bool) :
    Prog Installer UpdateInstallError Unit := do
  modifySession fun _ => {}
  .check (optionsAreValid flash options = true) .invalidArgument
  .modify fun s => if withResult then { s with result := {} } else s
  let (recovered, status) ← onDev bootMetadataRecoverFromFlash
  failSession do
    let (current, bootstrap) ← .ofExcept (metadataOrBootstrap options.recoveryBootstrap status)
    let recovery := if bootstrap then {} else recovered
    let (active, candidate) ← .ofExcept (selectSlots bootstrap current)
    let restricted ← .ofExcept (initRestrictedFlash flash candidate)
    let activeSlotId := (active.map BootSlotId.toUInt32).getD bootSlotNone
    modifySession fun session =>
      { session with
        restrictedFlash := restricted
        publicKey
        options
        hasResult := withResult
        metadataBefore := current
        metadataRecovery := recovery
        active
        candidate
        activeSlotId
        state := .initialized }
    modifyResult fun result =>
      { result with
        activeSlot := activeSlotId
        candidateSlot := candidate.toUInt32
        metadataRecovery := recovery }

/-- The commit of `WRITING` in `update_installer_begin`. -/
def commitWriting : Prog Installer UpdateInstallError Unit := do
  let session ← getSession
  let version := session.header.manifest.imageVersion
  if session.options.recoveryBootstrap = true ∧ session.metadataRecovery.copyAValid = false ∧
      session.metadataRecovery.copyBValid = false then do
    let writing ← .ofExcept ((bootMetadataPrepareNext session.metadataBefore .writing
      session.activeSlotId session.candidate.toUInt32 version 0 0 0).mapError fun _ => .metadata)
    maybeFault .metadataWriting version
    onDev ((bootMetadataReinitializeForRecovery session.restrictedFlash writing).mapErr
      fun _ => .metadata)
  else
    commitMetadataState session.metadataBefore .writing session.activeSlotId
      session.candidate.toUInt32 version .metadataWriting

/-- The checks of `update_installer_begin` up to the rollback check and the capacity. -/
def beginChecks (crypto : Crypto) (headerBytes : List UInt8) :
    Prog Installer UpdateInstallError Unit := do
  let session ← getSession
  let (_, status) ← onDev bootMetadataRecoverFromFlash
  let (recovered, _) ← .ofExcept (metadataOrBootstrap session.options.recoveryBootstrap status)
  .check (metadataMatchesStart recovered session.metadataBefore = true) .activeState
  let (packageStatus, verifyStatus) := updatePackageVerifyHeaderForSlot crypto headerBytes
    session.publicKey (bootSlots session.candidate)
  modifyResult fun result => { result with packageVerifyStatus := verifyStatus }
  let header ← .ofExcept (packageStatus.mapError fun _ => .package)
  modifySession fun session => { session with header }
  let s ← .get
  let confirmedVersion ← .ofExcept (confirmedVersionForUpdate crypto s.session s.dev.mem)
  .check (confirmedVersion < header.manifest.imageVersion) .rollback
  let payloadProgramSize ← .ofExcept
    (candidatePackageFits session.restrictedFlash (bootSlots session.candidate) header)
  modifySession fun session => { session with payloadProgramSize }
  modifyResult fun result => { result with imageVersion := header.manifest.imageVersion }

/-- What `boot_metadata_recover_from_flash` stores through its record pointer. -/
def recoveredInto (old : BootMetadataRecord) :
    Except BootMetadataError BootMetadataRecord → BootMetadataRecord
  | .ok record => record
  | .error .flash => old
  | .error _ => bootMetadataEmpty

/-- The part of `update_installer_begin` that reads `WRITING` back. -/
def readBackWriting : Prog Installer UpdateInstallError Unit := do
  let (_, status) ← onDev bootMetadataRecoverFromFlash
  modifySession fun session =>
    { session with writingMetadata := recoveredInto session.writingMetadata status }
  let writing ← .ofExcept (status.mapError fun _ => .metadata)
  let session ← getSession
  .check (writing.state = .writing ∧ writing.activeSlot = session.activeSlotId ∧
    writing.candidateSlot = session.candidate.toUInt32) .metadata

/-- The part of `update_installer_begin` that erases the slot and programs the header. -/
def programHeader (headerBytes : List UInt8) : Prog Installer UpdateInstallError Unit := do
  eraseCandidateSlot
  modifySession fun session => { session with candidateErased := true }
  let session ← getSession
  programSourceRange (bootSlots session.candidate).signedImageBase headerBytes
    Layout.signedImageHeaderSize Layout.signedImageHeaderSize

/-- `update_installer_begin`. -/
def updateInstallerBegin (crypto : Crypto) (headerBytes : List UInt8) :
    Prog Installer UpdateInstallError Unit := do
  let session ← getSession
  .check (session.state = .initialized) .state
  failSession do
    beginChecks crypto headerBytes
    commitWriting
    modifySession fun session => { session with metadataWritingCommitted := true }
    readBackWriting
    programHeader headerBytes
    modifySession fun session => { session with payloadHashCtx := [], state := .writing }

/-- The end of a round of `update_installer_write`. -/
def flushIfFull : Prog Installer UpdateInstallError Unit := do
  let session ← getSession
  if session.programFill = session.options.programBufferSize then
    flushPayloadProgramBuffer false
  else
    pure ()

/-- The loop of `update_installer_write` over the bytes that are left. The program buffer is never
full between rounds, so every round consumes a byte. -/
def writeLoop : ℕ → List UInt8 → Prog Installer UpdateInstallError Unit
  | 0, _ => pure ()
  | fuel + 1, input =>
    if 0 < input.length then do
      let session ← getSession
      let consumed := min input.length (session.options.programBufferSize - session.programFill)
      .modify fun s =>
        { s with
          programBuffer := memcpy s.programBuffer session.programFill (input.take consumed)
          session :=
            { s.session with
              payloadHashCtx := s.session.payloadHashCtx ++ input.take consumed
              programFill := s.session.programFill + consumed
              payloadReceived := s.session.payloadReceived + consumed } }
      flushIfFull
      writeLoop fuel (input.drop consumed)
    else
      pure ()

/-- `update_installer_write`. -/
def updateInstallerWrite (payloadOffset : ℕ) (data : List UInt8) :
    Prog Installer UpdateInstallError Unit := do
  let session ← getSession
  failSession (.check (session.state ≠ .payloadComplete) .sequence)
  .check (session.state = .writing) .state
  .check (data.length ≠ 0) .invalidArgument
  failSession do
    .check (payloadOffset = session.payloadReceived) .sequence
    .check (data.length ≤ session.header.payloadSize - session.payloadReceived) .sequence
    writeLoop data.length data
    modifySession fun session =>
      if session.payloadReceived = session.header.payloadSize then
        { session with state := .payloadComplete }
      else
        session

/-- `update_installer_finish`. -/
def updateInstallerFinish (crypto : Crypto) : Prog Installer UpdateInstallError Unit := do
  let session ← getSession
  failSession (.check (session.state ≠ .writing) .sequence)
  .check (session.state = .payloadComplete) .state
  failSession do
    flushPayloadProgramBuffer true
    let flushed ← getSession
    .check (flushed.payloadProgrammed = flushed.payloadProgramSize) .capacity
    verifyStreamingPayloadHash crypto
    hashInstalledPayload crypto
    verifyInstalledPackage crypto
    commitMetadataState session.writingMetadata .candidateReady session.activeSlotId
      session.candidate.toUInt32 session.header.manifest.imageVersion .metadataCandidateReady
    modifySession fun session => { session with state := .finished }

/-- The part of `update_installer_abort` that runs when `WRITING` had been committed. -/
def abortWriting (session : UpdateInstallerSession) : Prog Installer UpdateInstallError Unit := do
  let (_, status) ← onDev bootMetadataRecoverFromFlash
  let current ← .ofExcept (status.mapError fun _ => .metadata)
  if current.state = .writing ∧ current.activeSlot = session.activeSlotId ∧
      current.candidateSlot = session.candidate.toUInt32 ∧
      current.candidateImageVersion = session.header.manifest.imageVersion then do
    let rejected ← .ofExcept ((bootMetadataPrepareNext current .rejectedInvalid
      session.activeSlotId session.candidate.toUInt32 session.header.manifest.imageVersion
      0 0 0).mapError fun _ => .metadata)
    onDev ((bootMetadataCommit session.restrictedFlash rejected).mapErr fun _ => .metadata)
  else
    .check (current.state ≠ .candidateReady) .state

/-- `update_installer_abort`. -/
def updateInstallerAbort : Prog Installer UpdateInstallError Unit := do
  let session ← getSession
  .check (session.state ≠ .finished) .state
  if session.state = .aborted then
    pure ()
  else do
    failSession (if session.metadataWritingCommitted then abortWriting session else pure ())
    modifySession fun session => { session with state := .aborted }

end Stm32SecurityLab
