import Stm32SecurityLab.ModuleInstall.Catalog

/-!
# The module installer

`SimulatedFlash` and `ModuleInstaller` of `tools/module_install.py`. An operation reads the catalog
again whenever it wants to know something, so the only state is the flash: the catalog, the two
slots of each module, and the counter that makes the power fail after a given write.

`PowerLoss` is the third way for an operation to end, beside returning and raising an
`InstallError`. The write it is raised after has been made.

## Main definitions

* `SimulatedFlash`, `ModuleInstaller`
* `verifyPackage`, `install`, `activate`, `confirm`, `rollback`, `recordInitializationResult`,
  `quarantine`, `removeCandidate`, `revokeSigner`, `currentConfirmedPackage`
* `Op`, `Call`, `runCall`, `runCalls` — sequences of operations
-/

namespace Stm32SecurityLab.ModuleInstall

open Crash

/-! ### The flash -/

/-- `SimulatedFlash`. -/
structure SimulatedFlash where
  catalog : List UInt8 := []
  slots : ℕ → ModuleSlot → Option (List UInt8) := fun _ _ => none
  failAfter : Option ℕ := none
  writeCount : ℕ := 0

/-- An operation on the flash. -/
abbrev Operation (α : Type) : Type := Prog SimulatedFlash InstallError α

/-- `set_power_loss_after`. -/
def setPowerLossAfter (flash : SimulatedFlash) (writes : Option ℕ) : SimulatedFlash :=
  { flash with failAfter := writes, writeCount := 0 }

/-- `_after_persistent_write`. -/
def afterPersistentWrite : Operation Unit := do
  Prog.modify fun flash => { flash with writeCount := flash.writeCount + 1 }
  let flash ← Prog.get
  if flash.failAfter = some flash.writeCount then Prog.cut else pure ()

/-- `append_catalog`. -/
def appendCatalog (record : List UInt8) : Operation Unit := do
  Prog.modify fun flash => { flash with catalog := flash.catalog ++ record }
  afterPersistentWrite

/-- `append_partial_catalog`. -/
def appendPartialCatalog (flash : SimulatedFlash) (record : List UInt8) (length : ℕ) :
    SimulatedFlash :=
  { flash with catalog := flash.catalog ++ record.take length }

/-- The slots with one of them changed. -/
def setSlot (slots : ℕ → ModuleSlot → Option (List UInt8)) (moduleId : ℕ) (slot : ModuleSlot)
    (package : Option (List UInt8)) : ℕ → ModuleSlot → Option (List UInt8) :=
  Function.update slots moduleId (Function.update (slots moduleId) slot package)

/-- `write_slot`. -/
def writeSlot (moduleId : ℕ) (slot : ModuleSlot) (package : List UInt8) : Operation Unit := do
  Prog.check (slot ≠ .none) .invalidModuleSlot
  Prog.modify fun flash =>
    { flash with slots := setSlot flash.slots moduleId slot (some package) }
  afterPersistentWrite

/-- `erase_slot`. -/
def eraseSlot (moduleId : ℕ) (slot : ModuleSlot) : Operation Unit := do
  Prog.check (slot ≠ .none) .invalidModuleSlot
  Prog.modify fun flash => { flash with slots := setSlot flash.slots moduleId slot none }
  afterPersistentWrite

/-! ### The installer -/

/-- `ModuleInstaller`, without its flash. -/
structure ModuleInstaller where
  modulePublicKey : List UInt8
  firmwarePublicKey : Option (List UInt8) := none
  platformVersion : ℤ := 1
  abiVersion : ℤ := 1
  failureThreshold : ℤ := 2
  modulePublicKey_length : modulePublicKey.length = 32
  firmwarePublicKey_length : ∀ key ∈ firmwarePublicKey, key.length = 32

/-- `VerifiedPackage`. -/
structure VerifiedPackage where
  moduleId : ℕ
  moduleVersion : ℕ
  moduleType : UInt32
  signerKeyId : List UInt8
  fingerprint : List UInt8
  capabilities : List UInt32
  manifest : Manifest

/-- `CAP_RCC_READ` and `CAP_OUTPUT`. -/
def supportedInstallCapabilities : List UInt32 := [0x00006801, 0x00006802]

def supportedModuleTypes : List UInt32 := [typeBytecode, typeNative]

section Installer

variable (crypto : ModuleCrypto) (installer : ModuleInstaller)

/-- `module_signer_key_id`. -/
def moduleSignerKeyId : List UInt8 := (crypto.sha256 installer.modulePublicKey).take 16

/-- `firmware_key_id`. -/
def firmwareKeyId : Option (List UInt8) :=
  installer.firmwarePublicKey.map fun key => (crypto.sha256 key).take 16

/-- `verify_package`, on what recovery makes of the catalog. -/
def verifyView (view : RecoveryView) (package : List UInt8) (expectedModuleId : Option ℕ) :
    Except InstallError VerifiedPackage := do
  require (moduleSignerKeyId crypto installer ∉ view.revokedSigners)
    InstallError.moduleSignerRevoked
  require (firmwareKeyId crypto installer ≠ some (moduleSignerKeyId crypto installer))
    InstallError.signerNotSeparate
  let manifest ← (parsePackage crypto package (some installer.modulePublicKey)
    installer.platformVersion installer.abiVersion 0
    (some supportedInstallCapabilities)).mapError InstallError.package
  require (manifest.header.moduleType ∈ supportedModuleTypes) InstallError.unsupportedModuleType
  require (∀ moduleId ∈ expectedModuleId, manifest.header.moduleId.toNat = moduleId)
    InstallError.moduleIdMismatch
  require ((view.minVersionByModule manifest.header.moduleId.toNat).getD 0 ≤
    manifest.header.moduleVersion.toNat) InstallError.rollbackVersion
  return {
    moduleId := manifest.header.moduleId.toNat
    moduleVersion := manifest.header.moduleVersion.toNat
    moduleType := manifest.header.moduleType
    signerKeyId := moduleSignerKeyId crypto installer
    fingerprint := crypto.sha256 package
    capabilities := manifest.capabilities
    manifest := manifest }

/-- `recover`. -/
def recover : Operation RecoveryView := do
  let flash ← Prog.get
  return recoverCatalog flash.catalog

/-- `verify_package`. -/
def verifyPackage (package : List UInt8) (expectedModuleId : Option ℕ) :
    Operation VerifiedPackage := do
  let view ← recover
  Prog.ofExcept (verifyView crypto installer view package expectedModuleId)

/-- `_next_sequence`. -/
def nextSequence : Operation ℕ := do
  let view ← recover
  let sequence := (view.records.map CatalogRecord.sequence).foldl max 0
  Prog.check (view.records = [] ∨ sequence < 0xFFFFFFFF) .sequenceExhausted
  return sequence + 1

/-- `_append_state`. -/
def appendState (verified : VerifiedPackage) (state : InstallState)
    (activeSlot candidateSlot : ModuleSlot) (minVersion : ℕ) (failures : ℕ := 0) :
    Operation Unit := do
  let sequence ← nextSequence
  let record ← Prog.ofExcept (encodeRecord
    { kind := .state
      sequence := sequence
      moduleId := verified.moduleId
      moduleVersion := verified.moduleVersion
      minVersion := minVersion
      state := state
      activeSlot := activeSlot
      candidateSlot := candidateSlot
      failures := failures
      result := 0
      signerKeyId := verified.signerKeyId
      fingerprint := verified.fingerprint })
  appendCatalog record

/-- `_read_slot_or_fail`. -/
def readSlotOrFail (moduleId : ℕ) (slot : ModuleSlot) : Operation (List UInt8) := do
  Prog.check (slot ≠ .none) .missingModuleSlot
  let flash ← Prog.get
  Prog.ofExcept (orElse (flash.slots moduleId slot) .missingModulePackage)

/-- `_require_latest`. -/
def requireLatest (moduleId : ℕ) : Operation CatalogRecord := do
  let view ← recover
  Prog.ofExcept (orElse (view.latestByModule moduleId) .unknownModule)

/-- `_verify_slot`. -/
def verifySlot (moduleId : ℕ) (slot : ModuleSlot) : Operation VerifiedPackage := do
  let package ← readSlotOrFail moduleId slot
  verifyPackage crypto installer package (some moduleId)

/-- The slot of the confirmed record, or none. -/
def confirmedSlot (view : RecoveryView) (moduleId : ℕ) : ModuleSlot :=
  match view.confirmedByModule moduleId with
  | some confirmed => confirmed.activeSlot
  | none => .none

/-- The slot an installation goes to. -/
def installSlot (activeSlot : ModuleSlot) : ModuleSlot :=
  match activeSlot with
  | .a => .b
  | .b => .a
  | .none => .a

/-- `install`. -/
def install (package : List UInt8) : Operation VerifiedPackage := do
  let verified ← verifyPackage crypto installer package none
  let view ← recover
  Prog.check (∀ current ∈ view.latestByModule verified.moduleId,
    current.state ≠ .pending ∧ current.state ≠ .active) .installationInProgress
  let activeSlot := confirmedSlot view verified.moduleId
  let candidateSlot := installSlot activeSlot
  let minVersion := (view.minVersionByModule verified.moduleId).getD 0
  Prog.check (minVersion = 0 ∨ minVersion < verified.moduleVersion) .replayOrRollbackVersion
  appendState verified .receiving activeSlot candidateSlot minVersion
  writeSlot verified.moduleId candidateSlot package
  let _ ← verifySlot crypto installer verified.moduleId candidateSlot
  appendState verified .verified activeSlot candidateSlot minVersion
  return verified

/-- `activate`. -/
def activate (moduleId : ℕ) : Operation Unit := do
  let record ← requireLatest moduleId
  Prog.check (record.state = .verified ∨ record.state = .rejected) .moduleNotVerified
  let package ← readSlotOrFail moduleId record.candidateSlot
  let verified ← verifyPackage crypto installer package (some moduleId)
  appendState verified .pending record.activeSlot record.candidateSlot record.minVersion
    record.failures
  appendState verified .active record.candidateSlot record.activeSlot record.minVersion
    record.failures

/-- `confirm`. -/
def confirm (moduleId : ℕ) : Operation Unit := do
  let record ← requireLatest moduleId
  Prog.check (record.state = .active) .moduleNotActive
  let package ← readSlotOrFail moduleId record.activeSlot
  let verified ← verifyPackage crypto installer package (some moduleId)
  appendState verified .confirmed record.activeSlot .none
    (max record.minVersion verified.moduleVersion)

/-- The slot `rollback` names as candidate. -/
def rollbackSlot (record confirmed : CatalogRecord) : ModuleSlot :=
  if record.activeSlot ≠ confirmed.activeSlot then record.activeSlot else record.candidateSlot

/-- `rollback`. -/
def rollback (moduleId : ℕ) : Operation Unit := do
  let record ← requireLatest moduleId
  let view ← recover
  let confirmed ← Prog.ofExcept (orElse (view.confirmedByModule moduleId) .noConfirmedModule)
  let package ← readSlotOrFail moduleId confirmed.activeSlot
  let verified ← verifyPackage crypto installer package (some moduleId)
  appendState verified .rejected confirmed.activeSlot (rollbackSlot record confirmed)
    (max record.minVersion confirmed.minVersion) (record.failures + 1)

/-- The slot of a package that failed to start. -/
def failingSlot (record : CatalogRecord) : ModuleSlot :=
  if record.state = .active then record.activeSlot else record.candidateSlot

/-- `record_initialization_result`. -/
def recordInitializationResult (moduleId : ℕ) (success : Bool) : Operation Unit := do
  let record ← requireLatest moduleId
  Prog.check (record.state = .pending ∨ record.state = .active) .moduleNotPendingOrActive
  if success then pure ()
  else do
    let view ← recover
    let package ← readSlotOrFail moduleId (failingSlot record)
    let verified ← verifyPackage crypto installer package (some moduleId)
    let failures := record.failures + 1
    appendState verified
      (if installer.failureThreshold ≤ (failures : ℤ) then .quarantined else .rejected)
      (confirmedSlot view moduleId) (failingSlot record) record.minVersion failures

/-- The slot `quarantine` and `verify` look at. -/
def packageSlot (record : CatalogRecord) : ModuleSlot :=
  if record.candidateSlot ≠ .none then record.candidateSlot else record.activeSlot

/-- `quarantine`. -/
def quarantine (moduleId : ℕ) : Operation Unit := do
  let record ← requireLatest moduleId
  let package ← readSlotOrFail moduleId (packageSlot record)
  let verified ← verifyPackage crypto installer package (some moduleId)
  let view ← recover
  appendState verified .quarantined (confirmedSlot view moduleId) (packageSlot record)
    record.minVersion record.failures

/-- `remove_candidate`. -/
def removeCandidate (moduleId : ℕ) : Operation Unit := do
  let record ← requireLatest moduleId
  if record.candidateSlot = .none then pure ()
  else do
    eraseSlot moduleId record.candidateSlot
    let view ← recover
    match view.confirmedByModule moduleId with
    | some confirmed => do
      let package ← readSlotOrFail moduleId confirmed.activeSlot
      let verified ← verifyPackage crypto installer package (some moduleId)
      appendState verified .confirmed confirmed.activeSlot .none record.minVersion
    | none => do
      let sequence ← nextSequence
      let empty ← Prog.ofExcept (encodeRecord
        { kind := .state
          sequence := sequence
          moduleId := moduleId
          moduleVersion := record.moduleVersion
          minVersion := record.minVersion
          state := .empty
          activeSlot := .none
          candidateSlot := .none
          failures := record.failures
          result := 0
          signerKeyId := record.signerKeyId
          fingerprint := record.fingerprint })
      appendCatalog empty

/-- The record that revokes a signer. -/
def revocationRecord (sequence : ℕ) (signerKeyId : List UInt8) : CatalogRecord where
  kind := .revocation
  sequence := sequence
  moduleId := 0
  moduleVersion := 0
  minVersion := 0
  state := .empty
  activeSlot := .none
  candidateSlot := .none
  failures := 0
  result := 0
  signerKeyId := signerKeyId
  fingerprint := List.replicate 32 0

/-- `revoke_signer`. -/
def revokeSigner (signerKeyId : List UInt8) : Operation Unit := do
  Prog.check (signerKeyId.length = 16) .signerKeyIdLength
  let sequence ← nextSequence
  let record ← Prog.ofExcept (encodeRecord (revocationRecord sequence signerKeyId))
  appendCatalog record

/-- `current_confirmed_package`. -/
def currentConfirmedPackage (flash : SimulatedFlash) (moduleId : ℕ) : Option (List UInt8) := do
  let confirmed ← (recoverCatalog flash.catalog).confirmedByModule moduleId
  let package ← flash.slots moduleId confirmed.activeSlot
  if crypto.sha256 package = confirmed.fingerprint then some package else none

end Installer

/-! ### Sequences of operations -/

/-- The operations of an installer. -/
inductive Op where
  | install (package : List UInt8)
  | activate (moduleId : ℕ)
  | confirm (moduleId : ℕ)
  | rollback (moduleId : ℕ)
  | recordInitializationResult (moduleId : ℕ) (success : Bool)
  | quarantine (moduleId : ℕ)
  | removeCandidate (moduleId : ℕ)
  | revokeSigner (signerKeyId : List UInt8)
  deriving DecidableEq, Repr

/-- The program of an operation. -/
def Op.run (crypto : ModuleCrypto) (installer : ModuleInstaller) : Op → Operation Unit
  | .install package => do
    let _ ← ModuleInstall.install crypto installer package
    pure ()
  | .activate moduleId => ModuleInstall.activate crypto installer moduleId
  | .confirm moduleId => ModuleInstall.confirm crypto installer moduleId
  | .rollback moduleId => ModuleInstall.rollback crypto installer moduleId
  | .recordInitializationResult moduleId success =>
    ModuleInstall.recordInitializationResult crypto installer moduleId success
  | .quarantine moduleId => ModuleInstall.quarantine crypto installer moduleId
  | .removeCandidate moduleId => ModuleInstall.removeCandidate crypto installer moduleId
  | .revokeSigner signerKeyId => ModuleInstall.revokeSigner signerKeyId

/-- An operation by an installer, and the write after which the power fails, if it does. -/
structure Call where
  installer : ModuleInstaller
  op : Op
  failAfter : Option ℕ := none

/-- The outcome of a call. -/
def Call.outcome (crypto : ModuleCrypto) (call : Call) (flash : SimulatedFlash) :
    Outcome SimulatedFlash InstallError Unit :=
  call.op.run crypto call.installer (setPowerLossAfter flash call.failAfter)

/-- The flash after a call, however it ended. -/
def runCall (crypto : ModuleCrypto) (flash : SimulatedFlash) (call : Call) : SimulatedFlash :=
  (call.outcome crypto flash).state

/-- The flash after a sequence of calls. -/
def runCalls (crypto : ModuleCrypto) (flash : SimulatedFlash) (calls : List Call) :
    SimulatedFlash :=
  calls.foldl (runCall crypto) flash

end Stm32SecurityLab.ModuleInstall
