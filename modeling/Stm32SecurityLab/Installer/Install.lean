import Stm32SecurityLab.Installer.Content
import Stm32SecurityLab.Installer.Admission
import Stm32SecurityLab.Boot.Decision

/-!
# One call

`update_installer_install` takes a whole package: it verifies it in memory, and then goes through
the calls of a session. A package that does not verify is refused before anything is written, where
a session would have noticed at its end.

## Main definitions

* `updateInstallerInstall`

## Main results

* `updateInstaller_streams` — a stream writes exactly the package, however it was cut into blocks,
  and one call does the same
-/

namespace Stm32SecurityLab

open Crash Installer

variable {crypto : Crypto} {publicKey headerBytes : List UInt8} {s s' : Installer}

/-! ### The model -/

/-- `(void)update_installer_abort(&session)` on the error path of a call. -/
def abortOnError (x : Prog Installer UpdateInstallError Unit) :
    Prog Installer UpdateInstallError Unit := do
  match ← x.attempt with
  | .ok () => pure ()
  | .error e => do
    let _ ← updateInstallerAbort.attempt
    .fail e

/-- The loop of `update_installer_install`. Neither the payload nor the program buffer is empty, so
`payloadSize` rounds are enough. -/
def installLoop (package : UpdatePackage) (programBufferSize : ℕ) :
    ℕ → ℕ → Prog Installer UpdateInstallError Unit
  | 0, _ => pure ()
  | fuel + 1, payloadOffset =>
    if payloadOffset < package.payloadSize then do
      let chunk := min (package.payloadSize - payloadOffset) programBufferSize
      abortOnError (updateInstallerWrite payloadOffset ((package.payload.drop payloadOffset).take chunk))
      installLoop package programBufferSize fuel (payloadOffset + chunk)
    else
      pure ()

/-- `update_installer_install`. -/
def updateInstallerInstall (crypto : Crypto) (flash : BootFlash) (packageBytes publicKey : List UInt8)
    (options : UpdateInstallOptions) (withResult : Bool) : Prog Installer UpdateInstallError Unit := do
  updateInstallerSessionInit flash publicKey options withResult
  let session ← getSession
  let (packageStatus, packageVerifyStatus) := updatePackageVerifyForSlot crypto packageBytes publicKey
    (bootSlots session.candidate)
  modifyResult fun result => { result with packageVerifyStatus }
  let package ← .ofExcept (packageStatus.mapError fun _ => .package)
  updateInstallerBegin crypto (packageBytes.take Layout.signedImageHeaderSize)
  installLoop package options.programBufferSize package.payloadSize 0
  abortOnError (updateInstallerFinish crypto)

/-! ### A session that has begun -/

/-- What a stream starts from. -/
structure Begins (crypto : Crypto) (publicKey headerBytes : List UInt8) (s s' : Installer) : Prop where
  content : Content headerBytes s'
  state : s'.session.state = .writing
  room : 0 < room s'.session
  received : s'.session.payloadReceived = 0
  hashed : s'.session.payloadHashCtx = []
  filling : Filling publicKey s'.dev.mem s'.session
  candidate : s'.session.candidate = s.session.candidate
  options : s'.session.options = s.session.options
  active : s'.session.activeSlotId = s.session.activeSlotId
  accepted : HeaderAccepted crypto publicKey headerBytes (bootSlots s.session.candidate)
    s'.session.header
  writing : bootMetadataPrepareNext s.session.metadataBefore .writing s.session.activeSlotId
    s.session.candidate.toUInt32 s'.session.header.manifest.imageVersion 0 0 0 =
      .ok s'.session.writingMetadata

/-- The rounded sizes of an accepted package. -/
theorem candidatePackageFits_size {flash : BootFlash} {c : BootSlotId} {header : UpdatePackageHeader}
    {size : ℕ} (halign : flash.programAlignment ∣ 8)
    (haccepted : HeaderAccepted crypto publicKey headerBytes (bootSlots c) header)
    (h : candidatePackageFits flash (bootSlots c) header = .ok size) :
    checkedRoundUp header.payloadSize flash.programAlignment = some size ∧
      size ≤ (bootSlots c).maximumPayloadSize := by
  have hmax : 8 ∣ (bootSlots c).maximumPayloadSize := by cases c <;> decide
  obtain ⟨rounded, hrounded, -, hle⟩ := checkedRoundUp_of_le flash haccepted.fits
    (Nat.dvd_trans halign hmax) (by cases c <;> decide)
  have hsize : checkedRoundUp header.payloadSize flash.programAlignment = some size := by
    rw [candidatePackageFits] at h
    split at h
    · rename_i package payload hpackage hpayload
      split at h
      · cases h
      · split at h
        · cases h
        · split at h
          · cases h
          · cases h
            exact hpayload
    · cases h
  rw [hsize] at hrounded
  cases hrounded
  exact ⟨hsize, hle⟩

/-- **A session that has begun on an undisturbed device has an empty stream.** -/
theorem begins_of_begin (hinv : SessionInv publicKey s) (hq : s.dev.Quiet)
    (hhook : s.session.options.faultHook = none)
    (hrun : updateInstallerBegin crypto headerBytes s = .ret () s') :
    Begins crypto publicKey headerBytes s s' := by
  have hspec : wp (updateInstallerBegin crypto headerBytes) s _ _ _ := updateInstallerBegin_spec hinv
  obtain ⟨heffect, hfilling, hstate, header, size, writing, hacc, hwriting, hfits, hsteady⟩ :=
    hspec.ret hrun
  have haligned := (updateInstallerBegin_aligned :
    wp (updateInstallerBegin crypto headerBytes) s _ _ _).ret hrun
  have hsel := hinv.selected hstate
  have hu : Undisturbed s := ⟨hq, hhook, haligned, hsel.restricted⟩
  have hwritten := (quiet_updateInstallerBegin hu hinv
    ⟨hstate, header, writing, hacc, hwriting⟩).ret hrun
  have hcand : s'.session.candidate = s.session.candidate := congrArg (·.candidate) hsteady
  have hoptions : s'.session.options = s.session.options := congrArg (·.options) hsteady
  have hflash : s'.session.restrictedFlash = s.session.restrictedFlash :=
    congrArg (·.restrictedFlash) hsteady
  have hheader : s'.session.header = header := congrArg (·.header) hsteady
  have hsize : s'.session.payloadProgramSize = size := congrArg (·.payloadProgramSize) hsteady
  have hreceived : s'.session.payloadReceived = 0 :=
    (congrArg (·.payloadReceived) hsteady).trans hsel.received
  have hprogrammed : s'.session.payloadProgrammed = 0 :=
    (congrArg (·.payloadProgrammed) hsteady).trans hsel.programmed
  have hfill : s'.session.programFill = 0 := (congrArg (·.programFill) hsteady).trans hsel.fill
  have hhashed : s'.session.payloadHashCtx = [] := congrArg (·.payloadHashCtx) hsteady
  have hkey := hsel.key
  have haccepted := hacc.accepted
  rw [hkey] at haccepted
  obtain ⟨hround, hle⟩ := candidatePackageFits_size haligned haccepted hfits
  obtain ⟨hbuffer, -⟩ := programBufferSize_of_valid hsel.options
  refine ⟨?_, congrArg (·.state) hsteady, ?_, hreceived, hhashed, hfilling, hcand, hoptions,
    congrArg (·.activeSlotId) hsteady, ?_, ?_⟩
  · refine ⟨⟨heffect.effect.extends_allowed.quiet hq, ?_, ?_, hfilling.restricted⟩, ⟨?_, ?_, ?_⟩,
      hwritten.header, ?_, fun x h₁ h₂ => hwritten.blank x (by omega) h₂, ?_, ?_, ?_, ?_, ?_⟩
    · rw [hoptions, hhook]
    · rw [hflash]
      exact haligned
    · rw [hflash, hoptions]
      exact hsel.options
    · rw [hflash, hheader, hsize]
      exact hround
    · rw [hsize, hcand]
      exact hle
    · rw [hprogrammed, hfill, hhashed, slice_zero, slice_zero]
      rfl
    · rw [hreceived, hprogrammed, hfill]
    · rw [hreceived]
      exact Nat.zero_le _
    · rw [hfill]
      exact Nat.zero_le _
    · rw [hprogrammed]
      exact Nat.dvd_zero _
    · exact hwritten.blocks.trans (Nat.le_add_right _ _)
  · rw [room, hoptions, hfill]
    exact hbuffer
  · rw [hheader]
    exact haccepted
  · rw [hheader]
    exact hwriting.trans (congrArg Except.ok (congrArg (·.writingMetadata) hsteady).symm)

/-! ### The stream -/

section Stream

variable {payload : List UInt8} {s₁ s₂ s₃ : Installer}

/-- The payload of an accepted header is not empty. -/
theorem HeaderAccepted.payload_ne_nil {slot : BootSlotDescriptor} {header : UpdatePackageHeader}
    (h : HeaderAccepted crypto publicKey headerBytes slot header)
    (hpayload : payload.length = header.payloadSize) : payload ≠ [] := by
  rintro rfl
  have hmin := h.minSize
  rw [← hpayload] at hmin
  exact absurd hmin (by decide)

/-- All of the payload has been streamed. -/
structure Complete (crypto : Crypto) (publicKey headerBytes payload : List UInt8)
    (s₁ s₂ s₃ : Installer) : Prop where
  streamed : Streamed headerBytes payload s₂ s₃
  state : s₃.session.state = .payloadComplete
  received : s₃.session.payloadReceived = s₃.session.header.payloadSize
  hashed : s₃.session.payloadHashCtx = payload
  filling : Filling publicKey s₃.dev.mem s₃.session
  accepted : HeaderAccepted crypto publicKey headerBytes (bootSlots s₃.session.candidate)
    s₃.session.header
  candidate : s₃.session.candidate = s₁.session.candidate
  header : s₃.session.header = s₂.session.header
  writing : s₃.session.writingMetadata = s₂.session.writingMetadata

theorem Begins.complete (h : Begins crypto publicKey headerBytes s₁ s₂)
    (hpayload : payload.length = s₂.session.header.payloadSize)
    (hs : Streamed headerBytes payload s₂ s₃) :
    Complete crypto publicKey headerBytes payload s₁ s₂ s₃ := by
  have hreceived : s₃.session.payloadReceived = s₃.session.header.payloadSize := by
    rw [hs.received h.content, h.received, Nat.zero_add, hpayload, hs.header]
  refine ⟨hs, ?_, hreceived, ?_, hs.filling h.filling, ?_, hs.candidate.trans h.candidate, hs.header,
    congrArg (·.writingMetadata) hs.opened⟩
  · rw [hs.state, if_pos hreceived]
  · rw [hs.hashed, h.hashed, List.nil_append]
  · rw [hs.header, hs.candidate, h.candidate]
    exact h.accepted

theorem Complete.inv (h : Complete crypto publicKey headerBytes payload s₁ s₂ s₃) :
    SessionInv publicKey s₃ := by
  rw [SessionInv, h.state]
  exact h.filling

/-- **However the payload is cut into blocks, all of them are accepted.** -/
theorem Begins.writeBlocks (h : Begins crypto publicKey headerBytes s₁ s₂)
    (hpayload : payload.length = s₂.session.header.payloadSize) :
    ∃ s₃, (∀ blocks : List (List UInt8), (∀ block ∈ blocks, block ≠ []) → blocks.flatten = payload →
      writeBlocks 0 blocks s₂ = .ret () s₃) ∧
      Complete crypto publicKey headerBytes payload s₁ s₂ s₃ := by
  have hne := h.accepted.payload_ne_nil hpayload
  have hwrite := quiet_updateInstallerWrite h.content h.state h.room hne
    (by rw [h.received, hpayload]; exact Nat.le_refl _)
  cases hrun : updateInstallerWrite s₂.session.payloadReceived payload s₂ with
  | err e s₃ => exact (hwrite.err hrun).elim
  | cut s₃ => exact (hwrite.cut hrun).elim
  | ret u s₃ =>
    refine ⟨s₃, fun blocks hblocks hflatten => ?_, h.complete hpayload (hwrite.ret hrun)⟩
    have hcut := writeBlocks_flatten h.state h.room (fun hnil => ?_) hblocks
      (by rw [hflatten, hpayload, h.received]; exact Nat.le_refl _)
    · rw [hflatten, hrun, h.received] at hcut
      exact hcut
    · rw [hnil] at hflatten
      exact hne hflatten.symm

/-- The loop of `update_installer_install` streams what is left of the payload. -/
theorem quiet_installLoop {package : UpdatePackage} {fuel : ℕ} (h : Content headerBytes s)
    (hstate : s.session.state = if s.session.payloadReceived = s.session.header.payloadSize then
      .payloadComplete else .writing) (hroom : 0 < room s.session)
    (hpackage : package.payloadSize = s.session.header.payloadSize)
    (hpayload : package.payload.length = package.payloadSize)
    (hfuel : package.payloadSize - s.session.payloadReceived ≤ fuel) :
    wp (installLoop package s.session.options.programBufferSize fuel s.session.payloadReceived) s
      (fun _ s' => Streamed headerBytes (package.payload.drop s.session.payloadReceived) s s')
      (fun _ _ => False) (fun _ => False) := by
  have hdone : package.payloadSize ≤ s.session.payloadReceived →
      Streamed headerBytes (package.payload.drop s.session.payloadReceived) s s := by
    intro hle
    rw [List.drop_of_length_le (by omega)]
    exact ⟨h, hroom, rfl, hstate, (List.append_nil _).symm, Std.Refl.refl s.dev⟩
  induction fuel generalizing s with
  | zero => exact hdone (by omega)
  | succ fuel ih =>
    rw [installLoop]
    split
    swap
    · rename_i hge
      exact hdone (by omega)
    rename_i hlt
    obtain ⟨hbuffer, -⟩ := programBufferSize_of_valid h.prepared.options
    obtain ⟨chunk, hchunk⟩ : ∃ chunk, chunk = min (package.payloadSize - s.session.payloadReceived)
        s.session.options.programBufferSize := ⟨_, rfl⟩
    obtain ⟨block, hblock⟩ : ∃ block,
        block = (package.payload.drop s.session.payloadReceived).take chunk := ⟨_, rfl⟩
    have hlength : block.length = chunk := by
      rw [hblock, List.length_take, List.length_drop]
      omega
    have hne : block ≠ [] := by
      rintro rfl
      simp only [List.length_nil] at hlength
      omega
    simp only [← hchunk, ← hblock]
    rw [wp_bind, abortOnError, wp_bind, wp_attempt]
    rw [if_neg (by omega)] at hstate
    refine (quiet_updateInstallerWrite h hstate hroom hne (by omega)).mono (fun _ s₁ h₁ => ?_)
      (fun _ _ h => h.elim) (fun _ h => h)
    have hreceived₁ := h₁.received h
    rw [hlength] at hreceived₁
    have hoptions₁ : s₁.session.options = s.session.options := congrArg (·.options) h₁.opened
    have hheader₁ := h₁.header
    have hnext := ih h₁.content h₁.state h₁.room (by rw [hheader₁]; exact hpackage)
      (by rw [hreceived₁]; omega) fun hle => ?_
    · rw [hreceived₁, hoptions₁] at hnext
      rw [wp_pure]
      refine hnext.mono (fun _ s₂ h₂ => ?_) (fun _ _ h => h) (fun _ h => h)
      have htrans := h₁.trans h₂
      rw [hblock, ← List.drop_drop, List.take_append_drop] at htrans
      exact htrans
    · rw [List.drop_of_length_le (by omega)]
      exact ⟨h₁.content, h₁.room, rfl, h₁.state, (List.append_nil _).symm, Std.Refl.refl s₁.dev⟩

end Stream

/-! ### The package and the slot -/

section Package

variable {payload : List UInt8} {c : BootSlotId} {m : Mem} {header : UpdatePackageHeader}

/-- Acceptance depends on the bytes of the image, and not on the memory behind it. -/
theorem ImageAccepted.congr {manifestBytes signatureBytes : List UInt8} {p q : Mem}
    {capacity capacity' : ℕ} {slot : BootSlotDescriptor} {manifest : SignedManifest}
    (h : ImageAccepted crypto manifestBytes signatureBytes p capacity publicKey slot manifest)
    (hsame : ∀ i < manifest.imageSize.toNat, q i = p i)
    (hcapacity : manifest.imageSize.toNat ≤ capacity') :
    ImageAccepted crypto manifestBytes signatureBytes q capacity' publicKey slot manifest := by
  have hmin : 8 ≤ manifest.imageSize.toNat := Nat.le_trans (by decide) h.minSize
  have hstack : loadLe32 q 0 = loadLe32 p 0 := loadLe32_congr fun k hk => hsame _ (by omega)
  have hreset : loadLe32 q 4 = loadLe32 p 4 := loadLe32_congr fun k hk => hsame _ (by omega)
  refine ⟨h.magic, h.headerVersion, h.flags, h.target, h.imageType, h.version, h.vector, h.minSize,
    ?_, ?_, ?_, ?_, ?_, h.signature⟩
  · exact Nat.le_min.mpr ⟨h.maxSize.trans (Nat.min_le_left _ _), hcapacity⟩
  · rw [hstack]
    exact h.stack
  · rw [hreset]
    exact h.odd
  · rw [hreset]
    exact h.reset
  · rw [slice_congr fun x _ hx => hsame x (by omega)]
    exact h.hash

/-- **A filled slot verifies when its package is accepted.** -/
theorem SlotFilled.verify_iff (h : SlotFilled headerBytes payload c m)
    (haccepted : HeaderAccepted crypto publicKey headerBytes (bootSlots c) header)
    (hpayload : payload.length = header.payloadSize) :
    slotVerify crypto publicKey m (bootSlots c) = .ok () ↔
      Host.PackageAccepted crypto (headerBytes ++ payload) publicKey c := by
  have hend : (bootSlots c).slotEnd ≤ uint32Max := by cases c <;> decide
  have hsane : slotDescriptorIsSane (bootSlots c) = true := by cases c <;> decide
  have hheader := h.slice_header haccepted.length
  have hslice := h.slice_payload haccepted.length (by rw [hpayload]; exact haccepted.fits)
  have hmanifest : slotManifestBytes m (bootSlots c) =
      (headerBytes ++ payload).take Layout.signedManifestSize := by
    rw [manifestBytes_package haccepted.length, ← hheader, slice_take (by decide)]
    cases c <;> rfl
  have hsignature : slice m (bootSlots c).signatureAddress Layout.signedSignatureSize =
      ((headerBytes ++ payload).drop Layout.signedManifestSize).take Layout.signedSignatureSize := by
    rw [signatureBytes_package haccepted.length, ← hheader, slice_drop (by decide),
      slice_take (by decide)]
    cases c <;> rfl
  have hdecode : decodeManifestBytes (byteAt (headerBytes ++ payload)) = header.manifest := by
    rw [decodeManifestBytes_package haccepted.length, haccepted.manifest]
  have hsize : header.manifest.imageSize.toNat = payload.length := by
    rw [hpayload, haccepted.payloadSize]
  have hbytes : ∀ i < header.manifest.imageSize.toNat,
      byteAt ((headerBytes ++ payload).drop Layout.signedImageHeaderSize) i =
        pointer m (bootSlots c).payloadBase i := by
    intro i hi
    rw [← haccepted.length, List.drop_left, ← hslice, byteAt_slice (by omega)]
    rfl
  rw [slotVerify, hmanifest, hsignature]
  constructor
  · intro hverify
    have himage := imageAccepted_of_verify hend hverify
    rw [decodeManifestBytes_take, hdecode] at himage
    refine ⟨?_, ?_, ?_⟩
    · rw [hdecode, List.length_append, haccepted.length, hsize]
    · rw [paddingIsCanonical_append haccepted.length, haccepted.padding]
    · rw [hdecode]
      exact himage.congr hbytes (Nat.le_refl _)
  · rintro ⟨-, -, himage⟩
    rw [hdecode] at himage
    refine ImageAccepted.verifies hsane hend ?_
    rw [decodeManifestBytes_take, hdecode]
    refine himage.congr (fun i hi => (hbytes i hi).symm) ?_
    rw [← haccepted.payloadSize]
    exact haccepted.fits

end Package

/-! ### The call -/

/-- Without an update to reject, or without a sequence number left for it, aborting only reads. -/
theorem updateInstallerAbort_exhausted {r : BootMetadataRecord} (hj : journal s.dev.mem = .ok r)
    (hseq : r.state = .writing → ¬ r.sequence < 0xFFFFFFFE) :
    wp updateInstallerAbort s (fun _ s' => s'.dev.mem = s.dev.mem)
      (fun _ s' => s'.dev.mem = s.dev.mem) (fun _ => ¬ s.dev.Quiet) := by
  rw [updateInstallerAbort]
  simp only [wp_bind, wp_getSession, wp_check]
  refine ⟨fun _ => ?_, fun _ => trivial⟩
  rw [wp_ite]
  refine ⟨fun _ => rfl, fun _ => ?_⟩
  simp only [wp_bind, wp_failSession, wp_modifySession]
  rw [wp_ite]
  refine ⟨fun _ => ?_, fun _ => rfl⟩
  rw [abortWriting]
  simp only [wp_bind, wp_ofExcept]
  refine wp_recover (fun s₁ h₁ => ?_) (fun s₁ h₁ _ => ⟨fun _ h => (by cases h), fun _ _ => h₁.mem⟩)
    (fun _ _ hn => hn)
  refine ⟨fun current hcur => ?_, fun _ _ => h₁.mem⟩
  replace hcur := mapError_eq_ok.mp hcur
  rw [← journal_eq, hj] at hcur
  obtain rfl : r = current := Except.ok.inj hcur
  rw [wp_ite]
  constructor
  · intro hwriting
    simp only [wp_bind, wp_ofExcept]
    refine ⟨fun next hnext => ?_, fun _ _ => h₁.mem⟩
    exact absurd (bootMetadataPrepareNext_ok.mp (mapError_eq_ok.mp hnext)).1 (hseq hwriting.1)
  · intro _
    rw [wp_check]
    exact ⟨fun _ => h₁.mem, fun _ => h₁.mem⟩

/-! ### The end of the stream -/

section Finish

variable {payload : List UInt8} {s₁ s₂ s₃ : Installer}

/-- The record of an update that can be tried. -/
def readyRecordOf (session : UpdateInstallerSession) : BootMetadataRecord where
  sequence := session.writingMetadata.sequence + 1
  state := .candidateReady
  activeSlot := session.activeSlotId
  candidateSlot := session.candidate.toUInt32
  candidateImageVersion := session.header.manifest.imageVersion
  bootAttemptCount := 0
  confirmationState := 0
  result := 0

/-- **What finishing a complete stream does.** -/
theorem Complete.finish (h : Complete crypto publicKey headerBytes payload s₁ s₂ s₃) :
    ∃ s₄, flushPayloadProgramBuffer true s₃ = .ret () s₄ ∧
      SlotFilled headerBytes payload s₂.session.candidate s₄.dev.mem ∧
      s₄.session.payloadHashCtx = payload ∧
      wp (updateInstallerFinish crypto) s₃
        (fun _ s' => Finishable crypto payload s₂.session s₄.dev.mem ∧
          SlotFilled headerBytes payload s₂.session.candidate s'.dev.mem ∧
          journal s'.dev.mem = .ok (readyRecordOf s₂.session))
        (fun _ s' => ¬ Finishable crypto payload s₂.session s₄.dev.mem ∧
          SlotFilled headerBytes payload s₂.session.candidate s'.dev.mem ∧
          journal s'.dev.mem = .ok s₂.session.writingMetadata ∧ s'.dev.Quiet)
        (fun _ => False) := by
  obtain ⟨s₄, hflush, hflushed, hfinish⟩ :=
    quiet_updateInstallerFinish h.streamed.content h.filling h.state h.received h.accepted
  have hcand := h.streamed.candidate
  have hkey : s₃.session.publicKey = s₂.session.publicKey :=
    congrArg (·.publicKey) h.streamed.opened
  have hactive : s₃.session.activeSlotId = s₂.session.activeSlotId :=
    congrArg (·.activeSlotId) h.streamed.opened
  have hfilled := hflushed.filled
  rw [h.hashed, hcand] at hfilled
  have hfinishable : Finishable crypto payload s₃.session s₄.dev.mem ↔
      Finishable crypto payload s₂.session s₄.dev.mem := by
    constructor <;> rintro ⟨hhash, hverify, hseq⟩ <;> refine ⟨?_, ?_, ?_⟩
    · rw [← h.header]; exact hhash
    · rw [← hkey, ← hcand]; exact hverify
    · rw [← h.writing]; exact hseq
    · rw [h.header]; exact hhash
    · rw [hkey, hcand]; exact hverify
    · rw [h.writing]; exact hseq
  have hstreams := (steps_flushPayloadProgramBuffer true h.filling.restricted).ret hflush
  have hjournal : journal s₄.dev.mem = .ok s₂.session.writingMetadata := by
    rw [← h.writing]
    exact (journal_of_inSlot hstreams.dev).trans h.filling.recorded
  refine ⟨s₄, hflush, hfilled, ?_, ?_⟩
  · exact (congrArg (·.payloadHashCtx) hflushed.intake).trans h.hashed
  rw [h.hashed, hfinishable, hcand] at hfinish
  refine (hfinish.and (updateInstallerFinish_spec h.inv)).mono ?_ ?_ (fun _ h => h.1)
  · rintro _ s' ⟨⟨hok, hsame⟩, -, -, next, hnext, hj⟩
    refine ⟨hok, hfilled.congr hsame, ?_⟩
    rw [hj, (bootMetadataPrepareNext_ok.mp hnext).2.2, readyRecordOf, h.writing, hactive, hcand,
      h.header]
  · rintro _ s' ⟨⟨hnot, hmem⟩, heffect, -⟩
    refine ⟨hnot, ?_, ?_, heffect.extends_allowed.quiet h.streamed.content.undisturbed.quiet⟩
    · rw [hmem]
      exact hfilled
    · rw [hmem]
      exact hjournal

end Finish

section Call

variable {payload : List UInt8} {flash : BootFlash} {options : UpdateInstallOptions}
  {withResult : Bool} {s₀ s₁ s₂ : Installer}

/-- An image that is accepted as a package can be finished while there are sequence numbers left. -/
theorem Begins.finishable_iff {m : Mem} (h : Begins crypto publicKey headerBytes s₁ s₂)
    (hpayload : payload.length = s₂.session.header.payloadSize)
    (hfilled : SlotFilled headerBytes payload s₂.session.candidate m)
    (hpackage : Host.PackageAccepted crypto (headerBytes ++ payload) publicKey s₁.session.candidate) :
    Finishable crypto payload s₂.session m ↔ s₂.session.writingMetadata.sequence < 0xFFFFFFFE := by
  refine ⟨fun hf => hf.sequence, fun hseq => ⟨?_, ?_, hseq⟩⟩
  · have hhash := hpackage.image.hash
    have hsize : s₂.session.header.manifest.imageSize.toNat = payload.length := by
      rw [hpayload, h.accepted.payloadSize]
    rw [decodeManifestBytes_package h.accepted.length, ← h.accepted.manifest, hsize,
      ← h.accepted.length, List.drop_left, slice_byteAt] at hhash
    exact hhash
  · rw [h.filling.key, h.candidate]
    rw [h.candidate] at hfilled
    exact (hfilled.verify_iff h.accepted hpayload).mpr hpackage

/-- **What has begun can be finished** with an accepted package, while there are sequence numbers
left: however the payload is cut, it is in the slot, and on offer. -/
theorem Begins.finishes (h : Begins crypto publicKey headerBytes s₁ s₂)
    (hpayload : payload.length = s₂.session.header.payloadSize)
    (hpackage : Host.PackageAccepted crypto (headerBytes ++ payload) publicKey s₁.session.candidate)
    (hseq : s₂.session.writingMetadata.sequence < 0xFFFFFFFE) :
    ∃ s₃ s₄, (∀ blocks : List (List UInt8), (∀ block ∈ blocks, block ≠ []) →
        blocks.flatten = payload → Stm32SecurityLab.writeBlocks 0 blocks s₂ = .ret () s₃) ∧
      Complete crypto publicKey headerBytes payload s₁ s₂ s₃ ∧
      updateInstallerFinish crypto s₃ = .ret () s₄ ∧
      SlotFilled headerBytes payload s₂.session.candidate s₄.dev.mem ∧
      journal s₄.dev.mem = .ok (readyRecordOf s₂.session) := by
  obtain ⟨s₃, hblocks, hcomplete⟩ := h.writeBlocks hpayload
  obtain ⟨flushed, -, hfilled, -, hfinish⟩ := hcomplete.finish
  have hfinishable : Finishable crypto payload s₂.session flushed.dev.mem :=
    (h.finishable_iff hpayload hfilled hpackage).mpr hseq
  refine ⟨s₃, ?_⟩
  cases hrun : updateInstallerFinish crypto s₃ with
  | ret _ s₄ => exact ⟨s₄, hblocks, hcomplete, rfl, (hfinish.ret hrun).2⟩
  | err e s₄ => exact absurd hfinishable (hfinish.err hrun).1
  | cut s₄ => exact (hfinish.cut hrun).elim

/-- The loop of a call streams the whole payload. -/
theorem Begins.installLoop (h : Begins crypto publicKey headerBytes s₁ s₂) {package : UpdatePackage}
    (hpayload : package.payload = payload) (hsize : package.payloadSize = payload.length)
    (hlength : payload.length = s₂.session.header.payloadSize) :
    wp (installLoop package s₂.session.options.programBufferSize package.payloadSize 0) s₂
      (fun _ s₃ => Complete crypto publicKey headerBytes payload s₁ s₂ s₃) (fun _ _ => False)
      (fun _ => False) := by
  have hnonempty : s₂.session.payloadReceived ≠ s₂.session.header.payloadSize := by
    rw [h.received, ← hlength]
    exact fun hzero => h.accepted.payload_ne_nil hlength
      (List.eq_nil_of_length_eq_zero hzero.symm)
  have hloop : wp (Stm32SecurityLab.installLoop package s₂.session.options.programBufferSize
      package.payloadSize s₂.session.payloadReceived) s₂ _ _ _ :=
    quiet_installLoop h.content (by rw [h.state, if_neg hnonempty]) h.room
      (by rw [hsize, hlength]) (by rw [hpayload, hsize]) (Nat.sub_le _ _)
  rw [h.received, List.drop_zero, hpayload] at hloop
  exact hloop.mono (fun _ _ h₃ => h.complete hlength h₃) (fun _ _ h => h) fun _ h => h

/-- **The rule for one call** with an accepted package: it opens a session and streams the payload,
and what is left is to finish. -/
theorem wp_updateInstallerInstall {Q : Unit → Installer → Prop}
    {E : UpdateInstallError → Installer → Prop} {C : Installer → Prop} (hq : s₀.dev.Quiet)
    (hhook : options.faultHook = none)
    (hinit : updateInstallerSessionInit flash publicKey options withResult s₀ = .ret () s₁)
    (hbegin : updateInstallerBegin crypto headerBytes s₁ = .ret () s₂)
    (hpayload : payload.length = s₂.session.header.payloadSize)
    (hpackage : Host.PackageAccepted crypto (headerBytes ++ payload) publicKey s₁.session.candidate)
    (h : ∀ result s₂' s₃,
      updateInstallerBegin crypto headerBytes { s₁ with result } = .ret () s₂' →
      Begins crypto publicKey headerBytes { s₁ with result } s₂' →
      s₂'.session.header = s₂.session.header →
      s₂'.session.writingMetadata = s₂.session.writingMetadata →
      Complete crypto publicKey headerBytes payload { s₁ with result } s₂' s₃ →
      wp (abortOnError (updateInstallerFinish crypto)) s₃ Q E C) :
    wp (updateInstallerInstall crypto flash (headerBytes ++ payload) publicKey options withResult) s₀
      Q E C := by
  obtain ⟨hread, hinitialized, hsel⟩ := (updateInstallerSessionInit_spec :
    wp (updateInstallerSessionInit flash publicKey options withResult) s₀ _ _ _).ret hinit
  have hinv : SessionInv publicKey s₁ := by
    rw [SessionInv, hinitialized.state]
    exact hsel
  have hq₁ := hread.quiet hq
  have hhook₁ : s₁.session.options.faultHook = none := by rw [hinitialized.options, hhook]
  have hbegins := begins_of_begin hinv hq₁ hhook₁ hbegin
  obtain ⟨package, hparsed⟩ := Host.updatePackageVerifyForSlot_iff.mpr hpackage
  obtain ⟨hbytes, hsize, -⟩ := updatePackageVerifyForSlot_parsed hparsed
  rw [← hbegins.accepted.length, List.drop_left] at hbytes
  rw [decodeManifestBytes_package hbegins.accepted.length, ← hbegins.accepted.manifest,
    ← hbegins.accepted.payloadSize] at hsize
  have htake : (headerBytes ++ payload).take Layout.signedImageHeaderSize = headerBytes := by
    rw [← hbegins.accepted.length, List.take_left]
  rw [updateInstallerInstall]
  simp only [wp_bind]
  refine wp_of_ret hinit ?_
  rw [wp_getSession]
  simp only [htake]
  refine wp_modifyResult fun result => ?_
  simp only [hparsed, Except.mapError, Prog.ofExcept, wp_pure]
  -- the result structure makes no difference to the session or the device
  have hadm₁ : BeginAdmitted crypto s₁ headerBytes :=
    updateInstallerBegin_admitted hinv (.inl ⟨s₂, hbegin⟩)
  have hadm : BeginAdmitted crypto { s₁ with result } headerBytes := hadm₁
  have haligned := (updateInstallerBegin_aligned :
    wp (updateInstallerBegin crypto headerBytes) s₁ _ _ _).ret hbegin
  have hu : Undisturbed { s₁ with result } := ⟨hq₁, hhook₁, haligned, hsel.restricted⟩
  refine wp_of_outcome (fun _ s₂' hrun => ?_)
    (fun _ _ hrun => ((quiet_updateInstallerBegin hu hinv hadm).err hrun).elim)
    (fun _ hrun => ((quiet_updateInstallerBegin hu hinv hadm).cut hrun).elim)
  have hbegins' := begins_of_begin (s := { s₁ with result }) hinv hq₁ hhook₁ hrun
  have hheader : s₂'.session.header = s₂.session.header := hbegins.accepted.unique hbegins'.accepted
  have hwriting : s₂'.session.writingMetadata = s₂.session.writingMetadata := by
    have hprepared := hbegins'.writing
    rw [hheader] at hprepared
    exact Except.ok.inj (hprepared.symm.trans hbegins.writing)
  have hpayload' : payload.length = s₂'.session.header.payloadSize := by rw [hheader, hpayload]
  have hloop := hbegins'.installLoop hbytes (by rw [hsize, ← hpayload])
    hpayload'
  rw [hbegins'.options.trans hinitialized.options] at hloop
  exact hloop.mono (fun _ s₃ h₃ => h result s₂' s₃ hrun hbegins' hheader hwriting h₃)
    (fun _ _ h => h.elim) fun _ h => h.elim

/-- **One call with an accepted package** does what a session with the same package does. -/
theorem quiet_updateInstallerInstall (hq : s₀.dev.Quiet) (hhook : options.faultHook = none)
    (hinit : updateInstallerSessionInit flash publicKey options withResult s₀ = .ret () s₁)
    (hbegin : updateInstallerBegin crypto headerBytes s₁ = .ret () s₂)
    (hpayload : payload.length = s₂.session.header.payloadSize)
    (hpackage : Host.PackageAccepted crypto (headerBytes ++ payload) publicKey s₁.session.candidate) :
    wp (updateInstallerInstall crypto flash (headerBytes ++ payload) publicKey options withResult) s₀
      (fun _ s' => s₂.session.writingMetadata.sequence < 0xFFFFFFFE ∧
        SlotFilled headerBytes payload s₂.session.candidate s'.dev.mem ∧
        journal s'.dev.mem = .ok (readyRecordOf s₂.session))
      (fun _ s' => ¬ s₂.session.writingMetadata.sequence < 0xFFFFFFFE ∧
        SlotFilled headerBytes payload s₂.session.candidate s'.dev.mem ∧
        journal s'.dev.mem = .ok s₂.session.writingMetadata)
      (fun _ => False) := by
  obtain ⟨hread, hinitialized, hsel⟩ := (updateInstallerSessionInit_spec :
    wp (updateInstallerSessionInit flash publicKey options withResult) s₀ _ _ _).ret hinit
  have hinv : SessionInv publicKey s₁ := by
    rw [SessionInv, hinitialized.state]
    exact hsel
  have hbegins := begins_of_begin hinv (hread.quiet hq) (by rw [hinitialized.options, hhook]) hbegin
  refine wp_updateInstallerInstall hq hhook hinit hbegin hpayload hpackage
    fun result s₂' s₃ _ hbegins' hheader hwriting hcomplete => ?_
  have hcand : s₂'.session.candidate = s₂.session.candidate :=
    hbegins'.candidate.trans hbegins.candidate.symm
  have hready : readyRecordOf s₂'.session = readyRecordOf s₂.session := by
    rw [readyRecordOf, hwriting, hcand, hheader, hbegins'.active, readyRecordOf, hbegins.active]
  have hpayload' : payload.length = s₂'.session.header.payloadSize := by rw [hheader, hpayload]
  obtain ⟨s₄, -, hfilled, -, hfinish⟩ := hcomplete.finish
  rw [hbegins'.finishable_iff hpayload' hfilled hpackage, hwriting, hcand, hready] at hfinish
  rw [abortOnError, wp_bind, wp_attempt]
  refine hfinish.mono (fun _ s₅ h₅ => h₅) (fun _ s₅ h₅ => ?_) (fun _ h => h)
  obtain ⟨hseq, hfilled₅, hj₅, hq₅⟩ := h₅
  simp only [wp_bind, wp_attempt]
  refine (updateInstallerAbort_exhausted hj₅ fun _ => hseq).mono (fun _ s₆ h₆ => ?_) (fun _ s₆ h₆ => ?_)
    (fun _ hn => hn hq₅)
  · rw [wp_fail, h₆]
    exact ⟨hseq, hfilled₅, hj₅⟩
  · rw [wp_fail, h₆]
    exact ⟨hseq, hfilled₅, hj₅⟩

/-- A package that is not accepted is refused before anything is written. -/
theorem updateInstallerInstall_refused {package : List UInt8}
    (hinit : updateInstallerSessionInit flash publicKey options withResult s₀ = .ret () s₁)
    (hpackage : ¬ ∃ parsed, (updatePackageVerifyForSlot crypto package publicKey
      (bootSlots s₁.session.candidate)).1 = .ok parsed) :
    ∃ s', updateInstallerInstall crypto flash package publicKey options withResult s₀ =
      .err .package s' ∧ s'.dev.mem = s₀.dev.mem := by
  obtain ⟨hread, -⟩ := (updateInstallerSessionInit_spec :
    wp (updateInstallerSessionInit flash publicKey options withResult) s₀ _ _ _).ret hinit
  have hwp : wp (updateInstallerInstall crypto flash package publicKey options withResult) s₀
      (fun _ _ => False) (fun e s' => e = .package ∧ s'.dev.mem = s₀.dev.mem) (fun _ => False) := by
    rw [updateInstallerInstall]
    simp only [wp_bind]
    refine wp_of_ret hinit ?_
    rw [wp_getSession]
    refine wp_modifyResult fun result => ?_
    rw [wp_ofExcept]
    refine ⟨fun parsed hparsed => absurd ⟨parsed, mapError_eq_ok.mp hparsed⟩ hpackage, fun e he => ?_⟩
    refine ⟨?_, hread.eq_of_false.1⟩
    cases hstatus : (updatePackageVerifyForSlot crypto package publicKey
        (bootSlots s₁.session.candidate)).1 with
    | ok parsed => exact absurd ⟨parsed, hstatus⟩ hpackage
    | error error =>
      rw [hstatus] at he
      exact (Except.error.inj he).symm
  cases hrun : updateInstallerInstall crypto flash package publicKey options withResult s₀ with
  | ret u s' => exact (hwp.ret hrun).elim
  | cut s' => exact (hwp.cut hrun).elim
  | err e s' =>
    obtain ⟨rfl, hmem⟩ := hwp.err hrun
    exact ⟨s', rfl, hmem⟩

/-- The sequence numbers of a session that has begun. -/
theorem Begins.sequence_iff (h : Begins crypto publicKey headerBytes s₁ s₂) :
    s₂.session.writingMetadata.sequence < 0xFFFFFFFE ↔
      s₁.session.metadataBefore.sequence < 0xFFFFFFFD := by
  obtain ⟨hlt, -, hfields⟩ := bootMetadataPrepareNext_ok.mp h.writing
  have hseq : s₂.session.writingMetadata.sequence = s₁.session.metadataBefore.sequence + 1 := by
    rw [hfields]
  have hmax : s₁.session.metadataBefore.sequence ≠ 0xFFFFFFFF := by
    intro heq
    rw [heq] at hlt
    exact absurd hlt (by decide)
  rw [hseq, UInt32.lt_iff_toNat_lt, UInt32.lt_iff_toNat_lt, toNat_succ hmax]
  exact Nat.succ_lt_succ_iff

theorem SlotFilled.same {c : BootSlotId} {m m' : Mem} (h : SlotFilled headerBytes payload c m)
    (h' : SlotFilled headerBytes payload c m') : SlotSame c m m' := by
  intro x hx hx'
  have hbyte := congrArg (·[x - (bootSlots c).signedImageBase]?) (h'.trans h.symm)
  rw [slice_getElem? (by omega), slice_getElem? (by omega)] at hbyte
  rw [show (bootSlots c).signedImageBase + (x - (bootSlots c).signedImageBase) = x by omega] at hbyte
  exact Option.some.inj hbyte

/-- **A stream writes exactly the package**, however it was cut into blocks, and one call does the
same with a package that it accepts. -/
theorem updateInstaller_streams (crypto : Crypto) (publicKey headerBytes payload : List UInt8)
    (flash : BootFlash) (options : UpdateInstallOptions) (withResult : Bool)
    (s₀ s₁ s₂ : Installer) (hquiet : s₀.dev.Quiet) (hhook : options.faultHook = none)
    (hinit : updateInstallerSessionInit flash publicKey options withResult s₀ = .ret () s₁)
    (hbegin : updateInstallerBegin crypto headerBytes s₁ = .ret () s₂)
    (hpayload : payload.length = s₂.session.header.manifest.imageSize.toNat) :
    ∃ s₃ s₄,
      (∀ blocks : List (List UInt8), (∀ block ∈ blocks, block ≠ []) → blocks.flatten = payload →
        writeBlocks 0 blocks s₂ = .ret () s₃) ∧
      flushPayloadProgramBuffer true s₃ = .ret () s₄ ∧
      SlotFilled headerBytes payload s₁.session.candidate s₄.dev.mem ∧
      s₄.session.payloadHashCtx = payload ∧
      (Returns (updateInstallerFinish crypto) s₃ ↔
        crypto.sha512 payload = s₂.session.header.manifest.payloadSha512 ∧
        slotVerify crypto publicKey s₄.dev.mem (bootSlots s₁.session.candidate) = .ok () ∧
        s₁.session.metadataBefore.sequence < 0xFFFFFFFD) ∧
      ((∃ package, (updatePackageVerifyForSlot crypto (headerBytes ++ payload) publicKey
          (bootSlots s₁.session.candidate)).1 = .ok package) →
        SlotSame s₁.session.candidate (updateInstallerFinish crypto s₃).state.dev.mem
          (updateInstallerInstall crypto flash (headerBytes ++ payload) publicKey options withResult
            s₀).state.dev.mem ∧
        journal (updateInstallerInstall crypto flash (headerBytes ++ payload) publicKey options
          withResult s₀).state.dev.mem = journal (updateInstallerFinish crypto s₃).state.dev.mem ∧
        (Returns (updateInstallerInstall crypto flash (headerBytes ++ payload) publicKey options
          withResult) s₀ ↔ Returns (updateInstallerFinish crypto) s₃)) ∧
      ((¬ ∃ package, (updatePackageVerifyForSlot crypto (headerBytes ++ payload) publicKey
          (bootSlots s₁.session.candidate)).1 = .ok package) →
        ∃ s', updateInstallerInstall crypto flash (headerBytes ++ payload) publicKey options withResult
          s₀ = .err .package s' ∧ s'.dev.mem = s₀.dev.mem) := by
  obtain ⟨hread, hinitialized, hsel⟩ := (updateInstallerSessionInit_spec :
    wp (updateInstallerSessionInit flash publicKey options withResult) s₀ _ _ _).ret hinit
  have hinv : SessionInv publicKey s₁ := by
    rw [SessionInv, hinitialized.state]
    exact hsel
  have hhook₁ : s₁.session.options.faultHook = none := by rw [hinitialized.options, hhook]
  have hbegins := begins_of_begin hinv (hread.quiet hquiet) hhook₁ hbegin
  rw [← hbegins.accepted.payloadSize] at hpayload
  obtain ⟨s₃, hblocks, hcomplete⟩ := hbegins.writeBlocks hpayload
  obtain ⟨s₄, hflush, hfilled, hhashed, hfinish⟩ := hcomplete.finish
  have hreturns := hfinish.returns_iff (fun _ _ h => h.1) fun _ _ h => h.1
  refine ⟨s₃, s₄, hblocks, hflush, ?_, hhashed, ?_, fun hpackage => ?_,
    updateInstallerInstall_refused hinit⟩
  · rw [← hbegins.candidate]
    exact hfilled
  · rw [hreturns, ← hbegins.sequence_iff, ← hbegins.candidate, ← hbegins.filling.key]
    exact ⟨fun h => ⟨h.hash, h.verify, h.sequence⟩, fun h => ⟨h.1, h.2.1, h.2.2⟩⟩
  · replace hpackage := Host.updatePackageVerifyForSlot_iff.mp hpackage
    have hinstall := quiet_updateInstallerInstall hquiet hhook hinit hbegin hpayload hpackage
    have hiff := hbegins.finishable_iff hpayload hfilled hpackage
    have hslot := hinstall.state (fun _ _ h => h.2.1) fun _ _ h => h.2.1
    have hslot' := hfinish.state (fun _ _ h => h.2.1) fun _ _ h => h.2.1
    refine ⟨?_, ?_, ?_⟩
    · rw [← hbegins.candidate]
      exact hslot'.same hslot
    · by_cases hseq : s₂.session.writingMetadata.sequence < 0xFFFFFFFE
      · rw [hinstall.state (fun _ _ h => h.2.2) fun _ _ h => absurd hseq h.1,
          hfinish.state (fun _ _ h => h.2.2) fun _ _ h => absurd (hiff.mpr hseq) h.1]
      · rw [hinstall.state (fun _ _ h => absurd h.1 hseq) fun _ _ h => h.2.2,
          hfinish.state (fun _ _ h => absurd (hiff.mp h.1) hseq) fun _ _ h => h.2.2.1]
    · rw [hreturns, hiff]
      exact hinstall.returns_iff (fun _ _ h => h.1) fun _ _ h => h.1

/-- **A session opens on a confirmed record**, for the slot that is not active. -/
theorem opens_of_confirmed {r : BootMetadataRecord} {slot : BootSlotId} (hq : s₀.dev.Quiet)
    (hvalid : optionsAreValid flash options = true) (hj : journal s₀.dev.mem = .ok r)
    (hstate : r.state = .confirmed) (hslot : r.activeSlot = slot.toUInt32) :
    ∃ s₁, updateInstallerSessionInit flash publicKey options withResult s₀ = .ret () s₁ ∧
      s₀.dev.Extends (fun _ => False) s₁.dev ∧ Initialized flash options s₀.dev.mem s₁.session ∧
      Selected publicKey s₁.session ∧ s₁.session.metadataBefore = r ∧
      SelectedUpdate s₁.session slot := by
  have hopen : Openable options.recoveryBootstrap s₀.dev.mem := by
    rw [Openable, hj]
    exact ⟨.inl hstate, by rw [hslot]; exact slot.toUInt32_ne_none⟩
  have hreturns : Returns (updateInstallerSessionInit flash publicKey options withResult) s₀ :=
    (returns_updateInstallerSessionInit_iff hq).mpr ⟨hvalid, hopen⟩
  obtain ⟨_, s₁, hinit⟩ := returns_iff.mp hreturns
  obtain ⟨hread, hinitialized, hsel⟩ := (updateInstallerSessionInit_spec :
    wp (updateInstallerSessionInit flash publicKey options withResult) s₀ _ _ _).ret hinit
  obtain ⟨flag, hfresh⟩ := hinitialized.fresh
  have hbefore : s₁.session.metadataBefore = r := by
    rw [hj] at hfresh
    exact (Prod.ext_iff.mp (Except.ok.inj hfresh)).1.symm
  refine ⟨s₁, hinit, hread, hinitialized, hsel, hbefore, ?_⟩
  rcases hsel.source with ⟨slot', hup⟩ | hboot
  · have hsame := hup.before
    rw [hbefore, hslot] at hsame
    rw [BootSlotId.toUInt32_inj.mp hsame]
    exact hup
  · have hempty := hboot.before
    rw [hbefore] at hempty
    rw [hempty] at hstate
    cases hstate

/-- An installer on a device with a confirmed image in slot A. -/
def updatable (sequence : UInt32) : Installer where
  session := {}
  programBuffer := fun _ => 0
  result := {}
  dev := flashWith { factoryRecord with sequence }

/-- The image for slot B can be streamed to such a device. -/
theorem update_begins {sequence : UInt32} {withResult : Bool} (hq : s₀.dev.Quiet)
    (hj : journal s₀.dev.mem = .ok { factoryRecord with sequence }) (hseq : sequence < 0xFFFFFFFE) :
    ∃ s₁ s₂, updateInstallerSessionInit updateModeFlash factoryKey (updateModeOptions false)
        withResult s₀ = .ret () s₁ ∧
      updateInstallerBegin factoryCrypto updateHeader s₁ = .ret () s₂ ∧
      s₁.session.candidate = .b ∧ s₁.session.metadataBefore.sequence = sequence ∧
      s₂.session.header = headerOf updateManifest updateSignature ∧
      Begins factoryCrypto factoryKey updateHeader s₁ s₂ := by
  obtain ⟨s₁, hinit, hread, hinitialized, hsel, hbefore, hup⟩ :=
    @opens_of_confirmed factoryKey updateModeFlash (updateModeOptions false) withResult s₀ _ .a hq
      (by decide) hj rfl rfl
  have hmem : s₁.dev.mem = s₀.dev.mem := hread.eq_of_false.1
  obtain ⟨flag, hfresh⟩ := hinitialized.fresh
  have hinv : SessionInv factoryKey s₁ := by
    rw [SessionInv, hinitialized.state]
    exact hsel
  have hcand : s₁.session.candidate = .b := hup.candidate
  have haccepted : HeaderAccepted factoryCrypto s₁.session.publicKey updateHeader
      (bootSlots s₁.session.candidate) (headerOf updateManifest updateSignature) := by
    rw [hsel.key, hcand]
    exact updateHeader_accepted
  have hversion : confirmedVersionForUpdate factoryCrypto s₁.session s₁.dev.mem = .ok 2 := by
    rw [confirmedVersionForUpdate, hbefore]
    rfl
  have hnonzero : (headerOf updateManifest updateSignature).manifest.imageVersion ≠ 0 := by decide
  obtain ⟨writing, hwriting⟩ := (hsel.prepare_iff hnonzero).mpr (by rw [hbefore]; exact hseq)
  have hadm : BeginAdmitted factoryCrypto s₁ updateHeader :=
    ⟨hinitialized.state, _, writing, ⟨⟨flag, by rw [hmem]; exact hfresh⟩, haccepted, 2, hversion,
      by decide⟩, hwriting⟩
  have hu : Undisturbed s₁ := by
    refine ⟨hread.quiet hq, ?_, ?_, hsel.restricted⟩
    · rw [hinitialized.options]
      rfl
    · rw [hinitialized.alignment]
      decide
  obtain ⟨_, s₂, hbegin⟩ := returns_iff.mp ((returns_updateInstallerBegin_iff hu hinv).mpr hadm)
  have hbegins := begins_of_begin hinv hu.quiet hu.hook hbegin
  have hheader := hbegins.accepted
  rw [hcand] at hheader
  exact ⟨s₁, s₂, hinit, hbegin, hcand, by rw [hbefore], updateHeader_accepted.unique hheader, hbegins⟩

theorem journal_updatable {sequence : UInt32}
    (h : stateRecordIsCanonical { factoryRecord with sequence } = true) :
    journal (updatable sequence).dev.mem = .ok { factoryRecord with sequence } :=
  journal_flashWith h

theorem updatable_blank (sequence : UInt32) :
    (updatable sequence).dev.mem Layout.slotBSignedImageBase = 0xFF := by
  have hlength : (factoryHeader ++ factoryPayload).length = 524 := by
    rw [List.length_append, factoryHeader_accepted.length]
    rfl
  simp only [updatable, flashWith, memcpy, encodedRecord_length, hlength]
  rw [if_neg (by decide), if_neg (by decide)]

/-- A payload is accepted with the header for slot B when its image is. -/
theorem updatePackage_accepted_iff (hpayload : payload.length = 12) :
    Host.PackageAccepted factoryCrypto (updateHeader ++ payload) factoryKey .b ↔
      ImageAccepted factoryCrypto updateManifest updateSignature (byteAt payload) 12 factoryKey
        (bootSlots .b) (headerOf updateManifest updateSignature).manifest := by
  have hlength := updateHeader_accepted.length
  have hmanifest : (updateHeader ++ payload).take Layout.signedManifestSize = updateManifest := by
    rw [manifestBytes_package hlength]
    exact updateHeader_accepted.manifestBytes.symm
  have hsignature : ((updateHeader ++ payload).drop Layout.signedManifestSize).take
      Layout.signedSignatureSize = updateSignature := by
    rw [signatureBytes_package hlength]
    exact updateHeader_accepted.signatureBytes.symm
  have hdrop : (updateHeader ++ payload).drop Layout.signedImageHeaderSize = payload := by
    rw [← hlength, List.drop_left]
  have hdecode : decodeManifestBytes (byteAt (updateHeader ++ payload)) =
      (headerOf updateManifest updateSignature).manifest := by
    rw [decodeManifestBytes_package hlength]
    exact updateHeader_accepted.manifest.symm
  have hsize : (headerOf updateManifest updateSignature).manifest.imageSize.toNat = 12 := by decide
  constructor
  · rintro ⟨-, -, himage⟩
    rw [hmanifest, hsignature, hdrop, hdecode, hsize] at himage
    exact himage
  · intro himage
    refine ⟨?_, ?_, ?_⟩
    · rw [hdecode, hsize, List.length_append, hlength, hpayload]
    · rw [paddingIsCanonical_append hlength, updateHeader_accepted.padding]
    · rw [hmanifest, hsignature, hdrop, hdecode, hsize]
      exact himage

theorem updatePackage_accepted :
    Host.PackageAccepted factoryCrypto (updateHeader ++ updatePayload) factoryKey .b :=
  (updatePackage_accepted_iff rfl).mpr ⟨by decide, by decide, by decide, by decide, by decide,
    by decide, by decide, by decide, by decide, by decide, by decide, by decide, by decide,
    by decide⟩

/-- The payload of the image in slot A does not have the hash in the header for slot B. -/
theorem mixedPackage_not_accepted :
    ¬ Host.PackageAccepted factoryCrypto (updateHeader ++ factoryPayload) factoryKey .b := by
  intro h
  have hhash := ((updatePackage_accepted_iff rfl).mp h).hash
  exact absurd hhash (by decide)

/-- Two blocks of an image. -/
theorem updateInstaller_streams_update : ∃ s₁ s₂ s₃ s₄,
    updateInstallerSessionInit updateModeFlash factoryKey (updateModeOptions false) false
      (updatable 1) = .ret () s₁ ∧
    updateInstallerBegin factoryCrypto updateHeader s₁ = .ret () s₂ ∧
    writeBlocks 0 [updatePayload.take 5, updatePayload.drop 5] s₂ = .ret () s₃ ∧
    flushPayloadProgramBuffer true s₃ = .ret () s₄ ∧
    SlotFilled updateHeader updatePayload .b s₄.dev.mem := by
  obtain ⟨s₁, s₂, hinit, hbegin, hcand, -, hheader, -⟩ :=
    @update_begins (updatable 1) 1 false rfl (journal_updatable (by decide)) (by decide)
  obtain ⟨s₃, s₄, hblocks, hflush, hfilled, -⟩ := updateInstaller_streams factoryCrypto factoryKey
    updateHeader updatePayload updateModeFlash (updateModeOptions false) false (updatable 1) s₁ s₂ rfl
    rfl hinit hbegin (by rw [hheader]; decide)
  rw [hcand] at hfilled
  exact ⟨s₁, s₂, s₃, s₄, hinit, hbegin, hblocks _ (by decide) (by decide), hflush, hfilled⟩

/-- **Two limits.** With the last sequence number spent on `WRITING`, an image that has the right
hash and verifies cannot be finished; and a payload that was streamed, but does not verify, is not
written by one call. -/
theorem updateInstaller_limits :
    (∃ s₁ s₂ s₃ s₄,
      updateInstallerSessionInit updateModeFlash factoryKey (updateModeOptions false) false
        (updatable 0xFFFFFFFD) = .ret () s₁ ∧
      updateInstallerBegin factoryCrypto updateHeader s₁ = .ret () s₂ ∧
      writeBlocks 0 [updatePayload] s₂ = .ret () s₃ ∧
      flushPayloadProgramBuffer true s₃ = .ret () s₄ ∧
      factoryCrypto.sha512 updatePayload = s₂.session.header.manifest.payloadSha512 ∧
      slotVerify factoryCrypto factoryKey s₄.dev.mem (bootSlots .b) = .ok () ∧
      ¬ Returns (updateInstallerFinish factoryCrypto) s₃) ∧
    ∃ s₁ s₂ s₃ s',
      updateInstallerSessionInit updateModeFlash factoryKey (updateModeOptions false) false
        (updatable 1) = .ret () s₁ ∧
      updateInstallerBegin factoryCrypto updateHeader s₁ = .ret () s₂ ∧
      writeBlocks 0 [factoryPayload] s₂ = .ret () s₃ ∧
      updateInstallerInstall factoryCrypto updateModeFlash (updateHeader ++ factoryPayload) factoryKey
        (updateModeOptions false) false (updatable 1) = .err .package s' ∧
      ¬ SlotSame .b (updateInstallerFinish factoryCrypto s₃).state.dev.mem s'.dev.mem := by
  have hsize : ∀ {payload : List UInt8} {header : UpdatePackageHeader}, payload.length = 12 →
      header = headerOf updateManifest updateSignature → payload.length = header.payloadSize := by
    rintro payload header hpayload rfl
    exact hpayload.trans (by decide)
  constructor
  · obtain ⟨s₁, s₂, hinit, hbegin, hcand, hseq, hheader, hbegins⟩ :=
      @update_begins (updatable 0xFFFFFFFD) 0xFFFFFFFD false rfl (journal_updatable (by decide))
        (by decide)
    have hpayload := @hsize updatePayload s₂.session.header rfl hheader
    obtain ⟨s₃, hblocks, hcomplete⟩ := hbegins.writeBlocks hpayload
    obtain ⟨s₄, hflush, hfilled, -, hfinish⟩ := hcomplete.finish
    have hcand₂ : s₂.session.candidate = .b := hbegins.candidate.trans hcand
    rw [hcand₂] at hfilled
    have haccepted := hbegins.accepted
    rw [hcand] at haccepted
    refine ⟨s₁, s₂, s₃, s₄, hinit, hbegin, hblocks _ (by decide) (by decide), hflush, ?_,
      (hfilled.verify_iff haccepted hpayload).mpr updatePackage_accepted, fun hreturns => ?_⟩
    · rw [hheader]
      decide
    · obtain ⟨_, s₅, hrun⟩ := returns_iff.mp hreturns
      have hlast := hbegins.sequence_iff.mp (hfinish.ret hrun).1.sequence
      rw [hseq] at hlast
      exact absurd hlast (by decide)
  · obtain ⟨s₁, s₂, hinit, hbegin, hcand, -, hheader, hbegins⟩ :=
      @update_begins (updatable 1) 1 false rfl (journal_updatable (by decide)) (by decide)
    have hpayload := @hsize factoryPayload s₂.session.header rfl hheader
    obtain ⟨s₃, hblocks, hcomplete⟩ := hbegins.writeBlocks hpayload
    obtain ⟨s₄, -, -, -, hfinish⟩ := hcomplete.finish
    have hfilled := hfinish.state (fun _ _ h => h.2.1) fun _ _ h => h.2.1
    rw [hbegins.candidate.trans hcand] at hfilled
    obtain ⟨s', hinstall, hmem⟩ := updateInstallerInstall_refused hinit fun hpackage => by
      rw [hcand] at hpackage
      exact mixedPackage_not_accepted (Host.updatePackageVerifyForSlot_iff.mp hpackage)
    refine ⟨s₁, s₂, s₃, s', hinit, hbegin, hblocks _ (by decide) (by decide), hinstall,
      fun hsame => ?_⟩
    -- the slot of the device that was refused is still blank
    have hblank := hsame Layout.slotBSignedImageBase (by decide) (by decide)
    have hmagic := congrArg (·[0]?) (hfilled.slice_header updateHeader_accepted.length)
    rw [slice_getElem? (by decide)] at hmagic
    have hfirst : (updateInstallerFinish factoryCrypto s₃).state.dev.mem Layout.slotBSignedImageBase =
        0x53 := Option.some.inj hmagic
    rw [hfirst, hmem, updatable_blank] at hblank
    exact absurd hblank (by decide)

end Call

end Stm32SecurityLab
