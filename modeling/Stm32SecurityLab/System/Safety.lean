import Stm32SecurityLab.System.Update

/-!
# Safety over every run

What the protocol guarantees, read back in terms of the bytes in flash. The runs are those of
`Machine`: boots, installer calls, confirmations, resets and power cuts, in any order, with any
operation of the flash failing or being cut short.

## Main definitions

* `RollbackFloor` — a version that nothing gets below

## Main results

* `candidate_always_bootable` — a partially written candidate is never on offer
* `rollback_floor_monotone` — the confirmed version never decreases
-/

namespace Stm32SecurityLab

open Crash Machine

variable {crypto : Crypto} {publicKey : List UInt8} {d : Device} {m : Mem} {r : BootMetadataRecord}

/-! ### Candidates on offer -/

/-- **A partially written candidate is never bootable.** In every flash a run can leave behind, a
record that offers a candidate names an image that verifies and has the recorded version, and so
does a record that confirms one. -/
theorem candidate_always_bootable (h : Provisioned crypto publicKey d.mem) (es : List Event)
    (hj : journal (run crypto publicKey (powerOn d) es).mem = .ok r) :
    (r.state = .candidateReady ∨ r.state = .pendingTrial →
      Bootable crypto publicKey (run crypto publicKey (powerOn d) es).mem r.candidateSlot
        r.candidateImageVersion) ∧
    (r.state = .confirmed →
      Bootable crypto publicKey (run crypto publicKey (powerOn d) es).mem r.activeSlot
        r.candidateImageVersion) := by
  obtain ⟨hsound, hvalid, hm⟩ := sound_of_provisioned h
  obtain ⟨hsteps, -⟩ := run_refines crypto (powerOn_inv publicKey d) hm es
  exact bootable_of_sound (hsound.steps hsteps) (hvalid.steps hsound.toSettled hsteps) hj

/-- The image that was streamed, on offer and on its first trial. -/
theorem candidate_always_bootable_factory :
    Bootable factoryCrypto factoryKey (run factoryCrypto factoryKey
        (powerOn (flashWith factoryRecord)) updateEvents).mem BootSlotId.b.toUInt32 3 ∧
      Bootable factoryCrypto factoryKey (run factoryCrypto factoryKey
        (powerOn (flashWith factoryRecord))
        (updateEvents ++ [policyBoot factoryCrypto factoryKey []])).mem BootSlotId.b.toUInt32 3 :=
  ⟨(candidate_always_bootable provisioned_factory updateEvents journal_updated).1 (.inl rfl),
    (candidate_always_bootable provisioned_factory
      (updateEvents ++ [policyBoot factoryCrypto factoryKey []]) journal_tried).1 (.inr rfl)⟩

/-! ### The rollback floor -/

/-- The floor of the protocol is the version of the confirmed image. -/
theorem floor_iff {v : UInt32} :
    (store crypto publicKey m).Floor v.toNat ↔ ConfirmedVersion m v := by
  constructor
  · rintro ⟨slot, hact, hv⟩
    rcases journal_cases m with ⟨r, hr⟩ | hr | hr
    · rw [store_phase hr, phaseOf_active (canonical_of_true (journal_canonical hr))] at hact
      exact ⟨r, hr, slot, slotOf_eq_some.mp hact, UInt32.toNat_inj.mp hv⟩
    all_goals
      change (journalPhase m).active = some slot at hact
      rw [journalPhase] at hact
      rw [hr] at hact
      cases hact
  · rintro ⟨r, hr, slot, hslot, rfl⟩
    refine ⟨slot, ?_, rfl⟩
    rw [store_phase hr, phaseOf_active (canonical_of_true (journal_canonical hr))]
    exact slotOf_eq_some.mpr hslot

/-- A floor is the version of some slot. -/
theorem exists_confirmedVersion {n : ℕ} (h : (store crypto publicKey m).Floor n) :
    ∃ v : UInt32, ConfirmedVersion m v ∧ v.toNat = n := by
  obtain ⟨slot, hact, hv⟩ := h
  exact ⟨slotVersion m (bootSlots slot), floor_iff.mp ⟨slot, hact, rfl⟩, hv⟩

theorem confirmedVersion_unique {v w : UInt32} (hv : ConfirmedVersion m v)
    (hw : ConfirmedVersion m w) : v = w := by
  obtain ⟨r, hr, slot, hslot, rfl⟩ := hv
  obtain ⟨r', hr', slot', hslot', rfl⟩ := hw
  obtain rfl : r = r' := Except.ok.inj (hr.symm.trans hr')
  obtain rfl : slot = slot' := BootSlotId.toUInt32_inj.mp (hslot.symm.trans hslot')
  rfl

/-- The check in `update_installer_begin` compares with the version of the confirmed image. -/
theorem floor_lt_of_accepted {session : UpdateInstallerSession} {headerBytes : List UInt8}
    {header : UpdatePackageHeader} {v : UInt32} (hsound : (store crypto publicKey m).Sound)
    (hsel : Selected publicKey session) (hv : ConfirmedVersion m v)
    (hacc : BeginAccepted crypto session m headerBytes header) :
    v < (decodeManifestBytes (byteAt headerBytes)).imageVersion := by
  obtain ⟨r, hr, slot, hslot, rfl⟩ := hv
  obtain ⟨flag, hfresh⟩ := hacc.fresh
  obtain ⟨w, hw, hlt⟩ := hacc.newer
  rw [← hacc.accepted.manifest]
  rcases hsel.source with ⟨act, hup⟩ | hboot
  · have hrec := hup.recorded hfresh
    obtain rfl : r = session.metadataBefore := Except.ok.inj (hr.symm.trans hrec)
    obtain rfl : act = slot := BootSlotId.toUInt32_inj.mp (hup.before.symm.trans hslot)
    rw [confirmedVersionForUpdate] at hw
    split at hw
    · rename_i hs
      cases hw
      have hnewer := hsound.newer
      rw [TwoSlot.Store.Newer] at hnewer
      rw [store_phase hr, phaseOf_confirmed hs hslot] at hnewer
      rw [UInt32.toNat_inj.mp hnewer]
      exact hlt
    · rw [hup.active] at hw
      simp only at hw
      split at hw
      · cases hw
      · cases hw
        exact hlt
  · rcases hboot.not_recorded hfresh with h | h <;> rw [hr] at h <;> cases h

/-- The version `v` is the rollback floor of the machine: it is the version of the confirmed
image, that never decreases, a confirmation of a trial increases it, and `update_installer_begin`
writes to the flash, let alone succeeds, only for a version above it. -/
structure RollbackFloor (crypto : Crypto) (publicKey : List UInt8) (mc : Machine) (v : UInt32) :
    Prop where
  confirmed : ConfirmedVersion mc.mem v
  later : ∀ es, ∃ v', ConfirmedVersion (run crypto publicKey mc es).mem v' ∧ v ≤ v'
  confirmation : ∀ e r r', journal mc.mem = .ok r → r.state = .pendingTrial →
    journal (step crypto publicKey mc e).mem = .ok r' → r'.state = .confirmed →
    ∃ v', ConfirmedVersion (step crypto publicKey mc e).mem v' ∧ v < v'
  accepted : ∀ script headerBytes,
    (∃ inst', updateInstallerBegin crypto headerBytes (mc.installer script) = .ret () inst') ∨
      (updateInstallerBegin crypto headerBytes (mc.installer script)).state.dev.log ≠
        mc.inst.dev.log →
    v < (decodeManifestBytes (byteAt headerBytes)).imageVersion

theorem rollbackFloor_of_sound {mc : Machine} {v : UInt32} (hinv : SessionInv publicKey mc.inst)
    (hm : journal mc.mem ≠ .error .ambiguous) (hsound : (store crypto publicKey mc.mem).Sound)
    (hv : ConfirmedVersion mc.mem v) : RollbackFloor crypto publicKey mc v where
  confirmed := hv
  later es := by
    obtain ⟨n, hn, hle⟩ := (floor_iff.mpr hv).steps hsound (run_refines crypto hinv hm es).1
    obtain ⟨v', hv', rfl⟩ := exists_confirmedVersion hn
    exact ⟨v', hv', UInt32.le_iff_toNat_le.mpr hle⟩
  confirmation e r r' hr hs hr' hs' := by
    have hcan := canonical_of_true (journal_canonical hr)
    have hcan' := canonical_of_true (journal_canonical hr')
    have hne : ∀ slot w, (store crypto publicKey mc.mem).phase ≠ .confirmed slot w := by
      intro slot w hphase
      obtain ⟨c, hc⟩ := candidate_of_canonical hcan (.inr hs)
      rw [store_phase hr, phaseOf_trial hs hc] at hphase
      cases hphase
    have hsteps := (step_refines crypto hinv hm e).1
    rcases (floor_iff.mpr hv).steps_lt hsound hne hsteps with ⟨-, hnot⟩ | ⟨n, hn, hlt⟩
    · obtain ⟨slot, hslot⟩ := hcan'.active.resolve_left (hcan'.confirmed hs').1
      refine absurd ?_ (hnot slot r'.candidateImageVersion.toNat)
      rw [store_phase hr', phaseOf_confirmed hs' hslot]
    · obtain ⟨v', hv', rfl⟩ := exists_confirmedVersion hn
      exact ⟨v', hv', UInt32.lt_iff_toNat_lt.mpr hlt⟩
  accepted script headerBytes h := by
    have hinv' : SessionInv publicKey (mc.installer script) := hinv
    obtain ⟨hstate, header, -, hacc, -⟩ := updateInstallerBegin_admitted hinv' h
    exact floor_lt_of_accepted hsound (hinv'.selected hstate) hv hacc

/-- **The rollback floor is monotone.** From a confirmed record that names the version of its
image, every run leaves a machine with a rollback floor at or above that version. -/
theorem rollback_floor_monotone {slot : BootSlotId} (hj : journal d.mem = .ok r)
    (hs : r.state = .confirmed) (ha : r.activeSlot = slot.toUInt32)
    (hv : slotVersion d.mem (bootSlots slot) = r.candidateImageVersion) (es : List Event) :
    ∃ v, r.candidateImageVersion ≤ v ∧
      RollbackFloor crypto publicKey (run crypto publicKey (powerOn d) es) v := by
  have hsound : (store crypto publicKey d.mem).Sound := sound_of_confirmed hj hs ha hv
  have hm : journal d.mem ≠ .error .ambiguous := by rw [hj]; simp
  have hfloor : ConfirmedVersion d.mem r.candidateImageVersion := ⟨r, hj, slot, ha, hv⟩
  obtain ⟨hsteps, hm'⟩ := run_refines crypto (powerOn_inv publicKey d) hm es
  obtain ⟨n, hn, hle⟩ := (floor_iff.mpr hfloor).steps hsound hsteps
  obtain ⟨v, hv', rfl⟩ := exists_confirmedVersion hn
  exact ⟨v, UInt32.le_iff_toNat_le.mpr hle,
    rollbackFloor_of_sound (run_inv crypto (powerOn_inv publicKey d) es) hm' (hsound.steps hsteps) hv'⟩

/-- The update, its trial boot and its confirmation raise the floor. -/
theorem rollback_floor_monotone_factory :
    RollbackFloor factoryCrypto factoryKey (run factoryCrypto factoryKey
      (powerOn (flashWith factoryRecord))
      (updateEvents ++ [policyBoot factoryCrypto factoryKey [], confirmEvent])) 3 := by
  obtain ⟨v, -, hfloor⟩ := rollback_floor_monotone (journal_flashWith (by decide)) rfl rfl
    slotVersion_factory (updateEvents ++ [policyBoot factoryCrypto factoryKey [], confirmEvent])
  obtain ⟨hsound, hvalid⟩ := sound_of_run provisioned_factory
    (updateEvents ++ [policyBoot factoryCrypto factoryKey [], confirmEvent])
  obtain ⟨slot, hslot, -, hversion⟩ :=
    (bootable_of_sound hsound hvalid journal_confirmed).2 rfl
  rwa [confirmedVersion_unique hfloor.confirmed ⟨_, journal_confirmed, slot, hslot, hversion⟩]
    at hfloor

end Stm32SecurityLab
