import Stm32SecurityLab.Boot.Decision
import Stm32SecurityLab.System.Machine

/-!
# What a sound store says of the flash

The abstract store of `System.Store`, read back in terms of the bytes in flash: a record that offers
a candidate names an image that verifies and has the recorded version, and so does one that confirms
an image.

## Main definitions

* `Bootable` — the bytes of a slot are an image that verifies and has the recorded version
* `Provisioned` — a device as it leaves the factory
* `ConfirmedVersion` — the rollback floor

## Main results

* `sound_of_provisioned` — what leaves the factory is sound
* `bootable_of_sound` — what a sound store records can be booted
-/

namespace Stm32SecurityLab

open Crash Machine

/-- The slot a record names holds an image that verifies and has the version. -/
def Bootable (crypto : Crypto) (publicKey : List UInt8) (m : Mem) (slot version : UInt32) : Prop :=
  ∃ s : BootSlotId, slot = s.toUInt32 ∧ slotVerify crypto publicKey m (bootSlots s) = .ok () ∧
    slotVersion m (bootSlots s) = version

/-- Blank flash, or a confirmed image of the recorded version. -/
def Provisioned (crypto : Crypto) (publicKey : List UInt8) (m : Mem) : Prop :=
  journal m = .error .noValidCopy ∨ ∃ r, journal m = .ok r ∧ r.state = .confirmed ∧
    Bootable crypto publicKey m r.activeSlot r.candidateImageVersion

/-- The version of the confirmed image: the one in the manifest of the active slot. -/
def ConfirmedVersion (m : Mem) (v : UInt32) : Prop :=
  ∃ r, journal m = .ok r ∧ ∃ s : BootSlotId, r.activeSlot = s.toUInt32 ∧
    slotVersion m (bootSlots s) = v

variable {crypto : Crypto} {publicKey : List UInt8} {d : Device} {m : Mem} {r : BootMetadataRecord}

/-! ### The invariant, read back -/

theorem store_phase (hj : journal m = .ok r) :
    (store crypto publicKey m).phase = phaseOf r := by
  change journalPhase m = phaseOf r
  rw [journalPhase]
  rw [hj]

/-- Nothing is on offer where the journal is blank or confirmed. -/
theorem settled_of_phase {st : TwoSlot.Store BootSlotId ℕ}
    (h : st.phase = .blank ∨ ∃ slot v, st.phase = .confirmed slot v) : st.Settled := by
  constructor
  · rw [TwoSlot.Store.Offered]
    rcases h with h | ⟨slot, v, h⟩ <;> rw [h] <;> trivial
  · rw [TwoSlot.Store.Apart]
    rcases h with h | ⟨slot, v, h⟩ <;> rw [h] <;> trivial

theorem store_phase_blank (hj : journal m = .error .noValidCopy) :
    (store crypto publicKey m).phase = .blank := by
  change journalPhase m = _
  rw [journalPhase]
  rw [hj]

theorem store_phase_confirmed {slot : BootSlotId} (hj : journal m = .ok r)
    (hs : r.state = .confirmed) (ha : r.activeSlot = slot.toUInt32) :
    (store crypto publicKey m).phase = .confirmed slot r.candidateImageVersion.toNat := by
  rw [store_phase hj, phaseOf_confirmed hs ha]

/-- A confirmed record whose version is that of the image is sound. -/
theorem sound_of_confirmed {slot : BootSlotId} (hj : journal m = .ok r)
    (hs : r.state = .confirmed) (ha : r.activeSlot = slot.toUInt32)
    (hv : slotVersion m (bootSlots slot) = r.candidateImageVersion) :
    (store crypto publicKey m).Sound := by
  have hphase : (store crypto publicKey m).phase = _ := store_phase_confirmed hj hs ha
  refine ⟨settled_of_phase (.inr ⟨_, _, hphase⟩), ?_⟩
  rw [TwoSlot.Store.Newer]
  rw [hphase]
  exact congrArg UInt32.toNat hv

theorem sound_of_provisioned (h : Provisioned crypto publicKey m) :
    (store crypto publicKey m).Sound ∧ (store crypto publicKey m).ActiveValid ∧
      journal m ≠ .error .ambiguous := by
  rcases h with hj | ⟨r, hj, hs, slot, ha, hok, hv⟩
  · have hphase : (store crypto publicKey m).phase = .blank := store_phase_blank hj
    refine ⟨⟨settled_of_phase (.inl hphase), ?_⟩, fun s hact => ?_, by rw [hj]; simp⟩
    · rw [TwoSlot.Store.Newer]
      rw [hphase]
      trivial
    · rw [hphase] at hact
      cases hact
  · refine ⟨sound_of_confirmed hj hs ha hv, fun s hact => ?_, by rw [hj]; simp⟩
    rw [store_phase_confirmed hj hs ha] at hact
    cases hact
    exact hok

/-- A sound store with a valid active image: what is recorded can be booted. -/
theorem bootable_of_sound (hsound : (store crypto publicKey m).Sound)
    (hvalid : (store crypto publicKey m).ActiveValid) (hj : journal m = .ok r) :
    (r.state = .candidateReady ∨ r.state = .pendingTrial →
      Bootable crypto publicKey m r.candidateSlot r.candidateImageVersion) ∧
    (r.state = .confirmed → Bootable crypto publicKey m r.activeSlot r.candidateImageVersion) := by
  have hcan := canonical_of_true (journal_canonical hj)
  have hoffered := hsound.offered
  have hnewer := hsound.newer
  rw [TwoSlot.Store.Offered] at hoffered
  rw [TwoSlot.Store.Newer] at hnewer
  rw [store_phase hj] at hoffered hnewer
  constructor
  · intro hs
    obtain ⟨c, hc⟩ := candidate_of_canonical hcan hs
    have hboth : (store crypto publicKey m).valid c ∧
        (store crypto publicKey m).version c = r.candidateImageVersion.toNat := by
      rcases hs with hs | hs
      · rw [phaseOf_ready hs hc] at hoffered
        exact hoffered
      · rw [phaseOf_trial hs hc] at hoffered
        exact hoffered
    exact ⟨c, hc, hboth.1, UInt32.toNat_inj.mp hboth.2⟩
  · intro hs
    obtain ⟨slot, hslot⟩ := hcan.active.resolve_left (hcan.confirmed hs).1
    rw [phaseOf_confirmed hs hslot] at hnewer
    refine ⟨slot, hslot, hvalid slot ?_, UInt32.toNat_inj.mp hnewer⟩
    rw [store_phase hj, phaseOf_confirmed hs hslot]
    rfl

/-! ### The device of `Boot.Decision` -/

theorem provisioned_factory :
    Provisioned factoryCrypto factoryKey (flashWith factoryRecord).mem :=
  .inr ⟨factoryRecord, journal_flashWith (by decide), rfl, .a, rfl, slotVerify_factory,
    slotVersion_factory⟩

end Stm32SecurityLab
