import Stm32SecurityLab.System.Safety

/-!
# Write confinement

No sequence of installer calls writes outside the two metadata sectors and the slot that is not
confirmed. The statement is about the log of operations that reached the backend, and it holds
whatever became of them.

## Main results

* `update_writes_confined`
-/

namespace Stm32SecurityLab

open Crash Machine

/-- What an update must not touch: Stage 0, the update metadata sector, the recovery region and
the confirmed slot. -/
def protectedRegions (slot : BootSlotId) : List BootFlashRegion :=
  [⟨Layout.bootloaderBase, Layout.bootloaderEnd⟩,
    ⟨Layout.updateMetadataBase, Layout.updateMetadataEnd⟩,
    ⟨Layout.recoveryBase, Layout.recoveryEnd⟩,
    ⟨(bootSlots slot).signedImageBase, (bootSlots slot).slotEnd⟩]

/-- The operation and the region have no byte in common. -/
def FlashOp.Avoids (op : FlashOp) (region : BootFlashRegion) : Prop :=
  op.endAddr ≤ region.base ∨ region.endAddr ≤ op.base

variable {crypto : Crypto} {publicKey : List UInt8} {d d' : Device} {mc : Machine}

/-- What an update may write avoids what it must not touch. -/
theorem avoids_protected {slot : BootSlotId} {op : FlashOp} (h : MetaOp op ∨ InSlot slot.other op)
    {region : BootFlashRegion} (hr : region ∈ protectedRegions slot) : op.Avoids region := by
  have hle := op.base_le_endAddr
  simp only [protectedRegions, List.mem_cons, List.not_mem_nil, or_false] at hr
  rw [FlashOp.Avoids]
  rcases h with ⟨side, h₁, h₂⟩ | ⟨h₁, h₂⟩
  · have hbase : Layout.bootloaderEnd ≤ (copySector side).base := by cases side <;> decide
    have hend : (copySector side).endAddr ≤ Layout.updateMetadataBase := by cases side <;> decide
    have hrec : Layout.updateMetadataBase ≤ Layout.recoveryBase := by decide
    have hslot : Layout.updateMetadataBase ≤ (bootSlots slot).signedImageBase := by
      cases slot <;> decide
    rcases hr with rfl | rfl | rfl | rfl <;> simp only <;> omega
  · have hbase : Layout.updateMetadataEnd ≤ (bootSlots slot.other).signedImageBase := by
      cases slot <;> decide
    have hboot : Layout.bootloaderEnd ≤ Layout.updateMetadataEnd := by decide
    have hend : (bootSlots slot.other).slotEnd ≤ Layout.recoveryBase := by cases slot <;> decide
    have hapart : (bootSlots slot.other).slotEnd ≤ (bootSlots slot).signedImageBase ∨
        (bootSlots slot).slotEnd ≤ (bootSlots slot.other).signedImageBase := by
      cases slot <;> decide
    rcases hr with rfl | rfl | rfl | rfl <;> simp only <;> omega

/-- Memory that every operation avoids is unchanged. -/
theorem mem_eq_of_avoids {R : FlashOp → Prop} (h : d.Touches R d') {region : BootFlashRegion}
    (hR : ∀ op, R op → op.Avoids region) {x : ℕ} (h₁ : region.base ≤ x)
    (h₂ : x < region.endAddr) : d'.mem x = d.mem x := by
  obtain ⟨ops, -, hops, hmem⟩ := h
  refine hmem x fun op hop hcov => ?_
  rcases hR op (hops op hop) with h | h <;> omega

/-! ### Runs of installer calls -/

/-- A run in which every event brings its own key: confinement does not depend on what the images
verify as. -/
def runKeyed (crypto : Crypto) (mc : Machine) (es : List (List UInt8 × Event)) : Machine :=
  es.foldl (fun mc e => step crypto e.1 mc e.2) mc

/-- One installer call, with any key: the session invariant holds for some key again, and the
call has an effect under some key. -/
theorem step_effect_keyed (crypto : Crypto) (hinv : ∃ key, SessionInv key mc.inst)
    (publicKey : List UInt8) {e : Event} (he : e.call.IsInstaller) :
    (∃ key, SessionInv key (step crypto publicKey mc e).inst) ∧
      ∃ key, Effect crypto key (mc.scripted e.script) (step crypto publicKey mc e).inst.dev := by
  obtain ⟨key, hinv⟩ := hinv
  have hspec := step_spec crypto hinv e
  obtain ⟨call, script⟩ := e
  cases call with
  | boot options => exact he.elim
  | confirm flash => exact he.elim
  | sessionInit flash options withResult =>
    -- the session that is there is cleared first, so it may as well have been clear
    have hclear : SessionInv publicKey
        (Machine.mk { mc.inst with session := {} } mc.lastBoot).inst := sessionInv_empty rfl
    obtain ⟨hinv', -, heff⟩ :=
      step_spec crypto hclear ⟨.sessionInit flash options withResult, script⟩
    exact ⟨⟨publicKey, hinv'⟩, publicKey, heff he⟩
  | reset => exact ⟨⟨key, hspec.1⟩, key, hspec.2.2 he⟩
  | beginUpdate headerBytes => exact ⟨⟨key, hspec.1⟩, key, hspec.2.2 he⟩
  | write payloadOffset data => exact ⟨⟨key, hspec.1⟩, key, hspec.2.2 he⟩
  | finish => exact ⟨⟨key, hspec.1⟩, key, hspec.2.2 he⟩
  | abort => exact ⟨⟨key, hspec.1⟩, key, hspec.2.2 he⟩

/-- Installer calls, one after the other, touch what may be touched at the start, and the
confirmed slot stays the confirmed slot. -/
theorem run_touches (crypto : Crypto) (hinv : ∃ key, SessionInv key mc.inst)
    (hm : journal mc.mem ≠ .error .ambiguous) (es : List (List UInt8 × Event))
    (hes : ∀ e ∈ es, e.2.call.IsInstaller) :
    mc.inst.dev.Touches (Allowed mc.mem) (runKeyed crypto mc es).inst.dev ∧
      KeepsActive mc.mem (runKeyed crypto mc es).mem := by
  induction es generalizing mc with
  | nil => exact ⟨⟨[], by simp [runKeyed]⟩, .of_journal rfl⟩
  | cons e es ih =>
    obtain ⟨hinv', key, heff⟩ := step_effect_keyed crypto hinv e.1 (hes e (List.mem_cons_self ..))
    have hkeeps : KeepsActive mc.mem (step crypto e.1 mc e.2).mem := heff.keeps
    have hfirst : mc.inst.dev.Touches (Allowed mc.mem) (step crypto e.1 mc e.2).inst.dev :=
      heff.extends_allowed.log
    obtain ⟨htouch, hkeeps'⟩ := ih hinv' (hkeeps.not_ambiguous hm)
      fun e' he' => hes e' (List.mem_cons_of_mem _ he')
    refine ⟨hfirst.trans (htouch.mono fun op hop => ?_), hkeeps.trans hkeeps'⟩
    exact hop.imp_right fun ⟨c, hc, hin⟩ => ⟨c, hkeeps.target hm hc, hin⟩

/-- The session invariant holds for some key after every run of installer calls. -/
theorem runKeyed_inv (crypto : Crypto) (hinv : ∃ key, SessionInv key mc.inst)
    (es : List (List UInt8 × Event)) (hes : ∀ e ∈ es, e.2.call.IsInstaller) :
    ∃ key, SessionInv key (runKeyed crypto mc es).inst := by
  induction es generalizing mc with
  | nil => exact hinv
  | cons e es ih =>
    exact ih (step_effect_keyed crypto hinv e.1 (hes e (List.mem_cons_self ..))).1
      fun e' he' => hes e' (List.mem_cons_of_mem _ he')

/-- On a device with a confirmed slot, that is the one an update does not write. -/
theorem allowed_of_active {m : Mem} {r : BootMetadataRecord} {slot : BootSlotId}
    (hj : journal m = .ok r) (ha : r.activeSlot = slot.toUInt32) {op : FlashOp}
    (h : Allowed m op) : MetaOp op ∨ InSlot slot.other op := by
  refine h.imp_right fun ⟨c, hc, hin⟩ => ?_
  have hne : c ≠ slot := fun hcs => ((target_of_ok hj).mp hc).1 (ha.trans (by rw [hcs]))
  rw [← BootSlotId.eq_other_of_ne hne]
  exact hin

/-- Without usable metadata, only slot A is written. -/
theorem allowed_of_error {m : Mem} {err : BootMetadataError} (hj : journal m = .error err)
    {op : FlashOp} (h : Allowed m op) : MetaOp op ∨ InSlot .a op := by
  refine h.imp_right fun ⟨c, hc, hin⟩ => ?_
  rw [← (target_of_error hj).mp hc]
  exact hin

/-- **Write confinement.** Whatever the installer is called with, and whatever the flash does: on
a device with a confirmed slot, every operation lies in a metadata copy or in the other slot, and
the protected regions keep their bytes; on a device without metadata, the only slot written is A,
and the same holds of any single call made while there is no usable metadata. -/
theorem update_writes_confined (es : List (List UInt8 × Event))
    (hes : ∀ e ∈ es, e.2.call.IsInstaller) :
    (∀ r slot, journal d.mem = .ok r → r.activeSlot = slot.toUInt32 →
      d.Touches (fun op => (MetaOp op ∨ InSlot slot.other op) ∧
        ∀ region ∈ protectedRegions slot, op.Avoids region)
        (runKeyed crypto (powerOn d) es).inst.dev ∧
      ∀ region ∈ protectedRegions slot, ∀ x, region.base ≤ x → x < region.endAddr →
        (runKeyed crypto (powerOn d) es).mem x = d.mem x) ∧
    (journal d.mem = .error .noValidCopy →
      d.Touches (fun op => MetaOp op ∨ InSlot .a op) (runKeyed crypto (powerOn d) es).inst.dev) ∧
    (∀ publicKey e err, e.call.IsInstaller →
      journal (runKeyed crypto (powerOn d) es).mem = .error err →
      (runKeyed crypto (powerOn d) es).inst.dev.Touches (fun op => MetaOp op ∨ InSlot .a op)
        (step crypto publicKey (runKeyed crypto (powerOn d) es) e).inst.dev) := by
  have hstart : ∃ key, SessionInv key (powerOn d).inst := ⟨[], powerOn_inv [] d⟩
  refine ⟨fun r slot hj ha => ?_, fun hj => ?_, fun publicKey e err he hj => ?_⟩
  · have hm : journal d.mem ≠ .error .ambiguous := by rw [hj]; simp
    have htouch := (run_touches crypto hstart hm es hes).1
    have hconf : d.Touches (fun op => (MetaOp op ∨ InSlot slot.other op) ∧
        ∀ region ∈ protectedRegions slot, op.Avoids region) _ :=
      htouch.mono fun op hop => ⟨allowed_of_active hj ha hop, fun region hr =>
        avoids_protected (allowed_of_active hj ha hop) hr⟩
    exact ⟨hconf, fun region hr x h₁ h₂ =>
      mem_eq_of_avoids hconf (fun op hop => hop.2 region hr) h₁ h₂⟩
  · have hm : journal d.mem ≠ .error .ambiguous := by rw [hj]; simp
    exact (run_touches crypto hstart hm es hes).1.mono fun op hop => allowed_of_error hj hop
  · have hinv := runKeyed_inv crypto hstart es hes
    obtain ⟨-, key, heff⟩ := step_effect_keyed crypto hinv publicKey he
    exact heff.extends_allowed.log.mono fun op hop => allowed_of_error hj hop

theorem update_writes_confined_factory :
    (flashWith factoryRecord).Touches
      (fun op => (MetaOp op ∨ InSlot .b op) ∧ ∀ region ∈ protectedRegions .a, op.Avoids region)
      (runKeyed factoryCrypto (powerOn (flashWith factoryRecord))
        [(factoryKey, ⟨.sessionInit updateModeFlash (updateModeOptions false) false, []⟩),
          (factoryKey, ⟨.beginUpdate updateHeader, []⟩)]).inst.dev :=
  ((update_writes_confined _ (by simp [Call.IsInstaller])).1 factoryRecord .a
    (journal_flashWith (by decide)) rfl).1

end Stm32SecurityLab
