import Stm32SecurityLab.Installer.Session

/-!
# What the installer can touch

A session holds a flash handle whose write regions are the two metadata sectors and the candidate
slot. Every erase and program operation of a session goes through it, so the regions confine the
log; and the operations that erase and fill the slot start at or above the slot's first byte, so
they cannot be in the metadata regions.

## Main definitions

* `InSlot`, `Confined` — an operation inside a slot, and inside the regions of a session
* `UpdateInstallerSession.core` — the session without its running counters
* `Streams` — the counters changed and the flash was extended, and nothing else
* `Steady` — the same for programs that do not move the payload counters

## Main results

* `steps_eraseCandidateSlot`, `steps_programSourceRange`, `steps_writeLoop`,
  `steps_flushPayloadProgramBuffer`, `steps_hashInstalledPayload`
-/

namespace Stm32SecurityLab

open Crash Installer

/-! ### Regions -/

/-- The operation lies inside a slot. -/
def InSlot (c : BootSlotId) (op : FlashOp) : Prop :=
  (bootSlots c).signedImageBase ≤ op.base ∧ op.endAddr ≤ (bootSlots c).slotEnd

/-- The operation lies inside a metadata copy or inside the slot. -/
def Confined (c : BootSlotId) (op : FlashOp) : Prop := (∃ side, CopyOp side op) ∨ InSlot c op

/-- The handle of the session covers the metadata and the candidate. -/
def UpdateInstallerSession.Restricted (session : UpdateInstallerSession) : Prop :=
  session.restrictedFlash.writeRegions = restrictedRegions session.candidate

theorem FlashOp.base_le_endAddr (op : FlashOp) : op.base ≤ op.endAddr := by
  cases op with
  | erase sector => exact Nat.le_add_right _ _
  | program address length => exact Nat.le_add_right _ _

theorem Confined.of_within {session : UpdateInstallerSession} (h : session.Restricted)
    {op : FlashOp} (hop : op.Within session.restrictedFlash) : Confined session.candidate op := by
  obtain ⟨r, hr, h₁, h₂⟩ := hop
  rw [h] at hr
  simp only [restrictedRegions, List.mem_cons, List.not_mem_nil, or_false] at hr
  rcases hr with rfl | rfl | rfl
  · exact .inl ⟨.first, h₁, h₂⟩
  · exact .inl ⟨.second, h₁, h₂⟩
  · exact .inr ⟨h₁, h₂⟩

/-- An admissible operation that starts at or above the slot is inside the slot. -/
theorem InSlot.of_within {session : UpdateInstallerSession} (h : session.Restricted)
    {op : FlashOp} (hop : op.Within session.restrictedFlash)
    (hbase : (bootSlots session.candidate).signedImageBase ≤ op.base) :
    InSlot session.candidate op := by
  rcases Confined.of_within h hop with ⟨side, -, hend⟩ | hslot
  · have hle := op.base_le_endAddr
    have hcopy : (copySector side).endAddr ≤ Layout.bootMetadataBEnd := by cases side <;> decide
    have hslots : Layout.bootMetadataBEnd < (bootSlots session.candidate).signedImageBase := by
      cases session.candidate <;> decide
    omega
  · exact hslot

theorem initRestrictedFlash_ok (flash : BootFlash) (candidate : BootSlotId) :
    ∃ restricted, initRestrictedFlash flash candidate = .ok restricted ∧
      restricted.writeRegions = restrictedRegions candidate ∧
      restricted.programAlignment = flash.programAlignment := by
  have hr : ∀ r ∈ restrictedRegions candidate, r.IsValid := by cases candidate <;> decide
  refine ⟨⟨flash.programAlignment, restrictedRegions candidate, flash.alignment_pow, hr⟩, ?_, rfl,
    rfl⟩
  rw [initRestrictedFlash, bootFlashInit]
  rw [dif_pos flash.alignment_pow, dif_pos hr]

/-! ### The streaming relation -/

/-- The session without the counters, the hash and the hook state that streaming changes. -/
def UpdateInstallerSession.core (session : UpdateInstallerSession) : UpdateInstallerSession :=
  { session with
    payloadHashCtx := []
    payloadReceived := 0
    payloadProgrammed := 0
    programFill := 0
    programmedBlockCount := 0
    payloadHashFinalized := false
    faultCalls := 0 }

/-- Only counters and buffers of the session changed, and the flash was extended by operations in
`R`. -/
structure Streams (R : FlashOp → Prop) (s s' : Installer) : Prop where
  core : s'.session.core = s.session.core
  dev : s.dev.Extends R s'.dev

variable {R : FlashOp → Prop} {s s' : Installer}

instance : Std.Refl (Streams R) where
  refl s := ⟨rfl, Std.Refl.refl s.dev⟩

instance : IsTrans Installer (Streams R) where
  trans _ _ _ h h' := ⟨h'.core.trans h.core, IsTrans.trans _ _ _ h.dev h'.dev⟩

namespace Streams

theorem mono {R' : FlashOp → Prop} (h : Streams R s s') (hR : ∀ op, R op → R' op) :
    Streams R' s s' := ⟨h.core, h.dev.mono hR⟩

theorem candidate (h : Streams R s s') : s'.session.candidate = s.session.candidate :=
  congrArg (·.candidate) h.core

theorem state (h : Streams R s s') : s'.session.state = s.session.state :=
  congrArg (·.state) h.core

theorem restrictedFlash (h : Streams R s s') :
    s'.session.restrictedFlash = s.session.restrictedFlash :=
  congrArg (·.restrictedFlash) h.core

theorem restricted (h : Streams R s s') (hs : s.session.Restricted) : s'.session.Restricted := by
  rw [UpdateInstallerSession.Restricted]
  rw [h.restrictedFlash, h.candidate]
  exact hs

end Streams

/-- The session without the block counter and the hook state, which are all that programming and
committing change. -/
def UpdateInstallerSession.steady (session : UpdateInstallerSession) : UpdateInstallerSession :=
  { session with
    programmedBlockCount := 0
    faultCalls := 0 }

/-- Only the block counter and the hook state of the session changed, and the flash was extended
by operations in `R`. -/
structure Steady (R : FlashOp → Prop) (s s' : Installer) : Prop where
  steady : s'.session.steady = s.session.steady
  dev : s.dev.Extends R s'.dev

instance : Std.Refl (Steady R) where
  refl s := ⟨rfl, Std.Refl.refl s.dev⟩

instance : IsTrans Installer (Steady R) where
  trans _ _ _ h h' := ⟨h'.steady.trans h.steady, IsTrans.trans _ _ _ h.dev h'.dev⟩

namespace Steady

theorem mono {R' : FlashOp → Prop} (h : Steady R s s') (hR : ∀ op, R op → R' op) :
    Steady R' s s' := ⟨h.steady, h.dev.mono hR⟩

theorem streams (h : Steady R s s') : Streams R s s' := by
  refine ⟨?_, h.dev⟩
  have hcore : s'.session.steady.core = s.session.steady.core := by rw [h.steady]
  exact hcore

theorem candidate (h : Steady R s s') : s'.session.candidate = s.session.candidate :=
  h.streams.candidate

theorem restrictedFlash (h : Steady R s s') :
    s'.session.restrictedFlash = s.session.restrictedFlash :=
  h.streams.restrictedFlash

theorem restricted (h : Steady R s s') (hs : s.session.Restricted) : s'.session.Restricted :=
  h.streams.restricted hs

end Steady

theorem steps_streams {ε α : Type} {x : Prog Installer ε α} (h : StepsFrom (Steady R) x s) :
    StepsFrom (Streams R) x s :=
  h.mono fun _ => Steady.streams

/-! ### Building blocks -/

theorem steps_onDev {ε α : Type} {x : Prog Device ε α} (h : StepsFrom (Device.Extends R) x s.dev) :
    StepsFrom (Steady R) (onDev x) s :=
  StepsFrom.zoom h fun _ hd => ⟨rfl, hd⟩

theorem steps_getSession {ε α : Type} {f : UpdateInstallerSession → Prog Installer ε α}
    {ρ : Installer → Installer → Prop} (h : StepsFrom ρ (f s.session) s) :
    StepsFrom ρ (getSession >>= f) s := by
  rw [getSession, StepsFrom]
  simp only [wp_bind, wp_get, wp_pure]
  exact h

theorem steps_modifySession {ε : Type} {f : UpdateInstallerSession → UpdateInstallerSession}
    (h : (f s.session).steady = s.session.steady) :
    StepsFrom (Steady R) (modifySession f : Prog Installer ε Unit) s :=
  ⟨h, Std.Refl.refl s.dev⟩

theorem steps_modifyCounters {ε : Type} {f : UpdateInstallerSession → UpdateInstallerSession}
    (h : (f s.session).core = s.session.core) :
    StepsFrom (Streams R) (modifySession f : Prog Installer ε Unit) s :=
  ⟨h, Std.Refl.refl s.dev⟩

theorem steps_modifyResult {ε : Type} (f : UpdateInstallResult → UpdateInstallResult) :
    StepsFrom (Steady R) (modifyResult f : Prog Installer ε Unit) s := by
  have h : Steady R s (if s.session.hasResult then { s with result := f s.result } else s) := by
    split <;> exact ⟨rfl, Std.Refl.refl s.dev⟩
  exact h

theorem steps_modifyBuffer {ε : Type} (f : Installer → Mem) :
    StepsFrom (Steady R)
      (Prog.modify fun s => { s with programBuffer := f s } : Prog Installer ε Unit) s :=
  ⟨rfl, Std.Refl.refl s.dev⟩

theorem steps_maybeFault (point : UpdateInstallFaultPoint) (detail : UInt32) :
    StepsFrom (Steady R) (maybeFault point detail) s := by
  rw [maybeFault]
  refine steps_getSession ?_
  split
  · exact StepsFrom.pure ()
  · exact (steps_modifySession rfl).bind fun _ _ _ => StepsFrom.ofExcept _

/-! ### Erasing and programming -/

theorem steps_eraseSectors {sectors : List ℕ}
    (hR : ∀ sector ∈ sectors, ∀ entry, bootFlashSectors[sector]? = some entry →
      (FlashOp.erase entry).Within s.session.restrictedFlash → R (.erase entry)) :
    StepsFrom (Steady R) (eraseSectors sectors) s := by
  induction sectors generalizing s with
  | nil => exact StepsFrom.pure ()
  | cons sector sectors ih =>
    rw [eraseSectors]
    refine (steps_maybeFault _ _).bind fun _ s₁ h₁ => steps_getSession ?_
    refine StepsFrom.bind (steps_onDev (StepsFrom.mapErr ?_ _)) fun _ s₂ h₂ => ?_
    · refine steps_bootFlashEraseSector (fun entry he hw => ?_) s₁.dev
      rw [h₁.restrictedFlash] at hw
      exact hR sector (List.mem_cons_self ..) entry he hw
    · refine (steps_modifyResult _).bind fun _ s₃ h₃ => ih fun sector' hs' entry he hw => ?_
      rw [h₃.restrictedFlash, h₂.restrictedFlash, h₁.restrictedFlash] at hw
      exact hR sector' (List.mem_cons_of_mem _ hs') entry he hw

/-- The sectors of a slot lie in the slot. -/
theorem sector_base_of_mem {c : BootSlotId} {sector : ℕ} {entry : BootFlashSector}
    (h : sector ∈ List.range' (bootSlots c).firstSector
      ((bootSlots c).lastSector + 1 - (bootSlots c).firstSector))
    (he : bootFlashSectors[sector]? = some entry) :
    (bootSlots c).signedImageBase ≤ entry.base := by
  have hall : ∀ sector ∈ List.range' (bootSlots c).firstSector
      ((bootSlots c).lastSector + 1 - (bootSlots c).firstSector),
      ∀ entry ∈ bootFlashSectors[sector]?, (bootSlots c).signedImageBase ≤ entry.base := by
    cases c <;> decide
  exact hall sector h entry he

theorem steps_eraseCandidateSlot (hs : s.session.Restricted) :
    StepsFrom (Steady (InSlot s.session.candidate)) eraseCandidateSlot s := by
  rw [eraseCandidateSlot]
  refine steps_getSession (steps_eraseSectors fun sector hsec entry he hw => ?_)
  exact InSlot.of_within hs hw (sector_base_of_mem hsec he)

theorem steps_programAlignedBlock {address : ℕ} {data : List UInt8}
    (hR : (FlashOp.program address data.length).Within s.session.restrictedFlash →
      R (.program address data.length)) :
    StepsFrom (Steady R) (programAlignedBlock address data) s := by
  rw [programAlignedBlock]
  refine steps_getSession ?_
  refine (steps_maybeFault _ _).bind fun _ s₁ h₁ => ?_
  refine (steps_onDev (StepsFrom.mapErr (steps_bootFlashProgramAligned hR s₁.dev) _)).bind
    fun _ s₂ _ => ?_
  refine (steps_maybeFault _ _).bind fun _ s₃ _ => ?_
  refine (steps_onDev (StepsFrom.mapErr (steps_bootFlashRead _ _ s₃.dev) _)).bind
    fun _ s₄ _ => ?_
  refine (StepsFrom.check _ _).bind fun _ s₅ _ => (StepsFrom.check _ _).bind fun _ s₆ _ => ?_
  exact (steps_modifySession rfl).bind fun _ _ _ => steps_modifyResult _

theorem eq_of_checkedU32Add {left right sum : ℕ} (h : checkedU32Add left right = some sum) :
    sum = left + right := by
  unfold checkedU32Add at h
  split at h
  · cases h
  · exact (Option.some.inj h).symm

theorem steps_programSourceLoop {source : List UInt8} {dataSize paddedSize fuel offset : ℕ}
    (hs : s.session.Restricted) :
    StepsFrom (Steady (InSlot s.session.candidate))
      (programSourceLoop (bootSlots s.session.candidate).signedImageBase source dataSize paddedSize
        fuel offset) s := by
  obtain ⟨c, hc⟩ : ∃ c, c = s.session.candidate := ⟨_, rfl⟩
  rw [← hc]
  induction fuel generalizing s offset with
  | zero => exact StepsFrom.pure ()
  | succ fuel ih =>
    rw [programSourceLoop]
    split
    swap
    · exact StepsFrom.pure ()
    refine steps_getSession ?_
    refine (steps_modifyBuffer _).bind fun _ s₁ h₁ => ?_
    split
    · exact StepsFrom.fail _
    · rename_i address haddr
      refine StepsFrom.get_bind ?_
      have hs₁ := h₁.restricted hs
      have hc₁ : c = s₁.session.candidate := by rw [h₁.candidate, hc]
      refine StepsFrom.bind (steps_programAlignedBlock fun hw => ?_) fun _ s₂ h₂ =>
        ih (h₂.restricted hs₁) (by rw [h₂.candidate, hc₁])
      rw [hc₁]
      refine InSlot.of_within hs₁ hw ?_
      rw [← hc₁, eq_of_checkedU32Add haddr]
      exact Nat.le_add_right _ _

theorem steps_programSourceRange {source : List UInt8} {dataSize paddedSize : ℕ}
    (hs : s.session.Restricted) :
    StepsFrom (Steady (InSlot s.session.candidate))
      (programSourceRange (bootSlots s.session.candidate).signedImageBase source dataSize
        paddedSize) s := by
  rw [programSourceRange, StepsFrom]
  simp only [wp_bind, wp_check]
  exact ⟨fun _ => steps_programSourceLoop hs, fun _ => Std.Refl.refl s⟩

theorem steps_flushLength (finalFlush : Bool) :
    StepsFrom (Steady R) (flushLength finalFlush) s := by
  rw [flushLength]
  refine steps_getSession ?_
  split
  · split
    · exact StepsFrom.fail _
    · exact (steps_modifyBuffer _).bind fun _ _ _ => StepsFrom.pure _
  · exact (StepsFrom.check _ _).bind fun _ _ _ => StepsFrom.pure _

theorem steps_flushPayloadProgramBuffer (finalFlush : Bool) (hs : s.session.Restricted) :
    StepsFrom (Streams (InSlot s.session.candidate)) (flushPayloadProgramBuffer finalFlush) s := by
  rw [flushPayloadProgramBuffer]
  refine steps_getSession ?_
  split
  · exact StepsFrom.pure ()
  refine (steps_streams (steps_flushLength finalFlush)).bind fun programLength s₁ h₁ => ?_
  refine (StepsFrom.check _ _).bind fun _ s₂ h₂ => ?_
  split
  · exact StepsFrom.fail _
  · rename_i address haddr
    refine StepsFrom.get_bind ?_
    refine StepsFrom.bind (steps_streams (steps_programAlignedBlock fun hw => ?_)) fun _ s₃ h₃ =>
      steps_modifyCounters rfl
    have hs₂ := h₂.restricted (h₁.restricted hs)
    have hc : s₂.session.candidate = s.session.candidate := h₂.candidate.trans h₁.candidate
    rw [← hc]
    refine InSlot.of_within hs₂ hw ?_
    have hpay : (bootSlots s.session.candidate).signedImageBase ≤
        (bootSlots s.session.candidate).payloadBase := by
      cases s.session.candidate <;> decide
    rw [hc, eq_of_checkedU32Add haddr]
    exact Nat.le_trans hpay (Nat.le_add_right _ _)

theorem steps_writeLoop {fuel : ℕ} {input : List UInt8} (hs : s.session.Restricted) :
    StepsFrom (Streams (InSlot s.session.candidate)) (writeLoop fuel input) s := by
  obtain ⟨c, hc⟩ : ∃ c, c = s.session.candidate := ⟨_, rfl⟩
  rw [← hc]
  induction fuel generalizing s input with
  | zero => exact StepsFrom.pure ()
  | succ fuel ih =>
    rw [writeLoop]
    split
    swap
    · exact StepsFrom.pure ()
    refine steps_getSession (StepsFrom.modify_bind ⟨rfl, Std.Refl.refl s.dev⟩ ?_)
    refine StepsFrom.bind ?_ fun _ s₂ h₂ => ih (h₂.restricted hs) (by rw [h₂.candidate]; exact hc)
    rw [flushIfFull]
    refine steps_getSession ?_
    split
    · rw [hc]
      exact steps_flushPayloadProgramBuffer false hs
    · exact StepsFrom.pure ()

/-! ### Verification -/

theorem steps_hashInstalledLoop {payloadBase payloadSize readbackSize fuel offset : ℕ}
    {ctx : List UInt8} :
    Steps (Device.Extends R)
      (hashInstalledLoop payloadBase payloadSize readbackSize fuel offset ctx) := by
  induction fuel generalizing offset ctx with
  | zero => exact Steps.pure _
  | succ fuel ih =>
    rw [hashInstalledLoop]
    split
    · split
      · exact Steps.fail _
      · exact Steps.bind (.mapErr (steps_bootFlashRead _ _) _) fun _ => ih
    · exact Steps.pure _

theorem steps_hashInstalledPayload (crypto : Crypto) :
    StepsFrom (Steady R) (hashInstalledPayload crypto) s := by
  rw [hashInstalledPayload]
  refine steps_getSession ((steps_maybeFault _ _).bind fun _ s₁ _ => ?_)
  exact (steps_onDev (steps_hashInstalledLoop s₁.dev)).bind fun _ _ _ =>
    (steps_maybeFault _ _).bind fun _ _ _ => StepsFrom.check _ _

theorem steps_verifyStreamingPayloadHash (crypto : Crypto) :
    StepsFrom (Streams R) (verifyStreamingPayloadHash crypto) s := by
  rw [verifyStreamingPayloadHash]
  exact steps_getSession ((steps_modifyCounters rfl).bind fun _ _ _ => StepsFrom.check _ _)

end Stm32SecurityLab
