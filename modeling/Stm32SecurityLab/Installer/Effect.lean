import Stm32SecurityLab.Installer.Frame
import Stm32SecurityLab.System.Store

/-!
# The effect of an installer call

What a call of the installer may do to the device, said once: which operations reach it, what the
journal says afterwards about the confirmed slot, and that the store made steps of the protocol.
The three belong together because the first is only closed under composition by the second.

## Main definitions

* `MetaOp`, `Target`, `Allowed` — the operations a call may perform on given flash contents
* `KeepsActive`, `OnOffer` — what the journal says about the confirmed slot and the candidate
* `Effect` — operations, journal and store of one call

## Main results

* `Effect.trans`, `Effect.of_commit`, `Effect.of_fill` — how effects arise
* `commitMetadataState_spec` — the commits of the installer
-/

namespace Stm32SecurityLab

open Crash Installer

/-! ### Operations on the metadata and on a slot -/

/-- An operation inside one of the metadata copies. -/
def MetaOp (op : FlashOp) : Prop := ∃ side, CopyOp side op

variable {d d' d'' : Device} {m m' : Mem}

theorem MetaOp.endAddr_le {op : FlashOp} (h : MetaOp op) : op.endAddr ≤ Layout.bootMetadataBEnd := by
  obtain ⟨side, -, hend⟩ := h
  have hcopy : (copySector side).endAddr ≤ Layout.bootMetadataBEnd := by cases side <;> decide
  omega

/-- Metadata operations leave the slots alone. -/
theorem SlotSame.of_meta (h : d.Extends MetaOp d') (c : BootSlotId) : SlotSame c d.mem d'.mem := by
  intro x hx _
  refine h.mem_eq fun op hop hcov => ?_
  have hend := hop.endAddr_le
  have hslot : Layout.bootMetadataBEnd < (bootSlots c).signedImageBase := by cases c <;> decide
  omega

/-- Operations in one slot leave the other one alone. -/
theorem SlotSame.of_inSlot {c : BootSlotId} (h : d.Extends (InSlot c) d') :
    SlotSame c.other d.mem d'.mem := by
  intro x hx hx'
  refine h.mem_eq fun op hop hcov => ?_
  obtain ⟨h₁, h₂⟩ := hop
  have hapart : (bootSlots c).slotEnd ≤ (bootSlots c.other).signedImageBase ∨
      (bootSlots c.other).slotEnd ≤ (bootSlots c).signedImageBase := by cases c <;> decide
  omega

/-- Operations in a slot leave the journal alone. -/
theorem copies_of_inSlot {c : BootSlotId} (h : d.Extends (InSlot c) d') :
    copies d'.mem = copies d.mem := by
  funext side
  have hslice : slice d'.mem (copySector side).base Layout.bootMetadataRecordSize =
      slice d.mem (copySector side).base Layout.bootMetadataRecordSize := by
    refine slice_congr fun x _ hx => h.mem_eq fun op hop hcov => ?_
    have hend : (copySector side).base + Layout.bootMetadataRecordSize <
        (bootSlots c).signedImageBase := by cases side <;> cases c <;> decide
    have hbase := hop.1
    omega
  rw [copies, hslice, copies]

theorem journal_of_inSlot {c : BootSlotId} (h : d.Extends (InSlot c) d') :
    journal d'.mem = journal d.mem := journal_congr (copies_of_inSlot h)

theorem journal_cases (m : Mem) : (∃ r, journal m = .ok r) ∨ journal m = .error .noValidCopy ∨
    journal m = .error .ambiguous := by
  rw [journal_eq_read]
  cases TwoCopy.read recordSeq (copies m) with
  | empty => exact .inr (.inl rfl)
  | conflict => exact .inr (.inr rfl)
  | value r => exact .inl ⟨r, rfl⟩

/-! ### Effects -/

/-- The slot an update of the flash contents `m` may write. -/
def Target (m : Mem) (c : BootSlotId) : Prop :=
  match journal m with
  | .ok r => r.activeSlot ≠ c.toUInt32 ∧
      (r.activeSlot = bootSlotNone → r.candidateSlot = c.toUInt32)
  | .error _ => c = .a

theorem target_of_ok {m : Mem} {r : BootMetadataRecord} (hj : journal m = .ok r) {c : BootSlotId} :
    Target m c ↔ r.activeSlot ≠ c.toUInt32 ∧
      (r.activeSlot = bootSlotNone → r.candidateSlot = c.toUInt32) := by
  rw [Target]
  rw [hj]

theorem target_of_error {m : Mem} {e : BootMetadataError} (hj : journal m = .error e)
    {c : BootSlotId} : Target m c ↔ c = .a := by
  rw [Target]
  rw [hj]

/-- The operations an update of the flash contents `m` may perform. -/
def Allowed (m : Mem) (op : FlashOp) : Prop := MetaOp op ∨ ∃ c, Target m c ∧ InSlot c op

/-- The record `r'` has the active slot of `r`, and where there is none, its candidate. -/
def SameActive (r r' : BootMetadataRecord) : Prop :=
  r'.activeSlot = r.activeSlot ∧ (r.activeSlot = bootSlotNone → r'.candidateSlot = r.candidateSlot)

/-- The confirmed slot is still the confirmed slot, and from nothing there is at most an update of
slot A. -/
structure KeepsActive (m m' : Mem) : Prop where
  ok : ∀ r, journal m = .ok r → ∃ r', journal m' = .ok r' ∧ SameActive r r'
  none : journal m = .error .noValidCopy → journal m' = .error .noValidCopy ∨
    ∃ r', journal m' = .ok r' ∧ r'.activeSlot = bootSlotNone ∧
      r'.candidateSlot = BootSlotId.a.toUInt32

theorem KeepsActive.of_journal (h : journal m' = journal m) : KeepsActive m m' :=
  ⟨fun r hr => ⟨r, h.trans hr, rfl, fun _ => rfl⟩, fun hm => .inl (h.trans hm)⟩

theorem KeepsActive.trans {m'' : Mem} (h : KeepsActive m m') (h' : KeepsActive m' m'') :
    KeepsActive m m'' := by
  refine ⟨fun r hr => ?_, fun hm => ?_⟩
  · obtain ⟨r', hr', hact, hcand⟩ := h.ok r hr
    obtain ⟨r'', hr'', hact', hcand'⟩ := h'.ok r' hr'
    exact ⟨r'', hr'', hact'.trans hact, fun hn => (hcand' (hact.trans hn)).trans (hcand hn)⟩
  · rcases h.none hm with hm' | ⟨r', hr', hact, hcand⟩
    · exact h'.none hm'
    · obtain ⟨r'', hr'', hact', hcand'⟩ := h'.ok r' hr'
      exact .inr ⟨r'', hr'', hact'.trans hact, (hcand' hact).trans hcand⟩

/-- A usable journal stays usable. -/
theorem KeepsActive.not_ambiguous (h : KeepsActive m m') (hm : journal m ≠ .error .ambiguous) :
    journal m' ≠ .error .ambiguous := by
  intro hamb
  rcases journal_cases m with ⟨r, hr⟩ | hr | hr
  · obtain ⟨r', hr', -⟩ := h.ok r hr
    rw [hamb] at hr'
    cases hr'
  · rcases h.none hr with hr' | ⟨r', hr', -⟩ <;> rw [hamb] at hr' <;> cases hr'
  · exact hm hr

/-- What may be written later may be written now. -/
theorem KeepsActive.target (h : KeepsActive m m') (hm : journal m ≠ .error .ambiguous)
    {c : BootSlotId} (hc : Target m' c) : Target m c := by
  unfold Target at *
  rcases journal_cases m with ⟨r, hr⟩ | hr | hr
  · obtain ⟨r', hr', hact, hcand⟩ := h.ok r hr
    rw [hr'] at hc
    rw [hr]
    simp only [hact] at hc ⊢
    exact ⟨hc.1, fun hn => (hcand hn).symm.trans (hc.2 hn)⟩
  · rw [hr]
    rcases h.none hr with hr' | ⟨r', hr', hact, hcand⟩
    · rw [hr'] at hc
      exact hc
    · rw [hr'] at hc
      exact (BootSlotId.toUInt32_inj.mp (hcand.symm.trans (hc.2 hact))).symm
  · exact absurd hr hm

/-- The journal offers a candidate to the boot policy. -/
def OnOffer (m : Mem) : Prop :=
  ∃ r, journal m = .ok r ∧ (r.state = .candidateReady ∨ r.state = .pendingTrial)

theorem OnOffer.congr (h : journal m' = journal m) (hm : OnOffer m) : OnOffer m' := by
  obtain ⟨r, hr, hs⟩ := hm
  exact ⟨r, h.trans hr, hs⟩

/-- What a call did to the device. -/
structure Effect (crypto : Crypto) (publicKey : List UInt8) (d d' : Device) : Prop where
  extends_allowed : d.Extends (Allowed d.mem) d'
  keeps : KeepsActive d.mem d'.mem
  offered : OnOffer d.mem → journal d'.mem = journal d.mem
  steps : journal d.mem ≠ .error .ambiguous →
    TwoSlot.Steps (store crypto publicKey d.mem) (store crypto publicKey d'.mem)

namespace Effect

variable {crypto : Crypto} {publicKey : List UInt8}

theorem trans (h : Effect crypto publicKey d d') (h' : Effect crypto publicKey d' d'')
    (hm : journal d.mem ≠ .error .ambiguous) : Effect crypto publicKey d d'' where
  extends_allowed := by
    refine IsTrans.trans _ _ _ h.extends_allowed (h'.extends_allowed.mono fun op hop => ?_)
    exact hop.imp_right fun ⟨c, hc, hin⟩ => ⟨c, h.keeps.target hm hc, hin⟩
  keeps := h.keeps.trans h'.keeps
  offered ho := (h'.offered (ho.congr (h.offered ho))).trans (h.offered ho)
  steps _ := (h.steps hm).trans (h'.steps (h.keeps.not_ambiguous hm))

/-- Reading afterwards makes no difference. -/
theorem read (h : Effect crypto publicKey d d') (hr : d'.Extends (fun _ => False) d'') :
    Effect crypto publicKey d d'' where
  extends_allowed := IsTrans.trans _ _ _ h.extends_allowed (hr.mono fun _ => False.elim)
  keeps := by
    rw [hr.eq_of_false.1]
    exact h.keeps
  offered ho := by
    rw [hr.eq_of_false.1]
    exact h.offered ho
  steps hm := by
    rw [hr.eq_of_false.1]
    exact h.steps hm

/-- Metadata operations that did not change the journal. -/
theorem of_same (hext : d.Extends MetaOp d') (hj : journal d'.mem = journal d.mem) :
    Effect crypto publicKey d d' where
  extends_allowed := hext.mono fun _ => .inl
  keeps := .of_journal hj
  offered _ := hj
  steps _ := by
    rw [store_of_same (SlotSame.of_meta hext) hj]

/-- Nothing was done. -/
theorem of_quiet (hext : d.Extends (fun _ => False) d') : Effect crypto publicKey d d' :=
  of_same (hext.mono fun _ hf => hf.elim) (by rw [hext.eq_of_false.1])

/-- A commit that made a step. -/
theorem of_commit {cur next : BootMetadataRecord} (hext : d.Extends MetaOp d')
    (hj : journal d.mem = .ok cur) (hj' : journal d'.mem = .ok next) (hact : SameActive cur next)
    (hs : cur.state ≠ .candidateReady ∧ cur.state ≠ .pendingTrial)
    (hstep : TwoSlot.Step (withPhase (store crypto publicKey d.mem) cur)
      (withPhase (store crypto publicKey d.mem) next)) : Effect crypto publicKey d d' where
  extends_allowed := hext.mono fun _ => .inl
  keeps := by
    refine ⟨fun r hr => ⟨next, hj', ?_⟩, fun hr => nomatch hj.symm.trans hr⟩
    obtain rfl : cur = r := Except.ok.inj (hj.symm.trans hr)
    exact hact
  offered := by
    rintro ⟨r, hr, ho⟩
    obtain rfl : cur = r := Except.ok.inj (hj.symm.trans hr)
    exact absurd ho (not_or.mpr hs)
  steps _ := by
    rw [store_of_commit (SlotSame.of_meta hext) hj']
    rw [← store_of_journal hj] at hstep
    exact .single hstep

/-- Operations in the slot the journal says is being written. -/
theorem of_fill {c : BootSlotId} {cur : BootMetadataRecord} (hext : d.Extends (InSlot c) d')
    (hj : journal d.mem = .ok cur) (hs : cur.state = .writing)
    (hc : cur.candidateSlot = c.toUInt32) : Effect crypto publicKey d d' where
  extends_allowed := by
    obtain ⟨-, hne, -⟩ := (canonical_of_true (journal_canonical hj)).candidate (by simp [hs])
      (by simp [hs])
    exact hext.mono fun op hop => .inr ⟨c, (target_of_ok hj).mpr
      ⟨fun h => hne (h.trans hc.symm), fun _ => hc⟩, hop⟩
  keeps := .of_journal (journal_of_inSlot hext)
  offered _ := journal_of_inSlot hext
  steps _ := .single (step_fill hj ((journal_of_inSlot hext).trans hj) hs hc
    (SlotSame.of_inSlot hext))

/-- On an ambiguous journal only the operations are of interest. -/
theorem of_ambiguous (hext : d.Extends (fun op => MetaOp op ∨ InSlot .a op) d')
    (hj : journal d.mem = .error .ambiguous) : Effect crypto publicKey d d' where
  extends_allowed :=
    hext.mono fun _ hop => hop.imp_right fun h => ⟨.a, (target_of_error hj).mpr rfl, h⟩
  keeps := ⟨fun _ hr => (nomatch hj.symm.trans hr), fun hr => (nomatch hj.symm.trans hr)⟩
  offered := fun ⟨_, hr, _⟩ => nomatch hj.symm.trans hr
  steps h := absurd hj h

end Effect

/-! ### Commits -/

/-- What `boot_metadata_prepare_next` prepares. -/
theorem bootMetadataPrepareNext_ok {cur next : BootMetadataRecord} {state : BootMetadataState}
    {active candidate version attempts confirmation result : UInt32} :
    bootMetadataPrepareNext cur state active candidate version attempts confirmation result =
        .ok next ↔
      cur.sequence < 0xFFFFFFFE ∧ bootMetadataValidateTransition cur next = .ok () ∧
        next = ⟨cur.sequence + 1, state, active, candidate, version, attempts, confirmation,
          result⟩ := by
  have hmax : (0xFFFFFFFF - 1 : UInt32) = 0xFFFFFFFE := rfl
  rw [bootMetadataPrepareNext]
  rw [hmax]
  split
  · rename_i hge
    refine ⟨fun h => (nomatch h), fun h => ?_⟩
    exact absurd h.1 (UInt32.not_lt.mpr hge)
  · rename_i hlt
    simp only
    split
    · rename_i hval
      constructor
      · rintro h
        cases h
        exact ⟨UInt32.not_le.mp hlt, hval, rfl⟩
      · rintro ⟨-, -, rfl⟩
        rfl
    · rename_i e hval
      refine ⟨fun h => (nomatch h), ?_⟩
      rintro ⟨-, hok, rfl⟩
      rw [hval] at hok
      cases hok

/-- The journal holds the record prepared from `cur`. -/
def Committed (cur : BootMetadataRecord) (state : BootMetadataState)
    (active candidate version : UInt32) (d' : Device) : Prop :=
  ∃ next, bootMetadataPrepareNext cur state active candidate version 0 0 0 = .ok next ∧
    journal d'.mem = .ok next

/-- What a commit leaves that need not have been completed: nothing was done, or a record could be
prepared from `cur` and a readable journal is as it was or holds exactly that. -/
def CommittedOrNot (cur : BootMetadataRecord) (state : BootMetadataState)
    (active candidate version : UInt32) (d d' : Device) : Prop :=
  (d'.mem = d.mem ∧ d'.log = d.log) ∨
    ∃ next, bootMetadataPrepareNext cur state active candidate version 0 0 0 = .ok next ∧
      (journal d.mem ≠ .error .ambiguous →
        journal d'.mem = journal d.mem ∨ journal d'.mem = .ok next)

section CommittedOrNot

variable {cur : BootMetadataRecord} {state : BootMetadataState} {active candidate version : UInt32}

theorem CommittedOrNot.journal (h : CommittedOrNot cur state active candidate version d d')
    (hm : journal d.mem ≠ .error .ambiguous) :
    journal d'.mem = journal d.mem ∨ Committed cur state active candidate version d' := by
  rcases h with ⟨hmem, -⟩ | ⟨next, hnext, hj⟩
  · exact .inl (by rw [hmem])
  · exact (hj hm).imp_right fun hj => ⟨next, hnext, hj⟩

theorem Committed.orNot (h : Committed cur state active candidate version d') :
    CommittedOrNot cur state active candidate version d d' := by
  obtain ⟨next, hnext, hj⟩ := h
  exact .inr ⟨next, hnext, fun _ => .inr hj⟩

end CommittedOrNot

theorem commitMetadataState_spec {cur : BootMetadataRecord} {state : BootMetadataState}
    {active candidate version : UInt32} {point : UpdateInstallFaultPoint} {s : Installer} :
    wp (commitMetadataState cur state active candidate version point) s
      (fun _ s' => Steady MetaOp s s' ∧ Committed cur state active candidate version s'.dev)
      (fun _ s' => Steady MetaOp s s' ∧
        CommittedOrNot cur state active candidate version s.dev s'.dev)
      (fun s' => Steady MetaOp s s' ∧
        CommittedOrNot cur state active candidate version s.dev s'.dev) := by
  rw [commitMetadataState]
  simp only [wp_bind, wp_ofExcept]
  refine ⟨fun next hnext => ?_, fun e _ => ⟨Std.Refl.refl s, .inl ⟨rfl, rfl⟩⟩⟩
  replace hnext := mapError_eq_ok.mp hnext
  have hnone : ∀ {s' : Installer}, Steady (fun _ => False) s s' → Steady MetaOp s s' ∧
      CommittedOrNot cur state active candidate version s.dev s'.dev :=
    fun h => ⟨h.mono fun _ => False.elim, .inl h.dev.eq_of_false⟩
  refine wp.mono (steps_maybeFault (R := fun _ => False) point version)
    (fun _ s₁ h₁ => ?_) (fun _ _ h => hnone h) (fun _ h => hnone h)
  unfold getSession onDev
  simp only [wp_bind, wp_get, wp_pure, wp_zoom, wp_mapErr]
  have hframe : Steps (Device.Extends MetaOp)
      (bootMetadataCommit s₁.session.restrictedFlash next) :=
    steps_bootMetadataCommit fun side op hop _ => ⟨side, hop⟩
  have hsteady : ∀ {d'}, s₁.dev.Extends MetaOp d' → Steady MetaOp s { s₁ with dev := d' } :=
    fun hext => IsTrans.trans _ _ _ (h₁.mono fun _ => False.elim) ⟨rfl, hext⟩
  have hor : ∀ {d'}, CommitTorn next s₁.dev d' →
      CommittedOrNot cur state active candidate version s.dev d' := by
    intro d' ht
    refine .inr ⟨next, hnext, fun _ => ?_⟩
    rw [← h₁.dev.eq_of_false.1]
    exact ht.journal.imp_right And.left
  refine wp.mono (bootMetadataCommit_spec.and (hframe s₁.dev)) ?_ ?_ ?_
  · rintro _ d' ⟨⟨hj, -⟩, hext⟩
    exact ⟨hsteady hext, next, hnext, hj⟩
  · rintro _ d' ⟨ht, hext⟩
    exact ⟨hsteady hext, hor ht⟩
  · rintro d' ⟨ht, hext⟩
    exact ⟨hsteady hext, hor ht⟩

end Stm32SecurityLab
