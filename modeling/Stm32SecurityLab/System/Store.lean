import Stm32SecurityLab.Crash.TwoSlot
import Stm32SecurityLab.Image.SignedImage
import Stm32SecurityLab.Metadata.Journal

/-!
# The flash as a two-slot store

The contents of the flash, seen as a state of the update protocol of `TwoSlot`: the journal gives
the phase, and the two slots give the versions and the images that verify.

The records the code commits are compared with the steps of the protocol here, once for each
transition, so that the modules about the installer, the boot policy and the confirmation only
have to say which record they commit.

## Main definitions

* `phaseOf`, `store` — the abstraction function
* `SlotSame` — the bytes of a slot are unchanged

## Main results

* `store_of_journal`, `store_of_commit` — how a commit changes the store
* `step_begin`, `step_ready`, `step_trial`, `step_confirm`, `step_reject` — every transition the
  code makes is a step of the protocol
-/

namespace Stm32SecurityLab

open Crash TwoSlot

/-- The slot a metadata field names. -/
def slotOf (v : UInt32) : Option BootSlotId :=
  if v = BootSlotId.a.toUInt32 then some .a
  else if v = BootSlotId.b.toUInt32 then some .b
  else none

@[simp] theorem slotOf_toUInt32 (s : BootSlotId) : slotOf s.toUInt32 = some s := by cases s <;> rfl

@[simp] theorem slotOf_none : slotOf bootSlotNone = none := rfl

theorem slotOf_eq_some {v : UInt32} {s : BootSlotId} : slotOf v = some s ↔ v = s.toUInt32 := by
  rw [slotOf]
  constructor
  · intro h
    split at h
    · rename_i hv
      cases h
      exact hv
    · split at h
      · rename_i hv
        cases h
        exact hv
      · cases h
  · rintro rfl
    exact slotOf_toUInt32 s

/-- The phase a record stands for. Only canonical records are ever recovered, and for them the
candidate of the last four cases is a slot. -/
def phaseOf (r : BootMetadataRecord) : Phase BootSlotId ℕ :=
  match r.state, slotOf r.activeSlot, slotOf r.candidateSlot with
  | .confirmed, some slot, _ => .confirmed slot r.candidateImageVersion.toNat
  | .writing, active, some c => .writing active c r.candidateImageVersion.toNat
  | .candidateReady, active, some c => .ready active c r.candidateImageVersion.toNat
  | .pendingTrial, active, some c =>
    .trial active c r.candidateImageVersion.toNat r.bootAttemptCount.toNat
  | .rejectedInvalid, active, some c => .rejected active c r.candidateImageVersion.toNat
  | _, _, _ => .blank

/-- The phase of the journal. -/
def journalPhase (m : Mem) : Phase BootSlotId ℕ :=
  match journal m with
  | .ok r => phaseOf r
  | .error _ => .blank

/-- The store of the flash contents `m`, with images verified under `publicKey`. -/
def store (crypto : Crypto) (publicKey : List UInt8) (m : Mem) : Store BootSlotId ℕ where
  phase := journalPhase m
  version s := (slotVersion m (bootSlots s)).toNat
  valid s := slotVerify crypto publicKey m (bootSlots s) = .ok ()

/-! ### Canonical records -/

/-- Recovered records are canonical. -/
theorem journal_canonical {m : Mem} {r : BootMetadataRecord} (h : journal m = .ok r) :
    stateRecordIsCanonical r = true := by
  have hside : ∀ side, copies m side = some r → stateRecordIsCanonical r = true :=
    fun side hr => bootMetadataDecode_canonical (toOption_eq_some.mp hr)
  rw [journal_eq_read] at h
  rw [TwoCopy.read] at h
  rcases ha : copies m .first with _ | a <;> rcases hb : copies m .second with _ | b <;>
    rw [ha, hb] at h
  · cases h
  · exact hside .second (by rw [hb]; simpa using h)
  · exact hside .first (by rw [ha]; simpa using h)
  · simp only at h
    by_cases heq : recordSeq a = recordSeq b
    · by_cases hab : a = b
      · rw [if_pos heq, if_pos hab] at h
        exact hside .first (by rw [ha]; simpa using h)
      · rw [if_pos heq, if_neg hab] at h
        cases h
    · by_cases hlt : recordSeq b < recordSeq a
      · rw [if_neg heq, if_pos hlt] at h
        exact hside .first (by rw [ha]; simpa using h)
      · rw [if_neg heq, if_neg hlt] at h
        exact hside .second (by rw [hb]; simpa using h)

/-- What canonicity says about the fields the boot logic reads. -/
structure Canonical (r : BootMetadataRecord) : Prop where
  sequence : r.sequence ≠ 0
  active : r.activeSlot = bootSlotNone ∨ ∃ slot : BootSlotId, r.activeSlot = slot.toUInt32
  empty : r.state = .empty → r.activeSlot = bootSlotNone
  confirmed : r.state = .confirmed → r.activeSlot ≠ bootSlotNone ∧ r.candidateSlot = bootSlotNone ∧
    r.confirmationState = 1
  candidate : r.state ≠ .confirmed → r.state ≠ .empty →
    (∃ c : BootSlotId, r.candidateSlot = c.toUInt32) ∧ r.activeSlot ≠ r.candidateSlot ∧
      r.confirmationState = 0

theorem slotValueIsValid_iff {v : UInt32} :
    slotValueIsValid v = true ↔ v = bootSlotNone ∨ ∃ slot : BootSlotId, v = slot.toUInt32 := by
  rw [slotValueIsValid]
  simp only [Bool.or_eq_true, beq_iff_eq]
  constructor
  · rintro ((h | h) | h)
    · exact .inr ⟨.a, h⟩
    · exact .inr ⟨.b, h⟩
    · exact .inl h
  · rintro (h | ⟨slot, h⟩)
    · exact .inr h
    · cases slot
      · exact .inl (.inl h)
      · exact .inl (.inr h)

theorem canonical_of_true {r : BootMetadataRecord} (h : stateRecordIsCanonical r = true) :
    Canonical r := by
  rw [stateRecordIsCanonical] at h
  split at h
  · cases h
  rename_i hhead
  simp only [not_or, not_not] at hhead
  obtain ⟨hseq, -, hactive, hcand, -, -⟩ := hhead
  have hcandidate : r.candidateSlot ≠ bootSlotNone → ∃ c : BootSlotId, r.candidateSlot = c.toUInt32 :=
    fun hne => (slotValueIsValid_iff.mp hcand).resolve_left hne
  refine ⟨hseq, slotValueIsValid_iff.mp hactive, fun hs => ?_, fun hs => ?_, fun hs hs' => ?_⟩
  · rw [hs] at h
    simp only [Bool.and_eq_true, beq_iff_eq] at h
    exact h.1.1.1.1
  · rw [hs] at h
    simp only [Bool.and_eq_true, bne_iff_ne, beq_iff_eq] at h
    exact ⟨h.1.1.1.1, h.1.1.1.2, h.2⟩
  · have hbody : (if r.candidateSlot = bootSlotNone ∨ r.candidateImageVersion = 0 ∨
          (r.activeSlot ≠ bootSlotNone ∧ r.activeSlot = r.candidateSlot) then false
        else if r.state ≠ .pendingTrial ∧ r.bootAttemptCount ≠ 0 then false
        else r.confirmationState == 0) = true := by
      cases hst : r.state <;> simp only [hst] at h hs hs' ⊢ <;>
        first | exact h | exact absurd rfl hs | exact absurd rfl hs'
    split at hbody
    · cases hbody
    rename_i hslots
    simp only [not_or, not_and] at hslots
    obtain ⟨hne, -, hdiff⟩ := hslots
    split at hbody
    · cases hbody
    obtain ⟨c, hc⟩ := hcandidate hne
    refine ⟨⟨c, hc⟩, fun heq => ?_, by simpa using hbody⟩
    by_cases hn : r.activeSlot = bootSlotNone
    · exact hne (by rw [← heq, hn])
    · exact hdiff hn heq

/-! ### Stores and slots -/

/-- The bytes of a slot are unchanged. -/
def SlotSame (c : BootSlotId) (m m' : Mem) : Prop :=
  ∀ x, (bootSlots c).signedImageBase ≤ x → x < (bootSlots c).slotEnd → m' x = m x

variable {crypto : Crypto} {publicKey : List UInt8} {m m' : Mem} {cur next : BootMetadataRecord}

/-- A store with another phase. -/
def withPhase (st : Store BootSlotId ℕ) (r : BootMetadataRecord) : Store BootSlotId ℕ :=
  { st with phase := phaseOf r }

theorem store_of_journal (h : journal m = .ok cur) :
    store crypto publicKey m = withPhase (store crypto publicKey m) cur := by
  rw [withPhase, store, journalPhase]
  rw [h]

/-- Slots that did not change look the same. -/
theorem store_slots (hslots : ∀ c, SlotSame c m m') :
    store crypto publicKey m' =
      { store crypto publicKey m with phase := journalPhase m' } := by
  have hver : ∀ c, slotVersion m' (bootSlots c) = slotVersion m (bootSlots c) :=
    fun c => slotVersion_congr (hslots c)
  have hok : ∀ c, slotVerify crypto publicKey m' (bootSlots c) =
      slotVerify crypto publicKey m (bootSlots c) := fun c => slotVerify_congr (hslots c)
  unfold store
  simp only [hver, hok]

/-- The store after a completed commit. -/
theorem store_of_commit (hslots : ∀ c, SlotSame c m m') (hj : journal m' = .ok next) :
    store crypto publicKey m' = withPhase (store crypto publicKey m) next := by
  rw [store_slots hslots]
  rw [withPhase, journalPhase]
  rw [hj]

theorem store_of_same (hslots : ∀ c, SlotSame c m m') (hj : journal m' = journal m) :
    store crypto publicKey m' = store crypto publicKey m := by
  rw [store_slots hslots]
  rw [journalPhase]
  rw [hj]
  rfl

/-! ### Phases of records -/

theorem phaseOf_confirmed {slot : BootSlotId} (hs : cur.state = .confirmed)
    (ha : cur.activeSlot = slot.toUInt32) :
    phaseOf cur = .confirmed slot cur.candidateImageVersion.toNat := by
  rw [phaseOf]
  rw [hs, ha, slotOf_toUInt32]

theorem phaseOf_writing {c : BootSlotId} (hs : cur.state = .writing)
    (hc : cur.candidateSlot = c.toUInt32) :
    phaseOf cur = .writing (slotOf cur.activeSlot) c cur.candidateImageVersion.toNat := by
  rw [phaseOf]
  rw [hs, hc, slotOf_toUInt32]

theorem phaseOf_ready {c : BootSlotId} (hs : cur.state = .candidateReady)
    (hc : cur.candidateSlot = c.toUInt32) :
    phaseOf cur = .ready (slotOf cur.activeSlot) c cur.candidateImageVersion.toNat := by
  rw [phaseOf]
  rw [hs, hc, slotOf_toUInt32]

theorem phaseOf_trial {c : BootSlotId} (hs : cur.state = .pendingTrial)
    (hc : cur.candidateSlot = c.toUInt32) :
    phaseOf cur = .trial (slotOf cur.activeSlot) c cur.candidateImageVersion.toNat
      cur.bootAttemptCount.toNat := by
  rw [phaseOf]
  rw [hs, hc, slotOf_toUInt32]

theorem phaseOf_rejected {c : BootSlotId} (hs : cur.state = .rejectedInvalid)
    (hc : cur.candidateSlot = c.toUInt32) :
    phaseOf cur = .rejected (slotOf cur.activeSlot) c cur.candidateImageVersion.toNat := by
  rw [phaseOf]
  rw [hs, hc, slotOf_toUInt32]

/-- The phase names the active slot of the record. -/
theorem phaseOf_active (hcan : Canonical cur) : (phaseOf cur).active = slotOf cur.activeSlot := by
  cases hs : cur.state with
  | empty =>
    rw [hcan.empty hs]
    rw [phaseOf]
    rw [hs]
    rfl
  | confirmed =>
    obtain ⟨slot, ha⟩ := hcan.active.resolve_left (hcan.confirmed hs).1
    rw [phaseOf_confirmed hs ha, ha, slotOf_toUInt32]
    rfl
  | writing =>
    obtain ⟨⟨c, hc⟩, -⟩ := hcan.candidate (by simp [hs]) (by simp [hs])
    rw [phaseOf_writing hs hc]
    rfl
  | candidateReady =>
    obtain ⟨⟨c, hc⟩, -⟩ := hcan.candidate (by simp [hs]) (by simp [hs])
    rw [phaseOf_ready hs hc]
    rfl
  | pendingTrial =>
    obtain ⟨⟨c, hc⟩, -⟩ := hcan.candidate (by simp [hs]) (by simp [hs])
    rw [phaseOf_trial hs hc]
    rfl
  | rejectedInvalid =>
    obtain ⟨⟨c, hc⟩, -⟩ := hcan.candidate (by simp [hs]) (by simp [hs])
    rw [phaseOf_rejected hs hc]
    rfl

/-! ### Transitions -/

section Transitions

variable {st : Store BootSlotId ℕ}

/-- A new update over a confirmed image. -/
theorem step_begin {slot : BootSlotId} (hn : next.state = .writing)
    (hna : next.activeSlot = slot.toUInt32) (hnc : next.candidateSlot = slot.other.toUInt32)
    (ha : cur.activeSlot = slot.toUInt32)
    (hcur : (cur.state = .confirmed ∧ cur.candidateImageVersion < next.candidateImageVersion) ∨
      (cur.state = .rejectedInvalid ∧ (∃ c : BootSlotId, cur.candidateSlot = c.toUInt32) ∧
        st.valid slot ∧ st.version slot < next.candidateImageVersion.toNat)) :
    Step (withPhase st cur) (withPhase st next) := by
  unfold withPhase
  rw [phaseOf_writing hn hnc, hna, slotOf_toUInt32]
  rcases hcur with ⟨hs, hlt⟩ | ⟨hs, ⟨c, hc⟩, hok, hlt⟩
  · rw [phaseOf_confirmed hs ha]
    exact .beginConfirmed slot.ne_other (UInt32.lt_iff_toNat_lt.mp hlt)
  · rw [phaseOf_rejected hs hc, ha, slotOf_toUInt32]
    exact .beginRejected slot.ne_other hok hlt

/-- A bootstrap from nothing. -/
theorem step_bootstrap {c : BootSlotId} (hst : st.phase = .blank) (hn : next.state = .writing)
    (hna : next.activeSlot = bootSlotNone) (hnc : next.candidateSlot = c.toUInt32) :
    Step st (withPhase st next) := by
  obtain ⟨phase, ver, ok⟩ := st
  obtain rfl : phase = .blank := hst
  rw [withPhase]
  rw [phaseOf_writing hn hnc, hna, slotOf_none]
  exact .bootstrap

theorem step_ready {c : BootSlotId} (hs : cur.state = .writing) (hn : next.state = .candidateReady)
    (hc : cur.candidateSlot = c.toUInt32) (hnc : next.candidateSlot = cur.candidateSlot)
    (hna : next.activeSlot = cur.activeSlot)
    (hnv : next.candidateImageVersion = cur.candidateImageVersion) (hok : st.valid c)
    (hver : st.version c = cur.candidateImageVersion.toNat) :
    Step (withPhase st cur) (withPhase st next) := by
  unfold withPhase
  rw [phaseOf_writing hs hc, phaseOf_ready hn (hnc.trans hc), hna, hnv]
  exact .ready hver hok

theorem step_trial (hs : cur.state = .candidateReady ∨ cur.state = .pendingTrial ∧
      next.bootAttemptCount.toNat + 1 = cur.bootAttemptCount.toNat)
    (hn : next.state = .pendingTrial) {c : BootSlotId} (hc : cur.candidateSlot = c.toUInt32)
    (hnc : next.candidateSlot = cur.candidateSlot) (hna : next.activeSlot = cur.activeSlot)
    (hnv : next.candidateImageVersion = cur.candidateImageVersion) :
    Step (withPhase st cur) (withPhase st next) := by
  unfold withPhase
  rw [phaseOf_trial hn (hnc.trans hc), hna, hnv]
  rcases hs with hs | ⟨hs, hcount⟩
  · rw [phaseOf_ready hs hc]
    exact .trialFirst
  · rw [phaseOf_trial hs hc, ← hcount]
    exact .trialNext

theorem step_confirm (hs : cur.state = .pendingTrial) (hn : next.state = .confirmed)
    {c : BootSlotId} (hc : cur.candidateSlot = c.toUInt32)
    (hna : next.activeSlot = cur.candidateSlot)
    (hnv : next.candidateImageVersion = cur.candidateImageVersion) :
    Step (withPhase st cur) (withPhase st next) := by
  unfold withPhase
  rw [phaseOf_trial hs hc, phaseOf_confirmed hn (hna.trans hc), hnv]
  exact .confirm

theorem step_reject
    (hs : cur.state = .writing ∨ cur.state = .candidateReady ∨ cur.state = .pendingTrial)
    (hn : next.state = .rejectedInvalid) {c : BootSlotId} (hc : cur.candidateSlot = c.toUInt32)
    (hnc : next.candidateSlot = cur.candidateSlot) (hna : next.activeSlot = cur.activeSlot)
    (hnv : next.candidateImageVersion = cur.candidateImageVersion) :
    Step (withPhase st cur) (withPhase st next) := by
  unfold withPhase
  rw [phaseOf_rejected hn (hnc.trans hc), hna, hnv]
  rcases hs with hs | hs | hs
  · rw [phaseOf_writing hs hc]
    exact .rejectWriting
  · rw [phaseOf_ready hs hc]
    exact .rejectReady
  · rw [phaseOf_trial hs hc]
    exact .rejectTrial

end Transitions

/-- Filling the candidate slot while the journal says so. -/
theorem step_fill {c : BootSlotId} (hj : journal m = .ok cur) (hj' : journal m' = .ok cur)
    (hs : cur.state = .writing) (hc : cur.candidateSlot = c.toUInt32)
    (hsame : SlotSame c.other m m') :
    Step (store crypto publicKey m) (store crypto publicKey m') := by
  have hother : ∀ slot, slot ≠ c → SlotSame slot m m' := by
    intro slot hne
    rw [BootSlotId.eq_other_of_ne hne]
    exact hsame
  unfold store journalPhase
  rw [hj, hj']
  simp only [phaseOf_writing hs hc]
  refine .fill (fun slot hne => ?_) (fun slot hne => ?_)
  · rw [slotVersion_congr (hother slot hne)]
  · rw [slotVerify_congr (hother slot hne)]

end Stm32SecurityLab
