import Stm32SecurityLab.Metadata.Record

/-!
# What the transition validator compares

`boot_metadata_validate_transition` checks the sequence number, the form of the next record and the
pair of states. It compares the fields of the two records in three cases only: one more attempt, a
confirmation, and a confirmed record written again. For every other pair of states any canonical
record will do, and what the fields are is up to the caller.

Chains of transitions keep the confirmed slot as far as the callers carry the fields over. The
budget of attempts needs no such condition.

## Main definitions

* `Compared` — the pairs of states whose fields are compared
* `SameCandidate` — the steps within the life of one candidate
* `Carried` — a record that carries the fields of its predecessor over
* `attemptBudget` — the attempts a candidate can still get

## Main results

* `validateTransition_iff` — what is accepted
* `transition_chain` — what holds of every pair and along every chain
-/

namespace Stm32SecurityLab

/-- The steps whose fields `transition_fields_allowed` compares. -/
def Compared (current next : BootMetadataState) : Prop :=
  (current = .pendingTrial ∧ next = .pendingTrial) ∨ (current = .pendingTrial ∧ next = .confirmed) ∨
    (current = .confirmed ∧ next = .confirmed)

/-- The steps within the life of one candidate. -/
def SameCandidate (current next : BootMetadataState) : Prop :=
  (current = .writing ∧ next = .candidateReady) ∨
    (current = .candidateReady ∧ next = .pendingTrial) ∨
    (current = .pendingTrial ∧ next = .pendingTrial) ∨ next = .rejectedInvalid

/-- A step that protects the confirmed slot: it changes only when its candidate is confirmed or from
nothing, and the candidate stays the same as long as it lives. -/
structure Protects (current next : BootMetadataRecord) : Prop where
  active : ¬ (current.state = .pendingTrial ∧ next.state = .confirmed) → current.state ≠ .empty →
    next.activeSlot = current.activeSlot
  confirmed : current.state = .pendingTrial → next.state = .confirmed →
    next.activeSlot = current.candidateSlot
  candidate : SameCandidate current.state next.state →
    next.candidateSlot = current.candidateSlot ∧
      next.candidateImageVersion = current.candidateImageVersion

/-- The record carries over what its predecessor says about the slots. -/
structure Carried (current next : BootMetadataRecord) : Prop where
  active : current.state ≠ .empty → next.activeSlot = current.activeSlot
  candidate : SameCandidate current.state next.state →
    next.candidateSlot = current.candidateSlot ∧
      next.candidateImageVersion = current.candidateImageVersion

/-- What is checked of every step, whatever the fields: the next sequence number, a canonical record
and a pair of states. -/
structure StepAllowed (current next : BootMetadataRecord) : Prop where
  sequence : next.sequence ≠ 0 ∧ next.sequence ≠ 0xFFFFFFFF ∧ current.sequence ≠ 0xFFFFFFFF ∧
    next.sequence = current.sequence + 1
  canonical : stateRecordIsCanonical next = true
  states : transitionStateAllowed current.state next.state = true

/-- The attempts a candidate can still get. -/
def attemptBudget (r : BootMetadataRecord) : ℕ :=
  match r.state with
  | .writing | .candidateReady => bootMetadataMaxBootAttempts.toNat
  | .pendingTrial => r.bootAttemptCount.toNat
  | _ => 0

variable {current next : BootMetadataRecord}

/-! ### One step -/

theorem validateTransition_iff :
    bootMetadataValidateTransition current next = .ok () ↔
      StepAllowed current next ∧ transitionFieldsAllowed current next = true := by
  rw [bootMetadataValidateTransition]
  split_ifs with hsequence hcanonical hstates hfields
  · refine ⟨nofun, fun h => ?_⟩
    obtain ⟨h₁, h₂, h₃, h₄⟩ := h.1.sequence
    rcases hsequence with h | h | h | h
    · exact absurd h h₁
    · exact absurd h h₂
    · exact absurd h h₃
    · exact absurd h₄ h
  · refine ⟨nofun, fun h => ?_⟩
    rw [h.1.canonical] at hcanonical
    cases hcanonical
  · refine ⟨nofun, fun h => ?_⟩
    rw [h.1.states] at hstates
    cases hstates
  · refine ⟨nofun, fun h => ?_⟩
    rw [h.2] at hfields
    cases hfields
  · simp only [not_or, not_not] at hsequence
    rw [Bool.not_eq_false] at hcanonical hstates hfields
    exact ⟨fun _ => ⟨⟨hsequence, hcanonical, hstates⟩, hfields⟩, fun _ => rfl⟩

/-- Where nothing is compared, nothing is refused for its fields. -/
theorem transitionFieldsAllowed_of_not_compared (h : ¬ Compared current.state next.state) :
    transitionFieldsAllowed current next = true := by
  rw [Compared, not_or, not_or] at h
  rw [transitionFieldsAllowed, if_neg h.1, if_neg h.2.1, if_neg h.2.2]

/-- One more attempt is one attempt less of the same candidate. -/
theorem fields_of_attempt (h : transitionFieldsAllowed current next = true)
    (hs : current.state = .pendingTrial) (hs' : next.state = .pendingTrial) :
    next.activeSlot = current.activeSlot ∧ next.candidateSlot = current.candidateSlot ∧
      next.candidateImageVersion = current.candidateImageVersion ∧
      current.bootAttemptCount ≠ 0 ∧ next.bootAttemptCount + 1 = current.bootAttemptCount := by
  rw [transitionFieldsAllowed, if_pos ⟨hs, hs'⟩] at h
  split_ifs at h with hzero
  simp only [Bool.and_eq_true, beq_iff_eq] at h
  exact ⟨h.1.1.1.1, h.1.1.1.2, h.1.1.2, hzero, h.1.2⟩

/-- A confirmation is one of the candidate. -/
theorem fields_of_confirmation (h : transitionFieldsAllowed current next = true)
    (hs : current.state = .pendingTrial) (hs' : next.state = .confirmed) :
    next.activeSlot = current.candidateSlot ∧
      next.candidateImageVersion = current.candidateImageVersion := by
  rw [transitionFieldsAllowed, if_neg (by rw [hs']; exact fun h => nomatch h.2),
    if_pos ⟨hs, hs'⟩] at h
  simp only [Bool.and_eq_true, beq_iff_eq] at h
  exact ⟨h.1.1.1.1, h.1.1.2⟩

/-- A confirmed record is written again for the same image. -/
theorem fields_of_again (h : transitionFieldsAllowed current next = true)
    (hs : current.state = .confirmed) (hs' : next.state = .confirmed) :
    next.activeSlot = current.activeSlot ∧
      next.candidateImageVersion = current.candidateImageVersion := by
  rw [transitionFieldsAllowed, if_neg (by rw [hs']; exact fun h => nomatch h.2),
    if_neg (by rw [hs]; exact fun h => nomatch h.1), if_pos ⟨hs, hs'⟩] at h
  simp only [Bool.and_eq_true, beq_iff_eq] at h
  exact ⟨h.1.1.1.1, h.1.1.2⟩

/-- The steps whose fields are compared protect the confirmed slot. -/
theorem protects_of_compared (h : transitionFieldsAllowed current next = true)
    (hc : Compared current.state next.state) : Protects current next := by
  rcases hc with ⟨hs, hs'⟩ | ⟨hs, hs'⟩ | ⟨hs, hs'⟩
  · obtain ⟨hactive, hcandidate, hversion, -⟩ := fields_of_attempt h hs hs'
    refine ⟨fun _ _ => hactive, fun _ hn => ?_, fun _ => ⟨hcandidate, hversion⟩⟩
    rw [hs'] at hn
    cases hn
  · refine ⟨fun hn => absurd ⟨hs, hs'⟩ hn, fun _ _ => (fields_of_confirmation h hs hs').1, ?_⟩
    rw [SameCandidate, hs, hs']
    simp
  · refine ⟨fun _ _ => (fields_of_again h hs hs').1, fun hn => ?_, ?_⟩
    · rw [hs] at hn
      cases hn
    · rw [SameCandidate, hs, hs']
      simp

/-- A record that carries the fields over protects the confirmed slot as well. -/
theorem protects_of_carried (hc : Carried current next)
    (hn : ¬ Compared current.state next.state) : Protects current next :=
  ⟨fun _ => hc.active, fun hs hs' => absurd (.inr (.inl ⟨hs, hs'⟩)) hn, hc.candidate⟩

/-- A canonical record has at most `BOOT_METADATA_MAX_BOOT_ATTEMPTS` attempts. -/
theorem attempts_le_of_canonical (h : stateRecordIsCanonical next = true) :
    next.bootAttemptCount ≤ bootMetadataMaxBootAttempts := by
  by_contra hnot
  have hgt : next.bootAttemptCount > bootMetadataMaxBootAttempts := UInt32.not_le.mp hnot
  rw [stateRecordIsCanonical, if_pos (by simp [hgt])] at h
  cases h

/-- A step that starts no new candidate does not increase the budget. -/
theorem attemptBudget_step (h : bootMetadataValidateTransition current next = .ok ())
    (hn : next.state ≠ .writing) : attemptBudget next ≤ attemptBudget current := by
  obtain ⟨hallowed, hfields⟩ := validateTransition_iff.mp h
  have hstates := hallowed.states
  have hle : next.bootAttemptCount.toNat ≤ bootMetadataMaxBootAttempts.toNat :=
    UInt32.le_iff_toNat_le.mp (attempts_le_of_canonical hallowed.canonical)
  simp only [attemptBudget]
  cases hs' : next.state with
  | writing => exact absurd hs' hn
  | empty => exact Nat.zero_le _
  | confirmed => exact Nat.zero_le _
  | rejectedInvalid => exact Nat.zero_le _
  | candidateReady =>
    rw [hs'] at hstates
    cases hs : current.state <;> rw [hs] at hstates <;> cases hstates
  | pendingTrial =>
    rw [hs'] at hstates
    cases hs : current.state <;> rw [hs] at hstates <;> try cases hstates
    · exact hle
    · obtain ⟨-, -, -, hne, hcount⟩ := fields_of_attempt hfields hs hs'
      have hmax : next.bootAttemptCount.toNat < 4294967295 :=
        Nat.lt_of_le_of_lt hle (by decide)
      have hsucc : (next.bootAttemptCount + 1).toNat = next.bootAttemptCount.toNat + 1 := by
        rw [UInt32.toNat_add]
        exact Nat.mod_eq_of_lt (by simpa using by omega)
      rw [← hcount, hsucc]
      exact Nat.le_succ _

/-! ### Chains -/

section Chains

variable {rs : ℕ → BootMetadataRecord} {n : ℕ}

/-- Each record of the chain is accepted after the one before. -/
def Accepted (rs : ℕ → BootMetadataRecord) (n : ℕ) : Prop :=
  ∀ i < n, bootMetadataValidateTransition (rs i) (rs (i + 1)) = .ok ()

/-- The candidate of record `i` is the one that was written, or the one the chain started with, next
to the same confirmed slot. -/
def Written (rs : ℕ → BootMetadataRecord) (i : ℕ) : Prop :=
  ∃ k ≤ i, ((rs k).state = .writing ∨ k = 0) ∧ (rs k).candidateSlot = (rs i).candidateSlot ∧
    (rs k).candidateImageVersion = (rs i).candidateImageVersion ∧
    (rs k).activeSlot = (rs i).activeSlot

/-- A candidate that is ready or on trial was written. -/
theorem written_of_chain (h : Accepted rs n) (hp : ∀ i < n, Protects (rs i) (rs (i + 1))) {i : ℕ}
    (hi : i ≤ n) (hs : (rs i).state = .writing ∨ (rs i).state = .candidateReady ∨
      (rs i).state = .pendingTrial) : Written rs i := by
  induction i with
  | zero => exact ⟨0, Nat.le_refl _, .inr rfl, rfl, rfl, rfl⟩
  | succ i ih =>
    rcases hs with hs | hs
    · exact ⟨i + 1, Nat.le_refl _, .inl hs, rfl, rfl, rfl⟩
    have hstates := (validateTransition_iff.mp (h i hi)).1.states
    -- the states before a candidate that is ready or on trial
    have hbefore : SameCandidate (rs i).state (rs (i + 1)).state ∧
        ((rs i).state = .writing ∨ (rs i).state = .candidateReady ∨
          (rs i).state = .pendingTrial) := by
      rcases hs with hs | hs <;> rw [hs] at hstates ⊢ <;> cases hcur : (rs i).state <;>
        rw [hcur] at hstates <;> cases hstates <;> simp [SameCandidate]
    obtain ⟨k, hk, hstart, hcandidate, hversion, hactive⟩ := ih (by omega) hbefore.2
    obtain ⟨hcandidate', hversion'⟩ := (hp i hi).candidate hbefore.1
    have hactive' : (rs (i + 1)).activeSlot = (rs i).activeSlot := by
      refine (hp i hi).active (fun hn => ?_) fun hn => ?_
      · rcases hs with hs | hs <;> rw [hs] at hn <;> cases hn.2
      · rcases hbefore.2 with h | h | h <;> rw [hn] at h <;> cases h
    exact ⟨k, by omega, hstart, hcandidate.trans hcandidate'.symm, hversion.trans hversion'.symm,
      hactive.trans hactive'.symm⟩

/-- The budget of one candidate does not increase along a chain. -/
theorem attemptBudget_chain (h : Accepted rs n) {i j : ℕ} (hij : i ≤ j) (hj : j ≤ n)
    (hlife : ∀ k, i < k → k ≤ j → (rs k).state ≠ .writing) :
    attemptBudget (rs j) ≤ attemptBudget (rs i) := by
  induction j, hij using Nat.le_induction with
  | base => exact Nat.le_refl _
  | succ j hij ih =>
    have hstep := attemptBudget_step (h j hj) (hlife (j + 1) (by omega) (Nat.le_refl _))
    exact Nat.le_trans hstep (ih (by omega) fun k hk hk' => hlife k hk (by omega))

end Chains

/-- **What the validator protects.** The steps whose fields it compares protect the confirmed slot
and keep the candidate; of every other step it checks the sequence number, the form and the states,
and nothing else. Along every chain of accepted steps in which the records of those other steps carry
the fields over, the confirmed slot changes only when a candidate that was written is confirmed. And
along every chain the budget of attempts of a candidate does not increase. -/
theorem transition_chain :
    (∀ current next, bootMetadataValidateTransition current next = .ok () →
      Compared current.state next.state → Protects current next) ∧
    (∀ current next, ¬ Compared current.state next.state →
      (bootMetadataValidateTransition current next = .ok () ↔ StepAllowed current next)) ∧
    (∀ (rs : ℕ → BootMetadataRecord) (n : ℕ), Accepted rs n →
      (∀ i < n, ¬ Compared (rs i).state (rs (i + 1)).state → Carried (rs i) (rs (i + 1))) →
      ∀ i < n, Protects (rs i) (rs (i + 1)) ∧
        ((rs i).state = .pendingTrial → (rs (i + 1)).state = .confirmed → Written rs i)) ∧
    ∀ (rs : ℕ → BootMetadataRecord) (n : ℕ), Accepted rs n → ∀ i j, i ≤ j → j ≤ n →
      (∀ k, i < k → k ≤ j → (rs k).state ≠ .writing) →
      attemptBudget (rs j) ≤ attemptBudget (rs i) := by
  refine ⟨fun current next h hc => ?_, fun current next hn => ?_, fun rs n h hcarried => ?_,
    fun rs n h i j hij hj hlife => attemptBudget_chain h hij hj hlife⟩
  · exact protects_of_compared (validateTransition_iff.mp h).2 hc
  · rw [validateTransition_iff]
    exact ⟨And.left, fun h => ⟨h, transitionFieldsAllowed_of_not_compared hn⟩⟩
  · have hp : ∀ i < n, Protects (rs i) (rs (i + 1)) := by
      intro i hi
      by_cases hc : Compared (rs i).state (rs (i + 1)).state
      · exact protects_of_compared (validateTransition_iff.mp (h i hi)).2 hc
      · exact protects_of_carried (hcarried i hi hc) hc
    intro i hi
    exact ⟨hp i hi, fun hs _ => written_of_chain h hp (Nat.le_of_lt hi) (.inr (.inr hs))⟩

/-- A candidate that becomes ready in the place of the confirmed image. -/
theorem exchanged_slots_accepted :
    let writing : BootMetadataRecord :=
      ⟨2, .writing, BootSlotId.a.toUInt32, BootSlotId.b.toUInt32, 3, 0, 0, 0⟩
    let ready : BootMetadataRecord :=
      ⟨3, .candidateReady, BootSlotId.b.toUInt32, BootSlotId.a.toUInt32, 9, 0, 0, 0⟩
    stateRecordIsCanonical writing = true ∧ stateRecordIsCanonical ready = true ∧
      bootMetadataValidateTransition writing ready = .ok () ∧ ¬ Protects writing ready := by
  refine ⟨by decide, by decide, by decide, fun h => ?_⟩
  exact absurd (h.active (by decide) (by decide)) (by decide)

end Stm32SecurityLab
