import Stm32SecurityLab.System.Safety

/-!
# Bounded trial boots

From the commit of `CANDIDATE_READY` to the confirmation or rejection of the candidate, the boot
policy hands out a fixed number of trial boots. The budget is in the journal, so resets do not
refill it, and it is spent before the boot goes on, so neither does a power cut. Verification
outcomes, fault hooks, installer calls and failing flash operations are arbitrary.

## Main definitions

* `budget` — the boot opportunities the journal has left
* `trialBoots` — the trial boots of a run, each with the flash it left behind

## Main results

* `step_budget` — one event does not increase the budget, and a trial boot decreases it
* `trial_boots_bounded`
-/

namespace Stm32SecurityLab

open Crash Machine

/-- The trial boots a record stands for. -/
def recordBudget (r : BootMetadataRecord) : ℕ :=
  match r.state with
  | .candidateReady => bootMetadataMaxBootAttempts.toNat
  | .pendingTrial => r.bootAttemptCount.toNat
  | _ => 0

/-- The trial boots the journal has left. -/
def budget (m : Mem) : ℕ :=
  match journal m with
  | .ok r => recordBudget r
  | .error _ => 0

/-- The trial boots of a run, each with the flash contents it left behind. -/
def trialBoots (crypto : Crypto) (publicKey : List UInt8) :
    Machine → List Event → List (BootSlotSelectionResult × Mem)
  | _, [] => []
  | mc, e :: es =>
    let later := trialBoots crypto publicKey (step crypto publicKey mc e) es
    match bootReturn mc e with
    | some result =>
      if result.decision = .trial then (result, (step crypto publicKey mc e).mem) :: later else later
    | none => later

variable {crypto : Crypto} {publicKey : List UInt8} {mc : Machine} {r r' : BootMetadataRecord}

theorem trialBoots_of_trial {e : Event} {es : List Event} {result : BootSlotSelectionResult}
    (h : bootReturn mc e = some result) (hd : result.decision = .trial) :
    trialBoots crypto publicKey mc (e :: es) =
      (result, (step crypto publicKey mc e).mem) ::
        trialBoots crypto publicKey (step crypto publicKey mc e) es := by
  rw [trialBoots, h]
  exact if_pos hd

theorem trialBoots_of_other {e : Event} {es : List Event} {result : BootSlotSelectionResult}
    (h : bootReturn mc e = some result) (hd : result.decision ≠ .trial) :
    trialBoots crypto publicKey mc (e :: es) =
      trialBoots crypto publicKey (step crypto publicKey mc e) es := by
  rw [trialBoots, h]
  exact if_neg hd

theorem budget_of_ok {m : Mem} (h : journal m = .ok r) : budget m = recordBudget r := by
  rw [budget]
  rw [h]

/-- The same candidate is still on offer. -/
structure SameOffer (r r' : BootMetadataRecord) : Prop where
  candidate : r'.candidateSlot = r.candidateSlot
  version : r'.candidateImageVersion = r.candidateImageVersion

/-- One more attempt is one attempt less. -/
theorem recordBudget_of_trial (h : BootStep r r') (hs : r'.state = .pendingTrial) :
    recordBudget r' + 1 = recordBudget r := by
  unfold recordBudget
  rcases h.state with ⟨-, ⟨hr, hn⟩ | ⟨hr, hn⟩⟩ | ⟨hrej, -⟩
  · rw [hs, hr]
    simp only [hn]
    decide
  · rw [hs, hr]
    exact hn
  · rw [hs] at hrej
    cases hrej

/-- **One event** while a candidate is on offer: the candidate stays the same, the budget does not
grow, and a trial boot spends one attempt of it. -/
theorem step_budget (hinv : SessionInv publicKey mc.inst) (e : Event)
    (hr : journal mc.mem = .ok r) (hs : r.state = .candidateReady ∨ r.state = .pendingTrial)
    (hr' : journal (step crypto publicKey mc e).mem = .ok r')
    (hs' : r'.state = .candidateReady ∨ r'.state = .pendingTrial) :
    SameOffer r r' ∧ recordBudget r' ≤ recordBudget r := by
  have hsame : journal (step crypto publicKey mc e).mem = journal mc.mem →
      SameOffer r r' ∧ recordBudget r' ≤ recordBudget r := by
    intro h
    obtain rfl : r = r' := Except.ok.inj ((h.trans hr).symm.trans hr')
    exact ⟨⟨rfl, rfl⟩, Nat.le_refl _⟩
  cases (step_spec crypto hinv e).2.1 with
  | install h => exact hsame (h.offered ⟨r, hr, hs⟩)
  | boot h =>
    rcases h.journal with h | ⟨cur, next, hcur, hnext, hstep⟩
    · exact hsame h
    obtain rfl : r = cur := Except.ok.inj (hr.symm.trans hcur)
    obtain rfl : r' = next := Except.ok.inj (hr'.symm.trans hnext)
    refine ⟨⟨hstep.candidate, hstep.version⟩, ?_⟩
    rcases hstep.state with ⟨hp, -⟩ | ⟨hrej, -⟩
    · have := recordBudget_of_trial hstep hp
      omega
    · rcases hs' with h | h <;> rw [hrej] at h <;> cases h
  | confirm h =>
    rcases h.journal with h | ⟨cur, next, -, hnext, hstep⟩
    · exact hsame h
    obtain rfl : r' = next := Except.ok.inj (hr'.symm.trans hnext)
    rcases hs' with h | h <;> rw [hstep.state] at h <;> cases h

/-- A trial boot has committed a smaller budget for the candidate it selects. -/
theorem bootReturn_trial {e : Event} {result : BootSlotSelectionResult}
    (hr : journal mc.mem = .ok r) (hb : bootReturn mc e = some result)
    (hd : result.decision = .trial) :
    ∃ next, journal (step crypto publicKey mc e).mem = .ok next ∧ next.state = .pendingTrial ∧
      recordBudget next + 1 = recordBudget r ∧ result.selectedSlot = r.candidateSlot ∧
      result.attemptsRemainingAfter = next.bootAttemptCount := by
  obtain ⟨call, script⟩ := e
  rw [bootReturn] at hb
  split at hb
  swap
  · cases hb
  rename_i options hcall
  obtain rfl : call = .boot options := hcall
  have hspec : wp (bootSlotSelectionSelect options) { dev := mc.scripted script } _ _ _ :=
    bootSlotSelectionSelect_spec
  split at hb
  swap
  · cases hb
  rename_i u s' hrun
  obtain rfl : s'.result = result := Option.some.inj hb
  have hstep : step crypto publicKey mc ⟨.boot options, script⟩ =
      ⟨{ mc.inst with dev := s'.dev }, some s'.result⟩ :=
    congrArg mc.settleBoot hrun
  obtain ⟨-, metadata, hm, hsel⟩ := hspec.ret hrun
  obtain rfl : r = metadata := Except.ok.inj (hr.symm.trans hm)
  rw [hstep]
  rcases hsel with ⟨-, hslot, ⟨next, hnext, hboot, hp, hattempts⟩, -⟩ | ⟨hdec, -⟩
  · exact ⟨next, hnext, hp, recordBudget_of_trial hboot hp, hslot, hattempts⟩
  · rcases hdec with h | h <;> rw [hd] at h <;> cases h

/-! ### Runs -/

/-- What a trial boot of the candidate of `r` has left behind: one attempt less is in the
journal. -/
structure TrialOf (r : BootMetadataRecord) (t : BootSlotSelectionResult × Mem) : Prop where
  slot : t.1.selectedSlot = r.candidateSlot
  record : ∃ next, journal t.2 = .ok next ∧ next.state = .pendingTrial ∧ SameOffer r next ∧
    t.1.attemptsRemainingAfter = next.bootAttemptCount

/-- The trial boots of a run that starts and stays with a candidate on offer. -/
theorem trialBoots_spec (crypto : Crypto) (hinv : SessionInv publicKey mc.inst) (hr : journal mc.mem = .ok r)
    (es : List Event)
    (hoffer : ∀ es', es' <+: es → OnOffer (run crypto publicKey mc es').mem) :
    (trialBoots crypto publicKey mc es).length ≤ budget mc.mem ∧
      (trialBoots crypto publicKey mc es).Pairwise (fun t t' => budget t'.2 < budget t.2) ∧
      ∀ t ∈ trialBoots crypto publicKey mc es, budget t.2 < budget mc.mem ∧ TrialOf r t := by
  induction es generalizing mc r with
  | nil => exact ⟨Nat.zero_le _, .nil, fun t ht => nomatch ht⟩
  | cons e es ih =>
    have hinv' := (step_spec crypto hinv e).1
    obtain ⟨r₀, hr₀, hs⟩ := hoffer [] (List.nil_prefix ..)
    obtain rfl : r = r₀ := Except.ok.inj (hr.symm.trans hr₀)
    obtain ⟨r', hr', hs'⟩ := hoffer [e] ⟨es, rfl⟩
    obtain ⟨hoff, hle⟩ := step_budget hinv e hr hs hr' hs'
    obtain ⟨hlen, hpair, hall⟩ := ih hinv' hr' fun es' hes' =>
      hoffer (e :: es') (List.cons_prefix_cons.mpr ⟨rfl, hes'⟩)
    have hbudget : budget (step crypto publicKey mc e).mem = recordBudget r' := budget_of_ok hr'
    have hbudget₀ : budget mc.mem = recordBudget r := budget_of_ok hr
    have hlater : ∀ t ∈ trialBoots crypto publicKey (step crypto publicKey mc e) es,
        budget t.2 < budget mc.mem ∧ TrialOf r t := by
      intro t ht
      obtain ⟨hlt, hslot, next, hnext, hp, hsame, hattempts⟩ := hall t ht
      refine ⟨by omega, hslot.trans hoff.candidate, next, hnext, hp, ?_, hattempts⟩
      exact ⟨hsame.candidate.trans hoff.candidate, hsame.version.trans hoff.version⟩
    have hskip : (trialBoots crypto publicKey (step crypto publicKey mc e) es).length ≤
        budget mc.mem := by omega
    rw [trialBoots]
    split
    swap
    · exact ⟨hskip, hpair, hlater⟩
    rename_i result hb
    split
    swap
    · exact ⟨hskip, hpair, hlater⟩
    rename_i hd
    obtain ⟨next, hnext, hp, hspent, hslot, hattempts⟩ := bootReturn_trial hr hb hd
    obtain rfl : r' = next := Except.ok.inj (hr'.symm.trans hnext)
    refine ⟨?_, List.pairwise_cons.mpr ⟨fun t ht => (hall t ht).1, hpair⟩, ?_⟩
    · rw [List.length_cons]
      omega
    · intro t ht
      rcases List.mem_cons.mp ht with rfl | ht
      · exact ⟨by simp only; omega, hslot, r', hr', hp, hoff, hattempts⟩
      · exact hlater t ht

/-- **Bounded trial boots.** Between the commit of `CANDIDATE_READY` and the confirmation or
rejection of the candidate there are at most `BOOT_METADATA_MAX_BOOT_ATTEMPTS` trial boots, all of
that candidate, and at each of them the journal has a smaller budget than at any one before. -/
theorem trial_boots_bounded {d : Device} (before es : List Event)
    (hready : journal (run crypto publicKey (powerOn d) before).mem = .ok r)
    (hs : r.state = .candidateReady)
    (hoffer : ∀ es', es' <+: es → OnOffer (run crypto publicKey (powerOn d) (before ++ es')).mem) :
    (trialBoots crypto publicKey (run crypto publicKey (powerOn d) before) es).length ≤
        bootMetadataMaxBootAttempts.toNat ∧
      (trialBoots crypto publicKey (run crypto publicKey (powerOn d) before) es).Pairwise
        (fun t t' => budget t'.2 < budget t.2) ∧
      ∀ t ∈ trialBoots crypto publicKey (run crypto publicKey (powerOn d) before) es,
        TrialOf r t := by
  have hinv := run_inv crypto (powerOn_inv publicKey d) before
  obtain ⟨hlen, hpair, hall⟩ := trialBoots_spec crypto hinv hready es fun es' hes' => by
    rw [← run_append]
    exact hoffer es' hes'
  rw [budget_of_ok hready] at hlen
  rw [recordBudget] at hlen
  rw [hs] at hlen
  exact ⟨hlen, hpair, fun t ht => (hall t ht).2⟩

/-- A boot whose commit fails. -/
def failedBoot : Event := policyBoot factoryCrypto factoryKey [.ok, .ok, .fail ⟨0, .unchanged⟩]

/-- A trial boot, a boot whose commit fails, and a trial boot. -/
def twoTrials : List Event :=
  [policyBoot factoryCrypto factoryKey [], failedBoot, policyBoot factoryCrypto factoryKey []]

/-- The candidate stays on offer all the time, and is tried twice. -/
theorem run_twoTrials :
    (∃ first second, trialBoots factoryCrypto factoryKey
      (run factoryCrypto factoryKey (powerOn (flashWith factoryRecord)) updateEvents) twoTrials =
        [first, second]) ∧
      ∀ es, es <+: twoTrials → OnOffer (run factoryCrypto factoryKey
        (powerOn (flashWith factoryRecord)) (updateEvents ++ es)).mem := by
  obtain ⟨⟨result₁, hreturn₁, hdecision₁⟩, hj₁⟩ :=
    run_starts_trial provisioned_factory journal_updated (.inl rfl) (by decide)
  obtain ⟨hsound, hvalid⟩ := sound_of_run provisioned_factory
    (updateEvents ++ [policyBoot factoryCrypto factoryKey []])
  have hactive : (triedRecord readyRecord).activeSlot = BootSlotId.a.toUInt32 := rfl
  obtain ⟨result₂, hreturn₂, hdecision₂, -, hmem₂⟩ :=
    boot_falls_back ⟨0, .unchanged⟩ hsound hvalid hj₁ rfl hactive (by decide)
  rw [← failedBoot] at hreturn₂ hmem₂
  have hj₂ : journal (run factoryCrypto factoryKey (powerOn (flashWith factoryRecord))
      ((updateEvents ++ [policyBoot factoryCrypto factoryKey []]) ++ [failedBoot])).mem =
        .ok (triedRecord readyRecord) := by
    rw [run_append, run_cons, run_nil]
    exact (congrArg journal hmem₂).trans hj₁
  obtain ⟨⟨result₃, hreturn₃, hdecision₃⟩, hj₃⟩ :=
    run_starts_trial provisioned_factory hj₂ (.inr ⟨rfl, by decide⟩) (by decide)
  simp only [List.append_assoc, List.cons_append, List.nil_append] at hj₂ hreturn₃ hj₃
  refine ⟨?_, fun es hes => ?_⟩
  · rw [run_append, run_cons, run_nil] at hreturn₂
    rw [run_append, run_cons, run_cons, run_nil] at hreturn₃
    have htrials := @trialBoots_of_trial factoryCrypto factoryKey _ _
      [failedBoot, policyBoot factoryCrypto factoryKey []] _ hreturn₁ hdecision₁
    rw [trialBoots_of_other hreturn₂ (by rw [hdecision₂]; decide),
      trialBoots_of_trial hreturn₃ hdecision₃, trialBoots] at htrials
    rw [twoTrials]
    exact ⟨_, _, htrials⟩
  · rcases List.prefix_cons_iff.mp hes with rfl | ⟨es₁, rfl, hes₁⟩
    · rw [List.append_nil]
      exact ⟨_, journal_updated, .inl rfl⟩
    rcases List.prefix_cons_iff.mp hes₁ with rfl | ⟨es₂, rfl, hes₂⟩
    · exact ⟨_, hj₁, .inr rfl⟩
    rcases List.prefix_cons_iff.mp hes₂ with rfl | ⟨es₃, rfl, hes₃⟩
    · exact ⟨_, hj₂, .inr rfl⟩
    obtain rfl := List.prefix_nil.mp hes₃
    exact ⟨_, hj₃, .inr rfl⟩

theorem trial_boots_bounded_ready : ∃ first second,
    trialBoots factoryCrypto factoryKey
      (run factoryCrypto factoryKey (powerOn (flashWith factoryRecord)) updateEvents) twoTrials =
        [first, second] ∧
      budget second.2 < budget first.2 ∧ TrialOf readyRecord first ∧ TrialOf readyRecord second := by
  obtain ⟨⟨first, second, htrials⟩, hoffer⟩ := run_twoTrials
  obtain ⟨-, hdecreasing, hall⟩ := trial_boots_bounded updateEvents twoTrials journal_updated rfl hoffer
  rw [htrials] at hdecreasing hall
  exact ⟨first, second, htrials, List.rel_of_pairwise_cons hdecreasing List.mem_cons_self,
    hall first List.mem_cons_self, hall second (List.mem_cons_of_mem _ List.mem_cons_self)⟩

end Stm32SecurityLab
