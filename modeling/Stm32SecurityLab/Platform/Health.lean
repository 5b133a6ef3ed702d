import Mathlib.Algebra.GroupWithZero.Nat
import Mathlib.Data.List.Induction
import Stm32SecurityLab.Platform.RuntimeMonitor

/-!
# The health service

`platform_health.c` as a whole: the automatic state, the temporary override with its countdown, and
the pattern that a service tick puts on the LEDs.

`platform_health_set_state` compares priorities before it writes. `platform_health_report_fault`
and `platform_health_apply_boot_policy` do not, so whether a failure sticks is a question about the
calls that are made after it. `severityKept_iff` answers it call by call.

## Main definitions

* `PlatformHealth`, `HealthOp`, `runHealth` — the service and its nine calls
* `SeverityKept` — what is asked of a sequence of calls
* `HealthOp.Heeds` — a call that writes nothing less severe over a failure

## Main results

* `Critical.step`, `Critical.run` — failures stick as long as every call heeds them
* `Override.run` — an override counts down
* `severityKept_iff`
-/

namespace Stm32SecurityLab

/-! ### Patterns -/

/-- `health_frame_t`. -/
structure HealthFrame where
  mask : UInt8
  ticks : ℕ

/-- The logical LED masks of `platform_led.h`. -/
def platformLed1 : UInt8 := 1
def platformLed2 : UInt8 := 2
def platformLed3 : UInt8 := 4
def platformLed4 : UInt8 := 8
def platformLedAll : UInt8 := platformLed1 ||| platformLed2 ||| platformLed3 ||| platformLed4

/-- `frames_for_state`. -/
def framesForState : PlatformHealthState → List HealthFrame
  | .booting =>
    [⟨platformLed1, 6⟩, ⟨platformLed1 ||| platformLed2, 6⟩,
      ⟨platformLed1 ||| platformLed2 ||| platformLed3, 6⟩, ⟨platformLedAll, 6⟩, ⟨0, 6⟩]
  | .healthy => [⟨platformLed4, 1⟩, ⟨0, 9⟩]
  | .degraded => [⟨platformLedAll, 2⟩, ⟨0, 2⟩, ⟨platformLedAll, 2⟩, ⟨0, 10⟩]
  | .updating =>
    [⟨platformLed1, 2⟩, ⟨platformLed1 ||| platformLed2, 2⟩,
      ⟨platformLed1 ||| platformLed2 ||| platformLed3, 2⟩, ⟨platformLedAll, 2⟩,
      ⟨platformLed2 ||| platformLed3 ||| platformLed4, 2⟩, ⟨platformLed3 ||| platformLed4, 2⟩,
      ⟨platformLed4, 2⟩, ⟨0, 2⟩]
  | .recovery => [⟨platformLed1 ||| platformLed4, 4⟩, ⟨platformLed2 ||| platformLed3, 4⟩]
  | .testRunning => [⟨platformLedAll, 1⟩, ⟨0, 3⟩]
  | .fault =>
    [⟨platformLedAll, 1⟩, ⟨0, 1⟩, ⟨platformLedAll, 1⟩, ⟨0, 1⟩, ⟨platformLedAll, 1⟩, ⟨0, 3⟩]
  | .securityFailure =>
    [⟨platformLedAll, 1⟩, ⟨0, 1⟩, ⟨platformLed1 ||| platformLed4, 1⟩, ⟨0, 1⟩,
      ⟨platformLed2 ||| platformLed3, 1⟩, ⟨0, 1⟩, ⟨platformLedAll, 2⟩, ⟨0, 2⟩]

/-- How long a frame lasts. -/
def HealthFrame.duration (frame : HealthFrame) (fast : Bool) : ℕ :=
  if fast = true then 1 else frame.ticks

/-- `pattern_period`. -/
def patternPeriod (frames : List HealthFrame) (fast : Bool) : ℕ :=
  let period := (frames.map (·.duration fast)).sum
  if period = 0 then 1 else period

/-- The loop of `pattern_mask`. -/
def maskAt (fast : Bool) : List HealthFrame → ℕ → UInt8
  | [], _ => 0
  | frame :: frames, position =>
    if position < frame.duration fast then frame.mask
    else maskAt fast frames (position - frame.duration fast)

/-- `pattern_mask`. -/
def patternMask (state : PlatformHealthState) (phase : UInt32) (fast : Bool) : UInt8 :=
  maskAt fast (framesForState state) (phase.toNat % patternPeriod (framesForState state) fast)

/-! ### The service -/

/-- `PLATFORM_HEALTH_LED_TEST_TICKS` and `PLATFORM_HEALTH_EASTER_EGG_TICKS`. -/
def platformHealthLedTestTicks : ℕ := 64
def platformHealthEasterEggTicks : ℕ := 96

/-- The static variables of `platform_health.c`. -/
structure PlatformHealth where
  automaticState : PlatformHealthState
  activeState : PlatformHealthState
  temporaryState : PlatformHealthState
  temporaryTicksRemaining : ℕ
  activePhase : UInt32
  temporaryActiveFlag : Bool
  temporaryFastFlag : Bool
  lastLedMask : UInt8

/-- `platform_health_init`. -/
def platformHealthInit : PlatformHealth where
  automaticState := .booting
  activeState := .booting
  temporaryState := .healthy
  temporaryTicksRemaining := 0
  activePhase := 0
  temporaryActiveFlag := false
  temporaryFastFlag := false
  lastLedMask := 0

namespace PlatformHealth

/-- `selected_state`, which `platform_health_get_state` returns. -/
def selectedState (health : PlatformHealth) : PlatformHealthState :=
  if health.temporaryActiveFlag = true ∧
      statePriority health.temporaryState ≥ statePriority health.automaticState then
    health.temporaryState
  else health.automaticState

/-- `platform_health_set_state`. -/
def setState (state : PlatformHealthState) (health : PlatformHealth) : PlatformHealth :=
  { health with automaticState := platformHealthSetState health.automaticState state }

/-- `platform_health_report_fault`. -/
def reportFault (health : PlatformHealth) : PlatformHealth :=
  { health with automaticState := .fault }

/-- `platform_health_report_security_failure`. -/
def reportSecurityFailure (health : PlatformHealth) : PlatformHealth :=
  { health with automaticState := .securityFailure }

/-- `platform_health_stop_temporary`. -/
def stopTemporary (health : PlatformHealth) : PlatformHealth :=
  { health with
    temporaryTicksRemaining := 0
    temporaryActiveFlag := false
    temporaryFastFlag := false
    activePhase := 0 }

/-- `platform_health_acknowledge`. -/
def acknowledge (health : PlatformHealth) : PlatformHealth :=
  stopTemporary { health with automaticState := platformHealthAcknowledge health.automaticState }

/-- `platform_health_start_led_test`. -/
def startLedTest (state : PlatformHealthState) (health : PlatformHealth) : PlatformHealth :=
  { health with
    temporaryState := state
    temporaryTicksRemaining := platformHealthLedTestTicks
    temporaryActiveFlag := true
    temporaryFastFlag := false
    activePhase := 0 }

/-- `platform_health_start_easteregg_knightrider`. -/
def startEastereggKnightrider (health : PlatformHealth) : PlatformHealth :=
  { health with
    temporaryState := .healthy
    temporaryTicksRemaining := platformHealthEasterEggTicks
    temporaryActiveFlag := true
    temporaryFastFlag := true
    activePhase := 0 }

/-- The part of `platform_health_service_tick` before the countdown. -/
def showPattern (health : PlatformHealth) : PlatformHealth :=
  let state := health.selectedState
  let fast := health.temporaryActiveFlag && decide (state = health.temporaryState) &&
    health.temporaryFastFlag
  let health :=
    if state ≠ health.activeState then { health with activeState := state, activePhase := 0 }
    else health
  let health := { health with lastLedMask := patternMask state health.activePhase fast }
  { health with activePhase := health.activePhase + 1 }

/-- The countdown at the end of `platform_health_service_tick`. -/
def countDown (health : PlatformHealth) : PlatformHealth :=
  if health.temporaryActiveFlag = true ∧ health.temporaryTicksRemaining ≠ 0 then
    let health :=
      { health with temporaryTicksRemaining := health.temporaryTicksRemaining - 1 }
    if health.temporaryTicksRemaining = 0 then
      { health with temporaryActiveFlag := false, temporaryFastFlag := false, activePhase := 0 }
    else health
  else health

/-- `platform_health_service_tick`. -/
def serviceTick (health : PlatformHealth) : PlatformHealth := health.showPattern.countDown

/-- `platform_health_apply_boot_policy`. -/
def applyBootPolicy (resetCsr : UInt32) (faultRecordValid selfTestsPassed securityFailure : Bool)
    (health : PlatformHealth) : PlatformHealth :=
  let state :=
    platformHealthEvaluateBootPolicy resetCsr faultRecordValid selfTestsPassed securityFailure
  if state = .fault then health.reportFault
  else if state = .securityFailure then health.reportSecurityFailure
  else { health with automaticState := state }

end PlatformHealth

/-- A call of the service. -/
inductive HealthOp where
  | setState (state : PlatformHealthState)
  | reportFault
  | reportSecurityFailure
  | applyBootPolicy (resetCsr : UInt32) (faultRecordValid selfTestsPassed securityFailure : Bool)
  | acknowledge
  | startLedTest (state : PlatformHealthState)
  | startEastereggKnightrider
  | stopTemporary
  | serviceTick
  deriving DecidableEq

/-- What a call does. -/
def HealthOp.run : HealthOp → PlatformHealth → PlatformHealth
  | .setState state => PlatformHealth.setState state
  | .reportFault => PlatformHealth.reportFault
  | .reportSecurityFailure => PlatformHealth.reportSecurityFailure
  | .applyBootPolicy resetCsr faultRecordValid selfTestsPassed securityFailure =>
    PlatformHealth.applyBootPolicy resetCsr faultRecordValid selfTestsPassed securityFailure
  | .acknowledge => PlatformHealth.acknowledge
  | .startLedTest state => PlatformHealth.startLedTest state
  | .startEastereggKnightrider => PlatformHealth.startEastereggKnightrider
  | .stopTemporary => PlatformHealth.stopTemporary
  | .serviceTick => PlatformHealth.serviceTick

/-- What a sequence of calls does. -/
def runHealth (ops : List HealthOp) (health : PlatformHealth) : PlatformHealth :=
  ops.foldl (fun health op => op.run health) health

/-! ### What is asked of it -/

/-- The state that a call reports. -/
def HealthOp.reports : HealthOp → Option PlatformHealthState
  | .setState state => some state
  | .reportFault => some .fault
  | .reportSecurityFailure => some .securityFailure
  | .applyBootPolicy resetCsr faultRecordValid selfTestsPassed securityFailure =>
    some (platformHealthEvaluateBootPolicy resetCsr faultRecordValid selfTestsPassed
      securityFailure)
  | _ => none

/-- Some call of a sequence reported the state. -/
def Reported (state : PlatformHealthState) (ops : List HealthOp) : Prop :=
  ∃ op ∈ ops, op.reports = some state

/-- The calls that start an override. -/
def HealthOp.starts : HealthOp → Bool
  | .startLedTest _ => true
  | .startEastereggKnightrider => true
  | _ => false

/-- The automatic state is no less severe than the failures that have been reported. -/
structure Critical (ops : List HealthOp) (automatic : PlatformHealthState) : Prop where
  security : Reported .securityFailure ops → automatic = .securityFailure
  fault : Reported .fault ops → statePriority .fault ≤ statePriority automatic

/-- What is asked of every moment of a run, and of what may follow it. -/
structure SeverityKeptAt (ops : List HealthOp) (health : PlatformHealth) : Prop where
  critical : Critical ops health.automaticState
  displayed : statePriority health.automaticState ≤ statePriority health.selectedState
  ticked : statePriority health.automaticState ≤ statePriority health.serviceTick.activeState
  acknowledged : health.acknowledge.automaticState ≠ health.automaticState →
    health.automaticState = .degraded ∧ health.acknowledge.automaticState = .healthy
  ended : ∀ more : List HealthOp, (∀ op ∈ more, op.starts = false) →
    platformHealthEasterEggTicks ≤ more.count .serviceTick →
    (runHealth more health).temporaryActiveFlag = false ∧
      (runHealth more health).selectedState = (runHealth more health).automaticState

/-- Health severity is sticky throughout a sequence of calls after `platform_health_init`. -/
def SeverityKept (ops : List HealthOp) : Prop :=
  ∀ before after, ops = before ++ after → SeverityKeptAt before (runHealth before platformHealthInit)

/-- A call that does not put a less severe state over a failure. -/
def HealthOp.Heeds (automatic : PlatformHealthState) : HealthOp → Prop
  | .reportFault => automatic ≠ .securityFailure
  | .applyBootPolicy _ _ selfTestsPassed securityFailure =>
    (automatic = .securityFailure → securityFailure = true) ∧
      (automatic = .fault → securityFailure = true ∨ selfTestsPassed = false)
  | _ => True

/-- Every call of a sequence heeds the automatic state it finds. -/
def EveryCallHeeds (ops : List HealthOp) : Prop :=
  ∀ before op after, ops = before ++ op :: after →
    op.Heeds (runHealth before platformHealthInit).automaticState

section Calls

variable {health : PlatformHealth} {op : HealthOp} {ops : List HealthOp}

theorem runHealth_concat (ops : List HealthOp) (op : HealthOp) (health : PlatformHealth) :
    runHealth (ops ++ [op]) health = op.run (runHealth ops health) := by
  simp only [runHealth, List.foldl_append, List.foldl_cons, List.foldl_nil]

theorem reported_concat (state : PlatformHealthState) (ops : List HealthOp) (op : HealthOp) :
    Reported state (ops ++ [op]) ↔ Reported state ops ∨ op.reports = some state := by
  simp only [Reported, List.mem_append, List.mem_singleton, or_and_right, exists_or,
    exists_eq_left]

/-! ### The automatic state -/

@[simp] theorem showPattern_automaticState (health : PlatformHealth) :
    health.showPattern.automaticState = health.automaticState := by
  simp only [PlatformHealth.showPattern]
  split <;> rfl

@[simp] theorem showPattern_activeState (health : PlatformHealth) :
    health.showPattern.activeState = health.selectedState := by
  simp only [PlatformHealth.showPattern]
  split
  · rfl
  · next h => exact (not_not.mp h).symm

@[simp] theorem showPattern_temporaryActiveFlag (health : PlatformHealth) :
    health.showPattern.temporaryActiveFlag = health.temporaryActiveFlag := by
  simp only [PlatformHealth.showPattern]
  split <;> rfl

@[simp] theorem showPattern_temporaryTicksRemaining (health : PlatformHealth) :
    health.showPattern.temporaryTicksRemaining = health.temporaryTicksRemaining := by
  simp only [PlatformHealth.showPattern]
  split <;> rfl

/-- The countdown touches neither state. -/
theorem countDown_states (health : PlatformHealth) :
    health.countDown.automaticState = health.automaticState ∧
      health.countDown.activeState = health.activeState := by
  rw [PlatformHealth.countDown]
  split
  · dsimp only
    split <;> exact ⟨rfl, rfl⟩
  · exact ⟨rfl, rfl⟩

@[simp] theorem serviceTick_automaticState (health : PlatformHealth) :
    health.serviceTick.automaticState = health.automaticState := by
  rw [PlatformHealth.serviceTick, (countDown_states _).1, showPattern_automaticState]

@[simp] theorem serviceTick_activeState (health : PlatformHealth) :
    health.serviceTick.activeState = health.selectedState := by
  rw [PlatformHealth.serviceTick, (countDown_states _).2, showPattern_activeState]

@[simp] theorem applyBootPolicy_automaticState (resetCsr : UInt32)
    (faultRecordValid selfTestsPassed securityFailure : Bool) (health : PlatformHealth) :
    (health.applyBootPolicy resetCsr faultRecordValid selfTestsPassed
      securityFailure).automaticState =
      platformHealthEvaluateBootPolicy resetCsr faultRecordValid selfTestsPassed
        securityFailure := by
  simp only [PlatformHealth.applyBootPolicy]
  split
  · next h => exact h.symm
  · split
    · next h => exact h.symm
    · rfl

/-- What a call makes of the automatic state. -/
def HealthOp.automatic (automatic : PlatformHealthState) : HealthOp → PlatformHealthState
  | .setState state => platformHealthSetState automatic state
  | .reportFault => .fault
  | .reportSecurityFailure => .securityFailure
  | .applyBootPolicy resetCsr faultRecordValid selfTestsPassed securityFailure =>
    platformHealthEvaluateBootPolicy resetCsr faultRecordValid selfTestsPassed securityFailure
  | .acknowledge => platformHealthAcknowledge automatic
  | _ => automatic

theorem run_automaticState (op : HealthOp) (health : PlatformHealth) :
    (op.run health).automaticState = op.automatic health.automaticState := by
  cases op with
  | applyBootPolicy => exact applyBootPolicy_automaticState _ _ _ _ health
  | serviceTick => exact serviceTick_automaticState health
  | _ => rfl

theorem evaluateBootPolicy_eq_securityFailure_iff {resetCsr : UInt32}
    {faultRecordValid selfTestsPassed securityFailure : Bool} :
    platformHealthEvaluateBootPolicy resetCsr faultRecordValid selfTestsPassed securityFailure =
      .securityFailure ↔ securityFailure = true := by
  rw [platformHealthEvaluateBootPolicy]
  split
  · simp [*]
  · split
    · simp [*]
    · split <;> simp [*]

theorem fault_le_evaluateBootPolicy_iff {resetCsr : UInt32}
    {faultRecordValid selfTestsPassed securityFailure : Bool} :
    statePriority .fault ≤ statePriority (platformHealthEvaluateBootPolicy resetCsr
      faultRecordValid selfTestsPassed securityFailure) ↔
      securityFailure = true ∨ selfTestsPassed = false := by
  rw [platformHealthEvaluateBootPolicy]
  split
  · simp [statePriority, *]
  · split
    · simp [statePriority, *]
    · split <;> simp [statePriority, *]

/-- The two states that stick. -/
theorem fault_le_iff {state : PlatformHealthState} :
    statePriority .fault ≤ statePriority state ↔ state = .fault ∨ state = .securityFailure := by
  cases state <;> decide

theorem le_setState (automatic state : PlatformHealthState) :
    statePriority automatic ≤ statePriority (platformHealthSetState automatic state) ∧
      statePriority state ≤ statePriority (platformHealthSetState automatic state) := by
  rw [platformHealthSetState]
  split <;> omega

theorem securityFailure_le_iff {state : PlatformHealthState} :
    statePriority .securityFailure ≤ statePriority state ↔ state = .securityFailure := by
  cases state <;> decide

/-- A critical automatic state has been reported. -/
theorem reported_of_critical
    (h : statePriority .fault ≤ statePriority (runHealth ops platformHealthInit).automaticState) :
    Reported (runHealth ops platformHealthInit).automaticState ops := by
  induction ops using List.reverseRecOn with
  | nil => exact absurd h (by decide)
  | append_singleton ops op ih =>
    rw [runHealth_concat, run_automaticState] at h ⊢
    rw [reported_concat]
    cases op with
    | setState state =>
      change statePriority .fault ≤ statePriority (platformHealthSetState _ state) at h
      change Reported (platformHealthSetState _ state) ops ∨
        some state = some (platformHealthSetState _ state)
      rw [platformHealthSetState] at h ⊢
      by_cases hle : statePriority state ≥
          statePriority (runHealth ops platformHealthInit).automaticState
      · rw [if_pos hle]
        exact Or.inr rfl
      · rw [if_neg hle] at h ⊢
        exact Or.inl (ih h)
    | acknowledge =>
      change statePriority .fault ≤ statePriority (platformHealthAcknowledge _) at h
      change Reported (platformHealthAcknowledge _) ops ∨ _
      rw [platformHealthAcknowledge] at h ⊢
      by_cases hdegraded :
          (runHealth ops platformHealthInit).automaticState = PlatformHealthState.degraded
      · rw [if_pos hdegraded] at h
        exact absurd h (by decide)
      · rw [if_neg hdegraded] at h ⊢
        exact Or.inl (ih h)
    | reportFault => exact Or.inr rfl
    | reportSecurityFailure => exact Or.inr rfl
    | applyBootPolicy => exact Or.inr rfl
    | _ => exact Or.inl (ih h)

/-- A heeded failure sticks: only the calls that compare nothing could put something else over
it. -/
theorem Critical.step {automatic : PlatformHealthState} (hcritical : Critical ops automatic)
    (hheeds : op.Heeds automatic) : Critical (ops ++ [op]) (op.automatic automatic) := by
  obtain ⟨hsecurity, hfault⟩ := hcritical
  refine ⟨?_, ?_⟩
  · rw [reported_concat]
    intro h
    cases op with
    | setState state =>
      rw [← securityFailure_le_iff]
      rcases h with h | h
      · rw [hsecurity h]
        exact (le_setState _ _).1
      · rw [show state = .securityFailure from Option.some.inj h]
        exact (le_setState _ _).2
    | acknowledge =>
      rw [hsecurity (h.resolve_right nofun)]
      rfl
    | reportFault => exact absurd (hsecurity (h.resolve_right nofun)) hheeds
    | reportSecurityFailure => rfl
    | applyBootPolicy =>
      rcases h with h | h
      · exact evaluateBootPolicy_eq_securityFailure_iff.mpr (hheeds.1 (hsecurity h))
      · exact Option.some.inj h
    | _ => exact hsecurity (h.resolve_right nofun)
  · rw [reported_concat]
    intro h
    cases op with
    | setState state =>
      rcases h with h | h
      · exact Nat.le_trans (hfault h) (le_setState _ _).1
      · rw [show state = .fault from Option.some.inj h]
        exact (le_setState _ _).2
    | acknowledge =>
      have hle := hfault (h.resolve_right nofun)
      rcases fault_le_iff.mp hle with rfl | rfl <;> decide
    | reportFault => exact Nat.le_refl _
    | reportSecurityFailure => exact fault_le_iff.mpr (Or.inr rfl)
    | applyBootPolicy =>
      rcases h with h | h
      · refine fault_le_evaluateBootPolicy_iff.mpr ?_
        rcases fault_le_iff.mp (hfault h) with rfl | rfl
        · exact hheeds.2 rfl
        · exact Or.inl (hheeds.1 rfl)
      · exact fault_le_iff.mpr (Or.inl (Option.some.inj h))
    | _ => exact hfault (h.resolve_right nofun)

/-- Failures stick throughout a run whose calls all heed them. -/
theorem Critical.run (hheeds : EveryCallHeeds ops) :
    Critical ops (runHealth ops platformHealthInit).automaticState := by
  induction ops using List.reverseRecOn with
  | nil => exact ⟨(fun ⟨_, h, _⟩ => nomatch h), (fun ⟨_, h, _⟩ => nomatch h)⟩
  | append_singleton ops op ih =>
    have hbefore : EveryCallHeeds ops := by
      intro before op' after h
      refine hheeds before op' (after ++ [op]) ?_
      rw [h, List.append_assoc, List.cons_append]
    rw [runHealth_concat, run_automaticState]
    exact (ih hbefore).step (hheeds ops op [] rfl)

/-- A call that heeds no failure undoes one. -/
theorem heeds_of_critical
    (hbefore : Critical ops (runHealth ops platformHealthInit).automaticState)
    (hafter : Critical (ops ++ [op]) (runHealth (ops ++ [op]) platformHealthInit).automaticState) :
    op.Heeds (runHealth ops platformHealthInit).automaticState := by
  rw [runHealth_concat, run_automaticState] at hafter
  have hkept : statePriority .fault ≤
      statePriority (runHealth ops platformHealthInit).automaticState →
      Reported (runHealth ops platformHealthInit).automaticState (ops ++ [op]) := fun h =>
    (reported_concat _ _ _).mpr (Or.inl (reported_of_critical h))
  generalize (runHealth ops platformHealthInit).automaticState = automatic at *
  cases op with
  | reportFault =>
    intro h
    subst h
    exact nomatch hafter.security (hkept (by decide))
  | applyBootPolicy =>
    refine ⟨?_, ?_⟩
    · intro h
      subst h
      exact evaluateBootPolicy_eq_securityFailure_iff.mp (hafter.security (hkept (by decide)))
    · intro h
      subst h
      exact fault_le_evaluateBootPolicy_iff.mp (hafter.fault (hkept (by decide)))
  | _ => trivial

/-! ### The override -/

/-- An override that is on has ticks left, and no more than the longest one. -/
structure Override (health : PlatformHealth) : Prop where
  bounded : health.temporaryTicksRemaining ≤ platformHealthEasterEggTicks
  running : health.temporaryActiveFlag = true → 0 < health.temporaryTicksRemaining

/-- A tick of an override that is on. -/
theorem serviceTick_of_active (hoverride : Override health)
    (hactive : health.temporaryActiveFlag = true) :
    health.serviceTick.temporaryTicksRemaining + 1 = health.temporaryTicksRemaining ∧
      (health.serviceTick.temporaryActiveFlag = true ↔
        health.serviceTick.temporaryTicksRemaining ≠ 0) := by
  have hpos := hoverride.running hactive
  have hticks := showPattern_temporaryTicksRemaining health
  have hflag := (showPattern_temporaryActiveFlag health).trans hactive
  have hne : health.showPattern.temporaryTicksRemaining ≠ 0 := by omega
  rw [PlatformHealth.serviceTick, PlatformHealth.countDown, if_pos ⟨hflag, hne⟩]
  by_cases hlast : health.showPattern.temporaryTicksRemaining - 1 = 0
  · simp only [hlast, if_true]
    refine ⟨by omega, ?_⟩
    simp
  · simp only [hlast, if_false, hflag]
    refine ⟨by omega, ?_⟩
    simpa using hlast

/-- A tick starts no override. -/
theorem serviceTick_of_inactive (hactive : health.temporaryActiveFlag = false) :
    health.serviceTick.temporaryActiveFlag = false ∧
      health.serviceTick.temporaryTicksRemaining = health.temporaryTicksRemaining := by
  have hflag := (showPattern_temporaryActiveFlag health).trans hactive
  rw [PlatformHealth.serviceTick, PlatformHealth.countDown, if_neg (by simp [hactive])]
  exact ⟨hflag, showPattern_temporaryTicksRemaining health⟩

theorem Override.step (hoverride : Override health) (op : HealthOp) :
    Override (op.run health) := by
  cases op with
  | serviceTick =>
    cases hactive : health.temporaryActiveFlag with
    | false =>
      obtain ⟨hflag, hticks⟩ := serviceTick_of_inactive hactive
      refine ⟨?_, ?_⟩
      · rw [HealthOp.run, hticks]
        exact hoverride.bounded
      · intro h
        exact absurd (hflag.symm.trans h) Bool.false_ne_true
    | true =>
      obtain ⟨hticks, hflag⟩ := serviceTick_of_active hoverride hactive
      have hbounded := hoverride.bounded
      refine ⟨?_, ?_⟩
      · rw [HealthOp.run]
        omega
      · intro h
        exact Nat.pos_of_ne_zero (hflag.mp h)
  | applyBootPolicy resetCsr faultRecordValid selfTestsPassed securityFailure =>
    simp only [HealthOp.run, PlatformHealth.applyBootPolicy]
    split
    · exact ⟨hoverride.bounded, hoverride.running⟩
    · split
      · exact ⟨hoverride.bounded, hoverride.running⟩
      · exact ⟨hoverride.bounded, hoverride.running⟩
  | acknowledge => exact ⟨Nat.zero_le _, nofun⟩
  | stopTemporary => exact ⟨Nat.zero_le _, nofun⟩
  | startLedTest state =>
    refine ⟨?_, ?_⟩
    · show platformHealthLedTestTicks ≤ platformHealthEasterEggTicks
      decide
    · intro _
      show 0 < platformHealthLedTestTicks
      decide
  | startEastereggKnightrider =>
    refine ⟨Nat.le_refl _, ?_⟩
    intro _
    show 0 < platformHealthEasterEggTicks
    decide
  | _ => exact ⟨hoverride.bounded, hoverride.running⟩

theorem Override.run (hoverride : Override health) (ops : List HealthOp) :
    Override (runHealth ops health) := by
  induction ops generalizing health with
  | nil => exact hoverride
  | cons op ops ih => exact ih (hoverride.step op)

/-- What a call that starts no override does to one: it ends it, or it counts its ticks. -/
theorem Override.countdown (hoverride : Override health) (hstarts : op.starts = false) :
    (op.run health).temporaryActiveFlag = false ∨
      health.temporaryActiveFlag = true ∧
        (op.run health).temporaryTicksRemaining + [op].count .serviceTick =
          health.temporaryTicksRemaining := by
  cases hactive : health.temporaryActiveFlag with
  | false =>
    left
    cases op with
    | serviceTick => exact (serviceTick_of_inactive hactive).1
    | startLedTest => exact nomatch hstarts
    | startEastereggKnightrider => exact nomatch hstarts
    | applyBootPolicy =>
      simp only [HealthOp.run, PlatformHealth.applyBootPolicy]
      split
      · exact hactive
      · split <;> exact hactive
    | acknowledge => rfl
    | stopTemporary => rfl
    | _ => exact hactive
  | true =>
    cases op with
    | serviceTick => exact Or.inr ⟨rfl, (serviceTick_of_active hoverride hactive).1⟩
    | startLedTest => exact nomatch hstarts
    | startEastereggKnightrider => exact nomatch hstarts
    | applyBootPolicy =>
      right
      refine ⟨rfl, ?_⟩
      simp only [HealthOp.run, PlatformHealth.applyBootPolicy]
      split
      · rfl
      · split <;> rfl
    | acknowledge => exact Or.inl rfl
    | stopTemporary => exact Or.inl rfl
    | _ => exact Or.inr ⟨rfl, rfl⟩

/-- An override that is not started again counts down. -/
theorem Override.run_countdown (hoverride : Override health)
    (hstarts : ∀ op ∈ ops, op.starts = false) :
    (runHealth ops health).temporaryActiveFlag = false ∨
      (runHealth ops health).temporaryTicksRemaining + ops.count .serviceTick =
        health.temporaryTicksRemaining := by
  induction ops using List.reverseRecOn with
  | nil => exact Or.inr rfl
  | append_singleton ops op ih =>
    have hbefore : ∀ op' ∈ ops, op'.starts = false := fun op' h =>
      hstarts op' (List.mem_append_left _ h)
    rw [runHealth_concat, List.count_append]
    rcases (hoverride.run ops).countdown (hstarts op (by simp)) with h | ⟨hactive, hticks⟩
    · exact Or.inl h
    · rcases ih hbefore with h | h
      · exact absurd (h.symm.trans hactive) Bool.false_ne_true
      · right
        omega

theorem selectedState_of_inactive (h : health.temporaryActiveFlag = false) :
    health.selectedState = health.automaticState := by
  rw [PlatformHealth.selectedState, if_neg]
  intro ⟨hactive, _⟩
  exact absurd (h.symm.trans hactive) Bool.false_ne_true

/-- The longest override is over after its ticks. -/
theorem Override.ended (hoverride : Override health) (hstarts : ∀ op ∈ ops, op.starts = false)
    (hticks : platformHealthEasterEggTicks ≤ ops.count .serviceTick) :
    (runHealth ops health).temporaryActiveFlag = false := by
  rcases hoverride.run_countdown hstarts with h | h
  · exact h
  · have hbounded := hoverride.bounded
    have hzero : (runHealth ops health).temporaryTicksRemaining = 0 := by omega
    cases hactive : (runHealth ops health).temporaryActiveFlag with
    | false => rfl
    | true => exact absurd ((hoverride.run ops).running hactive) (by omega)

/-! ### The display -/

theorem le_selectedState (health : PlatformHealth) :
    statePriority health.automaticState ≤ statePriority health.selectedState := by
  rw [PlatformHealth.selectedState]
  split
  · next h => exact h.2
  · exact Nat.le_refl _

theorem acknowledge_changes
    (h : health.acknowledge.automaticState ≠ health.automaticState) :
    health.automaticState = .degraded ∧ health.acknowledge.automaticState = .healthy := by
  change platformHealthAcknowledge health.automaticState ≠ _ at h
  change _ ∧ platformHealthAcknowledge health.automaticState = _
  rw [platformHealthAcknowledge] at *
  split at h
  · next hdegraded => exact ⟨hdegraded, if_pos hdegraded⟩
  · exact absurd rfl h

end Calls

/-- Severity is sticky in a sequence of calls exactly if every `platform_health_report_fault` and
every `platform_health_apply_boot_policy` in it heeds the failure it finds. The display, the
acknowledgement and the overrides do as they are told in every case. -/
theorem severityKept_iff (ops : List HealthOp) : SeverityKept ops ↔ EveryCallHeeds ops := by
  refine ⟨?_, ?_⟩
  · intro hkept before op after h
    have hafter : ops = (before ++ [op]) ++ after := by
      rw [h, List.append_assoc, List.singleton_append]
    exact heeds_of_critical (hkept before (op :: after) h).critical
      (hkept (before ++ [op]) after hafter).critical
  · intro hheeds before after h
    have hbefore : EveryCallHeeds before := by
      intro first op rest hfirst
      refine hheeds first op (rest ++ after) ?_
      rw [h, hfirst, List.append_assoc, List.cons_append]
    have hoverride : Override (runHealth before platformHealthInit) :=
      Override.run ⟨by decide, fun h => absurd h (by decide)⟩ before
    refine
      { critical := Critical.run hbefore
        displayed := le_selectedState _
        ticked := ?_
        acknowledged := acknowledge_changes
        ended := ?_ }
    · rw [serviceTick_activeState]
      exact le_selectedState _
    · intro more hstarts hticks
      have hended := hoverride.ended hstarts hticks
      exact ⟨hended, selectedState_of_inactive hended⟩

/-- A fault that is reported after a security failure takes its place. -/
theorem securityFailure_overwritten :
    ¬ SeverityKept [.reportSecurityFailure, .reportFault] := by
  intro hkept
  have hcritical := (hkept [.reportSecurityFailure, .reportFault] [] rfl).critical
  have hsecurity := hcritical.security ⟨.reportSecurityFailure, by simp, rfl⟩
  exact absurd hsecurity (by decide)

end Stm32SecurityLab
