import Stm32SecurityLab.Boot.Decision
import Stm32SecurityLab.Platform.RuntimeMonitor
import Stm32SecurityLab.Platform.Telemetry

/-!
# The main loop of the research application

`platform.c`: the application initialises itself once and then goes round its loop. Each round the
runtime monitor checks two entries of the vector table, the command line takes at most one
character, and, as long as there is no final answer, the confirmation service is called.

What the hardware shows is arbitrary: the registers and the vector table may read differently at
every check, and the self tests, the MPU and the watchdog may come up or not. A run is the
initialisation and any number of rounds on one device, and it ends early when the power goes.

The gate of the confirmation service sees the flags of the initialisation. It does not see the
latch of the vector monitor or the health state: `application_health_ok` is what the test scenario
says, and the standard build has none.

## Main definitions

* `PlatformBuild`, `PlatformBoot`, `PlatformRound`, `Platform`
* `platformInit`, `platformIdle`, `platformMain`
* `ChecksPass` — every check of the vector monitor so far finds what it expects

## Main results

* `platformMain_inv` — what holds after any number of rounds
* `confirmation_healthy_iff` — when a round writes metadata, the device is healthy exactly if every
  check of the vector monitor has passed
-/

namespace Stm32SecurityLab

open Crash

/-! ### The build and its inputs -/

/-- The symbols the linker puts into the vector table. -/
structure VectorSymbols where
  estack : UInt32
  resetHandler : UInt32
  nmiHandler : UInt32
  hardFaultHandler : UInt32
  memManageHandler : UInt32
  busFaultHandler : UInt32
  usageFaultHandler : UInt32
  svcallHandler : UInt32
  debugMonHandler : UInt32
  pendSvHandler : UInt32
  sysTickHandler : UInt32

/-- `load_expected_vector_entries`. -/
def loadExpectedVectorEntries (symbols : VectorSymbols) : List UInt32 :=
  [symbols.estack, symbols.resetHandler, symbols.nmiHandler, symbols.hardFaultHandler,
    symbols.memManageHandler, symbols.busFaultHandler, symbols.usageFaultHandler, 0, 0, 0, 0,
    symbols.svcallHandler, symbols.debugMonHandler, 0, symbols.pendSvHandler,
    symbols.sysTickHandler]

/-- The table `vector_entry_kinds`. -/
def vectorEntryKinds : List UInt8 :=
  [rsmVectorEntryInitialMsp, rsmVectorEntryHandler, rsmVectorEntryHandler, rsmVectorEntryHandler,
    rsmVectorEntryHandler, rsmVectorEntryHandler, rsmVectorEntryHandler, rsmVectorEntryReserved,
    rsmVectorEntryReserved, rsmVectorEntryReserved, rsmVectorEntryReserved, rsmVectorEntryHandler,
    rsmVectorEntryHandler, rsmVectorEntryReserved, rsmVectorEntryHandler, rsmVectorEntryHandler]

/-- `PLATFORM_APP_BASE`, `RSM_ENABLE`, `RSM_VECTOR_MONITOR_ENABLE`,
`PLATFORM_CONFIRMATION_LAB_BOOT_DELAY_TICKS` and the symbols of the image. -/
structure PlatformBuild where
  appBase : UInt32
  rsmEnable : Bool := true
  rsmVectorMonitorEnable : Bool := true
  confirmationLabBootDelayTicks : UInt32 := 0
  symbols : VectorSymbols

namespace PlatformBuild

/-- `RSM_PLATFORM_APP_END`. -/
def rsmPlatformAppEnd (build : PlatformBuild) : UInt32 :=
  if build.appBase.toNat = (bootSlots .a).payloadBase then Layout.slotAEnd.toUInt32
  else if build.appBase.toNat = (bootSlots .b).payloadBase then Layout.slotBEnd.toUInt32
  else build.appBase

/-- `RSM_VECTOR_TARGET_ENABLED` of a target build. -/
def rsmVectorTargetEnabled (build : PlatformBuild) : Bool :=
  build.rsmEnable && build.rsmVectorMonitorEnable

/-- The configuration `runtime_monitor_vector_init` gives the monitor. -/
def vectorConfig (build : PlatformBuild) : RsmVectorConfig where
  expectedVtor := build.appBase
  vtorAlignment := 0x100
  sramBase := Layout.applicationMspBase
  sramEnd := Layout.applicationMspEnd
  mspAlignment := Layout.applicationMspAlignment
  executableFlashBase := build.appBase
  executableFlashEnd := build.rsmPlatformAppEnd
  entryCount := rsmVectorTableEntryCount
  expectedEntries := fun index => (loadExpectedVectorEntries build.symbols).getD index 0
  entryKinds := fun index => vectorEntryKinds.getD index 0

end PlatformBuild

/-- What the hardware shows during the initialisation: the reset register, the fault record, the
registers the self tests read, what the monitor reads, and whether the MPU and the watchdog come
up. -/
structure PlatformBoot where
  resetCsr : UInt32
  faultValid : Bool
  selfTestVtor : UInt32
  flashSizeKb : UInt16
  monitorVtor : UInt32
  table : ℕ → UInt32
  logLastSequence : UInt32
  mpuPolicyInit : Bool
  platformWatchdogInit : Bool

/-- What the hardware shows during one round: what the monitor reads, the character of the serial
line, and the register the confirmation is called with. -/
structure PlatformRound where
  monitorVtor : UInt32
  table : ℕ → UInt32
  logLastSequence : UInt32
  uart : Option Char
  confirmationVtor : UInt32

/-- The variables of `platform.c`, `platform_health.c`, `runtime_monitor.c`,
`platform_confirmation.c` and `experiment_telemetry.c`. -/
structure Platform where
  ticks : UInt32 := 0
  line : List Char := []
  mandatorySelfTestsPassed : Bool := false
  earlyPlatformInitDone : Bool := false
  criticalInitializationFailure : Bool := false
  stableExecutionPointReached : Bool := false
  confirmationTerminal : Bool := false
  uartDiagnosticsReady : Bool := false
  runtimeMonitorReady : Bool := false
  mpuPolicyReady : Bool := false
  watchdogReady : Bool := false
  automaticState : PlatformHealthState := .booting
  vectorMonitor : RsmVectorMonitor := { config := ⟨0, 0, 0, 0, 0, 0, 0, 0, fun _ => 0, fun _ => 0⟩ }
  report : TelemetryReport := {}
  service : ConfirmationService

namespace Platform

/-- The variables after a reset. -/
def reset (d : Device) : Platform where
  service := { confirmer := { dev := d } }

/-- The flash. -/
def dev (p : Platform) : Device := p.service.dev

/-- Run a program of the telemetry. -/
def onTelemetry {ε α : Type} (x : Prog Telemetry ε α) : Prog Platform ε α :=
  x.zoom (fun p => ⟨p.report, p.dev⟩) fun t p =>
    { p with
      report := t.report
      service := { p.service with confirmer := { p.service.confirmer with dev := t.dev } } }

/-- Run a program of the confirmation service. -/
def onService {ε α : Type} (x : Prog ConfirmationService ε α) : Prog Platform ε α :=
  x.zoom (·.service) fun s p => { p with service := s }

end Platform

open Platform

variable {ε : Type}

/-! ### Initialisation -/

/-- `STM32F429_FLASH_SIZE_KIB`. -/
def flashSizeKib : ℕ := 1024

/-- `mandatory_self_tests_pass`. -/
def mandatorySelfTestsPass (build : PlatformBuild) (boot : PlatformBoot) : Bool :=
  if boot.selfTestVtor ≠ build.appBase then false
  else if boot.flashSizeKb.toNat ≠ flashSizeKib then false
  else true

/-- The self tests and the boot policy. -/
def initSelfTests (build : PlatformBuild) (boot : PlatformBoot) (p : Platform) : Platform :=
  let passed := mandatorySelfTestsPass build boot
  { p with
    mandatorySelfTestsPassed := passed
    criticalInitializationFailure :=
      if passed = false then true else p.criticalInitializationFailure
    earlyPlatformInitDone := true
    automaticState := platformHealthEvaluateBootPolicy boot.resetCsr boot.faultValid passed false }

/-- The vector part of `runtime_monitor_init`. -/
def initVectorMonitor (build : PlatformBuild) (boot : PlatformBoot) (p : Platform) : Platform :=
  if build.rsmVectorTargetEnabled = true then
    let (vectorMonitor, automaticState) := runtimeMonitorVectorInit build.vectorConfig
      p.automaticState boot.table boot.monitorVtor boot.logLastSequence
    { p with vectorMonitor, automaticState }
  else
    p

/-- `runtime_monitor_init` and what follows from its status. -/
def initRuntimeMonitor (build : PlatformBuild) (boot : PlatformBoot) (p : Platform) : Platform :=
  if build.rsmEnable = true then
    { initVectorMonitor build boot p with runtimeMonitorReady := true }
  else
    { p with runtimeMonitorReady := false, criticalInitializationFailure := true }

/-- `mpu_policy_init` and `platform_watchdog_init`, and what follows from their results. -/
def initHardware (boot : PlatformBoot) (p : Platform) : Platform :=
  { p with
    mpuPolicyReady := boot.mpuPolicyInit
    watchdogReady := boot.platformWatchdogInit
    criticalInitializationFailure :=
      if boot.mpuPolicyInit = false ∨ boot.platformWatchdogInit = false then true
      else p.criticalInitializationFailure }

/-- `platform_init`. -/
def platformInit (build : PlatformBuild) (boot : PlatformBoot) : Prog Platform ε Unit := do
  .modify fun p => { p with uartDiagnosticsReady := true, automaticState := .booting }
  onTelemetry experimentTelemetryRefreshMetadata
  .modify fun p => initHardware boot (initRuntimeMonitor build boot (initSelfTests build boot p))

/-! ### One round -/

/-- `sizeof(line)`. -/
def lineSize : ℕ := 80

/-- The effect of `dispatch_command` on the health state: the commands other than the
acknowledgement only print, start a LED pattern, or are refused in a build without restricted
diagnostics. -/
def dispatchCommand (command : List Char) (p : Platform) : Platform :=
  if command = "health acknowledge".toList then
    { p with automaticState := platformHealthAcknowledge p.automaticState }
  else
    p

/-- `platform_cli_poll`. The command ends at the first zero character of the line. -/
def platformCliPoll (uart : Option Char) (p : Platform) : Platform :=
  match uart with
  | none => p
  | some c =>
    if c = '\r' ∨ c = '\n' then
      if p.line.length ≠ 0 then
        { dispatchCommand (p.line.takeWhile (· ≠ Char.ofNat 0)) p with line := [] }
      else
        p
    else if c = Char.ofNat 8 then
      { p with line := p.line.dropLast }
    else if p.line.length < lineSize - 1 then
      { p with line := p.line ++ [c] }
    else
      p

/-- `runtime_monitor_periodic`. -/
def runtimeMonitorPeriodic (build : PlatformBuild) (round : PlatformRound) (p : Platform) :
    Platform :=
  if build.rsmVectorTargetEnabled = true then
    let (vectorMonitor, automaticState) := runtimeMonitorVectorPeriodic p.vectorMonitor
      p.automaticState round.table round.monitorVtor round.logLastSequence
    { p with vectorMonitor, automaticState }
  else
    p

/-- The part of `platform_idle` that decides whether a stable point is reached. -/
def stablePoint (build : PlatformBuild) (p : Platform) : Platform :=
  if build.confirmationLabBootDelayTicks = 0 ∨ p.ticks ≥ build.confirmationLabBootDelayTicks then
    { p with stableExecutionPointReached := true }
  else
    p

/-- `platform_idle` up to the confirmation. -/
def beforeConfirmation (build : PlatformBuild) (round : PlatformRound) (p : Platform) : Platform :=
  stablePoint build (platformCliPoll round.uart
    (runtimeMonitorPeriodic build round { p with ticks := p.ticks + 1 }))

/-- `test_scenario_health_ok` and `test_scenario_stable` of a build without test scenarios. -/
def testScenarioHealthOk : Bool := true
def testScenarioStable (_ticks : UInt32) : Bool := true

/-- The health `platform_idle` reports to the confirmation service. -/
def Platform.health (p : Platform) : PlatformConfirmationHealth where
  earlyPlatformInitDone := p.earlyPlatformInitDone
  runningSlotIdentified := false
  coreSelfChecksPassed := p.mandatorySelfTestsPassed
  criticalInitializationFailure := p.criticalInitializationFailure
  stableExecutionPointReached := p.stableExecutionPointReached && testScenarioStable p.ticks
  metadataAllowsConfirmation := false
  uartDiagnosticsReady := p.uartDiagnosticsReady
  runtimeMonitorReady := p.runtimeMonitorReady
  mpuPolicyReady := p.mpuPolicyReady
  watchdogActive := p.watchdogReady
  applicationHealthOk := testScenarioHealthOk

/-- The number of a confirmation status in the telemetry report. -/
def PlatformConfirmationStatus.code : PlatformConfirmationStatus → UInt32
  | .ok => 0
  | .notHealthy => 1
  | .slot => 2
  | .flash => 3
  | .metadata => 4
  | .ambiguousMetadata => 5
  | .notPending => 6
  | .commit => 7

/-- `experiment_telemetry_set_confirmation_result`. -/
def experimentTelemetrySetConfirmationResult (result : UInt32) : Prog Telemetry ε Unit := do
  experimentTelemetryRefreshMetadata
  Telemetry.modifyReport fun report => { report with lastUpdateResult := result }

/-- What `platform_idle` does with a status of the confirmation service. -/
def settleConfirmation (status : PlatformConfirmationStatus) : Prog Platform ε Unit :=
  if status ≠ .notHealthy then do
    .modify fun p => { p with confirmationTerminal := true }
    onTelemetry (experimentTelemetrySetConfirmationResult status.code)
  else
    pure ()

/-- The confirmation of `platform_idle`. -/
def idleConfirmation (round : PlatformRound) : Prog Platform ε Unit := do
  let p ← .get
  if p.confirmationTerminal = false then do
    let status ← onService (platformConfirmationService round.confirmationVtor p.health)
    settleConfirmation status
  else
    pure ()

/-- `platform_idle`. -/
def platformIdle (build : PlatformBuild) (round : PlatformRound) : Prog Platform ε Unit := do
  .modify (beforeConfirmation build round)
  idleConfirmation round

/-- The rounds of the main loop. -/
def platformLoop (build : PlatformBuild) : List PlatformRound → Prog Platform ε Unit
  | [] => pure ()
  | round :: rounds => do
    platformIdle build round
    platformLoop build rounds

/-- `main`, for as many rounds as are given. -/
def platformMain (build : PlatformBuild) (boot : PlatformBoot) (rounds : List PlatformRound) :
    Prog Platform ε Unit := do
  platformInit build boot
  platformLoop build rounds

/-! ### What the monitor has to see -/

/-- Round after round, from the entry `nextIndex` on, the periodic check passes. -/
def RoundsPass (config : RsmVectorConfig) : (nextIndex : ℕ) → List PlatformRound → Prop
  | _, [] => True
  | nextIndex, round :: rounds =>
    StepPasses config nextIndex round.table round.monitorVtor rsmVectorDefaultStepBudget ∧
      RoundsPass config (config.advance^[rsmVectorDefaultStepBudget] nextIndex) rounds

/-- **Every check of the vector monitor passes**: the full one at start and the periodic ones of
the rounds. A build without the monitor makes none. -/
def ChecksPass (build : PlatformBuild) (boot : PlatformBoot) (rounds : List PlatformRound) : Prop :=
  build.rsmVectorTargetEnabled = true →
    InitPasses build.vectorConfig boot.table boot.monitorVtor ∧
      RoundsPass build.vectorConfig 0 rounds

theorem roundsPass_append {config : RsmVectorConfig} {nextIndex : ℕ} {rounds : List PlatformRound}
    {round : PlatformRound} :
    RoundsPass config nextIndex (rounds ++ [round]) ↔ RoundsPass config nextIndex rounds ∧
      StepPasses config (config.advance^[rounds.length * rsmVectorDefaultStepBudget] nextIndex)
        round.table round.monitorVtor rsmVectorDefaultStepBudget := by
  induction rounds generalizing nextIndex with
  | nil => simp [RoundsPass]
  | cons first rounds ih =>
    rw [List.cons_append, RoundsPass, RoundsPass, ih, and_assoc, List.length_cons, Nat.succ_mul,
      Function.iterate_add_apply]

/-! ### One round writes at most behind the gate -/

/-- What a confirmation should depend on. -/
structure Vitals where
  mandatorySelfTestsPassed : Bool
  criticalInitializationFailure : Bool
  vectorMonitor : RsmVectorMonitor
  automaticState : PlatformHealthState

/-- The vitals of a state. -/
def Platform.vitals (p : Platform) : Vitals :=
  ⟨p.mandatorySelfTestsPassed, p.criticalInitializationFailure, p.vectorMonitor, p.automaticState⟩

/-- Reading after a confirmation makes no difference. -/
theorem Confirms.read {d d' d'' : Device} (h : Confirms d d') (hr : d'.ReadOnly d'') :
    Confirms d d'' := by
  refine ⟨IsTrans.trans _ _ _ h.extends_meta (hr.mono fun _ => False.elim), ?_⟩
  rw [hr.eq_of_false.1]
  exact h.journal

section Round

variable {build : PlatformBuild} {boot : PlatformBoot} {round : PlatformRound} {p : Platform}

/-- A program of the telemetry that only reads changes nothing but the report. -/
theorem wp_onTelemetry {x : Prog Telemetry ε Unit}
    (h : ∀ t : Telemetry, wp x t (fun _ t' => t.dev.ReadOnly t'.dev) (fun _ _ => False)
      (fun t' => t.dev.ReadOnly t'.dev)) :
    wp (onTelemetry x) p
      (fun _ p' => p'.vitals = p.vitals ∧ p'.confirmationTerminal = p.confirmationTerminal ∧
        p.dev.ReadOnly p'.dev)
      (fun _ _ => False) (fun p' => p'.vitals = p.vitals ∧ p.dev.ReadOnly p'.dev) := by
  rw [onTelemetry, wp_zoom]
  exact (h _).mono (fun _ _ h => ⟨rfl, rfl, h⟩) (fun _ _ h => h)
    (fun _ h => ⟨rfl, h⟩)

/-- An answer other than `NOT_HEALTHY` is final. -/
theorem settleConfirmation_spec {status : PlatformConfirmationStatus} :
    wp (settleConfirmation status : Prog Platform ε Unit) p
      (fun _ p' => p'.vitals = p.vitals ∧ p.dev.ReadOnly p'.dev ∧
        (p'.confirmationTerminal = false → p.confirmationTerminal = false ∧ status = .notHealthy))
      (fun _ _ => False) (fun p' => p'.vitals = p.vitals ∧ p.dev.ReadOnly p'.dev) := by
  rw [settleConfirmation, wp_ite]
  refine ⟨fun _ => ?_, fun h => ?_⟩
  · rw [wp_bind, wp_modify]
    refine (wp_onTelemetry fun t => ?_).mono (fun _ p' h => ?_) (fun _ _ h => h) (fun p' h => ?_)
    · rw [experimentTelemetrySetConfirmationResult, wp_bind]
      exact experimentTelemetryRefreshMetadata_spec.mono (fun _ _ h => h.1) (fun _ _ h => h)
        (fun _ h => h.1)
    · refine ⟨h.1, h.2.2, fun hopen => ?_⟩
      rw [h.2.1] at hopen
      cases hopen
    · exact ⟨h.1, h.2⟩
  · exact ⟨rfl, Std.Refl.refl p.dev, fun hopen => ⟨hopen, not_not.mp h⟩⟩

/-- **The confirmation of one round.** It leaves the health alone. It writes only if there was no
final answer and the flags of the initialisation are all in order, and then there is one. -/
theorem idleConfirmation_spec :
    wp (idleConfirmation round : Prog Platform ε Unit) p
      (fun _ p' => p'.vitals = p.vitals ∧
        (p'.confirmationTerminal = false → p.confirmationTerminal = false ∧ p.dev.ReadOnly p'.dev) ∧
        (p.dev.ReadOnly p'.dev ∨
          p.confirmationTerminal = false ∧ BaseHealthy p.health ∧ Confirms p.dev p'.dev))
      (fun _ _ => False)
      (fun p' => p'.vitals = p.vitals ∧ (p.dev.ReadOnly p'.dev ∨
        p.confirmationTerminal = false ∧ BaseHealthy p.health ∧ Confirms p.dev p'.dev)) := by
  rw [idleConfirmation, wp_bind, wp_get, wp_ite]
  refine ⟨fun hopen => ?_, fun _ => ?_⟩
  swap
  · have hself : p.dev.ReadOnly p.dev := Std.Refl.refl p.dev
    exact ⟨rfl, fun h => ⟨h, hself⟩, .inl hself⟩
  rw [wp_bind, onService, wp_zoom]
  refine platformConfirmationService_spec.mono (fun status s h => ?_) (fun _ _ h => h)
    (fun s h => ⟨rfl, h.imp_right fun h => ⟨hopen, h⟩⟩)
  have hread : ∀ {d : Device}, s.dev.ReadOnly d →
      p.dev.ReadOnly d ∨ p.confirmationTerminal = false ∧ BaseHealthy p.health ∧
        Confirms p.dev d := by
    intro d hd
    rcases h with h | ⟨hbase, -, hconfirms⟩
    · exact .inl (IsTrans.trans _ _ _ h hd)
    · exact .inr ⟨hopen, hbase, hconfirms.read hd⟩
  refine settleConfirmation_spec.mono (fun _ p' h' => ?_) (fun _ _ h => h) (fun p' h' => ?_)
  · refine ⟨h'.1, fun hterminal => ⟨hopen, ?_⟩, hread h'.2.1⟩
    obtain ⟨-, hstatus⟩ := h'.2.2 hterminal
    rcases h with h | ⟨-, hne, -⟩
    · exact IsTrans.trans _ _ _ h h'.2.1
    · exact absurd hstatus hne
  · exact ⟨h'.1, hread h'.2⟩

end Round

/-! ### The checks of a run -/

/-- Healthy as far as the automatic state goes. -/
def PlatformHealthState.Good (state : PlatformHealthState) : Prop :=
  state = .healthy ∨ state = .degraded

theorem good_acknowledge {state : PlatformHealthState} (h : state.Good) :
    (platformHealthAcknowledge state).Good := by
  rcases h with rfl | rfl
  · exact .inl rfl
  · exact .inl rfl

theorem good_bootPolicy {resetCsr : UInt32} {faultRecordValid : Bool} :
    (platformHealthEvaluateBootPolicy resetCsr faultRecordValid true false).Good := by
  rw [platformHealthEvaluateBootPolicy, if_neg (by decide), if_neg (by decide)]
  split_ifs
  · exact .inr rfl
  · exact .inl rfl

/-- After the initialisation and `rounds`: the latch tells whether a check has failed, the monitor
is where it should be in the table, and as long as nothing is latched the state is good. -/
structure VitalsInv (build : PlatformBuild) (boot : PlatformBoot) (rounds : List PlatformRound)
    (v : Vitals) : Prop where
  latch : v.vectorMonitor.snapshot.latchedFailure = false ↔ ChecksPass build boot rounds
  config : build.rsmVectorTargetEnabled = true → v.vectorMonitor.config = build.vectorConfig
  next_index : build.rsmVectorTargetEnabled = true →
    v.vectorMonitor.snapshot.latchedFailure = false →
    v.vectorMonitor.nextIndex =
      build.vectorConfig.advance^[rounds.length * rsmVectorDefaultStepBudget] 0
  good : v.mandatorySelfTestsPassed = true →
    v.vectorMonitor.snapshot.latchedFailure = false → v.automaticState.Good

section Checks

variable {build : PlatformBuild} {boot : PlatformBoot} {round : PlatformRound}
  {rounds : List PlatformRound} {p : Platform} {v : Vitals}

theorem checksPass_append : ChecksPass build boot (rounds ++ [round]) ↔
    ChecksPass build boot rounds ∧ (build.rsmVectorTargetEnabled = true →
      StepPasses build.vectorConfig
        (build.vectorConfig.advance^[rounds.length * rsmVectorDefaultStepBudget] 0)
        round.table round.monitorVtor rsmVectorDefaultStepBudget) := by
  rw [ChecksPass, ChecksPass, roundsPass_append]
  constructor
  · intro h
    exact ⟨fun he => ⟨(h he).1, (h he).2.1⟩, fun he => (h he).2.2⟩
  · intro h he
    exact ⟨(h.1 he).1, (h.1 he).2, h.2 he⟩

/-- The initialisation without the telemetry. -/
theorem initState_vitals (hmonitor : p.vectorMonitor.snapshot.latchedFailure = false) :
    VitalsInv build boot []
      (initHardware boot (initRuntimeMonitor build boot (initSelfTests build boot p))).vitals := by
  have hgood : mandatorySelfTestsPass build boot = true →
      (initSelfTests build boot p).automaticState.Good := by
    intro hpassed
    rw [initSelfTests, hpassed]
    exact good_bootPolicy
  by_cases henabled : build.rsmVectorTargetEnabled = true
  · have henable : build.rsmEnable = true := (Bool.and_eq_true_iff.mp henabled).1
    have hchecks : ChecksPass build boot [] ↔
        InitPasses build.vectorConfig boot.table boot.monitorVtor :=
      ⟨fun h => (h henabled).1, fun h _ => ⟨h, trivial⟩⟩
    rw [initRuntimeMonitor, if_pos henable, initVectorMonitor, if_pos henabled]
    refine ⟨?_, fun _ => ?_, fun _ hl => ?_, fun hpassed hl => ?_⟩
    · rw [hchecks, ← latched_rsmVectorMonitorInit, ← runtimeMonitorVectorInit_monitor]
      rfl
    · exact (congrArg RsmVectorMonitor.config runtimeMonitorVectorInit_monitor).trans
        rsmVectorMonitorInit_config
    all_goals
      replace hl : (runtimeMonitorVectorInit build.vectorConfig
        (initSelfTests build boot p).automaticState boot.table boot.monitorVtor
        boot.logLastSequence).1.snapshot.latchedFailure = false := hl
      rw [runtimeMonitorVectorInit_monitor] at hl
      have hpass := latched_rsmVectorMonitorInit.mp hl
    · exact (congrArg RsmVectorMonitor.nextIndex runtimeMonitorVectorInit_monitor).trans
        (rsmVectorMonitorInit_unlatched hpass).2.2
    · change (runtimeMonitorVectorInit build.vectorConfig (initSelfTests build boot p).automaticState
        boot.table boot.monitorVtor boot.logLastSequence).2.Good
      rw [runtimeMonitorVectorInit_unlatched hpass]
      exact hgood hpassed
  · have hvitals : (initRuntimeMonitor build boot (initSelfTests build boot p)).vectorMonitor =
          p.vectorMonitor ∧
        (initRuntimeMonitor build boot (initSelfTests build boot p)).automaticState =
          (initSelfTests build boot p).automaticState ∧
        (initRuntimeMonitor build boot (initSelfTests build boot p)).mandatorySelfTestsPassed =
          mandatorySelfTestsPass build boot := by
      rw [initRuntimeMonitor, initVectorMonitor, if_neg henabled]
      split_ifs
      · exact ⟨rfl, rfl, rfl⟩
      · exact ⟨rfl, rfl, rfl⟩
    refine ⟨⟨fun _ h => absurd h henabled, fun _ => ?_⟩, fun h => absurd h henabled,
      fun h => absurd h henabled, fun hpassed _ => ?_⟩
    · exact (congrArg (fun m => m.snapshot.latchedFailure) hvitals.1).trans hmonitor
    · change (initRuntimeMonitor build boot (initSelfTests build boot p)).automaticState.Good
      rw [hvitals.2.1]
      exact hgood (hvitals.2.2.symm.trans hpassed)

/-- The command line may acknowledge a degraded state and changes nothing else that matters. -/
theorem platformCliPoll_frame (uart : Option Char) (p : Platform) :
    ((platformCliPoll uart p).vitals = p.vitals ∨ (platformCliPoll uart p).vitals =
        { p.vitals with automaticState := platformHealthAcknowledge p.automaticState }) ∧
      (platformCliPoll uart p).confirmationTerminal = p.confirmationTerminal ∧
      (platformCliPoll uart p).dev = p.dev := by
  cases uart with
  | none => exact ⟨.inl rfl, rfl, rfl⟩
  | some c =>
    rw [platformCliPoll]
    dsimp only
    rw [dispatchCommand]
    split_ifs
    · exact ⟨.inr rfl, rfl, rfl⟩
    all_goals exact ⟨.inl rfl, rfl, rfl⟩

theorem stablePoint_frame (build : PlatformBuild) (p : Platform) : (stablePoint build p).vitals = p.vitals ∧
    (stablePoint build p).confirmationTerminal = p.confirmationTerminal ∧
    (stablePoint build p).dev = p.dev := by
  rw [stablePoint]
  split_ifs
  · exact ⟨rfl, rfl, rfl⟩
  · exact ⟨rfl, rfl, rfl⟩

theorem runtimeMonitorPeriodic_frame (build : PlatformBuild) (round : PlatformRound) (p : Platform) :
    (runtimeMonitorPeriodic build round p).confirmationTerminal = p.confirmationTerminal ∧
      (runtimeMonitorPeriodic build round p).dev = p.dev := by
  rw [runtimeMonitorPeriodic]
  split_ifs
  · exact ⟨rfl, rfl⟩
  · exact ⟨rfl, rfl⟩

/-- A round does nothing to the flash before the confirmation. -/
theorem beforeConfirmation_frame (build : PlatformBuild) (round : PlatformRound) (p : Platform) :
    (beforeConfirmation build round p).confirmationTerminal = p.confirmationTerminal ∧
      (beforeConfirmation build round p).dev = p.dev := by
  obtain ⟨-, hterminal₁, hdev₁⟩ := stablePoint_frame build (platformCliPoll round.uart
    (runtimeMonitorPeriodic build round { p with ticks := p.ticks + 1 }))
  obtain ⟨-, hterminal₂, hdev₂⟩ := platformCliPoll_frame round.uart
    (runtimeMonitorPeriodic build round { p with ticks := p.ticks + 1 })
  obtain ⟨hterminal₃, hdev₃⟩ := runtimeMonitorPeriodic_frame build round
    { p with ticks := p.ticks + 1 }
  exact ⟨hterminal₁.trans (hterminal₂.trans hterminal₃), hdev₁.trans (hdev₂.trans hdev₃)⟩

theorem VitalsInv.acknowledge (h : VitalsInv build boot rounds v) : VitalsInv build boot rounds
    { v with automaticState := platformHealthAcknowledge v.automaticState } :=
  ⟨h.latch, h.config, h.next_index, fun hpassed hl => good_acknowledge (h.good hpassed hl)⟩

/-- One periodic check. -/
theorem VitalsInv.periodic (h : VitalsInv build boot rounds p.vitals) :
    VitalsInv build boot (rounds ++ [round]) (runtimeMonitorPeriodic build round p).vitals := by
  by_cases henabled : build.rsmVectorTargetEnabled = true
  · have hconfig : p.vectorMonitor.config = build.vectorConfig := h.config henabled
    have hindex : p.vectorMonitor.snapshot.latchedFailure = false → p.vectorMonitor.nextIndex =
        build.vectorConfig.advance^[rounds.length * rsmVectorDefaultStepBudget] 0 :=
      h.next_index henabled
    -- the index the monitor has reached is the one the checks so far lead to
    have hlatch : (rsmVectorMonitorStep p.vectorMonitor round.table round.monitorVtor
          round.logLastSequence rsmVectorDefaultStepBudget).2.snapshot.latchedFailure = false ↔
        ChecksPass build boot (rounds ++ [round]) := by
      rw [latched_rsmVectorMonitorStep (by decide), checksPass_append, ← h.latch, hconfig]
      refine and_congr_right fun hl => ?_
      rw [hindex hl]
      exact ⟨fun hs _ => hs, fun hs => hs henabled⟩
    rw [runtimeMonitorPeriodic, if_pos henabled]
    refine ⟨?_, fun _ => ?_, fun _ hl => ?_, fun hpassed hl => ?_⟩
    · rw [← hlatch, ← runtimeMonitorVectorPeriodic_monitor]
      rfl
    · exact (congrArg RsmVectorMonitor.config runtimeMonitorVectorPeriodic_monitor).trans
        (rsmVectorMonitorStep_config.trans hconfig)
    all_goals
      replace hl : (runtimeMonitorVectorPeriodic p.vectorMonitor p.automaticState round.table
        round.monitorVtor round.logLastSequence).1.snapshot.latchedFailure = false := hl
      have hstep := hl
      rw [runtimeMonitorVectorPeriodic_monitor] at hstep
      obtain ⟨hbefore, hpass⟩ := (latched_rsmVectorMonitorStep (by decide)).mp hstep
    · refine (congrArg RsmVectorMonitor.nextIndex runtimeMonitorVectorPeriodic_monitor).trans ?_
      rw [rsmVectorMonitorStep_nextIndex (by decide) hpass, hconfig, hindex hbefore,
        ← Function.iterate_add_apply, List.length_append, List.length_singleton, Nat.succ_mul,
        Nat.add_comm]
      rfl
    · change (runtimeMonitorVectorPeriodic p.vectorMonitor p.automaticState round.table
        round.monitorVtor round.logLastSequence).2.Good
      rw [runtimeMonitorVectorPeriodic_unlatched hl]
      exact h.good hpassed hbefore
  · rw [runtimeMonitorPeriodic, if_neg henabled]
    refine ⟨h.latch.trans ⟨fun _ he => absurd he henabled, fun _ he => absurd he henabled⟩, h.config,
      fun he => absurd he henabled, h.good⟩

theorem VitalsInv.beforeConfirmation (h : VitalsInv build boot rounds p.vitals) :
    VitalsInv build boot (rounds ++ [round]) (beforeConfirmation build round p).vitals := by
  have hperiodic : VitalsInv build boot (rounds ++ [round])
      (runtimeMonitorPeriodic build round { p with ticks := p.ticks + 1 }).vitals :=
    VitalsInv.periodic (p := { p with ticks := p.ticks + 1 }) h
  rw [Stm32SecurityLab.beforeConfirmation, (stablePoint_frame build _).1]
  rcases (platformCliPoll_frame round.uart
    (runtimeMonitorPeriodic build round { p with ticks := p.ticks + 1 })).1 with hcli | hcli
  · rw [hcli]
    exact hperiodic
  · rw [hcli]
    exact hperiodic.acknowledge

end Checks

/-! ### Whole runs -/

/-- The state after the initialisation and `rounds` on the device `d`. -/
structure RunInv (build : PlatformBuild) (boot : PlatformBoot) (rounds : List PlatformRound)
    (d : Device) (p : Platform) : Prop where
  vitals : VitalsInv build boot rounds p.vitals
  unwritten : p.confirmationTerminal = false → p.dev.log = d.log

section Runs

variable {build : PlatformBuild} {boot : PlatformBoot} {round : PlatformRound}
  {rounds : List PlatformRound} {d : Device} {p : Platform}

theorem initState_frame (p : Platform) :
    (initHardware boot (initRuntimeMonitor build boot (initSelfTests build boot p))).dev = p.dev := by
  rw [initRuntimeMonitor, initVectorMonitor]
  split_ifs
  · rfl
  · rfl
  · rfl

/-- The initialisation only reads. -/
theorem platformInit_inv :
    wp (platformInit build boot : Prog Platform ε Unit) (Platform.reset d)
      (fun _ p => RunInv build boot [] d p) (fun _ _ => False) (fun _ => True) := by
  rw [platformInit, wp_bind, wp_modify, wp_bind]
  refine (wp_onTelemetry fun t => experimentTelemetryRefreshMetadata_spec.mono (fun _ _ h => h.1)
    (fun _ _ h => h) (fun _ h => h.1)).mono (fun _ p h => ?_) (fun _ _ h => h) (fun _ _ => trivial)
  rw [wp_modify]
  refine ⟨initState_vitals ?_, fun _ => ?_⟩
  · exact congrArg (fun v => v.vectorMonitor.snapshot.latchedFailure) h.1
  · rw [initState_frame]
    exact h.2.2.eq_of_false.2

/-- One round keeps the invariant. -/
theorem platformIdle_inv (h : RunInv build boot rounds d p) :
    wp (platformIdle build round : Prog Platform ε Unit) p
      (fun _ p' => RunInv build boot (rounds ++ [round]) d p') (fun _ _ => False)
      (fun _ => True) := by
  obtain ⟨hterminal, hdev⟩ := beforeConfirmation_frame build round p
  rw [platformIdle, wp_bind, wp_modify]
  refine idleConfirmation_spec.mono (fun _ p' h' => ?_) (fun _ _ h => h) (fun _ _ => trivial)
  refine ⟨?_, fun hopen => ?_⟩
  · rw [h'.1]
    exact h.vitals.beforeConfirmation
  · obtain ⟨hbefore, hread⟩ := h'.2.1 hopen
    rw [hread.eq_of_false.2, hdev]
    exact h.unwritten (hterminal ▸ hbefore)

theorem platformLoop_inv {done : List PlatformRound} (h : RunInv build boot done d p) :
    wp (platformLoop build rounds : Prog Platform ε Unit) p
      (fun _ p' => RunInv build boot (done ++ rounds) d p') (fun _ _ => False)
      (fun _ => True) := by
  induction rounds generalizing done p with
  | nil =>
    rw [List.append_nil]
    exact h
  | cons round rounds ih =>
    rw [platformLoop, wp_bind]
    refine (platformIdle_inv h).mono (fun _ p' h' => ?_) (fun _ _ h => h) (fun _ _ => trivial)
    rw [← List.singleton_append, ← List.append_assoc]
    exact ih h'

/-- **After any number of rounds** the invariant holds. -/
theorem platformMain_inv :
    wp (platformMain build boot rounds : Prog Platform ε Unit) (Platform.reset d)
      (fun _ p => RunInv build boot rounds d p) (fun _ _ => False) (fun _ => True) := by
  rw [platformMain, wp_bind]
  refine platformInit_inv.mono (fun _ p h => ?_) (fun _ _ h => h) (fun _ _ => trivial)
  exact platformLoop_inv h

/-- The metadata was written. -/
def Writes (p p' : Platform) : Prop := p'.dev.log ≠ p.dev.log

/-- The recovered metadata turned from a trial into a confirmation. -/
def TurnsConfirmed (p p' : Platform) : Prop :=
  ∃ r r', journal p.dev.mem = .ok r ∧ r.state = .pendingTrial ∧
    journal p'.dev.mem = .ok r' ∧ r'.state = .confirmed

/-- What one round did, however it ended: it left the vitals of its checks, and it wrote only if
there was no final answer before and the flags of the initialisation are in order. -/
structure RoundEffect (build : PlatformBuild) (round : PlatformRound) (p p' : Platform) : Prop where
  vitals : p'.vitals = (beforeConfirmation build round p).vitals
  writes : p.dev.ReadOnly p'.dev ∨ p.confirmationTerminal = false ∧
    BaseHealthy (beforeConfirmation build round p).health ∧ Confirms p.dev p'.dev

theorem platformIdle_effect :
    RoundEffect build round p ((platformIdle build round : Prog Platform ε Unit) p).state := by
  obtain ⟨hterminal, hdev⟩ := beforeConfirmation_frame build round p
  refine wp_state_iff.mp ?_
  rw [platformIdle, wp_bind, wp_modify]
  have heffect : ∀ p', p'.vitals = (beforeConfirmation build round p).vitals ∧
      ((beforeConfirmation build round p).dev.ReadOnly p'.dev ∨
        (beforeConfirmation build round p).confirmationTerminal = false ∧
        BaseHealthy (beforeConfirmation build round p).health ∧
        Confirms (beforeConfirmation build round p).dev p'.dev) → RoundEffect build round p p' := by
    intro p' h
    rw [hterminal, hdev] at h
    exact ⟨h.1, h.2⟩
  exact idleConfirmation_spec.mono (fun _ p' h => heffect p' ⟨h.1, h.2.2⟩) (fun _ _ h => h.elim)
    (fun p' h => heffect p' h)

/-- A round after a final answer writes nothing. -/
theorem RoundEffect.not_writes {p' : Platform} (h : RoundEffect build round p p')
    (hterminal : p.confirmationTerminal = true) : ¬ Writes p p' := by
  rcases h.writes with hread | ⟨hopen, -⟩
  · exact not_not_intro hread.eq_of_false.2
  · rw [hterminal] at hopen
    cases hopen

/-- A confirmation is a write. -/
theorem RoundEffect.writes_of_confirmed {p' : Platform} (h : RoundEffect build round p p')
    (hc : TurnsConfirmed p p') : Writes p p' := by
  intro hlog
  obtain ⟨r, r', hj, hs, hj', hs'⟩ := hc
  have hmem : p'.dev.mem = p.dev.mem := by
    rcases h.writes with hread | ⟨-, -, hconfirms⟩
    · exact hread.eq_of_false.1
    · obtain ⟨ops, hops, -, hmem⟩ := hconfirms.extends_meta.log
      rw [hlog] at hops
      obtain rfl : ops = [] := List.self_eq_append_right.mp hops
      exact funext fun x => hmem x (by simp)
  rw [hmem, hj] at hj'
  cases hj'
  rw [hs] at hs'
  cases hs'

end Runs

/-- How many of the rounds wrote metadata. A round in which the power goes is the last one. -/
def writingRounds (build : PlatformBuild) : List PlatformRound → Platform → ℕ
  | [], _ => 0
  | round :: rounds, p =>
    let outcome := (platformIdle build round : Prog Platform Empty Unit) p
    (if outcome.state.dev.log = p.dev.log then 0 else 1) +
      match outcome with
      | .ret _ p' => writingRounds build rounds p'
      | _ => 0

section WritingRounds

variable {build : PlatformBuild} {boot : PlatformBoot} {round : PlatformRound}
  {rounds : List PlatformRound} {d : Device} {p : Platform}

/-- A round that returns without a final answer has not written. -/
theorem platformIdle_terminal {p' : Platform}
    (h : (platformIdle build round : Prog Platform Empty Unit) p = .ret () p')
    (hopen : p'.confirmationTerminal = false) :
    p.confirmationTerminal = false ∧ p'.dev.log = p.dev.log := by
  obtain ⟨hterminal, hdev⟩ := beforeConfirmation_frame build round p
  have hspec : wp (platformIdle build round : Prog Platform Empty Unit) p
      (fun _ p' => p'.confirmationTerminal = false →
        p.confirmationTerminal = false ∧ p'.dev.log = p.dev.log)
      (fun _ _ => False) (fun _ => True) := by
    rw [platformIdle, wp_bind, wp_modify]
    refine idleConfirmation_spec.mono (fun _ p' h hopen => ?_) (fun _ _ h => h)
      (fun _ _ => trivial)
    obtain ⟨hbefore, hread⟩ := h.2.1 hopen
    exact ⟨hterminal ▸ hbefore, hread.eq_of_false.2.trans (congrArg Device.log hdev)⟩
  exact hspec.ret h hopen

theorem writingRounds_of_terminal (h : p.confirmationTerminal = true) :
    writingRounds build rounds p = 0 := by
  induction rounds generalizing p with
  | nil => rfl
  | cons round rounds ih =>
    rw [writingRounds]
    rw [if_pos (not_not.mp (platformIdle_effect.not_writes h)), Nat.zero_add]
    split
    · rename_i p' hret
      refine ih (Bool.eq_true_of_not_eq_false fun hopen => ?_)
      rw [(platformIdle_terminal hret hopen).1] at h
      cases h
    · rfl

/-- **At most one round writes**, whatever the rounds show. -/
theorem writingRounds_le_one : writingRounds build rounds p ≤ 1 := by
  induction rounds generalizing p with
  | nil => exact Nat.zero_le 1
  | cons round rounds ih =>
    rw [writingRounds]
    split_ifs with hlog
    · rw [Nat.zero_add]
      split
      · exact ih
      · exact Nat.zero_le 1
    · split
      · rename_i p' hret
        rw [hret] at hlog
        rw [writingRounds_of_terminal]
        exact Bool.eq_true_of_not_eq_false fun hopen => hlog (platformIdle_terminal hret hopen).2
      · exact Nat.le_refl 1

end WritingRounds

/-! ### Confirmation and health -/

/-- What should hold when a trial is confirmed. -/
structure Vitals.Healthy (v : Vitals) : Prop where
  self_tests : v.mandatorySelfTestsPassed = true
  no_critical_failure : v.criticalInitializationFailure = false
  not_latched : v.vectorMonitor.snapshot.latchedFailure = false
  not_fault : v.automaticState ≠ .fault
  not_security_failure : v.automaticState ≠ .securityFailure

theorem VitalsInv.healthy_iff {build : PlatformBuild} {boot : PlatformBoot}
    {rounds : List PlatformRound} {v : Vitals} (h : VitalsInv build boot rounds v)
    (hself : v.mandatorySelfTestsPassed = true) (hcritical : v.criticalInitializationFailure = false) :
    v.Healthy ↔ ChecksPass build boot rounds := by
  rw [← h.latch]
  refine ⟨fun hv => hv.not_latched, fun hl => ⟨hself, hcritical, hl, ?_, ?_⟩⟩
  all_goals
    intro hstate
    rcases h.good hself hl with hgood | hgood <;> rw [hgood] at hstate <;> cases hstate

/-- **Confirmation and health.** In every run at most one round writes metadata, and it is the first
to touch the flash. A round that turns the trial into a confirmation is such a round. When it does,
the self tests have passed and no critical failure is recorded; and the vector monitor has latched
nothing, with the health state neither `FAULT` nor `SECURITY_FAILURE`, exactly if every check of the
vector monitor up to this round has passed. -/
theorem confirmation_healthy_iff (build : PlatformBuild) (boot : PlatformBoot) (d : Device)
    (rounds : List PlatformRound) (round : PlatformRound) :
    wp (platformMain build boot rounds : Prog Platform Empty Unit) (Platform.reset d)
      (fun _ p =>
        let p' := ((platformIdle build round : Prog Platform Empty Unit) p).state
        (TurnsConfirmed p p' → Writes p p') ∧
        (Writes p p' → p.dev.log = d.log ∧ p'.mandatorySelfTestsPassed = true ∧
          p'.criticalInitializationFailure = false ∧
          (p'.vitals.Healthy ↔ ChecksPass build boot (rounds ++ [round]))))
      (fun _ _ => False) (fun _ => True) ∧
    wp (platformInit build boot : Prog Platform Empty Unit) (Platform.reset d)
      (fun _ p => writingRounds build (rounds ++ [round]) p ≤ 1) (fun _ _ => False)
      (fun _ => True) := by
  refine ⟨platformMain_inv.mono (fun _ p h => ?_) (fun _ _ h => h) (fun _ h => h),
    platformInit_inv.mono (fun _ _ _ => writingRounds_le_one) (fun _ _ h => h) (fun _ h => h)⟩
  have heffect : RoundEffect build round p
      ((platformIdle build round : Prog Platform Empty Unit) p).state := platformIdle_effect
  refine ⟨heffect.writes_of_confirmed, fun hwrites => ?_⟩
  rcases heffect.writes with hread | ⟨hopen, hbase, -⟩
  · exact absurd hread.eq_of_false.2 hwrites
  have hvitals : VitalsInv build boot (rounds ++ [round])
      (beforeConfirmation build round p).vitals := h.vitals.beforeConfirmation
  have hself : (beforeConfirmation build round p).vitals.mandatorySelfTestsPassed = true :=
    hbase.self_checks
  have hcritical :
      (beforeConfirmation build round p).vitals.criticalInitializationFailure = false :=
    hbase.no_critical_failure
  refine ⟨h.unwritten hopen, ?_, ?_, ?_⟩
  · exact (congrArg Vitals.mandatorySelfTestsPassed heffect.vitals).trans hself
  · exact (congrArg Vitals.criticalInitializationFailure heffect.vitals).trans hcritical
  · rw [heffect.vitals]
    exact hvitals.healthy_iff hself hcritical

/-! ### A trial that is confirmed all the same -/

section Quiet

variable {build : PlatformBuild} {boot : PlatformBoot} {round : PlatformRound} {d : Device}
  {p : Platform}

/-- The variables before the self tests. -/
def Platform.started (d : Device) (report : TelemetryReport) : Platform :=
  { Platform.reset d with uartDiagnosticsReady := true, report := report }

/-- Reading an undisturbed device leaves it as it is. -/
theorem Device.ReadOnly.eq_of_quiet {d d' : Device} (h : d.ReadOnly d') (hq : d.Quiet) :
    d' = d := by
  obtain ⟨hmem, hlog⟩ := h.eq_of_false
  have hscript : d'.script = d.script := (h.quiet hq).trans hq.symm
  cases d
  cases d'
  simp only [Device.mk.injEq]
  exact ⟨hmem, hscript, hlog⟩

/-- The variables after the initialisation. -/
def Platform.initialised (build : PlatformBuild) (boot : PlatformBoot) (d : Device)
    (report : TelemetryReport) : Platform :=
  initHardware boot
    (initRuntimeMonitor build boot (initSelfTests build boot (Platform.started d report)))

/-- An undisturbed device comes through the initialisation. -/
theorem quiet_platformInit (build : PlatformBuild) (boot : PlatformBoot) (hq : d.Quiet) :
    ∃ report, (platformInit build boot : Prog Platform ε Unit) (Platform.reset d) =
      .ret () (Platform.initialised build boot d report) := by
  have hspec : wp (platformInit build boot : Prog Platform ε Unit) (Platform.reset d)
      (fun _ p => ∃ report, p = Platform.initialised build boot d report)
      (fun _ _ => False) (fun _ => False) := by
    rw [platformInit, wp_bind, wp_modify, wp_bind, onTelemetry, wp_zoom]
    refine experimentTelemetryRefreshMetadata_spec.mono (fun _ t h => ?_) (fun _ _ h => h)
      (fun _ h => h.2 hq)
    rw [wp_modify]
    refine ⟨t.report, ?_⟩
    rw [h.1.eq_of_quiet hq]
    rfl
  obtain ⟨a, p, hret⟩ := returns_iff.mp (wp.mono hspec (fun _ _ _ => trivial) (fun _ _ h => h)
    (fun _ h => h))
  obtain ⟨report, rfl⟩ := hspec.ret hret
  exact ⟨report, hret⟩

/-- The monitor and the health state after the initialisation. -/
def startOfMonitor (build : PlatformBuild) (boot : PlatformBoot) :
    RsmVectorMonitor × PlatformHealthState :=
  runtimeMonitorVectorInit build.vectorConfig
    (platformHealthEvaluateBootPolicy boot.resetCsr boot.faultValid
      (mandatorySelfTestsPass build boot) false)
    boot.table boot.monitorVtor boot.logLastSequence

/-- The first round up to the confirmation, when everything but the vector table is in order. -/
theorem beforeConfirmation_initialised (build : PlatformBuild) (boot : PlatformBoot)
    (round : PlatformRound) (report : TelemetryReport)
    (henabled : build.rsmVectorTargetEnabled = true)
    (hdelay : build.confirmationLabBootDelayTicks = 0)
    (hself : mandatorySelfTestsPass build boot = true) (hmpu : boot.mpuPolicyInit = true)
    (hwatchdog : boot.platformWatchdogInit = true) (huart : round.uart = none) :
    let p := beforeConfirmation build round (Platform.initialised build boot d report)
    (p.vectorMonitor, p.automaticState) = runtimeMonitorVectorPeriodic (startOfMonitor build boot).1
        (startOfMonitor build boot).2 round.table round.monitorVtor round.logLastSequence ∧
      p.confirmationTerminal = false ∧ p.dev = d ∧ BaseHealthy p.health := by
  have henable : build.rsmEnable = true := (Bool.and_eq_true_iff.mp henabled).1
  have hstart : runtimeMonitorVectorInit build.vectorConfig
      (initSelfTests build boot (Platform.started d report)).automaticState boot.table
      boot.monitorVtor boot.logLastSequence = startOfMonitor build boot := rfl
  have hcritical : (initSelfTests build boot (Platform.started d report)).criticalInitializationFailure
      = false := by
    rw [initSelfTests, hself]
    rfl
  rw [Platform.initialised, initRuntimeMonitor, if_pos henable, initVectorMonitor,
    if_pos henabled, hstart, initHardware, hmpu, hwatchdog, if_neg (by decide), hcritical,
    beforeConfirmation, runtimeMonitorPeriodic, if_pos henabled, huart, stablePoint,
    if_pos (.inl hdelay)]
  dsimp only [platformCliPoll]
  exact ⟨rfl, rfl, rfl, ⟨rfl, hself, rfl, rfl, rfl, rfl, rfl, rfl, rfl⟩⟩

/-- Once the flags are in order, a round confirms the trial of the running slot. -/
theorem quiet_idleConfirmation (slot : BootSlotId) {r next : BootMetadataRecord}
    (hopen : p.confirmationTerminal = false) (hbase : BaseHealthy p.health) (hq : p.dev.Quiet)
    (hvector : round.confirmationVtor.toNat = (bootSlots slot).payloadBase)
    (hj : journal p.dev.mem = .ok r)
    (hpending : r.state = .pendingTrial ∧ r.candidateSlot = slot.toUInt32 ∧ r.confirmationState = 0)
    (hnext : bootMetadataPrepareNext r .confirmed slot.toUInt32 bootSlotNone
      r.candidateImageVersion 0 1 0 = .ok next) :
    wp (idleConfirmation round : Prog Platform ε Unit) p
      (fun _ p' => journal p'.dev.mem = .ok next) (fun _ _ => False) (fun _ => False) := by
  rw [idleConfirmation, wp_bind, wp_get, if_pos hopen, wp_bind, onService, wp_zoom]
  refine wp.mono (quiet_platformConfirmationService hbase hq hvector hj hpending hnext)
    (fun status s h => ?_) (fun _ _ h => h) (fun _ h => h)
  rw [settleConfirmation, if_pos (by rw [h.1]; decide), wp_bind, wp_modify, onTelemetry, wp_zoom,
    experimentTelemetrySetConfirmationResult, wp_bind]
  refine experimentTelemetryRefreshMetadata_spec.mono (fun _ t ht => ?_) (fun _ _ h => h)
    (fun _ ht => ht.2 h.2.2)
  have hmem := ht.1.eq_of_false.1
  exact (congrArg journal hmem).trans h.2.1

end Quiet

/-- The application of slot A, with the handlers at the beginning of its code. -/
def slotABuild : PlatformBuild where
  appBase := 0x08020200
  symbols :=
    { estack := 0x20020000
      resetHandler := 0x08020241
      nmiHandler := 0x08020251
      hardFaultHandler := 0x08020261
      memManageHandler := 0x08020271
      busFaultHandler := 0x08020281
      usageFaultHandler := 0x08020291
      svcallHandler := 0x080202A1
      debugMonHandler := 0x080202B1
      pendSvHandler := 0x080202C1
      sysTickHandler := 0x080202D1 }

/-- The vector table of `slotABuild` with another hard fault handler. -/
def patchedTable (index : ℕ) : UInt32 :=
  if index = 3 then 0x08020301 else (loadExpectedVectorEntries slotABuild.symbols).getD index 0

/-- A boot in which everything is in order but the vector table. -/
def patchedBoot : PlatformBoot where
  resetCsr := 0
  faultValid := false
  selfTestVtor := slotABuild.appBase
  flashSizeKb := 1024
  monitorVtor := slotABuild.appBase
  table := patchedTable
  logLastSequence := 1
  mpuPolicyInit := true
  platformWatchdogInit := true

/-- The first round after it. -/
def patchedRound : PlatformRound where
  monitorVtor := slotABuild.appBase
  table := patchedTable
  logLastSequence := 2
  uart := none
  confirmationVtor := slotABuild.appBase

/-- The image in slot A is on trial. -/
def trialRecord : BootMetadataRecord where
  sequence := 4
  state := .pendingTrial
  activeSlot := BootSlotId.b.toUInt32
  candidateSlot := BootSlotId.a.toUInt32
  candidateImageVersion := 2
  bootAttemptCount := 2
  confirmationState := 0
  result := 0

/-- What the monitor makes of the changed entry, at start and in the first round. -/
theorem patched_monitor :
    let first := runtimeMonitorVectorPeriodic (startOfMonitor slotABuild patchedBoot).1
      (startOfMonitor slotABuild patchedBoot).2 patchedRound.table patchedRound.monitorVtor
      patchedRound.logLastSequence
    first.1.snapshot.latchedFailure = true ∧ first.2 = .securityFailure := by
  decide +kernel

/-- The first round of the patched application, on any undisturbed device with this trial. -/
theorem patched_confirms {d : Device} (hq : d.Quiet) (hj : journal d.mem = .ok trialRecord) : ∃ p,
    (platformMain slotABuild patchedBoot [] : Prog Platform Empty Unit) (Platform.reset d) =
      .ret () p ∧
    let p' := ((platformIdle slotABuild patchedRound : Prog Platform Empty Unit) p).state
    TurnsConfirmed p p' ∧ p'.vectorMonitor.snapshot.latchedFailure = true ∧
      p'.automaticState = .securityFailure := by
  obtain ⟨report, hinit⟩ := quiet_platformInit (ε := Empty) slotABuild patchedBoot hq
  obtain ⟨hmonitor, hopen, hdev, hbase⟩ := beforeConfirmation_initialised (d := d) slotABuild
    patchedBoot patchedRound report rfl rfl (by decide) rfl rfl rfl
  obtain ⟨next, hnext, hstate⟩ : ∃ next, bootMetadataPrepareNext trialRecord .confirmed
      BootSlotId.a.toUInt32 bootSlotNone trialRecord.candidateImageVersion 0 1 0 = .ok next ∧
      next.state = .confirmed := ⟨_, rfl, rfl⟩
  have hround : wp (platformIdle slotABuild patchedRound : Prog Platform Empty Unit)
      (Platform.initialised slotABuild patchedBoot d report)
      (fun _ p' => journal p'.dev.mem = .ok next) (fun _ _ => False) (fun _ => False) := by
    rw [platformIdle, wp_bind, wp_modify]
    exact quiet_idleConfirmation .a hopen hbase (by rw [hdev]; exact hq) rfl
      (by rw [hdev]; exact hj) ⟨rfl, rfl, rfl⟩ hnext
  have hvitals : ((platformIdle slotABuild patchedRound : Prog Platform Empty Unit)
      (Platform.initialised slotABuild patchedBoot d report)).state.vitals =
      (beforeConfirmation slotABuild patchedRound
        (Platform.initialised slotABuild patchedBoot d report)).vitals := platformIdle_effect.vitals
  refine ⟨Platform.initialised slotABuild patchedBoot d report, ?_, ⟨trialRecord, next, hj, rfl,
    hround.state (fun _ _ h => h) (fun _ _ h => h.elim), hstate⟩, ?_, ?_⟩
  · rw [platformMain]
    change Prog.bind _ _ _ = _
    rw [Prog.bind, hinit]
    rfl
  · refine (congrArg (fun v => v.vectorMonitor.snapshot.latchedFailure) hvitals).trans ?_
    exact (congrArg (fun x => x.1.snapshot.latchedFailure) hmonitor).trans patched_monitor.1
  · refine (congrArg Vitals.automaticState hvitals).trans ?_
    exact (congrArg Prod.snd hmonitor).trans patched_monitor.2

/-- A handler in the vector table is not the one that was linked. The monitor finds it at start,
latches it and reports a security failure, and the first round confirms the trial. -/
theorem patched_trial_confirmed : ∃ p,
    (platformMain slotABuild patchedBoot [] : Prog Platform Empty Unit)
      (Platform.reset (flashWith trialRecord)) = .ret () p ∧
    let p' := ((platformIdle slotABuild patchedRound : Prog Platform Empty Unit) p).state
    TurnsConfirmed p p' ∧ p'.vectorMonitor.snapshot.latchedFailure = true ∧
      p'.automaticState = .securityFailure :=
  @patched_confirms (flashWith trialRecord) rfl (journal_flashWith (by decide))

end Stm32SecurityLab
