import Stm32SecurityLab.Layout
import Mathlib.Logic.Function.Iterate

/-!
# The runtime monitor of the research application

`runtime_monitor_vector.c`, the health state of `platform_health.c` and the two functions of
`runtime_monitor.c` that connect them. The monitor compares the vector table and the `VTOR`
register with what the linker put there, all entries once at start and two entries in every round
of the main loop after that. A finding is *latched*: nothing but a new start clears it.

The table is flash that the monitor only reads, so the words it finds are a parameter of each
check and not a field of the configuration.

## Main definitions

* `rsmVectorMonitorInit`, `rsmVectorMonitorStep`
* `InitPasses`, `StepPasses` — what one check has to find
* `PlatformHealthState`, `platformHealthApplyBootPolicy`
* `runtimeMonitorVectorInit`, `runtimeMonitorVectorPeriodic`

## Main results

* `latched_rsmVectorMonitorInit`, `latched_rsmVectorMonitorStep` — nothing is latched exactly when
  every check so far has passed
* `runtimeMonitorVectorInit_unlatched`, `runtimeMonitorVectorPeriodic_unlatched` — a check that
  latches nothing leaves the health state alone
-/

namespace Stm32SecurityLab

/-! ### The vector monitor -/

/-- `rsm_status_t`. -/
inductive RsmStatus where
  | ok
  | degraded
  | failed
  | unavailable
  | busy
  | invalidArgument
  deriving DecidableEq, Repr

/-- `rsm_vector_status_t`. -/
inductive RsmVectorStatus where
  | uninitialized
  | pass
  | vtorMismatch
  | alignmentFailure
  | initialMspInvalid
  | handlerRangeFailure
  | thumbBitFailure
  | entryChanged
  | baselineUnavailable
  deriving DecidableEq, Repr

/-- `rsm_vector_entry_kind_t`, as the bytes of the table of kinds. -/
def rsmVectorEntryReserved : UInt8 := 0
def rsmVectorEntryInitialMsp : UInt8 := 1
def rsmVectorEntryHandler : UInt8 := 2

/-- `RSM_VECTOR_TABLE_ENTRY_COUNT`. -/
def rsmVectorTableEntryCount : ℕ := 16

/-- `RSM_VECTOR_FAILURE_INDEX_NONE`. -/
def rsmVectorFailureIndexNone : ℕ := uint32Max

/-- `RSM_VECTOR_DEFAULT_STEP_BUDGET`. -/
def rsmVectorDefaultStepBudget : ℕ := 2

/-- `rsm_vector_config_t`, without the address of the table. -/
structure RsmVectorConfig where
  expectedVtor : UInt32
  vtorAlignment : UInt32
  sramBase : UInt32
  sramEnd : UInt32
  mspAlignment : UInt32
  executableFlashBase : UInt32
  executableFlashEnd : UInt32
  entryCount : ℕ
  expectedEntries : ℕ → UInt32
  entryKinds : ℕ → UInt8

/-- `rsm_vector_snapshot_t`; the defaults are those of `reset_snapshot`. -/
structure RsmVectorSnapshot where
  currentVtor : UInt32 := 0
  expectedVtor : UInt32 := 0
  checkedEntries : ℕ := 0
  failingIndex : ℕ := rsmVectorFailureIndexNone
  expectedValue : UInt32 := 0
  observedValue : UInt32 := 0
  lastSuccessfulSequence : UInt32 := 0
  checkCount : UInt32 := 0
  failureCount : UInt32 := 0
  status : RsmVectorStatus := .uninitialized
  available : Bool := false
  lastCheckComplete : Bool := false
  latchedFailure : Bool := false
  deriving DecidableEq, Repr

/-- `rsm_vector_monitor_t`. -/
structure RsmVectorMonitor where
  config : RsmVectorConfig
  snapshot : RsmVectorSnapshot := {}
  nextIndex : ℕ := 0
  currentCycleFailed : Bool := false

/-- `rsm_saturating_increment`, without its flag. -/
def rsmSaturatingIncrement (value : UInt32) : UInt32 :=
  if value ≥ 0xFFFFFFFE then 0xFFFFFFFF else value + 1

/-- `is_power_of_two`. -/
def RsmVectorConfig.isPowerOfTwo (value : UInt32) : Bool := value ≠ 0 ∧ value &&& (value - 1) = 0

/-- `config_valid`. -/
def configValid (config : RsmVectorConfig) : Bool :=
  if config.entryCount = 0 ∨ config.vtorAlignment = 0 ∨ config.mspAlignment = 0 ∨
      config.sramBase ≥ config.sramEnd ∨
      config.executableFlashBase ≥ config.executableFlashEnd then
    false
  else if RsmVectorConfig.isPowerOfTwo config.vtorAlignment = false ∨
      RsmVectorConfig.isPowerOfTwo config.mspAlignment = false then
    false
  else
    config.expectedVtor &&& (config.vtorAlignment - 1) = 0

namespace RsmVectorMonitor

/-- Note how many entries the check has looked at. -/
def setCheckedEntries (m : RsmVectorMonitor) (count : ℕ) : RsmVectorMonitor :=
  { m with snapshot := { m.snapshot with checkedEntries := count } }

/-- `mark_baseline_unavailable`. -/
def markBaselineUnavailable (m : RsmVectorMonitor) : RsmVectorMonitor :=
  { m with
    snapshot :=
      { status := .baselineUnavailable
        expectedVtor := m.config.expectedVtor
        latchedFailure := true } }

/-- `record_failure`. -/
def recordFailure (m : RsmVectorMonitor) (status : RsmVectorStatus) (index : ℕ)
    (expected observed : UInt32) : RsmVectorMonitor :=
  { m with
    snapshot :=
      { m.snapshot with
        failureCount :=
          if m.snapshot.latchedFailure = false then
            rsmSaturatingIncrement m.snapshot.failureCount
          else
            m.snapshot.failureCount
        status := status
        failingIndex := index
        expectedValue := expected
        observedValue := observed
        latchedFailure := true }
    currentCycleFailed := true }

/-- `record_successful_complete_check`. -/
def recordSuccessfulCompleteCheck (m : RsmVectorMonitor) (eventSequence : UInt32) :
    RsmVectorMonitor :=
  { m with
    snapshot :=
      { m.snapshot with
        checkCount := rsmSaturatingIncrement m.snapshot.checkCount
        status := if m.snapshot.latchedFailure = false then .pass else m.snapshot.status
        lastSuccessfulSequence :=
          if m.snapshot.latchedFailure = false then eventSequence
          else m.snapshot.lastSuccessfulSequence
        lastCheckComplete := true } }

end RsmVectorMonitor

open RsmVectorMonitor

/-- `validate_vtor`. -/
def validateVtor (config : RsmVectorConfig) (currentVtor : UInt32) : RsmVectorStatus :=
  if currentVtor &&& (config.vtorAlignment - 1) ≠ 0 then .alignmentFailure
  else if currentVtor ≠ config.expectedVtor then .vtorMismatch
  else .pass

/-- `msp_valid`. -/
def mspValid (config : RsmVectorConfig) (msp : UInt32) : Bool :=
  ¬ (msp ≤ config.sramBase ∨ msp > config.sramEnd ∨ msp &&& (config.mspAlignment - 1) ≠ 0)

/-- `handler_address_valid`. -/
def handlerAddressValid (config : RsmVectorConfig) (handler : UInt32) : Bool :=
  let address := handler &&& ~~~1
  if handler &&& 1 = 0 then false
  else ¬ (address < config.executableFlashBase ∨ address ≥ config.executableFlashEnd)

/-- `validate_entry`. -/
def validateEntry (config : RsmVectorConfig) (index : ℕ) (observed : UInt32) : RsmVectorStatus :=
  let expected := config.expectedEntries index
  let kind := config.entryKinds index
  if kind = rsmVectorEntryReserved then
    if observed = 0 then .pass else .entryChanged
  else if kind = rsmVectorEntryInitialMsp then
    if mspValid config observed = false then .initialMspInvalid
    else if observed = expected then .pass
    else .entryChanged
  else if kind ≠ rsmVectorEntryHandler then .baselineUnavailable
  else if observed = 0 then .handlerRangeFailure
  else if observed &&& 1 = 0 then .thumbBitFailure
  else if handlerAddressValid config observed = false then .handlerRangeFailure
  else if observed = expected then .pass
  else .entryChanged

/-- `check_entry`. -/
def checkEntry (table : ℕ → UInt32) (m : RsmVectorMonitor) (index : ℕ) :
    RsmStatus × RsmVectorMonitor :=
  let status := validateEntry m.config index (table index)
  if status ≠ .pass then
    (.failed, m.recordFailure status index (m.config.expectedEntries index) (table index))
  else
    (.ok, m)

/-- `check_vtor`. -/
def checkVtor (m : RsmVectorMonitor) (currentVtor : UInt32) : RsmStatus × RsmVectorMonitor :=
  let status := validateVtor m.config currentVtor
  let m :=
    { m with
      snapshot :=
        { m.snapshot with currentVtor := currentVtor, expectedVtor := m.config.expectedVtor } }
  if status ≠ .pass then
    (.failed, m.recordFailure status rsmVectorFailureIndexNone m.config.expectedVtor currentVtor)
  else
    (.ok, m)

/-- The entry checked after the entry `index`. -/
def RsmVectorConfig.advance (config : RsmVectorConfig) (index : ℕ) : ℕ :=
  if index + 1 ≥ config.entryCount then 0 else index + 1

/-- The loop of `rsm_vector_monitor_init`, over the indices still to be checked. -/
def initLoop (table : ℕ → UInt32) (eventSequence : UInt32) :
    List ℕ → RsmVectorMonitor → RsmStatus × RsmVectorMonitor
  | [], m =>
    (.ok, recordSuccessfulCompleteCheck { m with nextIndex := 0, currentCycleFailed := false }
      eventSequence)
  | index :: rest, m =>
    match checkEntry table (m.setCheckedEntries (index + 1)) index with
    | (.ok, m) => initLoop table eventSequence rest m
    | (_, m) => (.failed, { m with nextIndex := m.config.advance index })

/-- `rsm_vector_monitor_init`. -/
def rsmVectorMonitorInit (config : RsmVectorConfig) (table : ℕ → UInt32) (currentVtor : UInt32)
    (eventSequence : UInt32) : RsmStatus × RsmVectorMonitor :=
  let m : RsmVectorMonitor :=
    { config := config
      snapshot := { currentVtor := currentVtor, expectedVtor := config.expectedVtor } }
  if configValid config = false then (.unavailable, m.markBaselineUnavailable)
  else
    match checkVtor { m with snapshot := { m.snapshot with available := true } } currentVtor with
    | (.ok, m) => initLoop table eventSequence (List.range config.entryCount) m
    | (_, m) => (.failed, m)

/-- What `rsm_vector_monitor_step` does when it has checked the last entry of the table. -/
def completeCycle (m : RsmVectorMonitor) (eventSequence : UInt32) : RsmVectorMonitor :=
  let m :=
    if m.currentCycleFailed = false then
      m.recordSuccessfulCompleteCheck eventSequence
    else
      { m with
        snapshot :=
          { m.snapshot with
            checkCount := rsmSaturatingIncrement m.snapshot.checkCount
            lastCheckComplete := true } }
  { m with currentCycleFailed := false }

/-- One round of the loop of `rsm_vector_monitor_step`. -/
def checkNextEntry (table : ℕ → UInt32) (eventSequence : UInt32) (checked : ℕ)
    (m : RsmVectorMonitor) : RsmStatus × RsmVectorMonitor :=
  let index := m.nextIndex
  let (status, m) := checkEntry table (m.setCheckedEntries (checked + 1)) index
  let m := { m with nextIndex := m.config.advance index }
  (status, if index + 1 ≥ m.config.entryCount then completeCycle m eventSequence else m)

/-- The loop of `rsm_vector_monitor_step`, with `fuel` entries still to be checked. -/
def stepLoop (table : ℕ → UInt32) (eventSequence : UInt32) :
    (fuel : ℕ) → (checked : ℕ) → RsmStatus → RsmVectorMonitor → RsmStatus × RsmVectorMonitor
  | 0, _, result, m => (result, m)
  | fuel + 1, checked, result, m =>
    let (status, m) := checkNextEntry table eventSequence checked m
    stepLoop table eventSequence fuel (checked + 1) (if status ≠ .ok then .failed else result) m

/-- `rsm_vector_monitor_step`. -/
def rsmVectorMonitorStep (m : RsmVectorMonitor) (table : ℕ → UInt32) (currentVtor : UInt32)
    (eventSequence : UInt32) (entryBudget : ℕ) : RsmStatus × RsmVectorMonitor :=
  if configValid m.config = false then (.unavailable, m.markBaselineUnavailable)
  else if entryBudget = 0 then (.busy, m)
  else
    match checkVtor
        { m with
          snapshot :=
            { m.snapshot with available := true, lastCheckComplete := false, checkedEntries := 0 } }
        currentVtor with
    | (.ok, m) => stepLoop table eventSequence (min entryBudget m.config.entryCount) 0 .ok m
    | (_, m) => (.failed, m)

/-! ### What is latched -/

/-- The full check at start finds what it expects. -/
structure InitPasses (config : RsmVectorConfig) (table : ℕ → UInt32) (currentVtor : UInt32) :
    Prop where
  config_valid : configValid config = true
  vtor : validateVtor config currentVtor = .pass
  entries : ∀ index < config.entryCount, validateEntry config index (table index) = .pass

/-- A periodic check of `entryBudget` entries, from `nextIndex` on, finds what it expects. -/
structure StepPasses (config : RsmVectorConfig) (nextIndex : ℕ) (table : ℕ → UInt32)
    (currentVtor : UInt32) (entryBudget : ℕ) : Prop where
  config_valid : configValid config = true
  vtor : validateVtor config currentVtor = .pass
  entries : ∀ j < min entryBudget config.entryCount,
    validateEntry config (config.advance^[j] nextIndex)
      (table (config.advance^[j] nextIndex)) = .pass

section Monitor

variable {table : ℕ → UInt32} {m : RsmVectorMonitor} {index : ℕ} {currentVtor eventSequence : UInt32}

theorem checkEntry_of_pass (h : validateEntry m.config index (table index) = .pass) :
    checkEntry table m index = (.ok, m) := by
  rw [checkEntry, if_neg (not_not_intro h)]

theorem checkEntry_of_ne (h : validateEntry m.config index (table index) ≠ .pass) :
    checkEntry table m index = (.failed, m.recordFailure (validateEntry m.config index (table index))
      index (m.config.expectedEntries index) (table index)) := by
  rw [checkEntry, if_pos h]

theorem checkEntry_config : (checkEntry table m index).2.config = m.config := by
  by_cases h : validateEntry m.config index (table index) = .pass
  · rw [checkEntry_of_pass h]
  · rw [checkEntry_of_ne h]
    rfl

theorem initLoop_of_pass {rest : List ℕ}
    (h : validateEntry m.config index (table index) = .pass) :
    initLoop table eventSequence (index :: rest) m =
      initLoop table eventSequence rest (m.setCheckedEntries (index + 1)) := by
  rw [initLoop, checkEntry_of_pass (m := m.setCheckedEntries (index + 1)) h]

theorem initLoop_of_ne {rest : List ℕ}
    (h : validateEntry m.config index (table index) ≠ .pass) :
    (initLoop table eventSequence (index :: rest) m).2.config = m.config ∧
      (initLoop table eventSequence (index :: rest) m).2.snapshot.latchedFailure = true := by
  rw [initLoop, checkEntry_of_ne (m := m.setCheckedEntries (index + 1)) h]
  exact ⟨rfl, rfl⟩

/-- The loop at start latches a failure at the first entry that does not pass. -/
theorem latched_initLoop {indices : List ℕ} (hm : m.snapshot.latchedFailure = false) :
    (initLoop table eventSequence indices m).2.snapshot.latchedFailure = false ↔
      ∀ index ∈ indices, validateEntry m.config index (table index) = .pass := by
  induction indices generalizing m with
  | nil => simpa [initLoop, recordSuccessfulCompleteCheck] using hm
  | cons index rest ih =>
    rw [List.forall_mem_cons]
    by_cases h : validateEntry m.config index (table index) = .pass
    · rw [initLoop_of_pass h, ih (m := m.setCheckedEntries (index + 1)) hm]
      exact (and_iff_right h).symm
    · rw [(initLoop_of_ne h).2]
      exact ⟨fun hl => (nomatch hl), fun hl => absurd hl.1 h⟩

theorem initLoop_config {indices : List ℕ} :
    (initLoop table eventSequence indices m).2.config = m.config := by
  induction indices generalizing m with
  | nil => rfl
  | cons index rest ih =>
    by_cases h : validateEntry m.config index (table index) = .pass
    · rw [initLoop_of_pass h, ih]
      rfl
    · exact (initLoop_of_ne h).1

/-- A loop that latches nothing ends with a successful check. -/
theorem initLoop_unlatched {indices : List ℕ}
    (h : (initLoop table eventSequence indices m).2.snapshot.latchedFailure = false) :
    (initLoop table eventSequence indices m).2.snapshot.available = m.snapshot.available ∧
      (initLoop table eventSequence indices m).2.snapshot.status = .pass ∧
      (initLoop table eventSequence indices m).2.nextIndex = 0 := by
  induction indices generalizing m with
  | nil => exact ⟨rfl, if_pos h, rfl⟩
  | cons index rest ih =>
    by_cases hpass : validateEntry m.config index (table index) = .pass
    · rw [initLoop_of_pass hpass] at h ⊢
      exact ih h
    · rw [(initLoop_of_ne hpass).2] at h
      cases h

variable {config : RsmVectorConfig}

theorem rsmVectorMonitorInit_config :
    (rsmVectorMonitorInit config table currentVtor eventSequence).2.config = config := by
  rw [rsmVectorMonitorInit]
  by_cases hc : configValid config = false
  · rw [if_pos hc]
    rfl
  · rw [if_neg hc, checkVtor]
    by_cases hv : validateVtor config currentVtor = .pass
    · rw [if_neg (not_not_intro hv)]
      exact initLoop_config
    · rw [if_pos hv]
      rfl

/-- **At start nothing is latched** exactly when the full check passes. -/
theorem latched_rsmVectorMonitorInit :
    (rsmVectorMonitorInit config table currentVtor eventSequence).2.snapshot.latchedFailure = false ↔
      InitPasses config table currentVtor := by
  rw [rsmVectorMonitorInit]
  by_cases hc : configValid config = true
  · rw [if_neg (by rw [hc]; decide), checkVtor]
    by_cases hv : validateVtor config currentVtor = .pass
    · rw [if_neg (not_not_intro hv)]
      refine (latched_initLoop rfl).trans ⟨fun h => ⟨hc, hv, ?_⟩, fun h index hindex => ?_⟩
      · intro index hindex
        exact h index (List.mem_range.mpr hindex)
      · exact h.entries index (List.mem_range.mp hindex)
    · rw [if_pos hv]
      exact ⟨fun h => (nomatch h), fun h => absurd h.vtor hv⟩
  · rw [if_pos (Bool.not_eq_true _ ▸ hc)]
    exact ⟨fun h => (nomatch h), fun h => absurd h.config_valid hc⟩

/-- A start that latches nothing is a successful check. -/
theorem rsmVectorMonitorInit_unlatched (h : InitPasses config table currentVtor) :
    (rsmVectorMonitorInit config table currentVtor eventSequence).2.snapshot.available = true ∧
      (rsmVectorMonitorInit config table currentVtor eventSequence).2.snapshot.status = .pass ∧
      (rsmVectorMonitorInit config table currentVtor eventSequence).2.nextIndex = 0 := by
  have hl : (rsmVectorMonitorInit config table currentVtor
      eventSequence).2.snapshot.latchedFailure = false := latched_rsmVectorMonitorInit.mpr h
  rw [rsmVectorMonitorInit, if_neg (by rw [h.config_valid]; decide), checkVtor,
    if_neg (not_not_intro h.vtor)] at hl ⊢
  exact initLoop_unlatched hl

theorem completeCycle_keeps :
    (completeCycle m eventSequence).config = m.config ∧
      (completeCycle m eventSequence).nextIndex = m.nextIndex ∧
      (completeCycle m eventSequence).snapshot.latchedFailure = m.snapshot.latchedFailure ∧
      (completeCycle m eventSequence).snapshot.failureCount = m.snapshot.failureCount := by
  rw [completeCycle]
  by_cases h : m.currentCycleFailed = false
  · rw [if_pos h]
    exact ⟨rfl, rfl, rfl, rfl⟩
  · rw [if_neg h]
    exact ⟨rfl, rfl, rfl, rfl⟩

variable {checked fuel : ℕ} {result : RsmStatus}

theorem checkNextEntry_keeps :
    (checkNextEntry table eventSequence checked m).2.config = m.config ∧
      (checkNextEntry table eventSequence checked m).2.nextIndex = m.config.advance m.nextIndex := by
  have hconfig : (checkEntry table (m.setCheckedEntries (checked + 1)) m.nextIndex).2.config =
      m.config := checkEntry_config
  rw [checkNextEntry]
  dsimp only
  rw [hconfig]
  split_ifs
  · exact ⟨completeCycle_keeps.1, completeCycle_keeps.2.1⟩
  · exact ⟨rfl, rfl⟩

/-- The latch and the count of failures are those after the one check of the round. -/
theorem checkNextEntry_snapshot :
    (checkNextEntry table eventSequence checked m).2.snapshot.latchedFailure =
        (checkEntry table (m.setCheckedEntries (checked + 1)) m.nextIndex).2.snapshot.latchedFailure ∧
      (checkNextEntry table eventSequence checked m).2.snapshot.failureCount =
        (checkEntry table (m.setCheckedEntries (checked + 1)) m.nextIndex).2.snapshot.failureCount := by
  rw [checkNextEntry]
  dsimp only
  split_ifs
  · exact completeCycle_keeps.2.2
  · exact ⟨rfl, rfl⟩

theorem checkNextEntry_of_pass
    (h : validateEntry m.config m.nextIndex (table m.nextIndex) = .pass) :
    (checkNextEntry table eventSequence checked m).2.snapshot.latchedFailure =
        m.snapshot.latchedFailure ∧
      (checkNextEntry table eventSequence checked m).2.snapshot.failureCount =
        m.snapshot.failureCount := by
  rw [checkNextEntry_snapshot.1, checkNextEntry_snapshot.2,
    checkEntry_of_pass (m := m.setCheckedEntries (checked + 1)) h]
  exact ⟨rfl, rfl⟩

theorem checkNextEntry_of_ne
    (h : validateEntry m.config m.nextIndex (table m.nextIndex) ≠ .pass) :
    (checkNextEntry table eventSequence checked m).2.snapshot.latchedFailure = true := by
  rw [checkNextEntry_snapshot.1, checkEntry_of_ne (m := m.setCheckedEntries (checked + 1)) h]
  rfl

theorem stepLoop_config :
    (stepLoop table eventSequence fuel checked result m).2.config = m.config := by
  induction fuel generalizing m checked result with
  | zero => rfl
  | succ fuel ih =>
    rw [stepLoop]
    exact ih.trans checkNextEntry_keeps.1

/-- The loop of a periodic check latches nothing exactly when all its entries pass. -/
theorem latched_stepLoop :
    (stepLoop table eventSequence fuel checked result m).2.snapshot.latchedFailure = false ↔
      m.snapshot.latchedFailure = false ∧ ∀ j < fuel,
        validateEntry m.config (m.config.advance^[j] m.nextIndex)
          (table (m.config.advance^[j] m.nextIndex)) = .pass := by
  induction fuel generalizing m checked result with
  | zero =>
    rw [stepLoop]
    exact ⟨fun h => ⟨h, fun j hj => absurd hj (Nat.not_lt_zero j)⟩, fun h => h.1⟩
  | succ fuel ih =>
    rw [stepLoop]
    dsimp only
    rw [ih, checkNextEntry_keeps.1, checkNextEntry_keeps.2]
    by_cases h : validateEntry m.config m.nextIndex (table m.nextIndex) = .pass
    · rw [(checkNextEntry_of_pass h).1]
      refine and_congr_right fun _ => ⟨fun hrest j hj => ?_, fun hall j hj => ?_⟩
      · cases j with
        | zero => exact h
        | succ j =>
          rw [Function.iterate_succ_apply]
          exact hrest j (Nat.lt_of_succ_lt_succ hj)
      · rw [← Function.iterate_succ_apply]
        exact hall (j + 1) (Nat.succ_lt_succ hj)
    · rw [checkNextEntry_of_ne h]
      exact ⟨fun hl => (nomatch hl.1), fun hl => absurd (hl.2 0 (Nat.succ_pos fuel)) h⟩

/-- A loop that latches nothing counts no failure. -/
theorem stepLoop_failureCount
    (h : (stepLoop table eventSequence fuel checked result m).2.snapshot.latchedFailure = false) :
    (stepLoop table eventSequence fuel checked result m).2.snapshot.failureCount =
      m.snapshot.failureCount := by
  induction fuel generalizing m checked result with
  | zero => rfl
  | succ fuel ih =>
    have hpass := (latched_stepLoop.mp h).2 0 (Nat.succ_pos fuel)
    rw [stepLoop] at h ⊢
    exact (ih h).trans (checkNextEntry_of_pass hpass).2

theorem stepLoop_nextIndex :
    (stepLoop table eventSequence fuel checked result m).2.nextIndex =
      m.config.advance^[fuel] m.nextIndex := by
  induction fuel generalizing m checked result with
  | zero => rfl
  | succ fuel ih =>
    rw [stepLoop, Function.iterate_succ_apply, ← checkNextEntry_keeps.2, ← checkNextEntry_keeps.1]
    exact ih

theorem rsmVectorMonitorStep_config {entryBudget : ℕ} :
    (rsmVectorMonitorStep m table currentVtor eventSequence entryBudget).2.config = m.config := by
  rw [rsmVectorMonitorStep]
  split_ifs with hc hb
  · rfl
  · rfl
  · rw [checkVtor]
    by_cases hv : validateVtor m.config currentVtor = .pass
    · rw [if_neg (not_not_intro hv)]
      exact stepLoop_config
    · rw [if_pos hv]
      rfl

/-- **A periodic check** leaves nothing latched exactly when nothing was latched and it passes. -/
theorem latched_rsmVectorMonitorStep {entryBudget : ℕ} (hb : entryBudget ≠ 0) :
    (rsmVectorMonitorStep m table currentVtor eventSequence
        entryBudget).2.snapshot.latchedFailure = false ↔
      m.snapshot.latchedFailure = false ∧
        StepPasses m.config m.nextIndex table currentVtor entryBudget := by
  rw [rsmVectorMonitorStep]
  by_cases hc : configValid m.config = true
  · rw [if_neg (by rw [hc]; decide), if_neg hb, checkVtor]
    by_cases hv : validateVtor m.config currentVtor = .pass
    · rw [if_neg (not_not_intro hv)]
      exact latched_stepLoop.trans (and_congr_right fun _ =>
        ⟨fun h => ⟨hc, hv, h⟩, fun h => h.entries⟩)
    · rw [if_pos hv]
      exact ⟨fun h => (nomatch h), fun h => absurd h.2.vtor hv⟩
  · rw [if_pos (Bool.not_eq_true _ ▸ hc)]
    exact ⟨fun h => (nomatch h), fun h => absurd h.2.config_valid hc⟩

theorem rsmVectorMonitorStep_nextIndex {entryBudget : ℕ} (hb : entryBudget ≠ 0)
    (h : StepPasses m.config m.nextIndex table currentVtor entryBudget) :
    (rsmVectorMonitorStep m table currentVtor eventSequence entryBudget).2.nextIndex =
      m.config.advance^[min entryBudget m.config.entryCount] m.nextIndex := by
  rw [rsmVectorMonitorStep, if_neg (by rw [h.config_valid]; decide), if_neg hb, checkVtor,
    if_neg (not_not_intro h.vtor)]
  exact stepLoop_nextIndex

theorem rsmVectorMonitorStep_failureCount {entryBudget : ℕ} (hb : entryBudget ≠ 0)
    (h : (rsmVectorMonitorStep m table currentVtor eventSequence
      entryBudget).2.snapshot.latchedFailure = false) :
    (rsmVectorMonitorStep m table currentVtor eventSequence
      entryBudget).2.snapshot.failureCount = m.snapshot.failureCount := by
  have hpass := ((latched_rsmVectorMonitorStep hb).mp h).2
  rw [rsmVectorMonitorStep, if_neg (by rw [hpass.config_valid]; decide), if_neg hb, checkVtor,
    if_neg (not_not_intro hpass.vtor)] at h ⊢
  exact stepLoop_failureCount h

end Monitor

/-! ### The health state -/

/-- `platform_health_state_t`. -/
inductive PlatformHealthState where
  | booting
  | healthy
  | degraded
  | updating
  | recovery
  | testRunning
  | fault
  | securityFailure
  deriving DecidableEq, Repr

/-- `state_priority`. -/
def statePriority : PlatformHealthState → ℕ
  | .securityFailure => 8
  | .fault => 7
  | .recovery => 6
  | .updating => 5
  | .degraded => 4
  | .testRunning => 3
  | .booting => 2
  | .healthy => 1

/-- `platform_health_set_state` on the automatic state. -/
def platformHealthSetState (automatic state : PlatformHealthState) : PlatformHealthState :=
  if statePriority state ≥ statePriority automatic then state else automatic

/-- `platform_health_acknowledge` on the automatic state. -/
def platformHealthAcknowledge (automatic : PlatformHealthState) : PlatformHealthState :=
  if automatic = .degraded then .healthy else automatic

/-- `PLATFORM_RESET_IWDG_FLAG` and `PLATFORM_RESET_WWDG_FLAG`. -/
def platformResetIwdgFlag : UInt32 := (1 : UInt32) <<< 29
def platformResetWwdgFlag : UInt32 := (1 : UInt32) <<< 30

/-- `platform_health_evaluate_boot_policy`, and the automatic state
`platform_health_apply_boot_policy` sets. -/
def platformHealthEvaluateBootPolicy (resetCsr : UInt32)
    (faultRecordValid selfTestsPassed securityFailure : Bool) : PlatformHealthState :=
  if securityFailure = true then .securityFailure
  else if selfTestsPassed = false then .fault
  else if faultRecordValid = true ∨
      resetCsr &&& (platformResetIwdgFlag ||| platformResetWwdgFlag) ≠ 0 then
    .degraded
  else .healthy

/-- `apply_vector_health_state`. -/
def applyVectorHealthState (automatic : PlatformHealthState) (status : RsmVectorStatus) :
    PlatformHealthState :=
  if status = .baselineUnavailable then platformHealthSetState automatic .degraded
  else if status ≠ .pass ∧ status ≠ .uninitialized then .securityFailure
  else automatic

/-- `runtime_monitor_vector_init`: the monitor and the health state it leaves. -/
def runtimeMonitorVectorInit (config : RsmVectorConfig) (automatic : PlatformHealthState)
    (table : ℕ → UInt32) (vtor logLastSequence : UInt32) :
    RsmVectorMonitor × PlatformHealthState :=
  let m := (rsmVectorMonitorInit config table vtor logLastSequence).2
  if m.snapshot.available = true ∧ m.snapshot.latchedFailure = false ∧ m.snapshot.status = .pass then
    (m, automatic)
  else
    (m, applyVectorHealthState automatic m.snapshot.status)

/-- `runtime_monitor_vector_periodic`. -/
def runtimeMonitorVectorPeriodic (m : RsmVectorMonitor) (automatic : PlatformHealthState)
    (table : ℕ → UInt32) (vtor logLastSequence : UInt32) :
    RsmVectorMonitor × PlatformHealthState :=
  let after := (rsmVectorMonitorStep m table vtor logLastSequence rsmVectorDefaultStepBudget).2
  if after.snapshot.failureCount ≠ m.snapshot.failureCount then
    (after, applyVectorHealthState automatic after.snapshot.status)
  else
    (after, automatic)

section Runtime

variable {config : RsmVectorConfig} {m : RsmVectorMonitor} {automatic : PlatformHealthState}
  {table : ℕ → UInt32} {vtor logLastSequence : UInt32}

theorem runtimeMonitorVectorInit_monitor :
    (runtimeMonitorVectorInit config automatic table vtor logLastSequence).1 =
      (rsmVectorMonitorInit config table vtor logLastSequence).2 := by
  rw [runtimeMonitorVectorInit]
  split_ifs
  · rfl
  · rfl

theorem runtimeMonitorVectorPeriodic_monitor :
    (runtimeMonitorVectorPeriodic m automatic table vtor logLastSequence).1 =
      (rsmVectorMonitorStep m table vtor logLastSequence rsmVectorDefaultStepBudget).2 := by
  rw [runtimeMonitorVectorPeriodic]
  split_ifs
  · rfl
  · rfl

/-- A start whose check passes leaves the health state alone. -/
theorem runtimeMonitorVectorInit_unlatched (h : InitPasses config table vtor) :
    (runtimeMonitorVectorInit config automatic table vtor logLastSequence).2 = automatic := by
  rw [runtimeMonitorVectorInit, if_pos]
  exact ⟨(rsmVectorMonitorInit_unlatched h).1, latched_rsmVectorMonitorInit.mpr h,
    (rsmVectorMonitorInit_unlatched h).2.1⟩

/-- A periodic check that leaves nothing latched leaves the health state alone. -/
theorem runtimeMonitorVectorPeriodic_unlatched
    (h : (runtimeMonitorVectorPeriodic m automatic table vtor
      logLastSequence).1.snapshot.latchedFailure = false) :
    (runtimeMonitorVectorPeriodic m automatic table vtor logLastSequence).2 = automatic := by
  rw [runtimeMonitorVectorPeriodic_monitor] at h
  rw [runtimeMonitorVectorPeriodic, if_neg]
  exact not_not_intro (rsmVectorMonitorStep_failureCount (by decide) h)

end Runtime

end Stm32SecurityLab
