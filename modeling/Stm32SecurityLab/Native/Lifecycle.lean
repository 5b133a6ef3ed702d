import Stm32SecurityLab.Native.Payload

/-!
# The life of a native module

`NativeModuleManager` of `tools/native_loader.py` takes a verified package through `load`,
`initialize`, `run`, `stop` and `quarantine`. Nothing is executed: `run` simulates what the module
would do through the platform API.

The fields of the host may be set by its owner at any time, so every call comes with the host as it
finds it. A call returns the loaded module or raises, and leaves a manager behind in either case.

## Main definitions

* `PlatformAPI`, `NativeHost`, `NativeModuleManager`
* `HostM` — code on the host, which keeps what it has done when it raises
* `NativeModuleManager.call` — one call
* `History` — a manager with what its calls have been so far
* `Lawful` — what a call should and should not do

## Main results

* `simulate_keeps` — a simulation that raises leaves the host as it was
* `call_outcome` — everything a call can do
* `lifecycle_lawful` — every call is lawful in a run that avoids the branches that go wrong
-/

namespace Stm32SecurityLab.Native

open Crash

/-! ### The platform API -/

def capRccRead : ℤ := 0x6801
def capOutput : ℤ := 0x6802
def supportedNativeCapabilities : List ℤ := [capRccRead, capOutput]

def apiReadRcc : ℤ := 1
def apiEmit : ℤ := 2

/-- `APIEntry`. -/
structure APIEntry where
  serviceId : ℤ
  name : String
  requiredCapability : ℤ
  maxArgs : ℤ
  deriving DecidableEq, Repr

/-- `PlatformAPI`. -/
structure PlatformAPI where
  version : ℤ := 1
  entries : List APIEntry :=
    [⟨apiReadRcc, "read_rcc", capRccRead, 1⟩, ⟨apiEmit, "emit", capOutput, 2⟩]
  deriving DecidableEq, Repr

/-- The loop of `PlatformAPI.validate`, with the services and names already seen. -/
def validateEntries : List APIEntry → List ℤ → List String → Except NativeLoaderError (List ℤ)
  | [], seenIds, _ => .ok seenIds
  | entry :: entries, seenIds, seenNames => do
    require (¬ (entry.serviceId ≤ 0 ∨ entry.name = "")) .malformedApiTable
    require (¬ (entry.serviceId ∈ seenIds ∨ entry.name ∈ seenNames)) .malformedApiTable
    require (entry.requiredCapability ∈ supportedNativeCapabilities) .malformedApiTable
    require (¬ (entry.maxArgs < 0 ∨ entry.maxArgs > 4)) .malformedApiTable
    validateEntries entries (entry.serviceId :: seenIds) (entry.name :: seenNames)

/-- `PlatformAPI.validate`. -/
def PlatformAPI.validate (api : PlatformAPI) : Except NativeLoaderError Unit := do
  require (api.version = 1) .malformedApiTable
  let seenIds ← validateEntries api.entries [] []
  -- the two sets of services are equal
  require (seenIds ⊆ [apiReadRcc, apiEmit] ∧ [apiReadRcc, apiEmit] ⊆ seenIds) .malformedApiTable

/-- The loop of `PlatformAPI.require`. -/
def requireEntry (serviceId : ℤ) (capabilities : List ℤ) :
    List APIEntry → Except NativeLoaderError APIEntry
  | [] => .error .unknownApiService
  | entry :: entries =>
    if entry.serviceId = serviceId then do
      require (entry.requiredCapability ∈ capabilities) (.missingCapability entry.requiredCapability)
      pure entry
    else
      requireEntry serviceId capabilities entries

/-- `PlatformAPI.require`. -/
def PlatformAPI.require (api : PlatformAPI) (serviceId : ℤ) (capabilities : List ℤ) :
    Except NativeLoaderError APIEntry := do
  api.validate
  requireEntry serviceId capabilities api.entries

/-! ### The manager -/

/-- `LifecycleState`. -/
inductive LifecycleState where
  | verified
  | loaded
  | initialized
  | running
  | stopped
  | quarantined
  deriving DecidableEq, Repr

/-- `NativePackage`, as far as the manager reads it. -/
structure NativePackage where
  capabilities : List ℤ
  image : NativeImage
  deriving DecidableEq, Repr

/-- `LoadedModule`. -/
structure LoadedModule where
  package : NativePackage
  api : PlatformAPI
  data : List UInt8
  bss : List UInt8
  state : LifecycleState := .verified
  failures : ℕ := 0
  quarantineReason : String := ""
  deriving DecidableEq, Repr

/-- `NativeHost`. `__post_init__` leaves three registers and a list, but both fields may be written
later. A register is a word: of what is written there only the low 32 bits are ever looked at. -/
structure NativeHost where
  rcc : List UInt32 := [0, 0, 0]
  outputs : Option (List (UInt32 × UInt32)) := some []
  forceInitFailure : Bool := false
  forceRunFailure : Bool := false
  deriving DecidableEq, Repr

/-- Code that works on the host, and keeps what it has done when it raises. -/
abbrev HostM (α : Type) := ExceptT NativeLoaderError (StateM NativeHost) α

/-- The result, and the host afterwards. -/
def HostM.on {α : Type} (code : HostM α) (host : NativeHost) :
    Except NativeLoaderError α × NativeHost :=
  code.run.run host

/-- `NativeHost.read_rcc`. -/
def NativeHost.readRcc (index : ℤ) : HostM UInt32 := do
  let host ← get
  if index < 0 ∨ index ≥ host.rcc.length then throw .invalidRccIndex
  else pure (host.rcc.getD index.toNat 0)

/-- `NativeHost.emit`. -/
def NativeHost.emit (channel value : UInt32) : HostM Unit := do
  let host ← get
  match host.outputs with
  | none => throw .outputUnavailable
  | some outputs => set { host with outputs := some (outputs ++ [(channel, value)]) }

/-- `NativeModuleManager`. -/
structure NativeModuleManager where
  api : PlatformAPI
  host : NativeHost
  failureThreshold : ℕ
  /-- What `__init__` asks for. -/
  positive : 0 < failureThreshold
  loaded : Option LoadedModule

namespace NativeModuleManager

/-- `_failure`, once the module is known. -/
def failure (manager : NativeModuleManager) (module : LoadedModule) (reason : String) :
    Except NativeLoaderError LoadedModule × NativeModuleManager :=
  if module.state = .quarantined then (.error .quarantined, manager)
  else
    let failures := module.failures + 1
    let module :=
      if failures ≥ manager.failureThreshold then
        { module with failures, state := .quarantined, quarantineReason := reason }
      else
        { module with failures, state := .stopped }
    (.ok module, { manager with loaded := some module })

/-- `_simulate`. -/
def simulate (manager : NativeModuleManager) (package : NativePackage) : HostM Unit :=
  if package.image.header.simulationId = simNone then pure ()
  else if package.image.header.simulationId = simRccAnalysis then do
    let _ ← manager.api.require apiReadRcc package.capabilities
    let _ ← manager.api.require apiEmit package.capabilities
    let cr ← NativeHost.readRcc 0
    let cfgr ← NativeHost.readRcc 1
    let csr ← NativeHost.readRcc 2
    NativeHost.emit 1 cr
    NativeHost.emit 2 (if cr &&& 0x2 ≠ 0 then 1 else 0)
    NativeHost.emit 3 (if cr &&& ((1 : UInt32) <<< 24) ≠ 0 then 1 else 0)
    NativeHost.emit 4 ((cfgr >>> 2) &&& 0x3)
    NativeHost.emit 5 csr
  else
    throw .unknownSimulation

/-- `load`. -/
def load (manager : NativeModuleManager) (package : NativePackage) :
    Except NativeLoaderError LoadedModule × NativeModuleManager :=
  match manager.api.validate with
  | .error e => (.error e, manager)
  | .ok () =>
    let module : LoadedModule :=
      { package
        api := manager.api
        data := package.image.dataInitial
        bss := List.replicate package.image.header.bssSize.toNat 0
        state := .loaded }
    (.ok module, { manager with loaded := some module })

/-- `initialize`. -/
def initializeModule (manager : NativeModuleManager) :
    Except NativeLoaderError LoadedModule × NativeModuleManager :=
  match manager.loaded with
  | none => (.error .noLoadedModule, manager)
  | some module =>
    if module.state = .quarantined then (.error .quarantined, manager)
    else if module.state ≠ .loaded ∧ module.state ≠ .stopped then
      (.error .notReadyToInitialize, manager)
    else if manager.host.forceInitFailure then manager.failure module "initialize failed"
    else
      let module := { module with state := .initialized }
      (.ok module, { manager with loaded := some module })

/-- `run`. An error of the simulation finds the module already `RUNNING`. -/
def run (manager : NativeModuleManager) :
    Except NativeLoaderError LoadedModule × NativeModuleManager :=
  match manager.loaded with
  | none => (.error .noLoadedModule, manager)
  | some module =>
    if module.state = .quarantined then (.error .quarantined, manager)
    else if module.state ≠ .initialized ∧ module.state ≠ .stopped then
      manager.failure module "run before initialize"
    else if manager.host.forceRunFailure then manager.failure module "run failed"
    else
      let module := { module with state := .running }
      let manager := { manager with loaded := some module }
      match (manager.simulate module.package).on manager.host with
      | (.error e, host) => (.error e, { manager with host })
      | (.ok (), host) => (.ok module, { manager with host })

/-- `stop`. -/
def stop (manager : NativeModuleManager) :
    Except NativeLoaderError LoadedModule × NativeModuleManager :=
  match manager.loaded with
  | none => (.error .noLoadedModule, manager)
  | some module =>
    if module.state = .quarantined then (.ok module, manager)
    else
      let module := { module with state := .stopped }
      (.ok module, { manager with loaded := some module })

/-- `quarantine`. -/
def quarantine (manager : NativeModuleManager) (reason : String) :
    Except NativeLoaderError LoadedModule × NativeModuleManager :=
  match manager.loaded with
  | none => (.error .noLoadedModule, manager)
  | some module =>
    let module := { module with state := .quarantined, quarantineReason := reason }
    (.ok module, { manager with loaded := some module })

end NativeModuleManager

/-- The calls of the lifecycle. -/
inductive Call where
  | load (package : NativePackage)
  | initializeModule
  | run
  | stop
  | quarantine (reason : String)
  deriving DecidableEq, Repr

/-- One call. -/
def NativeModuleManager.call (manager : NativeModuleManager) :
    Call → Except NativeLoaderError LoadedModule × NativeModuleManager
  | .load package => manager.load package
  | .initializeModule => manager.initializeModule
  | .run => manager.run
  | .stop => manager.stop
  | .quarantine reason => manager.quarantine reason

/-! ### Code on the host -/

section Host

variable {α β : Type} {code : HostM α} {next : α → HostM β} {host after : NativeHost} {a : α}
  {e : NativeLoaderError} {outputs : List (UInt32 × UInt32)}

theorem on_bind_ok (h : code.on host = (.ok a, after)) :
    HostM.on (code >>= next) host = (next a).on after := by
  have h' : code.run.run host = (.ok a, after) := h
  rw [HostM.on, ExceptT.run_bind, StateT.run_bind, h']
  rfl

theorem on_bind_error (h : code.on host = (.error e, after)) :
    HostM.on (code >>= next) host = (.error e, after) := by
  have h' : code.run.run host = (.error e, after) := h
  rw [HostM.on, ExceptT.run_bind, StateT.run_bind, h']
  rfl

/-- An error finds the host as it was before the code. -/
def KeepsOnError (code : HostM α) (host : NativeHost) : Prop :=
  ∀ e after, code.on host = (.error e, after) → after = host

/-- Code that begins with a part that does not touch the host. -/
theorem keepsOnError_bind (h : (code.on host).2 = host) (hnext : ∀ a, KeepsOnError (next a) host) :
    KeepsOnError (code >>= next) host := by
  intro e after herror
  cases hcode : code.on host with
  | mk result same =>
    rw [hcode] at h
    obtain rfl : same = host := h
    cases result with
    | error e' =>
      rw [on_bind_error hcode] at herror
      exact (congrArg Prod.snd herror).symm
    | ok a =>
      rw [on_bind_ok hcode] at herror
      exact hnext a e after herror

theorem readRcc_on (index : ℤ) :
    (NativeHost.readRcc index).on host =
      if index < 0 ∨ index ≥ host.rcc.length then (.error .invalidRccIndex, host)
      else (.ok (host.rcc.getD index.toNat 0), host) := by
  rw [NativeHost.readRcc, on_bind_ok (rfl : HostM.on get host = (.ok host, host))]
  split <;> rfl

theorem readRcc_ok (index : ℤ) (hnonneg : 0 ≤ index) (h : index < host.rcc.length) :
    (NativeHost.readRcc index).on host = (.ok (host.rcc.getD index.toNat 0), host) := by
  rw [readRcc_on, if_neg (by omega)]

theorem readRcc_keeps (index : ℤ) : ((NativeHost.readRcc index).on host).2 = host := by
  rw [readRcc_on]
  split <;> rfl

theorem emit_none (h : host.outputs = none) (channel value : UInt32) :
    (NativeHost.emit channel value).on host = (.error .outputUnavailable, host) := by
  rw [NativeHost.emit, on_bind_ok (rfl : HostM.on get host = (.ok host, host)), h]
  rfl

theorem emit_some (h : host.outputs = some outputs) (channel value : UInt32) :
    (NativeHost.emit channel value).on host =
      (.ok (), { host with outputs := some (outputs ++ [(channel, value)]) }) := by
  rw [NativeHost.emit, on_bind_ok (rfl : HostM.on get host = (.ok host, host)), h]
  rfl

/-- What `_simulate` emits. -/
def emitAnalysis (cr cfgr csr : UInt32) : HostM Unit := do
  NativeHost.emit 1 cr
  NativeHost.emit 2 (if cr &&& 0x2 ≠ 0 then 1 else 0)
  NativeHost.emit 3 (if cr &&& ((1 : UInt32) <<< 24) ≠ 0 then 1 else 0)
  NativeHost.emit 4 ((cfgr >>> 2) &&& 0x3)
  NativeHost.emit 5 csr

theorem emitAnalysis_ok (h : host.outputs ≠ none) (cr cfgr csr : UInt32) :
    ∃ after, (emitAnalysis cr cfgr csr).on host = (.ok (), after) := by
  obtain ⟨outputs, houtputs⟩ := Option.ne_none_iff_exists'.mp h
  rw [emitAnalysis, on_bind_ok (emit_some houtputs ..), on_bind_ok (emit_some rfl ..),
    on_bind_ok (emit_some rfl ..), on_bind_ok (emit_some rfl ..), emit_some rfl]
  exact ⟨_, rfl⟩

/-- The emissions fail at the first or not at all. -/
theorem emitAnalysis_keeps (cr cfgr csr : UInt32) : KeepsOnError (emitAnalysis cr cfgr csr) host := by
  intro e after herror
  by_cases h : host.outputs = none
  · rw [emitAnalysis, on_bind_error (emit_none h ..)] at herror
    exact (congrArg Prod.snd herror).symm
  · obtain ⟨_, hok⟩ := emitAnalysis_ok h cr cfgr csr
    rw [hok] at herror
    cases herror

/-- **A simulation that raises leaves the host as it was.** -/
theorem simulate_keeps (manager : NativeModuleManager) (package : NativePackage) :
    KeepsOnError (manager.simulate package) host := by
  rw [NativeModuleManager.simulate]
  split_ifs
  · intro e after herror
    cases herror
  · exact keepsOnError_bind rfl fun _ => keepsOnError_bind rfl fun _ =>
      keepsOnError_bind (readRcc_keeps 0) fun cr => keepsOnError_bind (readRcc_keeps 1) fun cfgr =>
        keepsOnError_bind (readRcc_keeps 2) fun csr => emitAnalysis_keeps cr cfgr csr
  · intro e after herror
    exact (congrArg Prod.snd herror).symm

end Host

/-! ### What a call can do -/

/-- The module after a failure. -/
def LoadedModule.afterFailure (module : LoadedModule) (threshold : ℕ) (reason : String) :
    LoadedModule :=
  if module.failures + 1 ≥ threshold then
    { module with
      failures := module.failures + 1, state := .quarantined, quarantineReason := reason }
  else
    { module with failures := module.failures + 1, state := .stopped }

/-- Everything a call can do: its result, and the manager it leaves. -/
inductive Outcome (manager : NativeModuleManager) :
    Call → Except NativeLoaderError LoadedModule → NativeModuleManager → Prop
  | loadRefused (package : NativePackage) (e : NativeLoaderError)
      (h : manager.api.validate = .error e) : Outcome manager (.load package) (.error e) manager
  | loaded (package : NativePackage) (module : LoadedModule) (h : manager.api.validate = .ok ())
      (hstate : module.state = .loaded) (hfailures : module.failures = 0) :
      Outcome manager (.load package) (.ok module) { manager with loaded := some module }
  | missing (call : Call) (h : manager.loaded = none) (hcall : ∀ package, call ≠ .load package) :
      Outcome manager call (.error .noLoadedModule) manager
  | quarantined (call : Call) (module : LoadedModule) (h : manager.loaded = some module)
      (hcall : call = .initializeModule ∨ call = .run) (hstate : module.state = .quarantined) :
      Outcome manager call (.error .quarantined) manager
  | notReady (module : LoadedModule) (h : manager.loaded = some module)
      (hstate : module.state = .verified ∨ module.state = .initialized ∨ module.state = .running) :
      Outcome manager .initializeModule (.error .notReadyToInitialize) manager
  | initFailed (module : LoadedModule) (reason : String) (h : manager.loaded = some module)
      (hstate : module.state = .loaded ∨ module.state = .stopped)
      (hhost : manager.host.forceInitFailure = true) :
      Outcome manager .initializeModule
        (.ok (module.afterFailure manager.failureThreshold reason))
        { manager with loaded := some (module.afterFailure manager.failureThreshold reason) }
  | initialized (module : LoadedModule) (h : manager.loaded = some module)
      (hstate : module.state = .loaded ∨ module.state = .stopped)
      (hhost : manager.host.forceInitFailure = false) :
      Outcome manager .initializeModule (.ok { module with state := .initialized })
        { manager with loaded := some { module with state := .initialized } }
  | runFailed (module : LoadedModule) (reason : String) (h : manager.loaded = some module)
      (hstate : module.state ≠ .quarantined) :
      Outcome manager .run (.ok (module.afterFailure manager.failureThreshold reason))
        { manager with loaded := some (module.afterFailure manager.failureThreshold reason) }
  | simulated (module : LoadedModule) (host : NativeHost) (h : manager.loaded = some module)
      (hstate : module.state = .initialized ∨ module.state = .stopped)
      (hhost : manager.host.forceRunFailure = false)
      (hsimulate : (manager.simulate module.package).on manager.host = (.ok (), host)) :
      Outcome manager .run (.ok { module with state := .running })
        { manager with loaded := some { module with state := .running }, host }
  | crashed (module : LoadedModule) (e : NativeLoaderError) (h : manager.loaded = some module)
      (hstate : module.state = .initialized ∨ module.state = .stopped)
      (hhost : manager.host.forceRunFailure = false)
      (hsimulate : (manager.simulate module.package).on manager.host = (.error e, manager.host)) :
      Outcome manager .run (.error e)
        { manager with loaded := some { module with state := .running } }
  | stopIgnored (module : LoadedModule) (h : manager.loaded = some module)
      (hstate : module.state = .quarantined) : Outcome manager .stop (.ok module) manager
  | stopped (module : LoadedModule) (h : manager.loaded = some module)
      (hstate : module.state ≠ .quarantined) :
      Outcome manager .stop (.ok { module with state := .stopped })
        { manager with loaded := some { module with state := .stopped } }
  | quarantine (module : LoadedModule) (reason : String) (h : manager.loaded = some module) :
      Outcome manager (.quarantine reason)
        (.ok { module with state := .quarantined, quarantineReason := reason })
        { manager with
          loaded := some { module with state := .quarantined, quarantineReason := reason } }

section Calls

variable {manager : NativeModuleManager} {module : LoadedModule}

theorem failure_eq {reason : String} (h : module.state ≠ .quarantined) :
    manager.failure module reason =
      (.ok (module.afterFailure manager.failureThreshold reason),
        { manager with loaded := some (module.afterFailure manager.failureThreshold reason) }) := by
  rw [NativeModuleManager.failure, if_neg h]
  rfl

theorem initializeModule_outcome : Outcome manager .initializeModule manager.initializeModule.1
    manager.initializeModule.2 := by
  rw [NativeModuleManager.initializeModule]
  split
  · exact .missing _ ‹_› (by simp)
  rename_i module h
  by_cases hquarantined : module.state = .quarantined
  · rw [if_pos hquarantined]
    exact .quarantined _ module h (.inl rfl) hquarantined
  rw [if_neg hquarantined]
  by_cases hready : module.state ≠ .loaded ∧ module.state ≠ .stopped
  · rw [if_pos hready]
    refine .notReady module h ?_
    cases hstate : module.state <;> simp_all
  rw [if_neg hready]
  have hstate : module.state = .loaded ∨ module.state = .stopped := by
    by_contra hnot
    exact hready (not_or.mp hnot)
  cases hhost : manager.host.forceInitFailure with
  | true =>
    rw [if_pos rfl, failure_eq hquarantined]
    exact .initFailed module _ h hstate hhost
  | false =>
    rw [if_neg (by decide)]
    exact .initialized module h hstate hhost

theorem run_outcome : Outcome manager .run manager.run.1 manager.run.2 := by
  rw [NativeModuleManager.run]
  split
  · exact .missing _ ‹_› (by simp)
  rename_i module h
  by_cases hquarantined : module.state = .quarantined
  · rw [if_pos hquarantined]
    exact .quarantined _ module h (.inr rfl) hquarantined
  rw [if_neg hquarantined]
  by_cases hready : module.state ≠ .initialized ∧ module.state ≠ .stopped
  · rw [if_pos hready, failure_eq hquarantined]
    exact .runFailed module _ h hquarantined
  rw [if_neg hready]
  have hstate : module.state = .initialized ∨ module.state = .stopped := by
    by_contra hnot
    exact hready (not_or.mp hnot)
  cases hhost : manager.host.forceRunFailure with
  | true =>
    rw [if_pos rfl, failure_eq hquarantined]
    exact .runFailed module _ h hquarantined
  | false =>
    rw [if_neg (by decide)]
    cases hsimulate : (manager.simulate module.package).on manager.host with
    | mk result host =>
      -- the simulation reads the table and the host, and not the module
      have hsame : (NativeModuleManager.simulate
          { manager with loaded := some { module with state := .running } } module.package).on
            manager.host = (result, host) := hsimulate
      simp only [hsame]
      cases result with
      | error e =>
        obtain rfl := simulate_keeps manager module.package e host hsimulate
        exact .crashed module e h hstate hhost hsimulate
      | ok _ => exact .simulated module host h hstate hhost hsimulate

/-- **Everything a call can do.** -/
theorem call_outcome (call : Call) :
    Outcome manager call (manager.call call).1 (manager.call call).2 := by
  cases call with
  | load package =>
    rw [NativeModuleManager.call, NativeModuleManager.load]
    cases h : manager.api.validate with
    | error e => exact .loadRefused package e h
    | ok _ => exact .loaded package _ h rfl rfl
  | initializeModule => exact initializeModule_outcome
  | run => exact run_outcome
  | stop =>
    rw [NativeModuleManager.call, NativeModuleManager.stop]
    split
    · exact .missing _ ‹_› (by simp)
    rename_i module h
    by_cases hstate : module.state = .quarantined
    · rw [if_pos hstate]
      exact .stopIgnored module h hstate
    · rw [if_neg hstate]
      exact .stopped module h hstate
  | quarantine reason =>
    rw [NativeModuleManager.call, NativeModuleManager.quarantine]
    split
    · exact .missing _ ‹_› (by simp)
    · exact .quarantine _ reason ‹_›

end Calls

/-! ### Histories -/

/-- A call, and the host it finds. -/
structure Step where
  host : NativeHost
  call : Call

/-- A manager, and what its calls have been so far. -/
structure History where
  manager : NativeModuleManager
  /-- An `initialize` succeeded after the last `load`, and none has failed since. -/
  ready : Bool
  /-- The module was stopped while it was `LOADED`, or its last `initialize` failed. -/
  unprepared : Bool

/-- What `__init__` leaves. -/
def History.fresh (manager : NativeModuleManager) : History where
  manager := { manager with loaded := none }
  ready := false
  unprepared := false

/-- `NativeModuleManager.loaded` is `LOADED`. -/
def NativeModuleManager.isLoaded (manager : NativeModuleManager) : Bool :=
  manager.loaded.any fun module => module.state = .loaded

/-- What a call makes of `ready`. -/
def nextReady (ready : Bool) : Call → Except NativeLoaderError LoadedModule → Bool
  | .load _, .ok _ => false
  | .initializeModule, .ok module => module.state = .initialized
  | .initializeModule, .error _ => false
  | _, _ => ready

/-- What a call makes of `unprepared`. -/
def nextUnprepared (unprepared : Bool) (manager : NativeModuleManager) : Call → Bool
  | .load _ => false
  | .initializeModule => manager.host.forceInitFailure
  | .run | .stop => unprepared || manager.isLoaded
  | .quarantine _ => unprepared

/-- The manager that a call finds. -/
def History.before (history : History) (step : Step) : NativeModuleManager :=
  { history.manager with host := step.host }

/-- What a call returns or raises. -/
def History.result (history : History) (step : Step) : Except NativeLoaderError LoadedModule :=
  ((history.before step).call step.call).1

/-- One call more. -/
def History.step (history : History) (step : Step) : History where
  manager := ((history.before step).call step.call).2
  ready := nextReady history.ready step.call (history.result step)
  unprepared := nextUnprepared history.unprepared (history.before step) step.call

/-- All calls of a run. -/
def History.run (history : History) (steps : List Step) : History := steps.foldl History.step history

/-- An `initialize` or `run` that raises, or returns a module that is not `INITIALIZED` or
`RUNNING`. -/
def Fails : Call → Except NativeLoaderError LoadedModule → Prop
  | .initializeModule, result => ¬ ∃ module, result = .ok module ∧ module.state = .initialized
  | .run, result => ¬ ∃ module, result = .ok module ∧ module.state = .running
  | _, _ => False

/-- What the failures of a module lead to. -/
structure Contained (history : History) (step : Step) : Prop where
  constant : (history.step step).manager.failureThreshold = history.manager.failureThreshold
  /-- Enough failures lead to quarantine. -/
  threshold : ∀ module, (history.step step).manager.loaded = some module →
    (history.step step).manager.failureThreshold ≤ module.failures → module.state = .quarantined
  /-- Only a `load` leads out of quarantine. -/
  terminal : ∀ module, history.manager.loaded = some module → module.state = .quarantined →
    (∀ package, step.call ≠ .load package) →
    (∃ after, (history.step step).manager.loaded = some after ∧ after.state = .quarantined) ∧
      (history.step step).manager.host.outputs = step.host.outputs

/-- What a call should and should not do. -/
structure Lawful (history : History) (step : Step) : Prop extends Contained history step where
  /-- Nothing is emitted by a module that is not ready. -/
  emits : (history.step step).manager.host.outputs ≠ step.host.outputs → history.ready = true
  /-- No module runs that is not ready. -/
  running : ∀ module, (history.step step).manager.loaded = some module →
    module.state = .running → (history.step step).ready = true
  /-- A failure of a module is counted once, and leaves it stopped or quarantined. -/
  counts : ∀ module, history.manager.loaded = some module → module.state ≠ .quarantined →
    Fails step.call (history.result step) →
    ∃ after, (history.step step).manager.loaded = some after ∧
      after.failures = module.failures + 1 ∧
      (after.state = .stopped ∨ after.state = .quarantined)

/-- The simulation of a package finds what it asks for: there is none, or the package has the
capability of every entry of the table, and the host has three registers and its list. -/
def Simulable (api : PlatformAPI) (host : NativeHost) (package : NativePackage) : Prop :=
  package.image.header.simulationId = simNone ∨
    package.image.header.simulationId = simRccAnalysis ∧
      (∀ entry ∈ api.entries, entry.requiredCapability ∈ package.capabilities) ∧
      3 ≤ host.rcc.length ∧ host.outputs ≠ none

/-- A step that does not take one of the branches that go wrong: `initialize` on a module that is
`INITIALIZED` or `RUNNING`; `run`, not forced to fail, on a module that is `STOPPED` without having
been prepared, or whose simulation asks for a capability, a register or a list that is not there. -/
def Avoids (history : History) (step : Step) : Prop :=
  ∀ module, history.manager.loaded = some module →
    match step.call with
    | .initializeModule => module.state ≠ .initialized ∧ module.state ≠ .running
    | .run =>
      module.state = .initialized ∨ module.state = .stopped → step.host.forceRunFailure = false →
        (module.state = .stopped → history.unprepared = false) ∧
          Simulable history.manager.api step.host module.package
    | _ => True

/-- Every step of a run avoids them. -/
def AvoidsAll (history : History) : List Step → Prop
  | [] => True
  | step :: steps => Avoids history step ∧ AvoidsAll (history.step step) steps

/-! ### Simulation -/

section Simulation

variable {api : PlatformAPI} {package : NativePackage} {entries : List APIEntry}

theorem validateEntries_ok {seenIds ids : List ℤ} {seenNames : List String}
    (h : validateEntries entries seenIds seenNames = .ok ids) :
    ids = (entries.map APIEntry.serviceId).reverse ++ seenIds := by
  induction entries generalizing seenIds seenNames with
  | nil => exact (Except.ok.inj h).symm
  | cons entry entries ih =>
    simp only [validateEntries, except_bind_eq_ok, require_eq_ok, exists_const] at h
    rw [ih h.2.2.2.2, List.map_cons, List.reverse_cons, List.append_assoc]
    rfl

/-- A valid table has both services. -/
theorem service_of_validate (h : api.validate = .ok ()) {serviceId : ℤ}
    (hid : serviceId = apiReadRcc ∨ serviceId = apiEmit) :
    ∃ entry ∈ api.entries, entry.serviceId = serviceId := by
  simp only [PlatformAPI.validate, except_bind_eq_ok, require_eq_ok, exists_const] at h
  obtain ⟨-, ids, hids, -, hsubset⟩ := h
  have hmem : serviceId ∈ ids := hsubset (by simpa using hid)
  rw [validateEntries_ok hids, List.append_nil, List.mem_reverse, List.mem_map] at hmem
  exact hmem

theorem requireEntry_ok {serviceId : ℤ} {capabilities : List ℤ}
    (hid : ∃ entry ∈ entries, entry.serviceId = serviceId)
    (hcap : ∀ entry ∈ entries, entry.requiredCapability ∈ capabilities) :
    ∃ entry, requireEntry serviceId capabilities entries = .ok entry := by
  induction entries with
  | nil =>
    obtain ⟨entry, hmem, -⟩ := hid
    cases hmem
  | cons entry entries ih =>
    rw [requireEntry]
    by_cases h : entry.serviceId = serviceId
    · rw [if_pos h]
      refine ⟨entry, ?_⟩
      simp only [except_bind_eq_ok, require_eq_ok, exists_const]
      exact ⟨hcap entry (List.mem_cons_self), rfl⟩
    · rw [if_neg h]
      refine ih ?_ fun other hother => hcap other (List.mem_cons_of_mem _ hother)
      obtain ⟨other, hmem, hother⟩ := hid
      rcases List.mem_cons.mp hmem with rfl | hmem
      · exact absurd hother h
      · exact ⟨other, hmem, hother⟩

/-- A simulation that finds what it asks for comes to its end. -/
theorem simulate_ok {manager : NativeModuleManager} {host : NativeHost}
    (h : manager.api.validate = .ok ()) (hsimulable : Simulable manager.api host package) :
    ∃ after, (manager.simulate package).on host = (.ok (), after) := by
  rw [NativeModuleManager.simulate]
  rcases hsimulable with hnone | ⟨hrcc, hcap, hlength, houtputs⟩
  · rw [if_pos hnone]
    exact ⟨_, rfl⟩
  · rw [if_neg (by rw [hrcc]; decide), if_pos hrcc]
    have hrequire : ∀ serviceId, serviceId = apiReadRcc ∨ serviceId = apiEmit →
        ∃ entry, HostM.on (liftM (manager.api.require serviceId package.capabilities)) host =
          (.ok entry, host) := by
      intro serviceId hid
      obtain ⟨entry, hentry⟩ := requireEntry_ok (service_of_validate h hid) hcap
      have hok : manager.api.require serviceId package.capabilities = .ok entry := by
        rw [PlatformAPI.require, h]
        exact hentry
      rw [hok]
      exact ⟨entry, rfl⟩
    obtain ⟨_, hread⟩ := hrequire apiReadRcc (.inl rfl)
    obtain ⟨_, hemit⟩ := hrequire apiEmit (.inr rfl)
    rw [on_bind_ok hread, on_bind_ok hemit, on_bind_ok (readRcc_ok 0 (by decide) (by omega)),
      on_bind_ok (readRcc_ok 1 (by decide) (by omega)),
      on_bind_ok (readRcc_ok 2 (by decide) (by omega))]
    exact emitAnalysis_ok houtputs ..

end Simulation

/-! ### The invariant -/

/-- What holds after every run of calls. -/
structure Counted (manager : NativeModuleManager) : Prop where
  validated : manager.loaded ≠ none → manager.api.validate = .ok ()
  verified : ∀ module, manager.loaded = some module → module.state ≠ .verified
  threshold : ∀ module, manager.loaded = some module →
    manager.failureThreshold ≤ module.failures → module.state = .quarantined

/-- What holds after every run that avoids the branches that go wrong: a module that is past
`initialize` is ready, and one that is stopped is ready or known not to be. -/
structure Prepared (history : History) : Prop where
  started : ∀ module, history.manager.loaded = some module →
    module.state = .initialized ∨ module.state = .running → history.ready = true
  stopped : ∀ module, history.manager.loaded = some module → module.state = .stopped →
    history.ready = true ∨ history.unprepared = true

section Failure

variable {module : LoadedModule} {threshold : ℕ} {reason : String}

theorem afterFailure_failures :
    (module.afterFailure threshold reason).failures = module.failures + 1 := by
  rw [LoadedModule.afterFailure]
  split <;> rfl

theorem afterFailure_state :
    (module.afterFailure threshold reason).state = .stopped ∨
      (module.afterFailure threshold reason).state = .quarantined := by
  rw [LoadedModule.afterFailure]
  split
  · exact .inr rfl
  · exact .inl rfl

/-- The failure that reaches the threshold leads to quarantine. -/
theorem afterFailure_threshold (h : threshold ≤ (module.afterFailure threshold reason).failures) :
    (module.afterFailure threshold reason).state = .quarantined := by
  rw [afterFailure_failures] at h
  rw [LoadedModule.afterFailure, if_pos h]

theorem afterFailure_ne {state : LifecycleState}
    (hstopped : state ≠ .stopped) (hquarantined : state ≠ .quarantined) :
    (module.afterFailure threshold reason).state ≠ state := by
  have hstate : (module.afterFailure threshold reason).state = .stopped ∨
      (module.afterFailure threshold reason).state = .quarantined := afterFailure_state
  rcases hstate with h | h
  · rw [h]
    exact hstopped.symm
  · rw [h]
    exact hquarantined.symm

end Failure

section Counting

variable {manager after : NativeModuleManager} {call : Call} {module : LoadedModule}
  {result : Except NativeLoaderError LoadedModule}

theorem Counted.fresh : Counted (History.fresh manager).manager where
  validated := fun hne => (hne rfl).elim
  verified := fun _ hm => by cases hm
  threshold := fun _ hm => by cases hm

/-- Another module in the place of one that is there. -/
theorem Counted.replace (h : Counted manager) {other : LoadedModule} {host : NativeHost}
    (hm : manager.loaded = some module) (hverified : other.state ≠ .verified)
    (hthreshold : manager.failureThreshold ≤ other.failures → other.state = .quarantined) :
    Counted { manager with loaded := some other, host } where
  validated := fun _ => h.validated (by rw [hm]; exact Option.some_ne_none module)
  verified := by
    intro _ heq
    obtain rfl := Option.some.inj heq
    exact hverified
  threshold := by
    intro _ heq
    obtain rfl := Option.some.inj heq
    exact hthreshold

/-- A change of state alone. -/
theorem Counted.change (h : Counted manager) {state : LifecycleState} {host : NativeHost}
    (hm : manager.loaded = some module) (hne : module.state ≠ .quarantined)
    (hverified : state ≠ .verified) :
    Counted { manager with loaded := some { module with state }, host } :=
  h.replace hm hverified fun hle => absurd (h.threshold module hm hle) hne

theorem Counted.outcome (h : Counted manager) (hout : Outcome manager call result after) :
    Counted after := by
  cases hout with
  | loadRefused | missing | quarantined | notReady | stopIgnored => exact h
  | loaded package module hvalid hstate hfailures =>
    refine ⟨fun _ => hvalid, ?_, ?_⟩
    · intro _ heq
      obtain rfl := Option.some.inj heq
      rw [hstate]
      decide
    · intro _ heq hle
      obtain rfl := Option.some.inj heq
      rw [hfailures] at hle
      exact absurd hle (Nat.not_le.mpr manager.positive)
  | initFailed module reason hm | runFailed module reason hm =>
    exact h.replace hm (afterFailure_ne (by decide) (by decide)) afterFailure_threshold
  | initialized module hm hstate =>
    refine h.change hm ?_ (by decide)
    rcases hstate with hstate | hstate <;> rw [hstate] <;> decide
  | simulated module host hm hstate | crashed module e hm hstate =>
    refine h.change hm ?_ (by decide)
    rcases hstate with hstate | hstate <;> rw [hstate] <;> decide
  | stopped module hm hstate => exact h.change hm hstate (by decide)
  | quarantine module reason hm => exact h.replace hm LifecycleState.noConfusion fun _ => rfl

end Counting

/-! ### Steps -/

section Outcomes

variable {manager after : NativeModuleManager} {call : Call} {module : LoadedModule}
  {result : Except NativeLoaderError LoadedModule} {ready unprepared : Bool}

/-- A call of a quarantined module leaves it quarantined, and the host as it was. -/
theorem Outcome.terminal
    (hout : Outcome manager call result after) (hm : manager.loaded = some module)
    (hstate : module.state = .quarantined) (hload : ∀ package, call ≠ .load package) :
    (∃ other, after.loaded = some other ∧ other.state = .quarantined) ∧
      after.host = manager.host := by
  have hsame : ∀ other, manager.loaded = some other → other.state = .quarantined := by
    intro other hother
    rw [hm] at hother
    rw [← Option.some.inj hother, hstate]
  cases hout with
  | loadRefused package | loaded package => exact absurd rfl (hload package)
  | missing _ hnone =>
    rw [hm] at hnone
    cases hnone
  | quarantined | notReady | stopIgnored => exact ⟨⟨module, hm, hstate⟩, rfl⟩
  | initFailed other _ hother hready | initialized other hother hready
  | simulated other _ hother hready | crashed other _ hother hready =>
    rw [hsame other hother] at hready
    rcases hready with hready | hready <;> cases hready
  | runFailed other _ hother hne | stopped other hother hne => exact absurd (hsame other hother) hne
  | quarantine other reason hother => exact ⟨⟨_, rfl, rfl⟩, rfl⟩

/-- A module that is not quarantined is ready, or it is known that it is not. -/
theorem Prepared.ready_or (h : Prepared ⟨manager, ready, unprepared⟩) (hcounted : Counted manager)
    (hm : manager.loaded = some module) (hstate : module.state ≠ .quarantined) :
    ready = true ∨ (unprepared || manager.isLoaded) = true := by
  cases hcase : module.state with
  | verified => exact absurd hcase (hcounted.verified module hm)
  | loaded =>
    refine .inr ?_
    rw [NativeModuleManager.isLoaded, hm, Option.any_some, hcase]
    exact Bool.or_true _
  | initialized => exact .inl (h.started module hm (.inl hcase))
  | running => exact .inl (h.started module hm (.inr hcase))
  | stopped =>
    rcases h.stopped module hm hcase with hready | hunprepared
    · exact .inl hready
    · have hunprepared' : unprepared = true := hunprepared
      rw [hunprepared', Bool.true_or]
      exact .inr rfl
  | quarantined => exact absurd hcase hstate

/-- A module that is simulated in a step that avoids the wrong branches is ready. -/
theorem Prepared.is_ready (h : Prepared ⟨manager, ready, unprepared⟩)
    (hm : manager.loaded = some module)
    (hstate : module.state = .initialized ∨ module.state = .stopped)
    (havoid : module.state = .stopped → unprepared = false) : ready = true := by
  rcases hstate with hinitialized | hstopped
  · exact h.started module hm (.inl hinitialized)
  · rcases h.stopped module hm hstopped with hready | hunprepared
    · exact hready
    · have hunprepared' : unprepared = true := hunprepared
      rw [havoid hstopped] at hunprepared'
      cases hunprepared'

/-- A module in a state that says nothing about how it came there. -/
theorem Prepared.of_state {history : History} (hm : history.manager.loaded = some module)
    (hstarted : module.state ≠ .initialized ∧ module.state ≠ .running)
    (hstopped : module.state = .stopped → history.ready = true ∨ history.unprepared = true) :
    Prepared history := by
  refine ⟨fun other hother hstate => ?_, fun other hother hstate => ?_⟩
  · rw [hm] at hother
    obtain rfl := Option.some.inj hother
    rcases hstate with hstate | hstate
    · exact absurd hstate hstarted.1
    · exact absurd hstate hstarted.2
  · rw [hm] at hother
    obtain rfl := Option.some.inj hother
    exact hstopped hstate

/-- `initialize` is not refused for the state of the module. -/
theorem Avoids.not_refused
    (havoid : Avoids ⟨manager, ready, unprepared⟩ ⟨manager.host, .initializeModule⟩)
    (hcounted : Counted manager) (hm : manager.loaded = some module) :
    ¬ (module.state = .verified ∨ module.state = .initialized ∨ module.state = .running) := by
  obtain ⟨hinitialized, hrunning⟩ := havoid module hm
  rintro (hstate | hstate | hstate)
  · exact hcounted.verified module hm hstate
  · exact hinitialized hstate
  · exact hrunning hstate

/-- A simulation that is started comes to its end. -/
theorem Avoids.simulates {e : NativeLoaderError}
    (havoid : Avoids ⟨manager, ready, unprepared⟩ ⟨manager.host, .run⟩)
    (hcounted : Counted manager) (hm : manager.loaded = some module)
    (hstate : module.state = .initialized ∨ module.state = .stopped)
    (hhost : manager.host.forceRunFailure = false) :
    (manager.simulate module.package).on manager.host ≠ (.error e, manager.host) := by
  intro herror
  have hvalid := hcounted.validated (by rw [hm]; exact Option.some_ne_none module)
  obtain ⟨host, hok⟩ := simulate_ok hvalid (havoid module hm hstate hhost).2
  rw [herror] at hok
  cases hok

theorem Outcome.prepared (hout : Outcome manager call result after) (hcounted : Counted manager)
    (hprepared : Prepared ⟨manager, ready, unprepared⟩)
    (havoid : Avoids ⟨manager, ready, unprepared⟩ ⟨manager.host, call⟩) :
    Prepared ⟨after, nextReady ready call result, nextUnprepared unprepared manager call⟩ := by
  cases hout with
  | loadRefused package e hinvalid =>
    have hnone : manager.loaded = none := by
      by_contra hne
      rw [hcounted.validated hne] at hinvalid
      cases hinvalid
    refine ⟨fun module hm => ?_, fun module hm => ?_⟩ <;>
    · have hm' : manager.loaded = some module := hm
      rw [hnone] at hm'
      cases hm'
  | missing _ hnone =>
    refine ⟨fun module hm => ?_, fun module hm => ?_⟩ <;>
    · have hm' : manager.loaded = some module := hm
      rw [hnone] at hm'
      cases hm'
  | loaded package module hvalid hstate =>
    refine Prepared.of_state rfl ?_ fun hstopped => ?_
    · rw [hstate]
      decide
    · rw [hstate] at hstopped
      cases hstopped
  | quarantined call module hm _ hstate | stopIgnored module hm hstate =>
    refine Prepared.of_state hm ?_ fun hstopped => ?_
    · rw [hstate]
      decide
    · rw [hstate] at hstopped
      cases hstopped
  | notReady module hm hstate => exact absurd hstate (havoid.not_refused hcounted hm)
  | initFailed module reason hm hstate hhost =>
    exact Prepared.of_state rfl
      ⟨afterFailure_ne (by decide) (by decide), afterFailure_ne (by decide) (by decide)⟩
      fun _ => .inr hhost
  | initialized module hm hstate hhost =>
    exact ⟨fun _ _ _ => rfl, fun _ _ _ => .inl rfl⟩
  | runFailed module reason hm hstate =>
    exact Prepared.of_state rfl
      ⟨afterFailure_ne (by decide) (by decide), afterFailure_ne (by decide) (by decide)⟩
      fun _ => hprepared.ready_or hcounted hm hstate
  | simulated module host hm hstate hhost =>
    have hready := hprepared.is_ready hm hstate (havoid module hm hstate hhost).1
    exact ⟨fun _ _ _ => hready, fun _ _ _ => .inl hready⟩
  | crashed module e hm hstate hhost hsimulate =>
    exact absurd hsimulate (havoid.simulates hcounted hm hstate hhost)
  | stopped module hm hstate =>
    exact Prepared.of_state rfl ⟨LifecycleState.noConfusion, LifecycleState.noConfusion⟩
      fun _ => hprepared.ready_or hcounted hm hstate
  | quarantine module reason hm =>
    exact Prepared.of_state rfl ⟨LifecycleState.noConfusion, LifecycleState.noConfusion⟩
      fun hstopped => LifecycleState.noConfusion hstopped

theorem Outcome.constant (hout : Outcome manager call result after) :
    after.failureThreshold = manager.failureThreshold := by
  cases hout <;> rfl

/-- Only the simulation of a module that is ready emits anything. -/
theorem Outcome.emits (hout : Outcome manager call result after)
    (hprepared : Prepared ⟨manager, ready, unprepared⟩)
    (havoid : Avoids ⟨manager, ready, unprepared⟩ ⟨manager.host, call⟩)
    (h : after.host.outputs ≠ manager.host.outputs) : ready = true := by
  cases hout with
  | simulated module host hm hstate hhost =>
    exact hprepared.is_ready hm hstate (havoid module hm hstate hhost).1
  | _ => exact absurd rfl h

/-- A failure is counted once, and leaves the module stopped or quarantined. -/
theorem Outcome.counts (hout : Outcome manager call result after) (hcounted : Counted manager)
    (havoid : Avoids ⟨manager, ready, unprepared⟩ ⟨manager.host, call⟩)
    (hm : manager.loaded = some module) (hstate : module.state ≠ .quarantined)
    (hfails : Fails call result) :
    ∃ other, after.loaded = some other ∧ other.failures = module.failures + 1 ∧
      (other.state = .stopped ∨ other.state = .quarantined) := by
  have hsame : ∀ other, manager.loaded = some other → other = module := by
    intro other hother
    rw [hm] at hother
    exact (Option.some.inj hother).symm
  cases hout with
  | loadRefused | loaded | stopIgnored | stopped | quarantine => exact hfails.elim
  | missing _ hnone =>
    rw [hm] at hnone
    cases hnone
  | quarantined _ other hother _ hquarantined =>
    rw [hsame other hother] at hquarantined
    exact absurd hquarantined hstate
  | notReady other hother hother' => exact absurd hother' (havoid.not_refused hcounted hother)
  | initFailed other reason hother | runFailed other reason hother =>
    rw [hsame other hother]
    exact ⟨_, rfl, afterFailure_failures, afterFailure_state⟩
  | initialized | simulated => exact absurd ⟨_, rfl, rfl⟩ hfails
  | crashed other e hother hother' hhost hsimulate =>
    exact absurd hsimulate (havoid.simulates hcounted hother hother' hhost)

end Outcomes

/-! ### Runs -/

section Runs

variable {history : History} {s : Step} {steps : List Step}

theorem outcome_of_step :
    Outcome (history.before s) s.call (history.result s) (history.step s).manager :=
  call_outcome s.call

theorem Counted.before (h : Counted history.manager) : Counted (history.before s) :=
  ⟨h.validated, h.verified, h.threshold⟩

theorem Counted.step (h : Counted history.manager) : Counted (history.step s).manager :=
  h.before.outcome outcome_of_step

theorem Counted.run (h : Counted history.manager) : Counted (history.run steps).manager := by
  induction steps generalizing history with
  | nil => exact h
  | cons s steps ih => exact ih h.step

theorem Prepared.step (h : Prepared history) (hcounted : Counted history.manager)
    (havoid : Avoids history s) : Prepared (history.step s) :=
  have hbefore : Prepared ⟨history.before s, history.ready, history.unprepared⟩ :=
    ⟨h.started, h.stopped⟩
  (outcome_of_step (s := s)).prepared hcounted.before hbefore havoid

theorem contained (hcounted : Counted history.manager) : Contained history s where
  constant := (outcome_of_step (s := s)).constant
  threshold := hcounted.step.threshold
  terminal := fun _ hm hstate hload => by
    obtain ⟨hother, hhost⟩ := (outcome_of_step (s := s)).terminal hm hstate hload
    exact ⟨hother, congrArg NativeHost.outputs hhost⟩

/-- **One step.** -/
theorem lawful_of_avoids (hcounted : Counted history.manager) (hprepared : Prepared history)
    (havoid : Avoids history s) : Lawful history s where
  toContained := contained hcounted
  emits := (outcome_of_step (s := s)).emits
    (⟨hprepared.started, hprepared.stopped⟩ :
      Prepared ⟨history.before s, history.ready, history.unprepared⟩) havoid
  running := fun module hm hstate =>
    (hprepared.step hcounted havoid).started module hm (.inr hstate)
  counts := fun _ hm hstate hfails =>
    (outcome_of_step (s := s)).counts hcounted.before
      (show Avoids ⟨history.before s, history.ready, history.unprepared⟩ ⟨_, s.call⟩ from havoid)
      hm hstate hfails

theorem AvoidsAll.append {before after : List Step} (h : AvoidsAll history (before ++ after)) :
    AvoidsAll history before ∧ AvoidsAll (history.run before) after := by
  induction before generalizing history with
  | nil => exact ⟨trivial, h⟩
  | cons s before ih =>
    obtain ⟨hfirst, hrest⟩ := h
    obtain ⟨hbefore, hafter⟩ := ih hrest
    exact ⟨⟨hfirst, hbefore⟩, hafter⟩

theorem Prepared.run (h : Prepared history) (hcounted : Counted history.manager)
    (havoid : AvoidsAll history steps) : Prepared (history.run steps) := by
  induction steps generalizing history with
  | nil => exact h
  | cons s steps ih => exact ih (h.step hcounted havoid.1) hcounted.step havoid.2

end Runs

/-- **The life of a native module.** In every run, enough failures lead to quarantine and only a
`load` leads out of it. In every run whose steps avoid the branches that go wrong, only a module
that is ready is simulated, and every failure is counted. -/
theorem lifecycle_lawful (manager : NativeModuleManager) (before after : List Step) (s : Step) :
    Contained ((History.fresh manager).run before) s ∧
      (AvoidsAll (History.fresh manager) (before ++ s :: after) →
        Lawful ((History.fresh manager).run before) s) := by
  have hcounted : Counted ((History.fresh manager).run before).manager := Counted.fresh.run
  refine ⟨contained hcounted, fun havoid => ?_⟩
  obtain ⟨hbefore, hstep, -⟩ := havoid.append
  have hfresh : Prepared (History.fresh manager) :=
    ⟨fun _ hm => (nomatch hm), fun _ hm => (nomatch hm)⟩
  exact lawful_of_avoids hcounted (hfresh.run Counted.fresh hbefore) hstep

/-- A manager as `NativeModuleManager()` makes it. -/
def defaultManager : NativeModuleManager := ⟨{}, {}, 2, by decide, none⟩

/-- A package without capabilities, with four bytes of code. -/
def stubPackage (simulationId : UInt32) : NativePackage where
  capabilities := []
  image :=
    { header :=
        { magic := nativeMagic
          formatVersion := nativeVersion
          headerSize := 76
          totalSize := 80
          codeOffset := 76
          codeSize := 4
          rodataOffset := 80
          rodataSize := 0
          dataOffset := 80
          dataSize := 0
          bssSize := 0
          stackSize := 256
          entryOffset := 0
          apiVersion := platformApiVersion
          simulationId
          reserved0 := 0
          reserved := List.replicate 16 0 }
      code := [0x00, 0xB5, 0x00, 0xBD]
      rodata := []
      dataInitial := [] }

example : (buildNativePayload (stubPackage simRccAnalysis).image.buildArgs).toOption.bind
    (fun payload => (validateNativePayload payload).toOption) =
    some (stubPackage simRccAnalysis).image := by decide +kernel

/-- A run that raises without counting. -/
theorem not_lawful_of_uncounted {history : History} {s : Step} {module : LoadedModule}
    {e : NativeLoaderError} (hm : history.manager.loaded = some module)
    (hstate : module.state ≠ .quarantined) (hcall : s.call = .run)
    (hraise : history.result s = .error e)
    (hsame : (history.step s).manager.loaded.map LoadedModule.failures = some module.failures) :
    ¬ Lawful history s := by
  intro h
  have hfails : Fails s.call (history.result s) := by
    rw [hcall, hraise]
    rintro ⟨_, herror, -⟩
    cases herror
  obtain ⟨other, hother, hfailures, -⟩ := h.counts module hm hstate hfails
  rw [hother, Option.map_some, hfailures] at hsame
  exact Nat.succ_ne_self _ (Option.some.inj hsame)

/-- A module that is stopped before it was ever initialized runs all the same. A simulation that
lacks a capability leaves its module running and its failure uncounted, and so does one whose host
has lost its output list. -/
theorem lifecycle_not_lawful :
    ¬ Lawful ((History.fresh defaultManager).run [⟨{}, .load (stubPackage simNone)⟩, ⟨{}, .stop⟩])
      ⟨{}, .run⟩ ∧
    ¬ Lawful ((History.fresh defaultManager).run
      [⟨{}, .load (stubPackage simRccAnalysis)⟩, ⟨{}, .initializeModule⟩]) ⟨{}, .run⟩ ∧
    ¬ Lawful ((History.fresh defaultManager).run
      [⟨{}, .load { stubPackage simRccAnalysis with capabilities := supportedNativeCapabilities }⟩,
        ⟨{}, .initializeModule⟩]) ⟨{ outputs := none }, .run⟩ := by
  refine ⟨fun h => ?_, fun h => ?_, fun h => ?_⟩
  · exact Bool.noConfusion (h.running _ rfl rfl)
  · exact not_lawful_of_uncounted rfl LifecycleState.noConfusion rfl rfl rfl h
  · exact not_lawful_of_uncounted rfl LifecycleState.noConfusion rfl rfl rfl h

end Stm32SecurityLab.Native
