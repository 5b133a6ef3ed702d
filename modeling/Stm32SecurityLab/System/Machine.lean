import Stm32SecurityLab.Boot.Confirmation
import Stm32SecurityLab.Boot.SlotSelection
import Stm32SecurityLab.Installer.Calls

/-!
# The device over its lifetime

Boots, installer calls, confirmations, resets and power cuts, in any order. The machine is the
flash, the RAM of the installer and what the last boot selected; an event is a call together with
what the flash will do during it, and a power cut in the middle of a call clears the RAM.

Every event keeps the session invariant, and the store of the flash goes through steps of the
protocol. What the protocol guarantees therefore holds of every flash a run can leave behind.

## Main definitions

* `Call`, `Event`, `Machine`, `Machine.step`, `Machine.run`

## Main results

* `Machine.run_inv`, `Machine.run_refines` — every run is a run of the protocol
-/

namespace Stm32SecurityLab

open Crash

/-! ### The machine -/

/-- What can be called. The confirmation is for the slot the last boot selected. -/
inductive Call where
  | reset
  | boot (options : BootSlotSelectionOptions)
  | sessionInit (flash : BootFlash) (options : UpdateInstallOptions) (withResult : Bool)
  | beginUpdate (headerBytes : List UInt8)
  | write (payloadOffset : ℕ) (data : List UInt8)
  | finish
  | abort
  | confirm (flash : BootFlash)

/-- The calls of the installer. -/
def Call.IsInstaller : Call → Prop
  | .reset | .sessionInit .. | .beginUpdate _ | .write .. | .finish | .abort => True
  | .boot _ | .confirm _ => False

/-- A call, and what the flash will do while it runs. -/
structure Event where
  call : Call
  script : List Verdict

/-- The flash, the RAM of the installer, and the result of the last boot if it succeeded. -/
structure Machine where
  inst : Installer
  lastBoot : Option BootSlotSelectionResult

namespace Machine

/-- After a reset nothing but the flash is left. -/
def powerOn (d : Device) : Machine where
  inst := ⟨{}, fun _ => 0, {}, d⟩
  lastBoot := none

/-- The flash contents. -/
def mem (mc : Machine) : Mem := mc.inst.dev.mem

/-- The device with a new script. -/
def scripted (mc : Machine) (script : List Verdict) : Device := { mc.inst.dev with script }

/-- The installer with a new script. -/
def installer (mc : Machine) (script : List Verdict) : Installer :=
  { mc.inst with dev := mc.scripted script }

/-- The machine after a call of the installer. -/
def settle (mc : Machine) : Outcome Installer UpdateInstallError Unit → Machine
  | .ret _ s => { mc with inst := s }
  | .err _ s => { mc with inst := s }
  | .cut s => powerOn s.dev

/-- The machine after a boot. -/
def settleBoot (mc : Machine) : Outcome Selector BootSlotSelectionError Unit → Machine
  | .ret _ s => { inst := { mc.inst with dev := s.dev }, lastBoot := some s.result }
  | .err _ s => { inst := { mc.inst with dev := s.dev }, lastBoot := none }
  | .cut s => powerOn s.dev

/-- The machine after a confirmation. -/
def settleConfirm (mc : Machine) : Outcome Confirmer BootConfirmError Unit → Machine
  | .ret _ s => { mc with inst := { mc.inst with dev := s.dev } }
  | .err _ s => { mc with inst := { mc.inst with dev := s.dev } }
  | .cut s => powerOn s.dev

section Step

variable (crypto : Crypto) (publicKey : List UInt8)

/-- One event. -/
def step (mc : Machine) (e : Event) : Machine :=
  let inst := mc.installer e.script
  match e.call with
  | .reset => powerOn inst.dev
  | .boot options => mc.settleBoot (bootSlotSelectionSelect options { dev := inst.dev })
  | .sessionInit flash options withResult =>
    mc.settle (updateInstallerSessionInit flash publicKey options withResult inst)
  | .beginUpdate headerBytes => mc.settle (updateInstallerBegin crypto headerBytes inst)
  | .write payloadOffset data => mc.settle (updateInstallerWrite payloadOffset data inst)
  | .finish => mc.settle (updateInstallerFinish crypto inst)
  | .abort => mc.settle (updateInstallerAbort inst)
  | .confirm flash =>
    match mc.lastBoot with
    | none => { mc with inst }
    | some result =>
      mc.settleConfirm (bootConfirmCurrentSlot flash result.selectedSlot { dev := inst.dev })

/-- Any number of events. -/
def run (mc : Machine) (es : List Event) : Machine := es.foldl (step crypto publicKey) mc

end Step

variable {crypto : Crypto} {publicKey : List UInt8} {mc : Machine}

@[simp] theorem run_nil : run crypto publicKey mc [] = mc := rfl

@[simp] theorem run_cons (e : Event) (es : List Event) :
    run crypto publicKey mc (e :: es) = run crypto publicKey (step crypto publicKey mc e) es := rfl

theorem run_append (es es' : List Event) :
    run crypto publicKey mc (es ++ es') =
      run crypto publicKey (run crypto publicKey mc es) es' := List.foldl_append

theorem installer_mem (mc : Machine) (script : List Verdict) :
    (mc.installer script).dev.mem = mc.mem := rfl

/-- A reset keeps the flash. -/
theorem run_reset_mem (mc : Machine) (script : List Verdict) :
    (run crypto publicKey mc [⟨.reset, script⟩]).mem = mc.mem := rfl

/-- An induction over runs: what every event preserves holds after every run. -/
theorem run_induction {P : Machine → Prop} (h : P mc)
    (hstep : ∀ mc e, P mc → P (step crypto publicKey mc e)) (es : List Event) :
    P (run crypto publicKey mc es) := by
  induction es generalizing mc with
  | nil => exact h
  | cons e es ih => exact ih (hstep mc e h)

/-! ### From specifications to the machine -/

theorem settle_of_wp {x : Prog Installer UpdateInstallError Unit} {s : Installer}
    {Q : Unit → Installer → Prop} {E : UpdateInstallError → Installer → Prop}
    {C : Installer → Prop} {P : Machine → Prop} (h : wp x s Q E C)
    (hQ : ∀ s', Q () s' → P { mc with inst := s' })
    (hE : ∀ e s', E e s' → P { mc with inst := s' }) (hC : ∀ s', C s' → P (powerOn s'.dev)) :
    P (mc.settle (x s)) := by
  rw [wp] at h
  unfold settle
  cases hx : x s with
  | ret u s' => rw [hx] at h; exact hQ s' h
  | err e s' => rw [hx] at h; exact hE e s' h
  | cut s' => rw [hx] at h; exact hC s' h

theorem settleBoot_of_wp {x : Prog Selector BootSlotSelectionError Unit} {s : Selector}
    {Q : Unit → Selector → Prop} {E : BootSlotSelectionError → Selector → Prop}
    {C : Selector → Prop} {P : Machine → Prop} (h : wp x s Q E C)
    (hQ : ∀ s', Q () s' → P ⟨{ mc.inst with dev := s'.dev }, some s'.result⟩)
    (hE : ∀ e s', E e s' → P ⟨{ mc.inst with dev := s'.dev }, none⟩)
    (hC : ∀ s', C s' → P (powerOn s'.dev)) : P (mc.settleBoot (x s)) := by
  rw [wp] at h
  unfold settleBoot
  cases hx : x s with
  | ret u s' => rw [hx] at h; exact hQ s' h
  | err e s' => rw [hx] at h; exact hE e s' h
  | cut s' => rw [hx] at h; exact hC s' h

theorem settleConfirm_of_wp {x : Prog Confirmer BootConfirmError Unit} {s : Confirmer}
    {Q : Device → Prop} {P : Machine → Prop}
    (h : wp x s (fun _ s' => Q s'.dev) (fun _ s' => Q s'.dev) (fun s' => Q s'.dev))
    (hQ : ∀ d', Q d' → P { mc with inst := { mc.inst with dev := d' } })
    (hC : ∀ d', Q d' → P (powerOn d')) : P (mc.settleConfirm (x s)) := by
  rw [wp] at h
  unfold settleConfirm
  cases hx : x s with
  | ret u s' => rw [hx] at h; exact hQ s'.dev h
  | err e s' => rw [hx] at h; exact hQ s'.dev h
  | cut s' => rw [hx] at h; exact hC s'.dev h

/-! ### Steps of the machine -/

/-- What one event may do to the device. -/
inductive DeviceStep (crypto : Crypto) (publicKey : List UInt8) (d d' : Device) : Prop where
  | install (h : Effect crypto publicKey d d')
  | boot (h : Booted d d')
  | confirm (h : Confirms d d')

/-- **One event** keeps the session invariant and makes one device step. -/
theorem step_spec (crypto : Crypto) (hinv : SessionInv publicKey mc.inst) (e : Event) :
    SessionInv publicKey (step crypto publicKey mc e).inst ∧
      DeviceStep crypto publicKey (mc.scripted e.script) (step crypto publicKey mc e).inst.dev ∧
      (e.call.IsInstaller →
        Effect crypto publicKey (mc.scripted e.script) (step crypto publicKey mc e).inst.dev) := by
  obtain ⟨call, script⟩ := e
  have hinv' : SessionInv publicKey (mc.installer script) := hinv
  have hrefl : Effect crypto publicKey (mc.scripted script) (mc.scripted script) :=
    .of_quiet (Std.Refl.refl _)
  -- the calls of the installer all have the same postcondition
  have hcall : ∀ {x : Prog Installer UpdateInstallError Unit} {Q : Unit → Installer → Prop}
      {E : UpdateInstallError → Installer → Prop} {C : Installer → Prop},
      wp x (mc.installer script) Q E C →
      (∀ s', Q () s' → Effect crypto publicKey (mc.scripted script) s'.dev ∧
        SessionInv publicKey s') →
      (∀ e s', E e s' → Effect crypto publicKey (mc.scripted script) s'.dev ∧
        SessionInv publicKey s') →
      (∀ s', C s' → Effect crypto publicKey (mc.scripted script) s'.dev) →
      SessionInv publicKey (mc.settle (x (mc.installer script))).inst ∧
        DeviceStep crypto publicKey (mc.scripted script)
          (mc.settle (x (mc.installer script))).inst.dev ∧
        (call.IsInstaller → Effect crypto publicKey (mc.scripted script)
          (mc.settle (x (mc.installer script))).inst.dev) := by
    intro x Q E C h hQ hE hC
    refine settle_of_wp (P := fun mc' => SessionInv publicKey mc'.inst ∧
      DeviceStep crypto publicKey (mc.scripted script) mc'.inst.dev ∧
      (call.IsInstaller → Effect crypto publicKey (mc.scripted script) mc'.inst.dev)) h
      (fun s' h => ?_) (fun e s' h => ?_) (fun s' h => ?_)
    · obtain ⟨he, hi⟩ := hQ s' h
      exact ⟨hi, .install he, fun _ => he⟩
    · obtain ⟨he, hi⟩ := hE e s' h
      exact ⟨hi, .install he, fun _ => he⟩
    · exact ⟨sessionInv_empty rfl, .install (hC s' h), fun _ => hC s' h⟩
  cases call with
  | reset => exact ⟨sessionInv_empty rfl, .install hrefl, fun _ => hrefl⟩
  | sessionInit flash options withResult =>
    refine hcall updateInstallerSessionInit_spec ?_ ?_ (fun s' h => .of_quiet h)
    · rintro s' ⟨hd, hinit, hsel⟩
      refine ⟨.of_quiet hd, ?_⟩
      rw [SessionInv]
      rw [hinit.state]
      exact hsel
    · rintro e s' ⟨hd, hs⟩
      refine ⟨.of_quiet hd, ?_⟩
      rw [SessionInv]
      rcases hs with hs | hs <;> rw [hs] <;> trivial
  | beginUpdate headerBytes =>
    refine hcall (updateInstallerBegin_spec hinv') ?_ (fun _ s' h => ⟨h.1.effect, h.2⟩)
      (fun s' h => h.effect)
    rintro s' ⟨heff, hfill, -, header, size, writing, -, -, -, hsteady⟩
    refine ⟨heff.effect, ?_⟩
    have hstate : s'.session.state = .writing := congrArg (·.state) hsteady
    rw [SessionInv]
    rw [hstate]
    exact hfill
  | write payloadOffset data =>
    exact hcall (updateInstallerWrite_spec hinv') (fun s' h => h) (fun _ s' h => h) (fun s' h => h)
  | finish =>
    refine hcall (updateInstallerFinish_spec hinv') ?_ (fun _ s' h => h) (fun s' h => h)
    rintro s' ⟨heff, hs, -⟩
    refine ⟨heff, ?_⟩
    rw [SessionInv]
    rw [hs]
    trivial
  | abort =>
    refine hcall (updateInstallerAbort_spec hinv') ?_ (fun _ s' h => h) (fun s' h => h)
    rintro s' ⟨heff, hs, -⟩
    refine ⟨heff, ?_⟩
    rw [SessionInv]
    rw [hs]
    trivial
  | boot options =>
    refine settleBoot_of_wp (P := fun mc' => SessionInv publicKey mc'.inst ∧
      DeviceStep crypto publicKey (mc.scripted script) mc'.inst.dev ∧ (False → _))
      bootSlotSelectionSelect_spec (fun s' h => ?_) (fun e s' h => ?_) (fun s' h => ?_)
    · exact ⟨sessionInv_of_journal hinv' h.1.not_writing, .boot h.1, False.elim⟩
    · exact ⟨sessionInv_of_journal hinv' h.not_writing, .boot h, False.elim⟩
    · exact ⟨sessionInv_empty rfl, .boot h, False.elim⟩
  | confirm flash =>
    rw [step]
    simp only
    split
    · exact ⟨hinv', .install hrefl, False.elim⟩
    · refine settleConfirm_of_wp (P := fun mc' => SessionInv publicKey mc'.inst ∧
        DeviceStep crypto publicKey (mc.scripted script) mc'.inst.dev ∧ (False → _))
        bootConfirmCurrentSlot_spec (fun d' h => ?_) (fun d' h => ?_)
      · exact ⟨sessionInv_of_journal hinv' h.not_writing, .confirm h, False.elim⟩
      · exact ⟨sessionInv_empty rfl, .confirm h, False.elim⟩

/-! ### Refinement -/

/-- The candidate of a record that is ready or on trial. -/
theorem candidate_of_canonical {cur : BootMetadataRecord} (hcan : Canonical cur)
    (hs : cur.state = .candidateReady ∨ cur.state = .pendingTrial) :
    ∃ c : BootSlotId, cur.candidateSlot = c.toUInt32 := by
  rcases hs with hs | hs <;> exact (hcan.candidate (by simp [hs]) (by simp [hs])).1

theorem BootStep.states {cur next : BootMetadataRecord} (h : BootStep cur next) :
    cur.state = .candidateReady ∨ cur.state = .pendingTrial := by
  rcases h.state with ⟨-, ⟨hs, -⟩ | ⟨hs, -⟩⟩ | ⟨-, hs⟩
  · exact .inl hs
  · exact .inr hs
  · exact hs

/-- What a boot commits is a step of the protocol. -/
theorem step_of_bootStep {cur next : BootMetadataRecord} {st : TwoSlot.Store BootSlotId ℕ}
    (hcan : Canonical cur) (h : BootStep cur next) :
    TwoSlot.Step (withPhase st cur) (withPhase st next) := by
  obtain ⟨c, hc⟩ := candidate_of_canonical hcan (BootStep.states h)
  rcases h.state with ⟨hn, hs⟩ | ⟨hn, hs⟩
  · exact step_trial (hs.imp_left And.left) hn hc h.candidate h.active h.version
  · exact step_reject (.inr hs) hn hc h.candidate h.active h.version

/-- What a confirmation commits is a step of the protocol. -/
theorem step_of_confirmStep {cur next : BootMetadataRecord} {st : TwoSlot.Store BootSlotId ℕ}
    (hcan : Canonical cur) (h : ConfirmStep cur next) :
    TwoSlot.Step (withPhase st cur) (withPhase st next) := by
  obtain ⟨c, hc⟩ := candidate_of_canonical hcan (.inr h.pending)
  exact step_confirm h.pending h.state hc h.active h.version

/-- A commit that is a step of the protocol. -/
theorem steps_of_commit {d d' : Device} {ρ : BootMetadataRecord → BootMetadataRecord → Prop}
    (hρ : ∀ {cur next} {st : TwoSlot.Store BootSlotId ℕ}, Canonical cur → ρ cur next →
      TwoSlot.Step (withPhase st cur) (withPhase st next))
    (hext : d.Extends MetaOp d')
    (hj : journal d'.mem = journal d.mem ∨ ∃ cur next, journal d.mem = .ok cur ∧
      journal d'.mem = .ok next ∧ ρ cur next) :
    TwoSlot.Steps (store crypto publicKey d.mem) (store crypto publicKey d'.mem) := by
  rcases hj with hj | ⟨cur, next, hcur, hnext, hstep⟩
  · rw [store_of_same (SlotSame.of_meta hext) hj]
  · rw [store_of_commit (SlotSame.of_meta hext) hnext]
    have h : TwoSlot.Step (withPhase (store crypto publicKey d.mem) cur)
        (withPhase (store crypto publicKey d.mem) next) :=
      hρ (canonical_of_true (journal_canonical hcur)) hstep
    rw [← store_of_journal hcur] at h
    exact .single h

theorem not_ambiguous_of_commit {d d' : Device}
    {ρ : BootMetadataRecord → BootMetadataRecord → Prop}
    (hm : journal d.mem ≠ .error .ambiguous)
    (hj : journal d'.mem = journal d.mem ∨ ∃ cur next, journal d.mem = .ok cur ∧
      journal d'.mem = .ok next ∧ ρ cur next) : journal d'.mem ≠ .error .ambiguous := by
  rcases hj with hj | ⟨cur, next, -, hnext, -⟩
  · rw [hj]
    exact hm
  · rw [hnext]
    simp

/-- One device step is a number of protocol steps, and keeps the journal readable. -/
theorem DeviceStep.refines {d d' : Device} (h : DeviceStep crypto publicKey d d')
    (hm : journal d.mem ≠ .error .ambiguous) :
    TwoSlot.Steps (store crypto publicKey d.mem) (store crypto publicKey d'.mem) ∧
      journal d'.mem ≠ .error .ambiguous := by
  cases h with
  | install h => exact ⟨h.steps hm, h.keeps.not_ambiguous hm⟩
  | boot h =>
    exact ⟨steps_of_commit step_of_bootStep h.extends_meta h.journal,
      not_ambiguous_of_commit hm h.journal⟩
  | confirm h =>
    exact ⟨steps_of_commit step_of_confirmStep h.extends_meta h.journal,
      not_ambiguous_of_commit hm h.journal⟩

/-- The session invariant holds in every run. -/
theorem run_inv (crypto : Crypto) (hinv : SessionInv publicKey mc.inst) (es : List Event) :
    SessionInv publicKey (run crypto publicKey mc es).inst :=
  run_induction (P := fun mc => SessionInv publicKey mc.inst) hinv
    (fun _ e h => (step_spec crypto h e).1) es

/-- Every event is a number of protocol steps, and keeps the journal readable. -/
theorem step_refines (crypto : Crypto) (hinv : SessionInv publicKey mc.inst)
    (hm : journal mc.mem ≠ .error .ambiguous) (e : Event) :
    TwoSlot.Steps (store crypto publicKey mc.mem)
        (store crypto publicKey (step crypto publicKey mc e).mem) ∧
      journal (step crypto publicKey mc e).mem ≠ .error .ambiguous :=
  (step_spec crypto hinv e).2.1.refines hm

/-- **Every run is a run of the protocol.** -/
theorem run_refines (crypto : Crypto) (hinv : SessionInv publicKey mc.inst)
    (hm : journal mc.mem ≠ .error .ambiguous) (es : List Event) :
    TwoSlot.Steps (store crypto publicKey mc.mem)
        (store crypto publicKey (run crypto publicKey mc es).mem) ∧
      journal (run crypto publicKey mc es).mem ≠ .error .ambiguous := by
  have h : SessionInv publicKey (run crypto publicKey mc es).inst ∧
      TwoSlot.Steps (store crypto publicKey mc.mem)
        (store crypto publicKey (run crypto publicKey mc es).mem) ∧
      journal (run crypto publicKey mc es).mem ≠ .error .ambiguous := by
    refine run_induction (P := fun mc' => SessionInv publicKey mc'.inst ∧
      TwoSlot.Steps (store crypto publicKey mc.mem) (store crypto publicKey mc'.mem) ∧
      journal mc'.mem ≠ .error .ambiguous) ⟨hinv, .refl, hm⟩ ?_ es
    rintro mc' e ⟨hinv', hsteps, hm'⟩
    obtain ⟨hsteps', hm''⟩ := step_refines crypto hinv' hm' e
    exact ⟨(step_spec crypto hinv' e).1, hsteps.trans hsteps', hm''⟩
  exact h.2

/-- The machine after a reset satisfies the session invariant. -/
theorem powerOn_inv (publicKey : List UInt8) (d : Device) :
    SessionInv publicKey (powerOn d).inst := sessionInv_empty rfl

end Machine

end Stm32SecurityLab
