import Stm32SecurityLab.Bytecode.Vm

/-!
# What a run depends on

Two runs of one program, with other registers, other capabilities or the outputs of another call before
them. The loop reaches the registers and the capabilities through `SyscallHost.handle` only, so a run is
a function of the handler; it is enough to compare the two handlers.

With more capabilities a run may get further, so there the handlers are not equal: the second one does
no less than the first (`Serves`), and neither does the loop around it.

## Main results

* `handle_eq_of_not_granted`, `handle_eq_of_agree`, `handle_serves` — two handlers
* `perform_serves` — an instruction, with two handlers
* `execute_noninterference` — two runs
-/

namespace Stm32SecurityLab.Bytecode

open Crash

/-! ### Two handlers -/

theorem requireCapability_bind_of_not_mem {capabilities : List ℤ} {capability : ℤ} {α : Type}
    (h : capability ∉ capabilities) (f : Unit → Vm α) :
    (requireCapability capabilities capability >>= f) =
      Prog.fail (.vm (.missingCapability capability)) := by
  funext s
  refine bind_of_err ?_
  simp only [requireCapability, Prog.check, if_neg h]
  rfl

theorem requireCapability_congr {capabilities capabilities' : List ℤ} {capability : ℤ}
    (h : capability ∈ capabilities' ↔ capability ∈ capabilities) :
    requireCapability capabilities' capability = requireCapability capabilities capability := by
  simp only [requireCapability, Prog.check]
  by_cases hmem : capability ∈ capabilities
  · rw [if_pos hmem, if_pos (h.mpr hmem)]
  · rw [if_neg hmem, if_neg fun hn => hmem (h.mp hn)]

/-- Without the capability for them, the registers do not matter. -/
theorem handle_eq_of_not_granted (host host' : SyscallHost) {capabilities : List ℤ}
    (h : capRccRead ∉ capabilities) : host'.handle capabilities = host.handle capabilities := by
  funext syscallId values
  rw [SyscallHost.handle.eq_def, SyscallHost.handle.eq_def]
  rw [requireCapability_bind_of_not_mem h, requireCapability_bind_of_not_mem h]

/-- A handler asks for two capabilities. -/
theorem handle_eq_of_agree (host : SyscallHost) {capabilities capabilities' : List ℤ}
    (hread : capRccRead ∈ capabilities' ↔ capRccRead ∈ capabilities)
    (houtput : capOutput ∈ capabilities' ↔ capOutput ∈ capabilities) :
    host.handle capabilities' = host.handle capabilities := by
  funext syscallId values
  rw [SyscallHost.handle.eq_def, SyscallHost.handle.eq_def]
  rw [requireCapability_congr hread, requireCapability_congr houtput]

/-- More capabilities do no harm. -/
theorem handle_serves (host : SyscallHost) {capabilities capabilities' : List ℤ}
    (h : capabilities ⊆ capabilities') (syscallId : ℕ) (values : List ℕ) :
    Serves (host.handle capabilities syscallId values)
      (host.handle capabilities' syscallId values) := by
  rw [SyscallHost.handle.eq_def, SyscallHost.handle.eq_def]
  refine Serves.ite ?_ (Serves.ite ?_ (Serves.refl _))
  · exact (Serves.check fun hmem => h hmem).bind fun _ => Serves.refl _
  · exact (Serves.check fun hmem => h hmem).bind fun _ => Serves.refl _

/-! ### The loop around them -/

section Handlers

variable {program : BytecodeProgram} {stackLimit : ℤ} {handle handle' : ℕ → List ℕ → Vm (List ℕ)}

/-- Only a system call looks at its handler. -/
theorem perform_serves (h : ∀ syscallId values, Serves (handle syscallId values)
    (handle' syscallId values)) (instruction : Instruction) :
    Serves (perform program stackLimit handle instruction)
      (perform program stackLimit handle' instruction) := by
  simp only [perform]
  iterate 15 refine Serves.ite (Serves.refl _) ?_
  refine Serves.ite ?_ (Serves.refl _)
  exact (Serves.refl _).bind fun values => (h _ values).bind fun _ => Serves.refl _

theorem iterate_serves {instructionBudget : ℕ} (h : ∀ syscallId values,
    Serves (handle syscallId values) (handle' syscallId values)) :
    Serves (iterate program stackLimit instructionBudget handle)
      (iterate program stackLimit instructionBudget handle') := by
  refine (Serves.refl _).bind fun _ => (Serves.refl _).bind fun _ => (Serves.refl _).bind fun _ =>
    (Serves.refl _).bind fun instruction => (Serves.refl _).bind fun _ => ?_
  refine Serves.ite (Serves.refl _) ?_
  exact (perform_serves h instruction).bind fun _ => Serves.refl _

end Handlers

/-- **Noninterference.** A run without the capability for the registers does not depend on them, nor a
run on the outputs that an earlier call has left behind; of the capabilities it depends on two; and a
run that returns with fewer capabilities returns the same with more. -/
theorem execute_noninterference (vm : BytecodeVM) (blob : List UInt8) (fuel : ℕ) :
    (∀ (capabilities : List ℤ) (host : SyscallHost) (outputs : List (ℕ × ℕ)) (s : VmState),
      capRccRead ∉ capabilities →
      { vm with host := host }.execute blob capabilities fuel { s with outputs := outputs } =
        vm.execute blob capabilities fuel s) ∧
    (∀ capabilities capabilities' : List ℤ,
      (capRccRead ∈ capabilities' ↔ capRccRead ∈ capabilities) →
      (capOutput ∈ capabilities' ↔ capOutput ∈ capabilities) →
      vm.execute blob capabilities' fuel = vm.execute blob capabilities fuel) ∧
    ∀ capabilities capabilities' : List ℤ, capabilities ⊆ capabilities' →
      ∀ s result s', vm.execute blob capabilities fuel s = .ret result s' →
        vm.execute blob capabilities' fuel s = .ret result s' := by
  refine ⟨fun capabilities host outputs s hread => ?_, fun capabilities capabilities' hread hout => ?_,
    fun capabilities capabilities' hsub => ?_⟩
  · have hhandle := handle_eq_of_not_granted vm.host host hread
    simp only [BytecodeVM.execute, BytecodeVM.round, hhandle]
    rfl
  · have hhandle := handle_eq_of_agree vm.host hread hout
    simp only [BytecodeVM.execute, BytecodeVM.round, hhandle]
  · refine (Serves.refl _).bind fun _ => (Serves.refl _).bind fun program =>
      (Serves.refl _).bind fun _ => ?_
    exact (iterate_serves (handle_serves vm.host hsub)).untilSome fuel

end Stm32SecurityLab.Bytecode
