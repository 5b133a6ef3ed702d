import Stm32SecurityLab.Bytecode.Vm

/-!
# The sandbox

What a bytecode program cannot do, whatever its bytes are. `Safe` is the invariant of the machine: the
budget, the bound and the words of the stack, the words of the outputs, and that there are no outputs
without the capability for them. Every instruction keeps it, and raises nothing but `VMError`.

Two facts come from the loader. An operand is a byte, so that a shift is never negative; and the length
of the code is a whole number of instructions, so that unpacking one never runs over the end. The
program counter needs no invariant: it is checked before each fetch.

A round that goes on has counted one instruction, so the loop ends within the budget.

## Main results

* `parseProgram_raises`, `perform_keeps`, `iterate_spec` — the loader, an instruction and a round
* `execute_sandboxed` — the loop ends, and every state on the way is safe
-/

namespace Stm32SecurityLab.Bytecode

open Crash

/-- The error is a `VMError`. -/
def IsVmError (e : PyError) : Prop := ∃ error, e = .vm error

theorem isVmError_vm (error : VMError) : IsVmError (.vm error) := ⟨error, rfl⟩

/-- What holds of every state of a run. -/
structure Safe (stackLimit : ℤ) (instructionBudget : ℕ) (capabilities : List ℤ) (s : VmState) :
    Prop where
  executed_le : s.executed ≤ instructionBudget
  stack_le : s.stack.length ≤ stackLimit
  stack_u32 : ∀ value ∈ s.stack, value < 2 ^ 32
  outputs_u32 : ∀ pair ∈ s.outputs, pair.1 < 2 ^ 32 ∧ pair.2 < 2 ^ 32
  outputs_granted : s.outputs ≠ [] → capOutput ∈ capabilities

/-- What an instruction may change: it counts nothing, and it appends to the outputs only. -/
structure Appends (capabilities : List ℤ) (s s' : VmState) : Prop where
  executed : s'.executed = s.executed
  outputs : s.outputs <+: s'.outputs
  granted : s'.outputs ≠ s.outputs → capOutput ∈ capabilities

instance (capabilities : List ℤ) : Std.Refl (Appends capabilities) where
  refl _ := ⟨rfl, List.prefix_refl _, fun h => absurd rfl h⟩

instance (capabilities : List ℤ) : IsTrans VmState (Appends capabilities) where
  trans s₁ s₂ s₃ h h' := by
    refine ⟨h'.executed.trans h.executed, h.outputs.trans h'.outputs, fun hne => ?_⟩
    by_cases heq : s₂.outputs = s₁.outputs
    · exact h'.granted fun h => hne (h.trans heq)
    · exact h.granted heq

/-! ### The loader -/

theorem validateInstruction_raises (instruction : Instruction) :
    Raises IsVmError (validateInstruction instruction) :=
  Raises.require_bind (fun _ => isVmError_vm _) fun _ =>
    Raises.require_bind (fun _ => isVmError_vm _) fun _ => Raises.require fun _ => isVmError_vm _

theorem parseInstruction_raises {blob : List UInt8} {offset : ℕ}
    (h : offset + instructionSize ≤ blob.length) : Raises IsVmError (parseInstruction blob offset) := by
  refine Raises.bind ?_ fun instruction _ => ?_
  · exact Raises.require_bind (fun hn => absurd h hn) fun _ => Raises.pure _
  · exact Raises.bind (validateInstruction_raises instruction) fun _ _ => Raises.pure _

theorem mem_instructionOffsets {length offset : ℕ} :
    offset ∈ instructionOffsets length ↔
      ∃ k, offset = bytecodeHeaderSize + instructionSize * k ∧ offset < length := by
  simp only [instructionOffsets, List.mem_map, List.mem_range, bytecodeHeaderSize, instructionSize]
  constructor
  · rintro ⟨k, hk, rfl⟩
    exact ⟨k, rfl, by omega⟩
  · rintro ⟨k, rfl, hk⟩
    exact ⟨k, by omega, rfl⟩

/-- The loader raises nothing but `VMError`. -/
theorem parseProgram_raises (blob : List UInt8) : Raises IsVmError (parseProgram blob) := by
  refine Raises.require_bind (fun _ => isVmError_vm _) fun _ => ?_
  refine Raises.require_bind (fun _ => isVmError_vm _) fun _ => ?_
  refine Raises.require_bind (fun _ => isVmError_vm _) fun _ => ?_
  refine Raises.require_bind (fun _ => isVmError_vm _) fun _ => ?_
  refine Raises.require_bind (fun _ => isVmError_vm _) fun hlength => ?_
  refine Raises.require_bind (fun _ => isVmError_vm _) fun hsize => ?_
  refine Raises.require_bind (fun _ => isVmError_vm _) fun _ => ?_
  refine Raises.require_bind (fun _ => isVmError_vm _) fun _ => ?_
  refine Raises.bind (Raises.mapM fun offset hoffset => ?_) fun _ _ => Raises.pure _
  obtain ⟨k, rfl, hlt⟩ := mem_instructionOffsets.mp hoffset
  refine parseInstruction_raises ?_
  -- the code is a whole number of instructions
  simp only [bytecodeHeaderSize, instructionSize] at hlength hsize hlt ⊢
  omega

/-- An instruction of the loader has a byte for its operand. -/
theorem parseInstruction_operand {blob : List UInt8} {offset : ℕ} {instruction : Instruction}
    (h : parseInstruction blob offset = .ok instruction) : 0 ≤ instruction.operand := by
  simp only [parseInstruction, unpackInstruction, except_bind_eq_ok, pure, Except.pure,
    Except.ok.injEq] at h
  obtain ⟨_, ⟨_, _, rfl⟩, _, _, rfl⟩ := h
  exact Int.natCast_nonneg _

theorem parseProgram_operand {blob : List UInt8} {program : BytecodeProgram}
    (h : parseProgram blob = .ok program) :
    ∀ instruction ∈ program.instructions, 0 ≤ instruction.operand := by
  simp only [parseProgram, except_bind_eq_ok, pure, Except.pure, Except.ok.injEq] at h
  obtain ⟨_, _, _, _, _, _, _, _, _, _, _, _, _, _, _, _, instructions, hparse, rfl⟩ := h
  intro instruction hmem
  obtain ⟨offset, _, hoffset⟩ := mem_of_mapM_eq_ok hparse hmem
  exact parseInstruction_operand hoffset

/-! ### The instructions -/

theorem u32_lt (value : ℤ) : u32 value < 2 ^ 32 := by
  simp only [u32]
  omega

section Instructions

variable {stackLimit : ℤ} {instructionBudget : ℕ} {capabilities : List ℤ}

/-- A program that runs inside `execute` and keeps to the sandbox. -/
abbrev Contained (stackLimit : ℤ) (instructionBudget : ℕ) (capabilities : List ℤ) {α : Type}
    (x : Vm α) : Prop :=
  Keeps (Safe stackLimit instructionBudget capabilities) (Appends capabilities) IsVmError x

/-- Only the stack and the program counter change, and the stack still fits. -/
theorem Safe.moved {s : VmState} (h : Safe stackLimit instructionBudget capabilities s)
    {stack : List ℕ} (pc : ℤ) (hlength : stack.length ≤ stackLimit)
    (hwords : ∀ value ∈ stack, value < 2 ^ 32) :
    Safe stackLimit instructionBudget capabilities { s with stack := stack, pc := pc } ∧
      Appends capabilities s { s with stack := stack, pc := pc } :=
  ⟨⟨h.executed_le, hlength, hwords, h.outputs_u32, h.outputs_granted⟩,
    rfl, List.prefix_refl _, fun h => absurd rfl h⟩

/-- Values may be taken off the stack. -/
theorem Safe.dropped {s : VmState} (h : Safe stackLimit instructionBudget capabilities s)
    {stack : List ℕ} (hsub : stack <:+ s.stack) :
    Safe stackLimit instructionBudget capabilities { s with stack := stack } ∧
      Appends capabilities s { s with stack := stack } := by
  refine h.moved s.pc ?_ fun value hvalue => h.stack_u32 value (hsub.subset hvalue)
  have hlength := hsub.length_le
  have hle := h.stack_le
  omega

theorem push_contained (value : ℤ) :
    Contained stackLimit instructionBudget capabilities (push stackLimit value) := by
  intro s hs
  refine wp_bind.mpr (wp_get.mpr (wp_bind.mpr (wp_check.mpr ⟨fun hroom => ?_, fun _ => ?_⟩)))
  · refine wp_modify.mpr (hs.moved s.pc ?_ fun w hw => ?_)
    · rw [List.length_cons]
      push_cast
      omega
    · cases hw with
      | head => exact u32_lt value
      | tail _ hw => exact hs.stack_u32 w hw
  · exact ⟨isVmError_vm _, hs, Std.Refl.refl s⟩

theorem pop_contained : Contained stackLimit instructionBudget capabilities pop := by
  intro s hs
  refine wp_bind.mpr (wp_get.mpr ?_)
  cases hstack : s.stack with
  | nil => exact ⟨isVmError_vm _, hs, Std.Refl.refl s⟩
  | cons value rest => exact hs.dropped (hstack ▸ List.suffix_cons value rest)

theorem swap_contained : Contained stackLimit instructionBudget capabilities swap := by
  intro s hs
  refine wp_bind.mpr (wp_get.mpr ?_)
  match hstack : s.stack with
  | [] => exact ⟨isVmError_vm _, hs, Std.Refl.refl s⟩
  | [_] => exact ⟨isVmError_vm _, hs, Std.Refl.refl s⟩
  | first :: second :: rest =>
    have hswap : (second :: first :: rest).Perm s.stack := hstack ▸ List.Perm.swap _ _ _
    refine hs.moved s.pc ?_ fun value hvalue => hs.stack_u32 value (hswap.subset hvalue)
    rw [hswap.length_eq]
    exact hs.stack_le

theorem popArgs_contained (argc : ℤ) :
    Contained stackLimit instructionBudget capabilities (popArgs argc) := by
  intro s hs
  refine wp_bind.mpr (wp_get.mpr (wp_bind.mpr (wp_check.mpr ⟨fun _ => ?_, fun _ => ?_⟩)))
  · exact hs.dropped (List.drop_suffix _ _)
  · exact ⟨isVmError_vm _, hs, Std.Refl.refl s⟩

theorem pushAll_contained (results : List ℕ) :
    Contained stackLimit instructionBudget capabilities (pushAll stackLimit results) := by
  induction results with
  | nil => exact Keeps.pure ()
  | cons result results ih => exact (push_contained _).bind fun _ => ih

theorem binary_contained (f : ℕ → ℕ → ℤ) :
    Contained stackLimit instructionBudget capabilities (binary stackLimit f) :=
  pop_contained.bind fun _ => pop_contained.bind fun _ => push_contained _

theorem branch_contained (program : BytecodeProgram) (relative : ℤ) :
    Contained stackLimit instructionBudget capabilities (branch program relative) := by
  intro s hs
  refine wp_bind.mpr (wp_get.mpr (wp_bind.mpr (wp_ofExcept.mpr ⟨fun target _ => ?_, fun e he => ?_⟩)))
  · exact hs.moved target hs.stack_le hs.stack_u32
  · have hraise : Raises IsVmError (branchTarget s.pc relative program.instructions.length) :=
      Raises.require_bind (fun _ => isVmError_vm _) fun _ => Raises.pure _
    exact ⟨hraise e he, hs, Std.Refl.refl s⟩

/-- An index that is not negative and within the list. -/
theorem pyIndex_of_lt {α : Type} {values : List α} {index : ℕ} (h : index < values.length) :
    pyIndex values index = .ok values[index] := by
  simp only [pyIndex]
  rw [if_neg (by omega), if_neg (by omega), Int.toNat_natCast, List.getElem?_eq_getElem h]

/-- A system call without its capability fails, and leaves nothing behind. -/
theorem requireCapability_contained {capability : ℤ} {α : Type} {f : Unit → Vm α}
    (h : capability ∈ capabilities → Contained stackLimit instructionBudget capabilities (f ())) :
    Contained stackLimit instructionBudget capabilities
      (requireCapability capabilities capability >>= f) :=
  Keeps.check_bind (isVmError_vm _) h

theorem handle_contained (host : SyscallHost) (syscallId : ℕ) (values : List ℕ) :
    Contained stackLimit instructionBudget capabilities
      (host.handle capabilities syscallId values) := by
  rw [SyscallHost.handle.eq_def]
  split_ifs
  · refine requireCapability_contained fun _ => Keeps.check_bind (isVmError_vm _) fun hone => ?_
    obtain ⟨index, rfl⟩ := List.length_eq_one_iff.mp hone
    rw [show pyIndex [index] 0 = .ok index from rfl]
    refine Keeps.check_bind (isVmError_vm _) fun hindex => ?_
    rw [pyIndex_of_lt hindex]
    exact Keeps.pure _
  · refine requireCapability_contained fun hcap => Keeps.check_bind (isVmError_vm _) fun htwo => ?_
    obtain ⟨value, channel, rfl⟩ := List.length_eq_two.mp htwo
    refine (Keeps.modify fun s hs => ⟨?_, ?_⟩).bind fun _ => Keeps.pure _
    · refine ⟨hs.executed_le, hs.stack_le, hs.stack_u32, fun pair hpair => ?_, fun _ => hcap⟩
      obtain hpair | hpair := List.mem_append.mp hpair
      · exact hs.outputs_u32 pair hpair
      · rw [List.mem_singleton.mp hpair]
        exact ⟨u32_lt channel, u32_lt value⟩
    · exact ⟨rfl, List.prefix_append _ _, fun _ => hcap⟩
  · exact Keeps.fail (isVmError_vm _)

/-- An instruction of a loaded program keeps to the sandbox. -/
theorem perform_contained (program : BytecodeProgram) (host : SyscallHost)
    {instruction : Instruction} (hoperand : 0 ≤ instruction.operand) :
    Contained stackLimit instructionBudget capabilities
      (perform program stackLimit (host.handle capabilities) instruction) := by
  have hshift : Raises IsVmError (shiftAmount instruction.operand) := by
    intro e he
    rw [shiftAmount, if_neg (by omega)] at he
    cases he
  simp only [perform]
  refine Keeps.ite (fun _ => push_contained _) fun _ => ?_
  refine Keeps.ite (fun _ => pop_contained.bind fun _ => Keeps.pure ()) fun _ => ?_
  refine Keeps.ite (fun _ => pop_contained.bind fun _ =>
    (push_contained _).bind fun _ => push_contained _) fun _ => ?_
  refine Keeps.ite (fun _ => swap_contained) fun _ => ?_
  refine Keeps.ite (fun _ => binary_contained _) fun _ => ?_
  refine Keeps.ite (fun _ => binary_contained _) fun _ => ?_
  refine Keeps.ite (fun _ => binary_contained _) fun _ => ?_
  refine Keeps.ite (fun _ => binary_contained _) fun _ => ?_
  refine Keeps.ite (fun _ => binary_contained _) fun _ => ?_
  refine Keeps.ite (fun _ => pop_contained.bind fun _ =>
    (Keeps.ofExcept hshift).bind fun _ => push_contained _) fun _ => ?_
  refine Keeps.ite (fun _ => pop_contained.bind fun _ =>
    (Keeps.ofExcept hshift).bind fun _ => push_contained _) fun _ => ?_
  refine Keeps.ite (fun _ => pop_contained.bind fun _ => push_contained _) fun _ => ?_
  refine Keeps.ite (fun _ => binary_contained _) fun _ => ?_
  refine Keeps.ite (fun _ => branch_contained _ _) fun _ => ?_
  refine Keeps.ite (fun _ => pop_contained.bind fun _ =>
    Keeps.ite (fun _ => branch_contained _ _) fun _ => Keeps.pure ()) fun _ => ?_
  refine Keeps.ite (fun _ => (popArgs_contained _).bind fun _ =>
    (handle_contained host _ _).bind fun _ => pushAll_contained _) fun _ => ?_
  exact Keeps.fail (isVmError_vm _)

end Instructions

/-! ### A round -/

/-- What a round may change. An instruction is fetched, and counted, at an address of the program. -/
structure Round (capabilities : List ℤ) (program : BytecodeProgram) (s s' : VmState) : Prop where
  fetched : s'.executed ≠ s.executed →
    s'.executed = s.executed + 1 ∧ 0 ≤ s.pc ∧ s.pc < program.instructions.length
  outputs : s.outputs <+: s'.outputs
  granted : s'.outputs ≠ s.outputs → capOutput ∈ capabilities

section Rounds

variable {stackLimit : ℤ} {instructionBudget : ℕ} {capabilities : List ℤ}

theorem Round.refl (program : BytecodeProgram) (s : VmState) : Round capabilities program s s :=
  ⟨fun h => absurd rfl h, List.prefix_refl _, fun h => absurd rfl h⟩

/-- What the instruction of a round does once it has been counted. -/
theorem Round.of_appends {program : BytecodeProgram} {s s' : VmState} {pc : ℤ}
    (hpc : 0 ≤ s.pc ∧ s.pc < program.instructions.length)
    (h : Appends capabilities { s with executed := s.executed + 1, pc := pc } s') :
    Round capabilities program s s' :=
  ⟨fun _ => ⟨h.executed, hpc⟩, h.outputs, h.granted⟩

/-- A round raises nothing but `VMError`; one that does not raise counts an instruction. -/
theorem iterate_spec {program : BytecodeProgram} (host : SyscallHost)
    (hoperand : ∀ instruction ∈ program.instructions, 0 ≤ instruction.operand) {s : VmState}
    (hs : Safe stackLimit instructionBudget capabilities s) :
    wp (iterate program stackLimit instructionBudget (host.handle capabilities)) s
      (fun r s' => (Safe stackLimit instructionBudget capabilities s' ∧
          Round capabilities program s s') ∧ s'.executed = s.executed + 1 ∧
        ∀ result, r = some result → result = ⟨true, s'.executed, s'.outputs, s'.stack.reverse⟩)
      (fun e s' => IsVmError e ∧ Safe stackLimit instructionBudget capabilities s' ∧
        Round capabilities program s s') fun _ => False := by
  have hraise (error : VMError) : IsVmError (.vm error) ∧
      Safe stackLimit instructionBudget capabilities s ∧ Round capabilities program s s :=
    ⟨isVmError_vm error, hs, Round.refl program s⟩
  refine wp_bind.mpr (wp_get.mpr (wp_bind.mpr (wp_check.mpr ⟨fun hbudget => ?_, fun _ => hraise _⟩)))
  refine wp_bind.mpr (wp_check.mpr ⟨fun hrange => ?_, fun _ => hraise _⟩)
  have hpc : 0 ≤ s.pc ∧ s.pc < program.instructions.length := by omega
  -- the check before the fetch leaves nothing to raise
  obtain ⟨index, hindex⟩ := Int.eq_ofNat_of_zero_le hpc.1
  have hlt : index < program.instructions.length := by omega
  have hfetch : pyIndex program.instructions s.pc = .ok program.instructions[index] := by
    rw [hindex]
    exact pyIndex_of_lt hlt
  rw [hfetch]
  refine wp_bind.mpr (wp_bind.mpr ?_)
  have hcounted : Safe stackLimit instructionBudget capabilities
      { s with executed := s.executed + 1, pc := s.pc + 1 } :=
    ⟨Nat.succ_le_of_lt (by omega), hs.stack_le, hs.stack_u32, hs.outputs_u32, hs.outputs_granted⟩
  refine wp_modify.mpr (wp_ite.mpr ⟨fun _ => ?_, fun _ => ?_⟩)
  · refine wp_bind.mpr (wp_get.mpr (wp_pure.mpr ⟨⟨hcounted, ?_⟩, rfl, ?_⟩))
    · exact Round.of_appends hpc (Std.Refl.refl _)
    · rintro result ⟨⟩
      rfl
  · have hperform : Contained stackLimit instructionBudget capabilities
        (perform program stackLimit (host.handle capabilities) program.instructions[index]) :=
      perform_contained program host (hoperand _ (List.getElem_mem hlt))
    refine wp_bind.mpr ((hperform _ hcounted).mono (fun _ s' h => ?_) (fun e s' h => ?_) fun _ h => h)
    · exact ⟨⟨h.1, Round.of_appends hpc h.2⟩, h.2.executed, fun _ h => nomatch h⟩
    · exact ⟨h.1, h.2.1, Round.of_appends hpc h.2.2⟩

end Rounds

/-! ### Runs -/

/-- The registers are read with their capability only. -/
theorem handle_results {host : SyscallHost} {capabilities : List ℤ} {syscallId : ℕ}
    {values results : List ℕ} {s s' : VmState}
    (h : host.handle capabilities syscallId values s = .ret results s') (hne : results ≠ []) :
    capRccRead ∈ capabilities := by
  by_contra hcap
  have hnone : wp (host.handle capabilities syscallId values) s (fun results _ => results = [])
      (fun _ _ => True) fun _ => True := ?_
  · exact hne (hnone.ret h)
  rw [SyscallHost.handle.eq_def]
  refine wp_ite.mpr ⟨fun _ => ?_, fun _ => wp_ite.mpr ⟨fun _ => ?_, fun _ => trivial⟩⟩
  · exact wp_bind.mpr (wp_check.mpr ⟨fun h => absurd h hcap, fun _ => trivial⟩)
  · refine wp_bind.mpr (wp_check.mpr ⟨fun _ => ?_, fun _ => trivial⟩)
    refine wp_bind.mpr (wp_check.mpr ⟨fun htwo => ?_, fun _ => trivial⟩)
    obtain ⟨value, channel, rfl⟩ := List.length_eq_two.mp htwo
    exact wp_bind.mpr (wp_modify.mpr rfl)

theorem parseProgram_maxStack {blob : List UInt8} {program : BytecodeProgram}
    (h : parseProgram blob = .ok program) : 0 < program.maxStack := by
  simp only [parseProgram, except_bind_eq_ok, require_eq_ok, pure, Except.pure,
    Except.ok.injEq] at h
  obtain ⟨_, _, _, _, _, _, _, _, _, _, _, _, _, _, _, hstack, _, _, rfl⟩ := h
  exact hstack.1

/-- The loop starts in a safe state. -/
theorem enter_safe (vm : BytecodeVM) {blob : List UInt8} {program : BytecodeProgram}
    (h : parseProgram blob = .ok program) (capabilities : List ℤ) (s : VmState) :
    Safe (min program.maxStack vm.maxStack) vm.instructionBudget capabilities
      (enter program { s with outputs := [] }) := by
  have hstack := parseProgram_maxStack h
  have hlimit := vm.maxStack_range.1
  refine ⟨Nat.zero_le _, ?_, fun _ h => absurd h List.not_mem_nil,
    fun _ h => absurd h List.not_mem_nil, fun h => absurd rfl h⟩
  change ((0 : ℕ) : ℤ) ≤ _
  omega

/-- A run of a program that was loaded. -/
theorem execute_of_parsed (vm : BytecodeVM) {blob : List UInt8} {program : BytecodeProgram}
    (h : parseProgram blob = .ok program) (capabilities : List ℤ) (fuel : ℕ) (s : VmState) :
    vm.execute blob capabilities fuel s =
      (vm.round capabilities program).untilSome fuel (enter program { s with outputs := [] }) := by
  rw [BytecodeVM.execute, h]
  rfl

theorem execute_of_rejected (vm : BytecodeVM) {blob : List UInt8} {e : PyError}
    (h : parseProgram blob = .error e) (capabilities : List ℤ) (fuel : ℕ) (s : VmState) :
    vm.execute blob capabilities fuel s = .err e { s with outputs := [] } := by
  rw [BytecodeVM.execute, h]
  rfl

/-- A round of a loaded program, between safe states. -/
theorem round_spec (vm : BytecodeVM) {blob : List UInt8} {program : BytecodeProgram}
    (h : parseProgram blob = .ok program) {capabilities : List ℤ} {s : VmState}
    (hs : Safe (min program.maxStack vm.maxStack) vm.instructionBudget capabilities s) :
    wp (vm.round capabilities program) s
      (fun r s' => (Safe (min program.maxStack vm.maxStack) vm.instructionBudget capabilities s' ∧
          Round capabilities program s s') ∧ s'.executed = s.executed + 1 ∧
        ∀ result, r = some result → result = ⟨true, s'.executed, s'.outputs, s'.stack.reverse⟩)
      (fun e s' => IsVmError e ∧
        Safe (min program.maxStack vm.maxStack) vm.instructionBudget capabilities s' ∧
        Round capabilities program s s') fun _ => False :=
  iterate_spec vm.host (parseProgram_operand h) hs

/-- The loop of a loaded program ends. The measure is what is left of the budget. -/
theorem run_spec (vm : BytecodeVM) {blob : List UInt8} {program : BytecodeProgram}
    (h : parseProgram blob = .ok program) {capabilities : List ℤ} {s : VmState} {fuel : ℕ}
    (hfuel : vm.instructionBudget < fuel)
    (hs : Safe (min program.maxStack vm.maxStack) vm.instructionBudget capabilities s) :
    wp ((vm.round capabilities program).untilSome fuel) s
      (fun r s' => ∃ result, r = some result ∧
        Safe (min program.maxStack vm.maxStack) vm.instructionBudget capabilities s' ∧
        result = ⟨true, s'.executed, s'.outputs, s'.stack.reverse⟩)
      (fun e s' => IsVmError e ∧
        Safe (min program.maxStack vm.maxStack) vm.instructionBudget capabilities s')
      fun _ => False := by
  refine wp_untilSome (fun s => vm.instructionBudget - s.executed) (fun s hs => ?_) fuel s hs
    (by omega)
  refine (round_spec vm h hs).mono (fun r s' hr => ?_) (fun _ _ he => ⟨he.1, he.2.1⟩) fun _ hc => hc
  obtain ⟨⟨hsafe, _⟩, hcount, hresult⟩ := hr
  refine ⟨fun result hsome => ⟨hsafe, hresult result hsome⟩, fun _ => ⟨hsafe, ?_⟩⟩
  have hle := hsafe.executed_le
  omega

/-- **The sandbox.** Whatever the bytes, the capabilities and the registers are, `execute` ends within
its budget, with `VMError` or with a result. In every state between two rounds, in the state after the
round that follows it and in the last state, no more than the budget has been executed, and the stack
and the outputs hold words within their bounds; each fetch is inside the program; and outputs are
appended, and registers returned, with the capability only. -/
theorem execute_sandboxed (vm : BytecodeVM) (blob : List UInt8) (capabilities : List ℤ)
    (s₀ : VmState) :
    (∃ outcome : Outcome VmState PyError (Option ExecutionResult),
      (∀ fuel, vm.instructionBudget < fuel → vm.execute blob capabilities fuel s₀ = outcome) ∧
      ((∃ error s, outcome = .err (.vm error) s) ∨
        ∃ s, outcome = .ret (some ⟨true, s.executed, s.outputs, s.stack.reverse⟩) s) ∧
      (∀ e, parseProgram blob = .error e → outcome.state.outputs = []) ∧
      ∀ program, parseProgram blob = .ok program →
        Safe (min program.maxStack vm.maxStack) vm.instructionBudget capabilities outcome.state) ∧
    (∀ program, parseProgram blob = .ok program → ∀ s,
      Visits (vm.round capabilities program) (enter program { s₀ with outputs := [] }) s →
        Safe (min program.maxStack vm.maxStack) vm.instructionBudget capabilities s ∧
        Safe (min program.maxStack vm.maxStack) vm.instructionBudget capabilities
          (vm.round capabilities program s).state ∧
        Round capabilities program s (vm.round capabilities program s).state) ∧
    ∀ syscallId values s results s',
      vm.host.handle capabilities syscallId values s = .ret results s' → results ≠ [] →
        capRccRead ∈ capabilities := by
  refine ⟨?_, fun program h s hs => ?_, fun _ _ _ _ _ h hne => handle_results h hne⟩
  · cases h : parseProgram blob with
    | error e =>
      obtain ⟨error, rfl⟩ := parseProgram_raises blob e h
      refine ⟨.err (.vm error) { s₀ with outputs := [] }, fun fuel _ => ?_, .inl ⟨error, _, rfl⟩,
        fun _ _ => rfl, fun _ h => nomatch h⟩
      exact execute_of_rejected vm h capabilities fuel s₀
    | ok program =>
      have hgoes := run_spec vm h (Nat.lt_succ_self _) (enter_safe vm h capabilities s₀)
      refine ⟨(vm.round capabilities program).untilSome (vm.instructionBudget + 1)
        (enter program { s₀ with outputs := [] }), fun fuel hfuel => ?_, ?_,
        (fun _ h => nomatch h), fun program' hprogram => ?_⟩
      · rw [execute_of_parsed vm h]
        refine untilSome_stable (fun s' hnone => ?_) (Nat.succ_le_of_lt hfuel)
        obtain ⟨result, hsome, _⟩ := hgoes.ret hnone
        cases hsome
      · cases hrun : (vm.round capabilities program).untilSome (vm.instructionBudget + 1)
          (enter program { s₀ with outputs := [] }) with
        | ret r s =>
          obtain ⟨result, rfl, _, rfl⟩ := hgoes.ret hrun
          exact .inr ⟨s, rfl⟩
        | err e s =>
          obtain ⟨⟨error, rfl⟩, _⟩ := hgoes.err hrun
          exact .inl ⟨error, s, rfl⟩
        | cut s => exact (hgoes.cut hrun).elim
      · obtain rfl := Except.ok.inj hprogram
        exact hgoes.state (fun _ _ ⟨_, _, hsafe, _⟩ => hsafe) fun _ _ he => he.2
  · have hall : Safe (min program.maxStack vm.maxStack) vm.instructionBudget capabilities s :=
      hs.inv (fun s s' hs hround => ((round_spec vm h hs).ret hround).1.1)
        (enter_safe vm h capabilities s₀)
    refine ⟨hall, ?_⟩
    exact (round_spec vm h hall).state (fun _ _ h => h.1) fun _ _ h => h.2

end Stm32SecurityLab.Bytecode
