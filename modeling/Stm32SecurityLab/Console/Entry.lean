import Stm32SecurityLab.Console.Discipline
import Stm32SecurityLab.Protocol.Service
import Stm32SecurityLab.Host.Codec

/-!
# The way into the update mode

`update_mode.c`: what the bootloader does with the first bytes that come. Each goes to the frame
parser and to a line editor. The first of them that has something complete decides, and when the
budgets are used up before that, the system boots.

The frame parser decides what the scanner decides, so the classification can be read off the bytes.
A line is what the console would have made of the same bytes, with one exception: of a line that was
too long nothing is left, and the console, which is told of an empty line, does not complain.

The line editor works on memory that nobody has initialised.

## Main definitions

* `entryTextAcceptByte`, `entryLoop`, `waitForUpdateOrConsoleEntry`
* `Polls` — what a reader delivers within the budget of idle polls
* `AnswersAsTyped` — the console answers a line as if it had been typed

## Main results

* `entryLoop_bounded`, `entryLoop_hello_iff`, `entryLoop_text_iff` — the classification
* `entryLoop_eq_waitLoop` — without line ends it is that of the update service
* `entryLoop_line` — the line that is handed to the console
* `entry_exact_iff`
-/

namespace Stm32SecurityLab

open Crash LineEditor

/-! ### The code -/

/-- `UPDATE_SERVICE_DEFAULT_ENTRY_IDLE_POLLS`. -/
def updateServiceDefaultEntryIdlePolls : ℕ := 800000

/-- `UPDATE_SERVICE_DEFAULT_ENTRY_MAX_BYTES`. -/
def updateServiceDefaultEntryMaxBytes : ℕ := updateProtocolMaxFrameSize * 2

/-- `update_mode_entry_t`. -/
inductive UpdateModeEntry where
  | boot
  | binaryHello
  | textConsole
  deriving DecidableEq, Repr

/-- The text line of the entry. -/
structure EntryText where
  line : Mem
  lineLength : ℕ := 0
  lineOverflow : Bool := false

/-- `reset_text_line`. -/
def resetTextLine (text : EntryText) : EntryText :=
  { line := Function.update text.line 0 0, lineLength := 0, lineOverflow := false }

/-- `entry_text_accept_byte`. -/
def entryTextAcceptByte (byte : UInt8) (text : EntryText) : EntryText :=
  if byte = 0x08 ∨ byte = 0x7F then
    if text.lineLength ≠ 0 then
      { text with
        line := Function.update text.line (text.lineLength - 1) 0
        lineLength := text.lineLength - 1 }
    else
      text
  else if byte ≠ 0x09 ∧ (byte < 0x20 ∨ byte > 0x7E) then
    resetTextLine text
  else if text.lineLength ≥ diagnosticConsoleMaxLineLength then
    { text with lineOverflow := true }
  else
    { text with
      line := Function.update
        (Function.update text.line text.lineLength (if byte = 0x09 then 0x20 else byte))
        (text.lineLength + 1) 0
      lineLength := text.lineLength + 1 }

/-- A line that is over, as `wait_for_update_or_console_entry` hands it on. -/
def endTextLine (text : EntryText) : Mem :=
  let line := Function.update text.line text.lineLength 0
  if text.lineOverflow then Function.update line 0 0 else line

/-- The parser with which the loop of `wait_for_update_or_console_entry` goes on. -/
def goOn (parser : UpdateProtocolParser) (byte : UInt8) : UpdateProtocolParser :=
  if (updateProtocolParserPush parser byte).1 = .needMore then
    (updateProtocolParserPush parser byte).2
  else {}

/-- The loop of `wait_for_update_or_console_entry`: the entry, the text line, the parser, and how
often the reader has been polled by then. -/
def entryLoop (getc : ℕ → ByteRead) (idlePolls byteCount : ℕ) (parser : UpdateProtocolParser)
    (text : EntryText) (polled : ℕ) : UpdateModeEntry × Mem × UpdateProtocolParser × ℕ :=
  if _h : idlePolls < updateServiceDefaultEntryIdlePolls ∧
      byteCount < updateServiceDefaultEntryMaxBytes then
    match getc polled with
    | .noData => entryLoop getc (idlePolls + 1) byteCount parser text (polled + 1)
    | .ok byte =>
      if (updateProtocolParserPush parser byte).1 = .frameReady ∧
          frameIsInitialHello (updateProtocolParserPush parser byte).2.frame then
        (.binaryHello, text.line, (updateProtocolParserPush parser byte).2, polled + 1)
      else if byte = 0x0D ∨ byte = 0x0A then
        (.textConsole, endTextLine text, goOn parser byte, polled + 1)
      else
        entryLoop getc 0 (byteCount + 1) (goOn parser byte) (entryTextAcceptByte byte text)
          (polled + 1)
    | _ => (.boot, text.line, parser, polled + 1)
  else
    (.boot, text.line, parser, polled)
termination_by (updateServiceDefaultEntryMaxBytes - byteCount,
  updateServiceDefaultEntryIdlePolls - idlePolls)

/-- `wait_for_update_or_console_entry`, for a line of so many characters. -/
def waitForUpdateOrConsoleEntry (getc : ℕ → ByteRead) (textLine : Mem) (textLineCapacity : ℕ)
    (polled : ℕ) : UpdateModeEntry × Mem × UpdateProtocolParser × ℕ :=
  if textLineCapacity ≤ diagnosticConsoleMaxLineLength then (.boot, textLine, {}, polled)
  else entryLoop getc 0 0 {} { line := Function.update textLine 0 0 } polled

/-- The size of `initial_line` in `update_mode_poll_and_process_mode`. -/
def initialLineSize : ℕ := diagnosticConsoleMaxLineLength + 1

/-- The string in a line buffer. -/
def stringOf (line : Mem) : CString where
  bytes := (slice line 0 initialLineSize).takeWhile (· ≠ 0)
  terminated hmem := absurd (List.all_eq_true.mp List.all_takeWhile 0 hmem) (by decide)

/-! ### What the reader delivers -/

/-- The reader delivers `bytes`, with fewer silent polls in a row than there may be. It starts after
`idlePolls` silent ones, and ends so. -/
inductive Polls (getc : ℕ → ByteRead) : ℕ → ℕ → List UInt8 → ℕ → ℕ → Prop
  | done (idlePolls polled : ℕ) : Polls getc idlePolls polled [] idlePolls polled
  | silent {idlePolls polled idlePolls' polled' : ℕ} {bytes : List UInt8}
      (idle : idlePolls < updateServiceDefaultEntryIdlePolls) (none : getc polled = .noData)
      (rest : Polls getc (idlePolls + 1) (polled + 1) bytes idlePolls' polled') :
      Polls getc idlePolls polled bytes idlePolls' polled'
  | byte {idlePolls polled idlePolls' polled' : ℕ} {byte : UInt8} {bytes : List UInt8}
      (idle : idlePolls < updateServiceDefaultEntryIdlePolls) (some : getc polled = .ok byte)
      (rest : Polls getc 0 (polled + 1) bytes idlePolls' polled') :
      Polls getc idlePolls polled (byte :: bytes) idlePolls' polled'

/-- A line end. -/
def IsLineEnd (byte : UInt8) : Prop := byte = 0x0D ∨ byte = 0x0A

instance (byte : UInt8) : Decidable (IsLineEnd byte) := inferInstanceAs (Decidable (_ ∨ _))

/-- The `HELLO` that opens a session. -/
def initialHello : Frame := ⟨updateProtocolVersion, UpdateProtocolCommand.hello.toUInt8, 0, []⟩

/-- `bytes` are the next ones that come within the budgets. -/
def Within (getc : ℕ → ByteRead) (idlePolls byteCount polled : ℕ) (bytes : List UInt8)
    (polled' : ℕ) : Prop :=
  Polls getc idlePolls polled bytes 0 polled' ∧
    byteCount + bytes.length ≤ updateServiceDefaultEntryMaxBytes

theorem frameIsInitialHello_iff (frame : UpdateProtocolFrame) :
    frameIsInitialHello frame = true ↔ frame.contents = initialHello := by
  have hdata : frame.data = [] ↔ frame.payloadLength = 0 := by
    rw [← List.length_eq_zero_iff, frame.data_length]
    exact UInt16.toNat_inj (b := 0)
  simp only [frameIsInitialHello, initialHello, UpdateProtocolFrame.contents, Bool.and_eq_true,
    beq_iff_eq, Frame.mk.injEq, hdata, and_assoc]

/-! ### The classification -/

section Polls

variable {getc : ℕ → ByteRead} {idlePolls polled idlePolls' polled' : ℕ} {byte : UInt8}
  {bytes : List UInt8}

/-- The first of the bytes comes now, or there is a silence. -/
theorem polls_cons : Polls getc idlePolls polled (byte :: bytes) idlePolls' polled' ↔
    idlePolls < updateServiceDefaultEntryIdlePolls ∧
      (getc polled = .noData ∧
          Polls getc (idlePolls + 1) (polled + 1) (byte :: bytes) idlePolls' polled' ∨
        getc polled = .ok byte ∧ Polls getc 0 (polled + 1) bytes idlePolls' polled') := by
  constructor
  · intro h
    cases h with
    | silent idle none rest => exact ⟨idle, Or.inl ⟨none, rest⟩⟩
    | byte idle some rest => exact ⟨idle, Or.inr ⟨some, rest⟩⟩
  · rintro ⟨idle, ⟨none, rest⟩ | ⟨some, rest⟩⟩
    · exact .silent idle none rest
    · exact .byte idle some rest

/-- Where no byte comes there is silence. -/
theorem polls_nil (h : Polls getc idlePolls polled [] idlePolls' polled') :
    polled' + idlePolls = polled + idlePolls' ∧ idlePolls ≤ idlePolls' := by
  generalize hnil : ([] : List UInt8) = bytes at h
  induction h with
  | done idlePolls polled => exact ⟨rfl, Nat.le_refl _⟩
  | silent idle none rest ih =>
    obtain ⟨heq, hle⟩ := ih hnil
    exact ⟨by omega, by omega⟩
  | byte => cases hnil

/-- A reader that is never silent delivers its bytes. -/
theorem polls_of_forall (h : ∀ i (hi : i < bytes.length), getc (polled + i) = .ok bytes[i]) :
    Polls getc 0 polled bytes 0 (polled + bytes.length) := by
  induction bytes generalizing polled with
  | nil => exact .done 0 polled
  | cons byte bytes ih =>
    refine .byte (by decide) (h 0 (Nat.succ_pos _)) ?_
    rw [List.length_cons, Nat.add_comm bytes.length, ← Nat.add_assoc]
    refine ih fun i hi => ?_
    rw [Nat.add_assoc, Nat.add_comm 1]
    exact h (i + 1) (Nat.succ_lt_succ hi)

end Polls

section Push

variable {parser : UpdateProtocolParser}

theorem goOn_wellFormed (wf : parser.WellFormed) (byte : UInt8) :
    (goOn parser byte).WellFormed := by
  rw [goOn]
  split
  · exact wf.push byte
  · exact UpdateProtocolParser.wellFormed_init

/-- The loop sees a `HELLO` when the parser reports one. -/
theorem hello_iff (byte : UInt8) :
    ((updateProtocolParserPush parser byte).1 = .frameReady ∧
        frameIsInitialHello (updateProtocolParserPush parser byte).2.frame) ↔
      parseResult (updateProtocolParserPush parser byte) = some (.frameReady initialHello) := by
  rcases updateProtocolParserPush parser byte with ⟨status, parser'⟩
  rw [frameIsInitialHello_iff]
  cases status with
  | frameReady =>
    show _ ↔ some (ParseResult.frameReady parser'.frame.contents) = _
    rw [Option.some.injEq, ParseResult.frameReady.injEq, and_iff_right rfl]
  | needMore => exact iff_of_false (fun h => nomatch h.1) fun h => nomatch h
  | errOversize => exact iff_of_false (fun h => nomatch h.1) fun h => nomatch h
  | errCrc => exact iff_of_false (fun h => nomatch h.1) fun h => nomatch h

/-- **What one more byte means to the scanner.** -/
theorem scan_goOn (wf : parser.WellFormed) (byte : UInt8) (rest : List UInt8) :
    scan (parser.held ++ byte :: rest) =
      (parseResult (updateProtocolParserPush parser byte)).toList ++
        scan ((goOn parser byte).held ++ rest) := by
  have hpush := nextResult_push wf byte rest
  have hheld := @held_of_parseResult parser byte
  have hgo : (goOn parser byte).held = (updateProtocolParserPush parser byte).2.held := by
    rw [goOn]
    split
    · rfl
    · rename_i hmore
      cases hresult : parseResult (updateProtocolParserPush parser byte) with
      | none =>
        refine absurd ?_ hmore
        revert hresult
        rcases updateProtocolParserPush parser byte with ⟨status, parser'⟩
        cases status <;> intro hresult <;> first | rfl | cases hresult
      | some result => exact (hheld wf hresult).symm
  rw [hgo]
  cases hresult : parseResult (updateProtocolParserPush parser byte) with
  | none =>
    rw [hresult] at hpush
    exact scan_congr hpush
  | some result =>
    rw [hresult] at hpush
    rw [scan_of_some hpush, hheld wf hresult]
    rfl

end Push

/-- A `HELLO` is complete, and no line end has come before its last byte. The parser holds `held`
already. -/
def HelloIn (held bytes : List UInt8) : Prop :=
  (∀ byte ∈ bytes.dropLast, ¬ IsLineEnd byte) ∧ .frameReady initialHello ∈ scan (held ++ bytes)

/-- A line is over, and no `HELLO` is complete. -/
def LineIn (held bytes : List UInt8) : Prop :=
  ∃ typed byte, bytes = typed ++ [byte] ∧ (∀ byte ∈ typed, ¬ IsLineEnd byte) ∧ IsLineEnd byte ∧
    .frameReady initialHello ∉ scan (held ++ bytes)

section Steps

variable {parser : UpdateProtocolParser} {byte : UInt8} {rest : List UInt8}

theorem not_helloIn_nil (wf : parser.WellFormed) : ¬ HelloIn parser.held [] := by
  rintro ⟨-, hscan⟩
  rw [List.append_nil, scan_of_none (nextResult_held wf)] at hscan
  exact List.not_mem_nil hscan

theorem not_lineIn_nil (held : List UInt8) : ¬ LineIn held [] := by
  rintro ⟨typed, byte, hbytes, -⟩
  exact List.append_ne_nil_of_right_ne_nil typed (List.cons_ne_nil byte []) hbytes.symm

theorem hello_mem_scan (wf : parser.WellFormed) :
    .frameReady initialHello ∈ scan (parser.held ++ byte :: rest) ↔
      parseResult (updateProtocolParserPush parser byte) = some (.frameReady initialHello) ∨
        .frameReady initialHello ∈ scan ((goOn parser byte).held ++ rest) := by
  rw [scan_goOn wf, List.mem_append, Option.mem_toList]

/-- **One more byte, and a `HELLO`.** -/
theorem helloIn_cons (wf : parser.WellFormed) : HelloIn parser.held (byte :: rest) ↔
    parseResult (updateProtocolParserPush parser byte) = some (.frameReady initialHello) ∧
        (∀ byte' ∈ (byte :: rest).dropLast, ¬ IsLineEnd byte') ∨
      ¬ IsLineEnd byte ∧ HelloIn (goOn parser byte).held rest := by
  rw [HelloIn, hello_mem_scan wf]
  cases rest with
  | nil =>
    have hno : ¬ HelloIn (goOn parser byte).held [] := not_helloIn_nil (goOn_wellFormed wf byte)
    constructor
    · rintro ⟨hends, hnow | hlater⟩
      · exact Or.inl ⟨hnow, hends⟩
      · exact absurd ⟨fun _ h => absurd h List.not_mem_nil, hlater⟩ hno
    · rintro (⟨hnow, hends⟩ | ⟨-, hlater⟩)
      · exact ⟨hends, Or.inl hnow⟩
      · exact absurd hlater hno
  | cons byte' rest =>
    rw [List.dropLast_cons_cons, List.forall_mem_cons, HelloIn]
    constructor
    · rintro ⟨⟨hfirst, hends⟩, hnow | hlater⟩
      · exact Or.inl ⟨hnow, hfirst, hends⟩
      · exact Or.inr ⟨hfirst, hends, hlater⟩
    · rintro (⟨hnow, hfirst, hends⟩ | ⟨hfirst, hends, hlater⟩)
      · exact ⟨⟨hfirst, hends⟩, Or.inl hnow⟩
      · exact ⟨⟨hfirst, hends⟩, Or.inr hlater⟩

/-- **One more byte, and a line end.** -/
theorem lineIn_cons (wf : parser.WellFormed) : LineIn parser.held (byte :: rest) ↔
    parseResult (updateProtocolParserPush parser byte) ≠ some (.frameReady initialHello) ∧
      (IsLineEnd byte ∧ rest = [] ∨ ¬ IsLineEnd byte ∧ LineIn (goOn parser byte).held rest) := by
  constructor
  · rintro ⟨typed, byte', hbytes, htyped, hend, hscan⟩
    rw [hello_mem_scan wf, not_or] at hscan
    refine ⟨hscan.1, ?_⟩
    cases typed with
    | nil =>
      obtain ⟨rfl, rfl⟩ := List.cons.inj hbytes
      exact Or.inl ⟨hend, rfl⟩
    | cons first typed =>
      obtain ⟨rfl, rfl⟩ := List.cons.inj hbytes
      obtain ⟨hfirst, htyped⟩ := List.forall_mem_cons.mp htyped
      exact Or.inr ⟨hfirst, typed, byte', rfl, htyped, hend, hscan.2⟩
  · rintro ⟨hno, ⟨hend, rfl⟩ | ⟨hfirst, typed, byte', rfl, htyped, hend, hscan⟩⟩
    · refine ⟨[], byte, rfl, fun _ h => absurd h List.not_mem_nil, hend, ?_⟩
      rw [hello_mem_scan wf, List.append_nil,
        scan_of_none (nextResult_held (goOn_wellFormed wf byte))]
      exact not_or.mpr ⟨hno, List.not_mem_nil⟩
    · refine ⟨byte :: typed, byte', rfl, List.forall_mem_cons.mpr ⟨hfirst, htyped⟩, hend, ?_⟩
      rw [hello_mem_scan wf]
      exact not_or.mpr ⟨hno, hscan⟩

end Steps

section Loop

variable {getc : ℕ → ByteRead} {idlePolls byteCount polled : ℕ}

/-- **What may come next.** -/
theorem exists_within {P : List UInt8 → ℕ → Prop} (hnil : ∀ polled', ¬ P [] polled') :
    (∃ bytes polled', Within getc idlePolls byteCount polled bytes polled' ∧ P bytes polled') ↔
      (idlePolls < updateServiceDefaultEntryIdlePolls ∧
          byteCount < updateServiceDefaultEntryMaxBytes) ∧
        (getc polled = .noData ∧ (∃ bytes polled',
            Within getc (idlePolls + 1) byteCount (polled + 1) bytes polled' ∧ P bytes polled') ∨
          ∃ byte, getc polled = .ok byte ∧ ∃ bytes polled',
            Within getc 0 (byteCount + 1) (polled + 1) bytes polled' ∧
              P (byte :: bytes) polled') := by
  constructor
  · rintro ⟨bytes, polled', ⟨hpolls, hcount⟩, hP⟩
    cases bytes with
    | nil => exact absurd hP (hnil polled')
    | cons byte bytes =>
      rw [List.length_cons] at hcount
      obtain ⟨hidle, ⟨hnone, hrest⟩ | ⟨hsome, hrest⟩⟩ := polls_cons.mp hpolls
      · exact ⟨⟨hidle, by omega⟩, Or.inl ⟨hnone, _, polled', ⟨hrest, hcount⟩, hP⟩⟩
      · exact ⟨⟨hidle, by omega⟩,
          Or.inr ⟨byte, hsome, bytes, polled', ⟨hrest, by omega⟩, hP⟩⟩
  · rintro ⟨⟨hidle, hcount⟩, ⟨hnone, bytes, polled', ⟨hpolls, hlength⟩, hP⟩ |
      ⟨byte, hsome, bytes, polled', ⟨hpolls, hlength⟩, hP⟩⟩
    · exact ⟨bytes, polled', ⟨.silent hidle hnone hpolls, hlength⟩, hP⟩
    · refine ⟨byte :: bytes, polled', ⟨.byte hidle hsome hpolls, ?_⟩, hP⟩
      rw [List.length_cons]
      omega

theorem exists_within_silent {P : List UInt8 → ℕ → Prop} (hnil : ∀ polled', ¬ P [] polled')
    (hbudget : idlePolls < updateServiceDefaultEntryIdlePolls ∧
      byteCount < updateServiceDefaultEntryMaxBytes) (hnone : getc polled = .noData) :
    (∃ bytes polled', Within getc idlePolls byteCount polled bytes polled' ∧ P bytes polled') ↔
      ∃ bytes polled', Within getc (idlePolls + 1) byteCount (polled + 1) bytes polled' ∧
        P bytes polled' := by
  rw [exists_within hnil, and_iff_right hbudget, and_iff_right hnone]
  refine or_iff_left ?_
  rintro ⟨byte, hsome, -⟩
  rw [hnone] at hsome
  cases hsome

theorem exists_within_byte {P : List UInt8 → ℕ → Prop} (hnil : ∀ polled', ¬ P [] polled')
    (hbudget : idlePolls < updateServiceDefaultEntryIdlePolls ∧
      byteCount < updateServiceDefaultEntryMaxBytes) {byte : UInt8}
    (hsome : getc polled = .ok byte) :
    (∃ bytes polled', Within getc idlePolls byteCount polled bytes polled' ∧ P bytes polled') ↔
      ∃ bytes polled', Within getc 0 (byteCount + 1) (polled + 1) bytes polled' ∧
        P (byte :: bytes) polled' := by
  rw [exists_within hnil, and_iff_right hbudget]
  constructor
  · rintro (⟨hnone, -⟩ | ⟨byte', hsome', h⟩)
    · rw [hsome] at hnone
      cases hnone
    · rw [hsome] at hsome'
      cases hsome'
      exact h
  · exact fun h => Or.inr ⟨byte, hsome, h⟩

theorem not_exists_within {P : List UInt8 → ℕ → Prop} (hnil : ∀ polled', ¬ P [] polled')
    (hover : (idlePolls < updateServiceDefaultEntryIdlePolls ∧
      byteCount < updateServiceDefaultEntryMaxBytes) →
        getc polled ≠ .noData ∧ ∀ byte, getc polled ≠ .ok byte) :
    ¬ ∃ bytes polled', Within getc idlePolls byteCount polled bytes polled' ∧
      P bytes polled' := by
  rw [exists_within hnil]
  rintro ⟨hbudget, ⟨hnone, -⟩ | ⟨byte, hsome, -⟩⟩
  · exact (hover hbudget).1 hnone
  · exact (hover hbudget).2 byte hsome

theorem within_nil (hbudget : byteCount ≤ updateServiceDefaultEntryMaxBytes) :
    Within getc 0 byteCount polled [] polled := ⟨.done 0 polled, hbudget⟩

/-- **The loop sees a `HELLO` when the scanner does**, and no line end comes first. -/
theorem entryLoop_hello_iff {parser : UpdateProtocolParser} {text : EntryText}
    (wf : parser.WellFormed) :
    (entryLoop getc idlePolls byteCount parser text polled).1 = .binaryHello ↔
      ∃ bytes polled', Within getc idlePolls byteCount polled bytes polled' ∧
        HelloIn parser.held bytes := by
  fun_induction entryLoop getc idlePolls byteCount parser text polled with
  | case1 idlePolls byteCount parser text polled hbudget hnone ih =>
    rw [ih wf, exists_within_silent (fun _ => not_helloIn_nil wf) hbudget hnone]
  | case2 idlePolls byteCount parser text polled hbudget byte hsome hhello =>
    rw [exists_within_byte (fun _ => not_helloIn_nil wf) hbudget hsome]
    refine iff_of_true rfl ⟨[], polled + 1, within_nil hbudget.2, (helloIn_cons wf).mpr (Or.inl ?_)⟩
    exact ⟨(hello_iff byte).mp hhello, fun _ h => absurd h List.not_mem_nil⟩
  | case3 idlePolls byteCount parser text polled hbudget byte hsome hno hend =>
    rw [exists_within_byte (fun _ => not_helloIn_nil wf) hbudget hsome]
    refine iff_of_false (fun h => nomatch h) ?_
    rintro ⟨bytes, polled', -, hin⟩
    rcases (helloIn_cons wf).mp hin with ⟨hnow, -⟩ | ⟨hfirst, -⟩
    · exact hno ((hello_iff byte).mpr hnow)
    · exact hfirst hend
  | case4 idlePolls byteCount parser text polled hbudget byte hsome hno hend ih =>
    rw [ih (goOn_wellFormed wf byte),
      exists_within_byte (fun _ => not_helloIn_nil wf) hbudget hsome]
    refine exists₂_congr fun bytes polled' => and_congr_right fun _ => ?_
    rw [helloIn_cons wf, and_iff_right (show ¬ IsLineEnd byte from hend)]
    exact (or_iff_right fun h => hno ((hello_iff byte).mpr h.1)).symm
  | case5 idlePolls byteCount parser text polled hbudget hnone hsome =>
    refine iff_of_false (fun h => nomatch h) (not_exists_within (fun _ => not_helloIn_nil wf) ?_)
    exact fun _ => ⟨hnone, hsome⟩
  | case6 idlePolls byteCount parser text polled hbudget =>
    refine iff_of_false (fun h => nomatch h) (not_exists_within (fun _ => not_helloIn_nil wf) ?_)
    exact fun h => absurd h hbudget

/-- **The loop sees a line end** when one comes and the scanner has not seen a `HELLO`. -/
theorem entryLoop_text_iff {parser : UpdateProtocolParser} {text : EntryText}
    (wf : parser.WellFormed) :
    (entryLoop getc idlePolls byteCount parser text polled).1 = .textConsole ↔
      ∃ bytes polled', Within getc idlePolls byteCount polled bytes polled' ∧
        LineIn parser.held bytes := by
  fun_induction entryLoop getc idlePolls byteCount parser text polled with
  | case1 idlePolls byteCount parser text polled hbudget hnone ih =>
    rw [ih wf, exists_within_silent (fun _ => not_lineIn_nil _) hbudget hnone]
  | case2 idlePolls byteCount parser text polled hbudget byte hsome hhello =>
    rw [exists_within_byte (fun _ => not_lineIn_nil _) hbudget hsome]
    refine iff_of_false (fun h => nomatch h) ?_
    rintro ⟨bytes, polled', -, hin⟩
    exact ((lineIn_cons wf).mp hin).1 ((hello_iff byte).mp hhello)
  | case3 idlePolls byteCount parser text polled hbudget byte hsome hno hend =>
    rw [exists_within_byte (fun _ => not_lineIn_nil _) hbudget hsome]
    refine iff_of_true rfl ⟨[], polled + 1, within_nil hbudget.2, (lineIn_cons wf).mpr ?_⟩
    exact ⟨fun h => hno ((hello_iff byte).mpr h), Or.inl ⟨hend, rfl⟩⟩
  | case4 idlePolls byteCount parser text polled hbudget byte hsome hno hend ih =>
    rw [ih (goOn_wellFormed wf byte), exists_within_byte (fun _ => not_lineIn_nil _) hbudget hsome]
    refine exists₂_congr fun bytes polled' => and_congr_right fun _ => ?_
    have hend : ¬ IsLineEnd byte := hend
    rw [lineIn_cons wf, and_iff_right fun h => hno ((hello_iff byte).mpr h), and_iff_right hend]
    exact (or_iff_right fun h => hend h.1).symm
  | case5 idlePolls byteCount parser text polled hbudget hnone hsome =>
    refine iff_of_false (fun h => nomatch h) (not_exists_within (fun _ => not_lineIn_nil _) ?_)
    exact fun _ => ⟨hnone, hsome⟩
  | case6 idlePolls byteCount parser text polled hbudget =>
    refine iff_of_false (fun h => nomatch h) (not_exists_within (fun _ => not_lineIn_nil _) ?_)
    exact fun h => absurd h hbudget

/-- **The loop ends within its budgets.** -/
theorem entryLoop_bounded {parser : UpdateProtocolParser} {text : EntryText}
    (hidle : idlePolls ≤ updateServiceDefaultEntryIdlePolls)
    (hcount : byteCount ≤ updateServiceDefaultEntryMaxBytes) :
    ∃ bytes idlePolls' polled', Polls getc idlePolls polled bytes idlePolls' polled' ∧
      byteCount + bytes.length ≤ updateServiceDefaultEntryMaxBytes ∧
      idlePolls' ≤ updateServiceDefaultEntryIdlePolls ∧
      ((entryLoop getc idlePolls byteCount parser text polled).2.2.2 = polled' ∨
        getc polled' ≠ .noData ∧ (∀ byte, getc polled' ≠ .ok byte) ∧
          (entryLoop getc idlePolls byteCount parser text polled).2.2.2 = polled' + 1) := by
  fun_induction entryLoop getc idlePolls byteCount parser text polled with
  | case1 idlePolls byteCount parser text polled hbudget hnone ih =>
    obtain ⟨bytes, idlePolls', polled', hpolls, hrest⟩ := ih hbudget.1 hcount
    exact ⟨bytes, idlePolls', polled', .silent hbudget.1 hnone hpolls, hrest⟩
  | case2 idlePolls byteCount parser text polled hbudget byte hsome =>
    exact ⟨[byte], 0, polled + 1, .byte hbudget.1 hsome (.done 0 _), hbudget.2, Nat.zero_le _,
      Or.inl rfl⟩
  | case3 idlePolls byteCount parser text polled hbudget byte hsome =>
    exact ⟨[byte], 0, polled + 1, .byte hbudget.1 hsome (.done 0 _), hbudget.2, Nat.zero_le _,
      Or.inl rfl⟩
  | case4 idlePolls byteCount parser text polled hbudget byte hsome hno hend ih =>
    obtain ⟨bytes, idlePolls', polled', hpolls, hlength, hrest⟩ := ih (Nat.zero_le _) hbudget.2
    refine ⟨byte :: bytes, idlePolls', polled', .byte hbudget.1 hsome hpolls, ?_, hrest⟩
    rw [List.length_cons]
    omega
  | case5 idlePolls byteCount parser text polled hbudget hnone hsome =>
    exact ⟨[], idlePolls, polled, .done _ _, hcount, hidle, Or.inr ⟨hnone, hsome, rfl⟩⟩
  | case6 idlePolls byteCount parser text polled hbudget =>
    exact ⟨[], idlePolls, polled, .done _ _, hcount, hidle, Or.inl rfl⟩

/-- **Without line ends the loop is that of the update service.** -/
theorem entryLoop_eq_waitLoop {config : UpdateServiceConfig} {parser : UpdateProtocolParser}
    {text : EntryText} (hgetc : config.getc = getc)
    (hidle : config.maxIdlePolls = updateServiceDefaultEntryIdlePolls)
    (hbytes : config.maxBytes = updateServiceDefaultEntryMaxBytes)
    (hends : ∀ n byte, getc n = .ok byte → ¬ IsLineEnd byte) :
    waitLoop config idlePolls byteCount parser polled =
        (decide ((entryLoop getc idlePolls byteCount parser text polled).1 = .binaryHello),
          (entryLoop getc idlePolls byteCount parser text polled).2.2) := by
  fun_induction entryLoop getc idlePolls byteCount parser text polled with
  | case1 idlePolls byteCount parser text polled hbudget hnone ih =>
    rw [waitLoop, dif_pos (by rw [hidle, hbytes]; exact hbudget), hgetc, hnone]
    exact ih
  | case2 idlePolls byteCount parser text polled hbudget byte hsome hhello =>
    obtain ⟨status, parser', hpush⟩ : ∃ status parser',
        updateProtocolParserPush parser byte = (status, parser') := ⟨_, _, rfl⟩
    rw [waitLoop, dif_pos (by rw [hidle, hbytes]; exact hbudget), hgetc, hsome]
    dsimp only
    rw [hpush] at hhello ⊢
    obtain rfl : status = .frameReady := hhello.1
    exact if_pos hhello.2
  | case3 idlePolls byteCount parser text polled hbudget byte hsome hno hend =>
    exact absurd hend (hends polled byte hsome)
  | case4 idlePolls byteCount parser text polled hbudget byte hsome hno hend ih =>
    obtain ⟨status, parser', hpush⟩ : ∃ status parser',
        updateProtocolParserPush parser byte = (status, parser') := ⟨_, _, rfl⟩
    rw [waitLoop, dif_pos (by rw [hidle, hbytes]; exact hbudget), hgetc, hsome, ← ih, goOn]
    dsimp only
    rw [hpush] at hno ⊢
    cases status with
    | frameReady => exact if_neg fun h => hno ⟨rfl, h⟩
    | needMore => rfl
    | errOversize => rfl
    | errCrc => rfl
  | case5 idlePolls byteCount parser text polled hbudget hnone hsome =>
    rw [waitLoop, dif_pos (by rw [hidle, hbytes]; exact hbudget), hgetc]
    split
    · exact absurd ‹_› hnone
    · exact absurd ‹_› (hsome _)
    · rfl
  | case6 idlePolls byteCount parser text polled hbudget =>
    rw [waitLoop, dif_neg (by rw [hidle, hbytes]; exact hbudget)]
    rfl

/-! ### The line -/

theorem stringOf_text {line : Mem} {text : List UInt8} (h : Text line 0 text) :
    (stringOf line).bytes = text := by
  obtain ⟨hhere, hended, hroom, hnonzero⟩ := h
  obtain ⟨n, hn⟩ := Nat.exists_eq_add_of_lt (Nat.lt_succ_of_le hroom)
  rw [Nat.zero_add] at hn hended
  have hall : ∀ a ∈ text, decide (a ≠ 0) = true :=
    fun a ha => decide_eq_true fun h => hnonzero (h ▸ ha)
  have hbytes : (stringOf line).bytes = (slice line 0 initialLineSize).takeWhile (· ≠ 0) := rfl
  rw [hbytes, show initialLineSize = text.length + (n + 1) from hn, slice_add, hhere, Nat.zero_add,
    slice_succ, hended, List.takeWhile_append_of_pos hall, List.takeWhile_cons_of_neg (by decide),
    List.append_nil]

/-- Of a line that is over the console gets what has been kept, and nothing of a line that was too
long. -/
theorem stringOf_endTextLine {typed : List UInt8} {text : EntryText}
    (h : Typing typed text.line text.lineLength text.lineOverflow) :
    (stringOf (endTextLine text)).bytes =
      if Overlong consoleKey diagnosticConsoleMaxLineLength typed then []
      else kept consoleKey typed := by
  rw [endTextLine]
  by_cases ho : Overlong consoleKey diagnosticConsoleMaxLineLength typed
  · rw [h.overlong ho, if_pos ho]
    exact stringOf_text (Text.empty _)
  · rw [(h.fits ho).1, if_neg ho]
    exact stringOf_text (h.text ho)

/-- **One more byte of a line**, as `read_line` would take it. -/
theorem typing_entryTextAcceptByte {typed : List UInt8} {text : EntryText} {byte : UInt8}
    (h : Typing typed text.line text.lineLength text.lineOverflow) (hend : ¬ IsLineEnd byte) :
    Typing (pending consoleKey typed [byte]) (entryTextAcceptByte byte text).line
      (entryTextAcceptByte byte text).lineLength (entryTextAcceptByte byte text).lineOverflow := by
  obtain ⟨henter, -⟩ | ⟨-, herase, hkey⟩ | ⟨-, herase, hcontrol, hkey⟩ |
    ⟨-, herase, hcontrol, hkey⟩ := consoleKey_cases byte
  · exact absurd henter hend
  · have hpending : pending consoleKey typed [byte] = typed ++ [byte] := by
      rw [pending, hkey]
      rfl
    rw [entryTextAcceptByte, if_pos herase, hpending]
    by_cases hzero : text.lineLength = 0
    · rw [if_neg fun h => h hzero]
      rw [hzero] at h ⊢
      exact h.erase_empty hkey
    · rw [if_pos hzero]
      exact h.erase hkey
  · have hpending : pending consoleKey typed [byte] = [] := by
      rw [pending, hkey]
      rfl
    rw [entryTextAcceptByte, if_neg herase, if_pos hcontrol, hpending]
    exact .start _
  · have hpending : pending consoleKey typed [byte] = typed ++ [byte] := by
      rw [pending, hkey]
      rfl
    have hne := consoleKey_char_ne hkey
    rw [entryTextAcceptByte, if_neg herase, if_neg hcontrol, hpending]
    by_cases hfull : text.lineLength ≥ diagnosticConsoleMaxLineLength
    · rw [if_pos hfull]
      exact h.full hkey hne hfull
    · rw [if_neg hfull]
      exact h.char hkey hne (Nat.not_le.mp hfull)

/-- The line that the console is handed, and the bytes that it finds behind it. -/
def Handed (typed : List UInt8) (out : UpdateModeEntry × Mem × UpdateProtocolParser × ℕ)
    (bytes : List UInt8) (polled' : ℕ) : Prop :=
  out.2.2.2 = polled' ∧ (stringOf out.2.1).bytes =
    if Overlong consoleKey diagnosticConsoleMaxLineLength
        (pending consoleKey typed bytes.dropLast) then []
    else kept consoleKey (pending consoleKey typed bytes.dropLast)

/-- **The line that is handed to the console** is what `read_line` would have made of the bytes. -/
theorem entryLoop_line {typed : List UInt8} {parser : UpdateProtocolParser} {text : EntryText}
    (wf : parser.WellFormed)
    (htyping : Typing typed text.line text.lineLength text.lineOverflow) :
    ¬ ∃ bytes polled', Within getc idlePolls byteCount polled bytes polled' ∧
      (LineIn parser.held bytes ∧
        ¬ Handed typed (entryLoop getc idlePolls byteCount parser text polled) bytes polled') := by
  fun_induction entryLoop getc idlePolls byteCount parser text polled generalizing typed with
  | case1 idlePolls byteCount parser text polled hbudget hnone ih =>
    rw [exists_within_silent (fun _ h => not_lineIn_nil _ h.1) hbudget hnone]
    exact ih wf htyping
  | case2 idlePolls byteCount parser text polled hbudget byte hsome hhello =>
    rw [exists_within_byte (fun _ h => not_lineIn_nil _ h.1) hbudget hsome]
    rintro ⟨bytes, polled', -, hin, -⟩
    exact ((lineIn_cons wf).mp hin).1 ((hello_iff byte).mp hhello)
  | case3 idlePolls byteCount parser text polled hbudget byte hsome hno hend =>
    rw [exists_within_byte (fun _ h => not_lineIn_nil _ h.1) hbudget hsome]
    rintro ⟨bytes, polled', ⟨hpolls, -⟩, hin, hhanded⟩
    rcases (lineIn_cons wf).mp hin with ⟨-, ⟨-, rfl⟩ | ⟨hfirst, -⟩⟩
    · have hpolled : polled + 1 = polled' := (polls_nil hpolls).1.symm
      exact hhanded ⟨hpolled, stringOf_endTextLine htyping⟩
    · exact hfirst hend
  | case4 idlePolls byteCount parser text polled hbudget byte hsome hno hend ih =>
    rw [exists_within_byte (fun _ h => not_lineIn_nil _ h.1) hbudget hsome]
    rintro ⟨bytes, polled', hwithin, hin, hhanded⟩
    rcases (lineIn_cons wf).mp hin with ⟨-, ⟨hfirst, -⟩ | ⟨hfirst, hrest⟩⟩
    · exact hend hfirst
    · refine ih (goOn_wellFormed wf byte) (typing_entryTextAcceptByte htyping hfirst)
        ⟨bytes, polled', hwithin, hrest, ?_⟩
      have hne : bytes ≠ [] := by
        rintro rfl
        exact not_lineIn_nil _ hrest
      have hlast : (byte :: bytes).dropLast = [byte] ++ bytes.dropLast :=
        List.dropLast_cons_of_ne_nil hne
      rw [Handed, hlast, pending_append] at hhanded
      exact hhanded
  | case5 idlePolls byteCount parser text polled hbudget hnone hsome =>
    exact not_exists_within (fun _ h => not_lineIn_nil _ h.1) fun _ => ⟨hnone, hsome⟩
  | case6 idlePolls byteCount parser text polled hbudget =>
    exact not_exists_within (fun _ h => not_lineIn_nil _ h.1) fun h => absurd h hbudget

end Loop

/-! ### The answer to the line -/

/-- What the console prints before its answer to a line that is typed: the prompts, and a complaint
about each control character. -/
def beforeAnswer (bytes : List UInt8) : List UInt8 :=
  (List.replicate (bytes.countP fun byte => (consoleKey byte).isControl)
    (ascii "> " ++ ascii "ERR control\n")).flatten ++ ascii "> "

/-- The console, started with a line, answers it as if `bytes` had been typed, and goes on in the
same way. -/
def AnswersAsTyped (line : CString) (bytes : List UInt8) : Prop :=
  ∀ config : DiagnosticConsoleConfig, (∀ n data, config.write n data = true) →
    ∀ c : DiagnosticConsole,
      match diagnosticConsoleRun config (some line) c,
        diagnosticConsoleRun config none { c with unread := bytes ++ c.unread } with
      | .ret result c₁, .ret result' c₂ =>
        result' = result ∧ c₂.dev = c₁.dev ∧ c₂.resets = c₁.resets ∧ ∃ answers,
          c₁.written.flatten =
            c.written.flatten ++ (ascii "diagnostic console readonly\n" ++ answers) ∧
          c₂.written.flatten = c.written.flatten ++
            (ascii "diagnostic console readonly\n" ++ (beforeAnswer bytes ++ answers))
      | .cut c₁, .cut c₂ => c₂.dev = c₁.dev
      | _, _ => False

section Answers

variable {config : DiagnosticConsoleConfig} {typed more : List UInt8} {byte : UInt8}

/-- The lines of an input whose first line end is known. -/
theorem consoleEntries_line (htyped : ∀ byte ∈ typed, ¬ IsLineEnd byte) (hend : IsLineEnd byte) :
    consoleEntries (typed ++ [byte] ++ more) =
      List.replicate ((typed ++ [byte]).countP fun byte => (consoleKey byte).isControl) .control ++
        entered consoleKey diagnosticConsoleMaxLineLength (pending consoleKey [] typed) ::
          consoleEntries more := by
  have henter : consoleKey byte = .enter := if_pos hend
  have hno : ∀ byte ∈ typed, consoleKey byte ≠ .enter := by
    intro byte hbyte hkey
    obtain ⟨hends, -⟩ | ⟨-, -, h⟩ | ⟨-, -, -, h⟩ | ⟨-, -, -, h⟩ := consoleKey_cases byte
    · exact htyped byte hbyte hends
    all_goals rw [h] at hkey; cases hkey
  have hcount : (typed ++ [byte]).countP (fun byte => (consoleKey byte).isControl) =
      typed.countP fun byte => (consoleKey byte).isControl := by
    rw [List.countP_append, List.countP_singleton, henter]
    rfl
  rw [consoleEntries, entries, List.append_assoc, entriesFrom_append,
    entriesFrom_of_no_enter _ _ hno, hcount, List.singleton_append, entriesFrom, henter]
  rfl

/-- Lines that have been given up are complained about, one by one. -/
theorem answerEntries_controls (count : ℕ) (entries : List (Entry UInt8)) (commandCount : UInt32) :
    answerEntries config (List.replicate count .control ++ entries) commandCount =
      answerEntries config entries commandCount >>= fun out =>
        pure ((List.replicate count (ascii "> " ++ ascii "ERR control\n")).flatten ++ out.1,
          out.2) := by
  induction count with
  | zero =>
    funext d
    show answerEntries config entries commandCount d = _
    cases hout : answerEntries config entries commandCount d with
    | ret out d' => exact (bind_of_ret hout).symm
    | err e d' => exact (bind_of_err hout).symm
    | cut d' => exact (bind_of_cut hout).symm
  | succ count ih =>
    have hstep :
        answerEntries config (List.replicate (count + 1) .control ++ entries) commandCount =
        answerEntries config (List.replicate count .control ++ entries) commandCount >>= fun out =>
          pure (ascii "> " ++ ascii "ERR control\n" ++ out.1, out.2) := rfl
    rw [hstep, ih, bind_assoc]
    rfl

/-- A typed line is answered behind a prompt, and then everything goes on as after a line that was
there before. -/
theorem answerEntries_line {line : CString} (entry : Entry UInt8)
    (hentry : initialEntry line = entry) :
    answerEntries config (entry :: consoleEntries more) 0 =
      answerInput config (some line) more >>= fun out => pure (ascii "> " ++ out.1, out.2) := by
  funext d
  rw [answerEntries, answerInput, hentry]
  cases hanswer : answerEntry config 0 entry d with
  | err e d' => rw [bind_of_err hanswer, bind_of_err (bind_of_err hanswer)]
  | cut d' => rw [bind_of_cut hanswer, bind_of_cut (bind_of_cut hanswer)]
  | ret answer d' =>
    rw [bind_of_ret hanswer, bind_assoc, bind_of_ret hanswer]
    cases answer.final with
    | some result => rfl
    | none =>
      dsimp only
      cases hrest : answerEntries config (consoleEntries more) answer.commandCount d' with
      | err e d'' => rw [bind_of_err hrest, bind_of_err (bind_of_err hrest)]
      | cut d'' => rw [bind_of_cut hrest, bind_of_cut (bind_of_cut hrest)]
      | ret out d'' =>
        rw [bind_of_ret hrest, bind_assoc, bind_of_ret hrest]
        exact congrArg (Outcome.ret · d'') (Prod.ext (List.append_assoc ..) rfl)

/-- **The editor's answers** to a line that has been typed, and to the same line when it is there
before. -/
theorem answerInput_line {line : CString} (htyped : ∀ byte ∈ typed, ¬ IsLineEnd byte)
    (hend : IsLineEnd byte)
    (hno : ¬ Overlong consoleKey diagnosticConsoleMaxLineLength (pending consoleKey [] typed))
    (hline : line.bytes = kept consoleKey (pending consoleKey [] typed)) :
    answerInput config none (typed ++ [byte] ++ more) =
      answerInput config (some line) more >>= fun out =>
        pure (beforeAnswer (typed ++ [byte]) ++ out.1, out.2) := by
  have hlength : line.bytes.length ≤ diagnosticConsoleMaxLineLength := by
    rw [hline]
    exact length_le_of_not_overlong _ _ hno
  have hinitial : initialEntry line =
      entered consoleKey diagnosticConsoleMaxLineLength (pending consoleKey [] typed) := by
    rw [initialEntry, if_pos hlength, entered, if_neg hno, hline]
  rw [answerInput, consoleEntries_line htyped hend, answerEntries_controls,
    answerEntries_line _ hinitial, bind_assoc]
  refine congrArg _ (funext fun out => ?_)
  show (pure (_ ++ (ascii "> " ++ out.1), out.2) : Prog Device ConsoleTrap _) = _
  rw [beforeAnswer, List.append_assoc]

/-- **A line that is not too long is answered as if it had been typed.** -/
theorem answersAsTyped {line : CString} (htyped : ∀ byte ∈ typed, ¬ IsLineEnd byte)
    (hend : IsLineEnd byte)
    (hno : ¬ Overlong consoleKey diagnosticConsoleMaxLineLength (pending consoleKey [] typed))
    (hline : line.bytes = kept consoleKey (pending consoleKey [] typed)) :
    AnswersAsTyped line (typed ++ [byte]) := by
  intro config hwrite c
  have heditor := @answerInput_line config typed c.unread byte line htyped hend hno hline
  cases hout : answerInput config (some line) c.unread c.dev with
  | ret out d =>
    obtain ⟨c₁, hrun₁, hdev₁, hconcluded₁⟩ := diagnosticConsoleRun_of_ret hwrite hout
    have htypedOut : answerInput config none (typed ++ [byte] ++ c.unread) c.dev =
        .ret (beforeAnswer (typed ++ [byte]) ++ out.1, out.2) d := by
      rw [heditor, bind_of_ret hout]
      rfl
    obtain ⟨c₂, hrun₂, hdev₂, hconcluded₂⟩ := diagnosticConsoleRun_of_ret
      (c := { c with unread := typed ++ [byte] ++ c.unread }) hwrite htypedOut
    rw [hrun₁, hrun₂]
    exact ⟨rfl, hdev₂.trans hdev₁.symm, hconcluded₂.resets.trans hconcluded₁.resets.symm, out.1,
      hconcluded₁.written, hconcluded₂.written⟩
  | err e d => exact absurd hout (answerInput_ne_err hwrite _ e d)
  | cut d =>
    obtain ⟨c₁, hrun₁, hdev₁⟩ := diagnosticConsoleRun_of_cut hwrite hout
    have htypedOut : answerInput config none (typed ++ [byte] ++ c.unread) c.dev = .cut d := by
      rw [heditor, bind_of_cut hout]
    obtain ⟨c₂, hrun₂, hdev₂⟩ := diagnosticConsoleRun_of_cut
      (c := { c with unread := typed ++ [byte] ++ c.unread }) hwrite htypedOut
    rw [hrun₁, hrun₂]
    exact hdev₂.trans hdev₁.symm

/-- **A line that was too long is answered with nothing**, and not as if it had been typed. -/
theorem not_answersAsTyped {line : CString} (htyped : ∀ byte ∈ typed, ¬ IsLineEnd byte)
    (hend : IsLineEnd byte)
    (hover : Overlong consoleKey diagnosticConsoleMaxLineLength (pending consoleKey [] typed))
    (hline : line.bytes = []) : ¬ AnswersAsTyped line (typed ++ [byte]) := by
  intro h
  have hwrite : ∀ n data, patientConfig.write n data = true := fun _ _ => rfl
  let c : DiagnosticConsole := { unread := [], dev := ⟨fun _ => 0xFF, [], []⟩ }
  have hinitial : initialEntry line = .line [] := by
    rw [initialEntry, hline]
    rfl
  have hout : answerInput patientConfig (some line) c.unread c.dev =
      .ret (ascii "> " ++ ascii "timeout\n", .timeout) c.dev := by
    rw [answerInput, hinitial]
    rfl
  have htypedOut : answerInput patientConfig none (typed ++ [byte] ++ c.unread) c.dev =
      .ret ((List.replicate ((typed ++ [byte]).countP fun byte => (consoleKey byte).isControl)
        (ascii "> " ++ ascii "ERR control\n")).flatten ++ (ascii "> " ++
          ascii "ERR line-too-long\n" ++ (ascii "> " ++ ascii "timeout\n")), .timeout) c.dev := by
    rw [answerInput, consoleEntries_line htyped hend, answerEntries_controls, entered,
      if_pos hover]
    rfl
  obtain ⟨c₁, hrun₁, -, hconcluded₁⟩ := diagnosticConsoleRun_of_ret hwrite hout
  obtain ⟨c₂, hrun₂, -, hconcluded₂⟩ := diagnosticConsoleRun_of_ret
    (c := { c with unread := typed ++ [byte] ++ c.unread }) hwrite htypedOut
  have hboth := h patientConfig hwrite c
  rw [hrun₁, hrun₂] at hboth
  obtain ⟨-, -, -, answers, hanswers₁, hanswers₂⟩ := hboth
  -- what is missing is the complaint
  have hlength₁ := congrArg List.length (hconcluded₁.written.symm.trans hanswers₁)
  have hlength₂ := congrArg List.length (hconcluded₂.written.symm.trans hanswers₂)
  have hcomplaint : (ascii "ERR line-too-long\n").length = 18 := rfl
  simp only [List.length_append, beforeAnswer, hcomplaint] at hlength₁ hlength₂
  omega

end Answers

/-! ### The entry -/

/-- What the entry should do with what a reader delivers. -/
structure EntryExact (getc : ℕ → ByteRead) (polled : ℕ)
    (out : UpdateModeEntry × Mem × UpdateProtocolParser × ℕ) : Prop where
  /-- It reads so many bytes at most, and behind a failure nothing. -/
  bounded : ∃ bytes idlePolls polled', Polls getc 0 polled bytes idlePolls polled' ∧
    bytes.length ≤ updateServiceDefaultEntryMaxBytes ∧
    idlePolls ≤ updateServiceDefaultEntryIdlePolls ∧
    (out.2.2.2 = polled' ∨ getc polled' ≠ .noData ∧ (∀ byte, getc polled' ≠ .ok byte) ∧
      out.2.2.2 = polled' + 1)
  binaryHello : out.1 = .binaryHello ↔
    ∃ bytes polled', Within getc 0 0 polled bytes polled' ∧ HelloIn [] bytes
  textConsole : out.1 = .textConsole ↔
    ∃ bytes polled', Within getc 0 0 polled bytes polled' ∧ LineIn [] bytes
  boot : out.1 = .boot ↔
    ¬ ∃ bytes polled', Within getc 0 0 polled bytes polled' ∧ (HelloIn [] bytes ∨ LineIn [] bytes)
  /-- The `HELLO` of the host is recognised behind noise. -/
  host : ∀ frame noise polled',
    Host.encodeFrame UpdateProtocolCommand.hello.toUInt8.toNat 0 [] = .ok frame →
    ¬ protocolMagic <:+: noise → (∀ byte ∈ noise, ¬ IsLineEnd byte) →
    Within getc 0 0 polled (noise ++ frame) polled' → out.1 = .binaryHello
  /-- The update service would see the same. -/
  service : ∀ config : UpdateServiceConfig, config.getc = getc →
    config.maxIdlePolls = updateServiceDefaultEntryIdlePolls →
    config.maxBytes = updateServiceDefaultEntryMaxBytes →
    (∀ n byte, getc n = .ok byte → ¬ IsLineEnd byte) →
    waitLoop config 0 0 {} polled = (decide (out.1 = .binaryHello), out.2.2)
  /-- The console finds what follows the line, and answers the line as if it had been typed. -/
  line : ∀ bytes polled', Within getc 0 0 polled bytes polled' → LineIn [] bytes →
    out.2.2.2 = polled' ∧ AnswersAsTyped (stringOf out.2.1) bytes

/-- No line that is over has once been too long. -/
def LinesFit (getc : ℕ → ByteRead) (polled : ℕ) : Prop :=
  ∀ bytes polled', Within getc 0 0 polled bytes polled' → LineIn [] bytes →
    ¬ Overlong consoleKey diagnosticConsoleMaxLineLength (pending consoleKey [] bytes.dropLast)

section Exact

variable {getc : ℕ → ByteRead} (textLine : Mem) {polled : ℕ}

theorem waitForUpdateOrConsoleEntry_eq :
    waitForUpdateOrConsoleEntry getc textLine initialLineSize polled =
      entryLoop getc 0 0 {} { line := Function.update textLine 0 0 } polled := if_neg (by decide)

theorem entry_hello_iff :
    (waitForUpdateOrConsoleEntry getc textLine initialLineSize polled).1 = .binaryHello ↔
      ∃ bytes polled', Within getc 0 0 polled bytes polled' ∧ HelloIn [] bytes := by
  rw [waitForUpdateOrConsoleEntry_eq]
  exact entryLoop_hello_iff UpdateProtocolParser.wellFormed_init

theorem entry_text_iff :
    (waitForUpdateOrConsoleEntry getc textLine initialLineSize polled).1 = .textConsole ↔
      ∃ bytes polled', Within getc 0 0 polled bytes polled' ∧ LineIn [] bytes := by
  rw [waitForUpdateOrConsoleEntry_eq]
  exact entryLoop_text_iff UpdateProtocolParser.wellFormed_init

/-- The system boots when nothing has decided. -/
theorem entry_boot_iff :
    (waitForUpdateOrConsoleEntry getc textLine initialLineSize polled).1 = .boot ↔
      ¬ ∃ bytes polled', Within getc 0 0 polled bytes polled' ∧
        (HelloIn [] bytes ∨ LineIn [] bytes) := by
  simp only [and_or_left, exists_or]
  rw [← entry_hello_iff textLine, ← entry_text_iff textLine]
  cases (waitForUpdateOrConsoleEntry getc textLine initialLineSize polled).1 <;> decide

/-- The line that the console is handed. -/
theorem handed_of_lineIn {bytes : List UInt8} {polled' : ℕ}
    (hwithin : Within getc 0 0 polled bytes polled') (hline : LineIn [] bytes) :
    Handed [] (waitForUpdateOrConsoleEntry getc textLine initialLineSize polled) bytes polled' := by
  rw [waitForUpdateOrConsoleEntry_eq]
  by_contra hno
  exact entryLoop_line UpdateProtocolParser.wellFormed_init (.start _)
    ⟨bytes, polled', hwithin, hline, hno⟩

/-- A line that fits is answered as if it had been typed, and no other. -/
theorem answersAsTyped_iff {bytes : List UInt8} {polled' : ℕ}
    (hwithin : Within getc 0 0 polled bytes polled') (hline : LineIn [] bytes) :
    AnswersAsTyped
        (stringOf (waitForUpdateOrConsoleEntry getc textLine initialLineSize polled).2.1) bytes ↔
      ¬ Overlong consoleKey diagnosticConsoleMaxLineLength
        (pending consoleKey [] bytes.dropLast) := by
  obtain ⟨-, hbytes⟩ := handed_of_lineIn textLine hwithin hline
  obtain ⟨typed, byte, rfl, htyped, hend, -⟩ := hline
  rw [List.dropLast_concat] at hbytes ⊢
  constructor
  · intro h hover
    rw [if_pos hover] at hbytes
    exact not_answersAsTyped htyped hend hover hbytes h
  · intro hno
    rw [if_neg hno] at hbytes
    exact answersAsTyped htyped hend hno hbytes

/-- The frame of a host's `HELLO`. -/
theorem scan_hostHello {frame noise : List UInt8}
    (hframe : Host.encodeFrame UpdateProtocolCommand.hello.toUInt8.toNat 0 [] = .ok frame)
    (hnoise : ¬ protocolMagic <:+: noise) (hends : ∀ byte ∈ noise, ¬ IsLineEnd byte) :
    HelloIn [] (noise ++ frame) := by
  have hencode : Host.encodeFrame UpdateProtocolCommand.hello.toUInt8.toNat 0 [] =
      .ok (outgoing UpdateProtocolCommand.hello.toUInt8 0 []).encode :=
    @Host.encodeFrame_eq _ 0 [] (by decide)
  rw [hencode] at hframe
  obtain rfl := Except.ok.inj hframe
  have hclean : ∀ byte ∈ (outgoing UpdateProtocolCommand.hello.toUInt8 0 []).encode,
      ¬ IsLineEnd byte := by decide +kernel
  constructor
  · intro byte hbyte
    rcases List.mem_append.mp (List.mem_of_mem_dropLast hbyte) with h | h
    · exact hends byte h
    · exact hclean byte h
  · have hnext : nextResult (noise ++ (outgoing UpdateProtocolCommand.hello.toUInt8 0 []).encode ++
        []) = _ := nextResult_noise_encode hnoise (by decide) []
    rw [List.append_nil] at hnext
    rw [List.nil_append, scan_of_some hnext]
    exact List.mem_cons_self

end Exact

/-- **The way into the update mode is exact** but for one thing: of a line that was too long the
console is not told. -/
theorem entry_exact_iff (getc : ℕ → ByteRead) (textLine : Mem) (polled : ℕ) :
    EntryExact getc polled (waitForUpdateOrConsoleEntry getc textLine initialLineSize polled) ↔
      LinesFit getc polled := by
  constructor
  · intro h bytes polled' hwithin hline
    exact (answersAsTyped_iff textLine hwithin hline).mp (h.line bytes polled' hwithin hline).2
  · intro hfit
    refine ⟨?_, entry_hello_iff textLine, entry_text_iff textLine, entry_boot_iff textLine, ?_, ?_,
      ?_⟩
    · rw [waitForUpdateOrConsoleEntry_eq]
      obtain ⟨bytes, idlePolls, polled', hpolls, hlength, hrest⟩ :=
        @entryLoop_bounded getc 0 0 polled {} { line := Function.update textLine 0 0 }
          (Nat.zero_le _) (Nat.zero_le _)
      rw [Nat.zero_add] at hlength
      exact ⟨bytes, idlePolls, polled', hpolls, hlength, hrest⟩
    · intro frame noise polled' hframe hnoise hends hwithin
      exact (entry_hello_iff textLine).mpr ⟨_, polled', hwithin, scan_hostHello hframe hnoise hends⟩
    · intro config hgetc hidle hbytes hends
      rw [waitForUpdateOrConsoleEntry_eq]
      exact entryLoop_eq_waitLoop hgetc hidle hbytes hends
    · intro bytes polled' hwithin hline
      exact ⟨(handed_of_lineIn textLine hwithin hline).1,
        (answersAsTyped_iff textLine hwithin hline).mpr (hfit bytes polled' hwithin hline)⟩

/-! ### Two lines -/

/-- A reader that delivers so many bytes, and then fails. -/
def lineReader (bytes : List UInt8) (polled : ℕ) : ByteRead :=
  match bytes[polled]? with
  | some byte => .ok byte
  | none => .errIo

theorem within_lineReader {bytes : List UInt8}
    (h : bytes.length ≤ updateServiceDefaultEntryMaxBytes) :
    Within (lineReader bytes) 0 0 0 bytes bytes.length := by
  have hpolls : Polls (lineReader bytes) 0 0 bytes 0 (0 + bytes.length) := by
    refine polls_of_forall fun i hi => ?_
    rw [Nat.zero_add, lineReader, List.getElem?_eq_getElem hi]
  rw [Nat.zero_add] at hpolls
  refine ⟨hpolls, ?_⟩
  rw [Nat.zero_add]
  exact h

theorem prefix_of_polls {line bytes : List UInt8} {idlePolls polled idlePolls' polled' : ℕ}
    (h : Polls (lineReader line) idlePolls polled bytes idlePolls' polled') :
    bytes <+: line.drop polled := by
  induction h with
  | done => exact List.nil_prefix
  | silent idle none =>
    rw [lineReader] at none
    split at none <;> cases none
  | @byte _ polled _ _ byte bytes idle some hpolls ih =>
    rw [lineReader] at some
    split at some
    · rename_i first hfirst
      obtain rfl : first = byte := ByteRead.ok.inj some
      obtain ⟨hlt, rfl⟩ := List.getElem?_eq_some_iff.mp hfirst
      rw [List.drop_eq_getElem_cons hlt]
      exact List.cons_prefix_cons.mpr ⟨rfl, ih⟩
    · cases some

/-- A short line. -/
def shortLine : List UInt8 := ascii "hel" ++ [0x08] ++ ascii "lp\n"

/-- A line that is corrected is answered as if it had been typed. -/
theorem entry_exact_shortLine : EntryExact (lineReader shortLine) 0
    (waitForUpdateOrConsoleEntry (lineReader shortLine) (fun _ => 0xA5) initialLineSize 0) := by
  refine (entry_exact_iff (lineReader shortLine) (fun _ => 0xA5) 0).mpr ?_
  rintro bytes polled' ⟨hpolls, -⟩ -
  have hmem := (List.mem_inits bytes shortLine).mpr (prefix_of_polls hpolls)
  have hall : ∀ bytes ∈ shortLine.inits, ¬ Overlong consoleKey diagnosticConsoleMaxLineLength
      (pending consoleKey [] bytes.dropLast) := by decide +kernel
  exact hall bytes hmem

/-- A line that is too long. -/
def longLine : List UInt8 := List.replicate 65 0x61

theorem longLine_in : LineIn [] (longLine ++ [0x0D]) := by
  refine ⟨longLine, 0x0D, rfl, ?_, Or.inl rfl, ?_⟩
  · intro byte hbyte
    rw [List.eq_of_mem_replicate hbyte]
    decide
  · rw [List.nil_append, scan_of_none (by decide +kernel)]
    exact List.not_mem_nil

/-- **A line that is too long is lost without a word.** -/
theorem entry_not_exact_longLine : ¬ EntryExact (lineReader (longLine ++ [0x0D])) 0
    (waitForUpdateOrConsoleEntry (lineReader (longLine ++ [0x0D])) (fun _ => 0) initialLineSize
      0) := by
  intro h
  have hwithin : Within (lineReader (longLine ++ [0x0D])) 0 0 0 (longLine ++ [0x0D]) _ :=
    within_lineReader (by decide)
  refine (answersAsTyped_iff _ hwithin longLine_in).mp (h.line _ _ hwithin longLine_in).2 ?_
  rw [List.dropLast_concat]
  exact ⟨longLine, by decide +kernel, by decide +kernel⟩

end Stm32SecurityLab
