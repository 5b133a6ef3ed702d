import Stm32SecurityLab.Console.Diagnostic
import Stm32SecurityLab.Console.Editor
import Stm32SecurityLab.Crash.Loop

/-!
# The discipline of the console

The console answers as an editor does that knows the whole input in advance, and nothing that C
leaves undefined happens on the way.

The editor has no buffer. It takes the input apart into lines, a line into words, and runs the
command that is the only word of a line. All the console does to its buffer, the cutting of a line
into tokens included, comes down to one predicate: a string stands at a place of the buffer.

## Main definitions

* `Text` — a string stands at a place of the line buffer
* `editorSession` — what the editor answers
* `Follows` — a part of the console does what a program of the editor does

## Main results

* `tokenize_spec` — the tokens of a line are its words
* `readLine_spec` — the line that is read is the next entry of the input
* `executeLine_follows`, `consoleLoop_follows`
* `console_discipline`
-/

namespace Stm32SecurityLab

open Crash LineEditor

/-! ### The line buffer -/

/-- A string stands at a place of the line buffer, its end included. -/
structure Text (line : Mem) (cursor : ℕ) (text : List UInt8) : Prop where
  here : slice line cursor text.length = text
  ended : line (cursor + text.length) = 0
  room : cursor + text.length ≤ diagnosticConsoleMaxLineLength
  nonzero : 0 ∉ text

namespace Text

variable {line line' : Mem} {cursor : ℕ} {text word rest : List UInt8} {a : UInt8}

theorem nil (h : Text line cursor []) : line cursor = 0 := h.ended

/-- The empty string, where there is a zero. -/
theorem empty (line : Mem) : Text (Function.update line 0 0) 0 [] :=
  ⟨rfl, Function.update_self 0 0 line, Nat.zero_le _, List.not_mem_nil⟩

theorem cons (h : Text line cursor (a :: rest)) : line cursor = a ∧ a ≠ 0 := by
  have hhere := h.here
  rw [List.length_cons, slice_succ] at hhere
  exact ⟨(List.cons.inj hhere).1, fun ha => h.nonzero (ha ▸ List.mem_cons_self)⟩

theorem cursor_le (h : Text line cursor text) : cursor ≤ diagnosticConsoleMaxLineLength :=
  (Nat.le_add_right ..).trans h.room

/-- What comes behind a part of a string. -/
theorem drop (h : Text line cursor (word ++ rest)) : Text line (cursor + word.length) rest := by
  obtain ⟨hhere, hended, hroom, hnonzero⟩ := h
  rw [List.length_append] at hhere hended hroom
  refine ⟨?_, ?_, ?_, fun hmem => hnonzero (List.mem_append_right _ hmem)⟩
  · rw [slice_add] at hhere
    exact (List.append_inj hhere (by rw [slice_length])).2
  · rw [Nat.add_assoc]
    exact hended
  · rw [Nat.add_assoc]
    exact hroom

theorem tail (h : Text line cursor (a :: rest)) : Text line (cursor + 1) rest :=
  @drop _ _ [a] _ h

theorem take (h : Text line cursor (word ++ rest)) :
    slice line cursor word.length = word ∧ 0 ∉ word := by
  have hhere := h.here
  rw [List.length_append, slice_add] at hhere
  exact ⟨(List.append_inj hhere (by rw [slice_length])).1,
    fun hmem => h.nonzero (List.mem_append_left _ hmem)⟩

/-- What has changed in front of a string does not matter. -/
theorem congr (h : Text line cursor text) (hsame : ∀ x, cursor ≤ x → line' x = line x) :
    Text line' cursor text := by
  refine ⟨?_, ?_, h.room, h.nonzero⟩
  · rw [slice_congr fun x hx _ => hsame x hx]
    exact h.here
  · rw [hsame _ (Nat.le_add_right ..)]
    exact h.ended

/-- The first zero is the end. -/
theorem eq_nil_iff (h : Text line cursor text) : text = [] ↔ line cursor = 0 := by
  constructor
  · rintro rfl
    exact h.nil
  · intro hzero
    cases text with
    | nil => rfl
    | cons a rest =>
      obtain ⟨hhere, hne⟩ := h.cons
      exact absurd (hhere.symm.trans hzero) hne

end Text

section Memory

variable {c : DiagnosticConsole} {E : ConsoleTrap → DiagnosticConsole → Prop}
  {C : DiagnosticConsole → Prop}

theorem wp_readChar {index : ℕ} {Q : UInt8 → DiagnosticConsole → Prop}
    (hindex : index ≤ diagnosticConsoleMaxLineLength) (h : Q (c.line index) c) :
    wp (readChar index) c Q E C := by
  rw [readChar, wp_bind, wp_check]
  exact ⟨fun _ => h, fun hn => absurd hindex hn⟩

theorem wp_storeChar {index : ℕ} {value : UInt8} {Q : Unit → DiagnosticConsole → Prop}
    (hindex : index ≤ diagnosticConsoleMaxLineLength)
    (h : Q () { c with line := Function.update c.line index value }) :
    wp (storeChar index value) c Q E C := by
  rw [storeChar, wp_bind, wp_check]
  exact ⟨fun _ => h, fun hn => absurd hindex hn⟩

theorem wp_setLineLength {lineLength : ℕ} {Q : Unit → DiagnosticConsole → Prop}
    (hlength : lineLength ≤ diagnosticConsoleMaxLineLength) (h : Q () { c with lineLength }) :
    wp (setLineLength lineLength) c Q E C := by
  rw [setLineLength, wp_bind, wp_check]
  exact ⟨fun _ => h, fun hn => absurd hlength hn⟩

/-! ### Tokens -/

/-- The spaces in front of a token are zeros afterwards, and nothing else has changed. -/
theorem skipSpaces_spec {blanks rest : List UInt8} {fuel cursor : ℕ}
    (htext : Text c.line cursor (blanks ++ rest)) (hblanks : ∀ a ∈ blanks, isSpace a = true)
    (hrest : ∀ a ∈ rest.head?, isSpace a = false) (hfuel : blanks.length < fuel) :
    wp (skipSpaces fuel cursor) c
      (fun next c' => next = cursor + blanks.length ∧ c' = { c with line := c'.line } ∧
        Text c'.line next rest ∧ (∀ x < cursor, c'.line x = c.line x) ∧
        (blanks ≠ [] → c'.line cursor = 0)) E C := by
  induction blanks generalizing c fuel cursor with
  | nil =>
    obtain ⟨fuel, rfl⟩ := Nat.exists_eq_succ_of_ne_zero (Nat.ne_zero_of_lt hfuel)
    have hspace : isSpace (c.line cursor) = false := by
      cases rest with
      | nil =>
        rw [htext.nil]
        rfl
      | cons a rest =>
        rw [htext.cons.1]
        exact hrest a rfl
    rw [skipSpaces, wp_bind]
    refine wp_readChar htext.cursor_le ?_
    rw [if_neg (by rw [hspace]; decide)]
    exact ⟨rfl, rfl, htext, fun _ _ => rfl, fun h => absurd rfl h⟩
  | cons a blanks ih =>
    obtain ⟨fuel, rfl⟩ := Nat.exists_eq_succ_of_ne_zero (Nat.ne_zero_of_lt hfuel)
    rw [skipSpaces, wp_bind]
    refine wp_readChar htext.cursor_le ?_
    rw [htext.cons.1, if_pos (hblanks a List.mem_cons_self), wp_bind]
    refine wp_storeChar htext.cursor_le ?_
    have hupdate : ∀ x, cursor + 1 ≤ x → Function.update c.line cursor 0 x = c.line x :=
      fun x hx => Function.update_of_ne (by omega) _ _
    refine (@ih { c with line := Function.update c.line cursor 0 } fuel (cursor + 1)
      (htext.tail.congr hupdate) (fun b hb => hblanks b (List.mem_cons_of_mem _ hb))
      (Nat.lt_of_succ_lt_succ hfuel)).mono ?_ (fun _ _ h => h) fun _ h => h
    rintro next c' ⟨hnext, hsame, htext', hbefore, -⟩
    refine ⟨?_, ?_, htext', fun x hx => ?_, fun _ => ?_⟩
    · rw [hnext, List.length_cons]
      omega
    · rw [hsame]
    · rw [hbefore x (by omega)]
      exact Function.update_of_ne (by omega) _ _
    · rw [hbefore cursor (by omega)]
      exact Function.update_self ..

/-- A token ends at a space, or with the line. -/
theorem skipToken_spec {word rest : List UInt8} {fuel cursor : ℕ}
    (htext : Text c.line cursor (word ++ rest)) (hword : ∀ a ∈ word, isSpace a = false)
    (hrest : ∀ a ∈ rest.head?, isSpace a = true) (hfuel : word.length < fuel) :
    wp (skipToken fuel cursor) c (fun next c' => next = cursor + word.length ∧ c' = c) E C := by
  induction word generalizing fuel cursor with
  | nil =>
    obtain ⟨fuel, rfl⟩ := Nat.exists_eq_succ_of_ne_zero (Nat.ne_zero_of_lt hfuel)
    rw [skipToken, wp_bind]
    refine wp_readChar htext.cursor_le ?_
    rw [if_neg]
    · exact ⟨rfl, rfl⟩
    · rintro ⟨hnonzero, hspace⟩
      cases rest with
      | nil => exact hnonzero htext.nil
      | cons a rest =>
        rw [htext.cons.1, hrest a rfl] at hspace
        cases hspace
  | cons a word ih =>
    obtain ⟨fuel, rfl⟩ := Nat.exists_eq_succ_of_ne_zero (Nat.ne_zero_of_lt hfuel)
    rw [skipToken, wp_bind]
    refine wp_readChar htext.cursor_le ?_
    obtain ⟨hhere, hnonzero⟩ := htext.cons
    rw [hhere, if_pos ⟨hnonzero, hword a List.mem_cons_self⟩]
    refine (ih htext.tail (fun b hb => hword b (List.mem_cons_of_mem _ hb))
      (Nat.lt_of_succ_lt_succ hfuel)).mono ?_ (fun _ _ h => h) fun _ h => h
    rintro next c' ⟨hnext, hsame⟩
    refine ⟨?_, hsame⟩
    rw [hnext, List.length_cons]
    omega

/-- A token whose end may still be the space behind it. -/
structure Placed (line : Mem) (cursor start : ℕ) (word : List UInt8) : Prop where
  here : slice line start word.length = word
  nonzero : 0 ∉ word
  before : start + word.length ≤ cursor
  ended : line (start + word.length) = 0 ∨ start + word.length = cursor

theorem Placed.text {line line' : Mem} {cursor start : ℕ} {word : List UInt8}
    (h : Placed line cursor start word) (hroom : cursor ≤ diagnosticConsoleMaxLineLength)
    (hbefore : ∀ x < cursor, line' x = line x) (hcursor : line' cursor = 0) :
    Text line' start word := by
  have hle := h.before
  refine ⟨?_, ?_, hle.trans hroom, h.nonzero⟩
  · rw [slice_congr fun x _ hx => hbefore x (by omega)]
    exact h.here
  · rcases Nat.eq_or_lt_of_le hle with heq | hlt
    · rw [heq]
      exact hcursor
    · rw [hbefore _ hlt]
      exact h.ended.resolve_right (Nat.ne_of_lt hlt)

/-- What `tokenize` returns: the tokens are the words of the line, unless there are too many. -/
def Tokens (line : Mem) (words : List (List UInt8)) (argv : List ℕ) (tooMany : Bool) : Prop :=
  if tooMany then argv.length = diagnosticConsoleMaxArguments ∧ argv.length < words.length
  else List.Forall₂ (Text line) argv words

/-- A line is some blanks, a word, and the rest. -/
structure FirstWord (text blanks word rest : List UInt8) : Prop where
  split : text = blanks ++ (word ++ rest)
  front : ∀ a ∈ blanks, isSpace a = true
  inside : ∀ a ∈ word, isSpace a = false
  behind : ∀ a ∈ rest.head?, isSpace a = true
  last : word = [] → rest = []

theorem exists_firstWord (text : List UInt8) :
    ∃ blanks word rest, FirstWord text blanks word rest := by
  have hhead (p : UInt8 → Bool) (l : List UInt8) : ∀ a ∈ (l.dropWhile p).head?, p a = false := by
    intro a ha
    have := List.head?_dropWhile_not p l
    rw [Option.mem_def.mp ha] at this
    simpa using this
  refine ⟨text.takeWhile isSpace, (text.dropWhile isSpace).takeWhile fun a => !isSpace a,
    (text.dropWhile isSpace).dropWhile fun a => !isSpace a, ?_,
    List.all_eq_true.mp List.all_takeWhile, ?_, ?_, ?_⟩
  · rw [List.takeWhile_append_dropWhile, List.takeWhile_append_dropWhile]
  · intro a ha
    simpa using List.all_eq_true.mp (List.all_takeWhile (l := text.dropWhile isSpace)) a ha
  · intro a ha
    simpa using hhead (fun a => !isSpace a) _ a ha
  · intro hword
    have hfirst := hhead isSpace text
    cases hdrop : text.dropWhile isSpace with
    | nil => rfl
    | cons a rest =>
      rw [hdrop] at hword hfirst
      rw [List.takeWhile_cons_of_pos (by rw [hfirst a rfl]; rfl)] at hword
      cases hword

theorem words_blanks {blanks rest : List UInt8} (hblanks : ∀ a ∈ blanks, isSpace a = true) :
    words isSpace (blanks ++ rest) = words isSpace rest := by
  induction blanks with
  | nil => rfl
  | cons a blanks ih =>
    rw [List.cons_append, words_cons_blank (hblanks a List.mem_cons_self)]
    exact ih fun b hb => hblanks b (List.mem_cons_of_mem _ hb)

namespace FirstWord

variable {text blanks word rest : List UInt8} {line line' : Mem} {argv : List ℕ}
  {done : List (List UInt8)} {cursor : ℕ}

/-- There are no more blanks in front of the word. -/
theorem head (h : FirstWord text blanks word rest) :
    ∀ a ∈ (word ++ rest).head?, isSpace a = false := by
  intro a ha
  cases hcase : word with
  | nil =>
    rw [hcase, h.last hcase] at ha
    cases ha
  | cons b others =>
    rw [hcase] at ha
    obtain rfl : b = a := Option.some.inj ha
    exact h.inside b (hcase ▸ List.mem_cons_self)

theorem eq_nil (h : FirstWord text blanks word rest) (hnil : word ++ rest = []) :
    words isSpace text = [] := by
  rw [h.split, words_blanks h.front, hnil, words_nil]

theorem eq_cons (h : FirstWord text blanks word rest) (hne : word ≠ []) :
    words isSpace text = word :: words isSpace rest := by
  rw [h.split, words_blanks h.front, words_append h.inside hne h.behind]

/-- A token that came before is ended by the first of the blanks. -/
theorem ends (h : FirstWord text blanks word rest)
    (hplaced : List.Forall₂ (Placed line cursor) argv done)
    (hhead : argv ≠ [] → ∀ a ∈ text.head?, isSpace a = true) (hne : text ≠ [])
    (hroom : cursor ≤ diagnosticConsoleMaxLineLength)
    (hbefore : ∀ x < cursor, line' x = line x) (hcursor : blanks ≠ [] → line' cursor = 0) :
    List.Forall₂ (fun start word => Text line' start word ∧ start + word.length ≤ cursor) argv
      done := by
  by_cases hnil : argv = []
  · subst hnil
    cases hplaced
    exact .nil
  · have hblanks : blanks ≠ [] := by
      intro hempty
      have hsplit := h.split
      rw [hempty, List.nil_append] at hsplit
      cases hcase : text with
      | nil => exact hne hcase
      | cons a others =>
        have hspace := hhead hnil a (by rw [hcase]; rfl)
        rw [h.head a (by rw [← hsplit, hcase]; rfl)] at hspace
        cases hspace
    exact hplaced.imp fun start other hother =>
      ⟨hother.text hroom hbefore (hcursor hblanks), hother.before⟩

end FirstWord

/-- One more token. -/
theorem placed_push {line : Mem} {argv : List ℕ} {done : List (List UInt8)} {cursor next : ℕ}
    {word rest : List UInt8} (hnext : cursor ≤ next) (htext : Text line next (word ++ rest))
    (hdone : List.Forall₂ (fun start word => Text line start word ∧ start + word.length ≤ cursor)
      argv done) :
    List.Forall₂ (Placed line (next + word.length)) (argv ++ [next]) (done ++ [word]) := by
  refine List.rel_append (hdone.imp ?_) (.cons ?_ .nil)
  · rintro start other ⟨h, hle⟩
    exact ⟨h.here, h.nonzero, by omega, .inl h.ended⟩
  · exact ⟨htext.take.1, htext.take.2, Nat.le_refl _, .inr rfl⟩

/-- A part of a string does not use up the fuel. -/
theorem Text.lt_lineFuel {line : Mem} {cursor : ℕ} {word rest : List UInt8}
    (h : Text line cursor (word ++ rest)) : word.length < lineFuel := by
  have hroom := h.room
  rw [List.length_append] at hroom
  rw [lineFuel]
  omega

/-- **The loop of `tokenize`.** So far the arguments are `done`, and `text` is left. -/
theorem tokenizeLoop_spec {text : List UInt8} {done : List (List UInt8)} {argv : List ℕ}
    {fuel cursor : ℕ} (htext : Text c.line cursor text)
    (hhead : argv ≠ [] → ∀ a ∈ text.head?, isSpace a = true)
    (hplaced : List.Forall₂ (Placed c.line cursor) argv done)
    (hargv : argv.length ≤ diagnosticConsoleMaxArguments) (hfuel : text.length < fuel) :
    wp (tokenizeLoop fuel cursor argv) c
      (fun out c' => c' = { c with line := c'.line } ∧
        Tokens c'.line (done ++ words isSpace text) out.1 out.2) E C := by
  induction fuel generalizing c text done argv cursor with
  | zero => exact absurd hfuel (Nat.not_lt_zero _)
  | succ fuel ih =>
    have hroom := htext.cursor_le
    rw [tokenizeLoop, wp_bind]
    refine wp_readChar hroom ?_
    rw [wp_ite]
    refine ⟨fun hzero => ?_, fun hnonzero => ?_⟩
    · refine ⟨rfl, ?_⟩
      rw [htext.eq_nil_iff.mpr hzero, words_nil, List.append_nil, Tokens, if_neg Bool.false_ne_true]
      exact hplaced.imp fun start word h => h.text hroom (fun _ _ => rfl) hzero
    obtain ⟨blanks, word, rest, hfirst⟩ := exists_firstWord text
    have hne : text ≠ [] := fun hnil => hnonzero (htext.eq_nil_iff.mp hnil)
    rw [hfirst.split] at htext
    rw [wp_bind]
    refine (skipSpaces_spec htext hfirst.front hfirst.head htext.lt_lineFuel).mono ?_
      (fun _ _ h => h) fun _ h => h
    rintro next c₁ ⟨rfl, hsame, htext₁, hbefore, hcursor⟩
    have hdone := hfirst.ends hplaced hhead hne hroom hbefore hcursor
    rw [wp_bind]
    refine wp_readChar htext₁.cursor_le ?_
    rw [wp_ite]
    refine ⟨fun hzero => ⟨hsame, ?_⟩, fun hnonzero₁ => ?_⟩
    · rw [hfirst.eq_nil (htext₁.eq_nil_iff.mpr hzero), List.append_nil, Tokens,
        if_neg Bool.false_ne_true]
      exact hdone.imp fun _ _ h => h.1
    have hword : word ≠ [] := fun hnil => hnonzero₁ (htext₁.eq_nil_iff.mp (by
      rw [hnil, hfirst.last hnil, List.nil_append]))
    rw [hfirst.eq_cons hword, wp_ite]
    refine ⟨fun hmany => ⟨hsame, ?_⟩, fun hfew => ?_⟩
    · rw [Tokens, if_pos rfl, List.length_append, List.length_cons, ← hplaced.length_eq]
      exact ⟨Nat.le_antisymm hargv hmany, by dsimp only; omega⟩
    rw [wp_bind, wp_check]
    refine ⟨fun hless => ?_, fun hn => absurd (Nat.not_le.mp hfew) hn⟩
    rw [wp_bind]
    refine (skipToken_spec htext₁ hfirst.inside hfirst.behind htext₁.lt_lineFuel).mono ?_
      (fun _ _ h => h) fun _ h => h
    rintro next c₂ ⟨rfl, rfl⟩
    refine (ih htext₁.drop (fun _ => hfirst.behind)
      (placed_push (Nat.le_add_right ..) htext₁ hdone) ?_ ?_).mono ?_ (fun _ _ h => h) fun _ h => h
    · rw [List.length_append, List.length_singleton]
      exact hless
    · have hpos := List.length_pos_iff.mpr hword
      rw [hfirst.split, List.length_append, List.length_append] at hfuel
      omega
    · rintro out c' ⟨hsame', htokens⟩
      rw [List.append_assoc, List.singleton_append] at htokens
      refine ⟨?_, htokens⟩
      rw [hsame', hsame]

/-- **The tokens of a line are its words.** -/
theorem tokenize_spec {text : List UInt8} (htext : Text c.line 0 text) :
    wp tokenize c
      (fun out c' => c' = { c with line := c'.line } ∧
        Tokens c'.line (words isSpace text) out.1 out.2) E C := by
  refine tokenizeLoop_spec htext (fun h => absurd rfl h) .nil (Nat.zero_le _) ?_
  have := htext.room
  rw [lineFuel]
  omega

/-- `str_equal` compares the whole string. -/
theorem strEqual_spec {word text : List UInt8} {cursor : ℕ} (hword : Text c.line cursor word)
    (htext : 0 ∉ text) :
    wp (strEqual cursor text) c (fun equal c' => equal = decide (word = text) ∧ c' = c) E C := by
  induction text generalizing word cursor with
  | nil =>
    rw [strEqual, wp_bind]
    refine wp_readChar hword.cursor_le ⟨?_, rfl⟩
    cases word with
    | nil =>
      rw [hword.nil]
      rfl
    | cons a rest =>
      rw [hword.cons.1, beq_eq_false_iff_ne.mpr hword.cons.2]
      rfl
  | cons right text ih =>
    rw [strEqual, wp_bind]
    refine wp_readChar hword.cursor_le ?_
    have hright : (0 : UInt8) ≠ right := fun h => htext (h ▸ List.mem_cons_self)
    cases word with
    | nil =>
      rw [hword.nil, if_pos rfl]
      exact ⟨beq_eq_false_iff_ne.mpr hright, rfl⟩
    | cons a rest =>
      obtain ⟨hhere, hne⟩ := hword.cons
      rw [hhere, if_neg hne, wp_ite]
      refine ⟨fun hdiffer => ⟨?_, rfl⟩, fun hequal => ?_⟩
      · exact (decide_eq_false fun h => hdiffer (List.cons.inj h).1).symm
      · obtain rfl := Decidable.not_not.mp hequal
        refine (ih hword.tail fun h => htext (List.mem_cons_of_mem _ h)).mono ?_ (fun _ _ h => h)
          fun _ h => h
        rintro equal c' ⟨rfl, hsame⟩
        refine ⟨?_, hsame⟩
        rw [decide_eq_decide, List.cons.injEq, and_iff_right rfl]

end Memory

/-! ### The editor -/

/-- What a byte means to somebody who types a line. -/
def consoleKey (byte : UInt8) : Key UInt8 :=
  if byte = 0x0D ∨ byte = 0x0A then .enter
  else if byte = 0x08 ∨ byte = 0x7F then .erase
  else if byte = 0x09 then .char 0x20
  else if byte < 0x20 ∨ byte > 0x7E then .control
  else .char byte

/-- The lines of an input. -/
def consoleEntries (bytes : List UInt8) : List (Entry UInt8) :=
  entries consoleKey diagnosticConsoleMaxLineLength bytes

/-- The command of a name. -/
def commandNamed (word : List UInt8) : Option ConsoleCommand :=
  (consoleCommands.find? fun entry => ascii entry.1 = word).map (·.2)

/-- The result with which a command ends the run. -/
def ConsoleCommand.final : ConsoleCommand → Option DiagnosticConsoleResult
  | .boot => some .bootContinue
  | .reboot => some .resetRequested
  | .recovery => some .recoveryRequested
  | _ => none

/-- The answer to a line: what is printed, the number of commands by then, and the result if that
was the last line. -/
structure ConsoleAnswer where
  output : List UInt8
  commandCount : UInt32
  final : Option DiagnosticConsoleResult := none

section Editor

variable (config : DiagnosticConsoleConfig)

/-- The answer to the words of a line. -/
def answerWords (commandCount : UInt32) :
    List (List UInt8) → Prog Device ConsoleTrap ConsoleAnswer
  | [] => pure ⟨[], commandCount, none⟩
  | [word] =>
    match commandNamed word with
    | some command => do
      let output ← commandOutput config (commandCount + 1) command
      pure ⟨output.flatten, commandCount + 1, command.final⟩
    | none => pure ⟨ascii "ERR unknown\n", commandCount + 1, none⟩
  | _ => pure ⟨ascii "ERR args\n", commandCount + 1, none⟩

/-- The answer to a line. -/
def answerEntry (commandCount : UInt32) : Entry UInt8 → Prog Device ConsoleTrap ConsoleAnswer
  | .line text => answerWords config commandCount (words isSpace text)
  | .overlong => pure ⟨ascii "ERR line-too-long\n", commandCount, none⟩
  | .control => pure ⟨ascii "ERR control\n", commandCount, none⟩

/-- The answers to all lines, each behind a prompt, up to the end of the run. -/
def answerEntries : List (Entry UInt8) → UInt32 →
    Prog Device ConsoleTrap (List UInt8 × DiagnosticConsoleResult)
  | [], _ =>
    pure (if config.timesOut then (ascii "> " ++ ascii "timeout\n", .timeout)
      else (ascii "> ", .ioError))
  | entry :: rest, commandCount => do
    let answer ← answerEntry config commandCount entry
    match answer.final with
    | some result => pure (ascii "> " ++ answer.output, result)
    | none => do
      let (output, result) ← answerEntries rest answer.commandCount
      pure (ascii "> " ++ answer.output ++ output, result)

/-- The line that is there before the first prompt. Nobody has edited it. -/
def initialEntry (initialLine : CString) : Entry UInt8 :=
  if initialLine.bytes.length ≤ diagnosticConsoleMaxLineLength then .line initialLine.bytes
  else .overlong

/-- The answer to a line that is there before, and to an input. -/
def answerInput (initialLine : Option CString) (bytes : List UInt8) :
    Prog Device ConsoleTrap (List UInt8 × DiagnosticConsoleResult) :=
  match initialLine with
  | none => answerEntries config (consoleEntries bytes) 0
  | some initialLine => do
    let answer ← answerEntry config 0 (initialEntry initialLine)
    match answer.final with
    | some result => pure (answer.output, result)
    | none => do
      let (output, result) ← answerEntries config (consoleEntries bytes) answer.commandCount
      pure (answer.output ++ output, result)

/-- **What the editor answers**, and the result. -/
def editorSession (initialLine : Option CString) (bytes : List UInt8) :
    Prog Device ConsoleTrap (List UInt8 × DiagnosticConsoleResult) := do
  let (output, result) ← answerInput config initialLine bytes
  pure (ascii "diagnostic console readonly\n" ++ output, result)

end Editor

/-! ### Reading a line -/

/-- What a line buffer says of the line that is being typed. -/
structure Typing (typed : List UInt8) (line : Mem) (lineLength : ℕ) (overflowed : Bool) : Prop where
  length : lineLength ≤ diagnosticConsoleMaxLineLength
  nonzero : 0 ∉ kept consoleKey typed
  overlong : Overlong consoleKey diagnosticConsoleMaxLineLength typed → overflowed = true
  fits : ¬ Overlong consoleKey diagnosticConsoleMaxLineLength typed →
    overflowed = false ∧ lineLength = (kept consoleKey typed).length ∧
      slice line 0 lineLength = kept consoleKey typed

namespace Typing

variable {typed : List UInt8} {line : Mem} {lineLength : ℕ} {overflowed : Bool} {byte a : UInt8}

/-- A new line. -/
theorem start (line : Mem) : Typing [] line 0 false :=
  ⟨Nat.zero_le _, List.not_mem_nil, fun h => absurd h (not_overlong_nil _ _),
    fun _ => ⟨rfl, rfl, rfl⟩⟩

section Erase

variable (hkey : consoleKey byte = .erase)

include hkey

theorem kept_erase : kept consoleKey (typed ++ [byte]) = (kept consoleKey typed).dropLast := by
  rw [kept_concat, hkey]
  rfl

/-- An erase does not make a line overlong, nor does it save one. -/
theorem overlong_erase : Overlong consoleKey diagnosticConsoleMaxLineLength (typed ++ [byte]) ↔
    Overlong consoleKey diagnosticConsoleMaxLineLength typed := by
  rw [overlong_concat, hkey]
  refine or_iff_left_of_imp fun hlt => ?_
  by_contra hno
  have := length_le_of_not_overlong _ _ hno
  rw [edit, List.length_dropLast] at hlt
  omega

theorem nonzero_erase (h : Typing typed line lineLength overflowed) :
    0 ∉ kept consoleKey (typed ++ [byte]) := by
  rw [kept_erase hkey]
  exact fun hmem => h.nonzero (List.mem_of_mem_dropLast hmem)

/-- The last character goes. -/
theorem erase (h : Typing typed line lineLength overflowed) :
    Typing (typed ++ [byte]) (Function.update line (lineLength - 1) 0) (lineLength - 1)
      overflowed := by
  have hlength := h.length
  refine ⟨by omega, nonzero_erase hkey h, fun ho => h.overlong ((overlong_erase hkey).mp ho),
    fun ho => ?_⟩
  obtain ⟨hoverflowed, heq, hslice⟩ := h.fits fun ht => ho ((overlong_erase hkey).mpr ht)
  rw [kept_erase hkey]
  refine ⟨hoverflowed, ?_, ?_⟩
  · rw [List.length_dropLast, ← heq]
  · rw [← hslice, List.dropLast_eq_take, slice_length, slice_take (by omega)]
    exact slice_congr fun x _ hx => Function.update_of_ne (by omega) _ _

/-- There is nothing to go. -/
theorem erase_empty (h : Typing typed line 0 overflowed) :
    Typing (typed ++ [byte]) line 0 overflowed := by
  refine ⟨h.length, nonzero_erase hkey h, fun ho => h.overlong ((overlong_erase hkey).mp ho),
    fun ho => ?_⟩
  obtain ⟨hoverflowed, -, hslice⟩ := h.fits fun ht => ho ((overlong_erase hkey).mpr ht)
  rw [kept_erase hkey, ← hslice]
  exact ⟨hoverflowed, rfl, rfl⟩

end Erase

section Char

variable (hkey : consoleKey byte = .char a) (hne : a ≠ 0)

include hkey

theorem kept_char : kept consoleKey (typed ++ [byte]) = kept consoleKey typed ++ [a] := by
  rw [kept_concat, hkey]
  rfl

theorem overlong_char : Overlong consoleKey diagnosticConsoleMaxLineLength (typed ++ [byte]) ↔
    Overlong consoleKey diagnosticConsoleMaxLineLength typed ∨
      diagnosticConsoleMaxLineLength < (kept consoleKey typed).length + 1 := by
  rw [overlong_concat, hkey, edit, List.length_append, List.length_singleton]

include hne

theorem nonzero_char (h : Typing typed line lineLength overflowed) :
    0 ∉ kept consoleKey (typed ++ [byte]) := by
  rw [kept_char hkey, List.mem_append, List.mem_singleton]
  exact fun hmem => hmem.elim h.nonzero fun heq => hne heq.symm

/-- There is no room for a character. -/
theorem full (h : Typing typed line lineLength overflowed)
    (hfull : diagnosticConsoleMaxLineLength ≤ lineLength) :
    Typing (typed ++ [byte]) line lineLength true := by
  refine ⟨h.length, nonzero_char hkey hne h, fun _ => rfl, fun ho => ?_⟩
  obtain ⟨hno, hle⟩ := not_or.mp fun hc => ho ((overlong_char hkey).mpr hc)
  obtain ⟨-, heq, -⟩ := h.fits hno
  omega

/-- There is room for a character. -/
theorem char (h : Typing typed line lineLength overflowed)
    (hroom : lineLength < diagnosticConsoleMaxLineLength) :
    Typing (typed ++ [byte])
      (Function.update (Function.update line lineLength a) (lineLength + 1) 0) (lineLength + 1)
      overflowed := by
  refine ⟨hroom, nonzero_char hkey hne h, fun ho => ?_, fun ho => ?_⟩
  · by_cases ht : Overlong consoleKey diagnosticConsoleMaxLineLength typed
    · exact h.overlong ht
    · obtain ⟨-, heq, -⟩ := h.fits ht
      have := ((overlong_char hkey).mp ho).resolve_left ht
      omega
  · obtain ⟨hoverflowed, heq, hslice⟩ := h.fits fun ht => ho ((overlong_char hkey).mpr (Or.inl ht))
    rw [kept_char hkey]
    refine ⟨hoverflowed, ?_, ?_⟩
    · rw [List.length_append, List.length_singleton, ← heq]
    · have hlast := slice_update line 0 lineLength a
      rw [Nat.zero_add] at hlast
      rw [slice_congr fun x _ hx => Function.update_of_ne (by omega) _ _, hlast, hslice]

end Char

/-- A line that is over stands in the buffer, unless it was overlong. -/
theorem text (h : Typing typed line lineLength overflowed)
    (hno : ¬ Overlong consoleKey diagnosticConsoleMaxLineLength typed) :
    Text (Function.update line lineLength 0) 0 (kept consoleKey typed) := by
  obtain ⟨-, heq, hslice⟩ := h.fits hno
  refine ⟨?_, ?_, ?_, h.nonzero⟩
  · rw [← heq, slice_congr fun x _ hx => Function.update_of_ne (by omega) _ _, hslice]
  · rw [Nat.zero_add, ← heq]
    exact Function.update_self ..
  · rw [Nat.zero_add, ← heq]
    exact h.length

end Typing

/-- What is left of an entry for `execute_line`. A line with a control character in it has been
answered before, and is empty. -/
def Buffered (c : DiagnosticConsole) : Entry UInt8 → Prop
  | .line text => c.overflowed = false ∧ Text c.line 0 text
  | .overlong => c.overflowed = true
  | .control => c.overflowed = false ∧ Text c.line 0 []

/-- What `read_line` prints by itself. -/
def echo : Entry UInt8 → List (List UInt8)
  | .control => [ascii "ERR control\n"]
  | .line _ | .overlong => []

/-- Only the line has changed, and what has been printed and read. -/
def SameRun (c c' : DiagnosticConsole) : Prop :=
  c'.commandCount = c.commandCount ∧ c'.bootRequested = c.bootRequested ∧ c'.resets = c.resets ∧
    c'.dev = c.dev

section Reading

variable {config : DiagnosticConsoleConfig} {c : DiagnosticConsole} {typed : List UInt8}
  {E : ConsoleTrap → DiagnosticConsole → Prop} {C : DiagnosticConsole → Prop}

theorem wp_consolePuts (hwrite : ∀ n data, config.write n data = true) {text : String}
    {Q : Bool → DiagnosticConsole → Prop}
    (h : Q true { c with written := c.written ++ [ascii text] }) :
    wp (consolePuts config text) c Q E C := by
  rw [consolePuts, consoleWrite, wp_bind, wp_get, wp_bind, wp_modify, hwrite]
  exact h

/-- The keys, as `read_line` tells them apart. -/
theorem consoleKey_cases (byte : UInt8) :
    ((byte = 0x0D ∨ byte = 0x0A) ∧ consoleKey byte = .enter) ∨
    (¬ (byte = 0x0D ∨ byte = 0x0A) ∧ (byte = 0x08 ∨ byte = 0x7F) ∧ consoleKey byte = .erase) ∨
    (¬ (byte = 0x0D ∨ byte = 0x0A) ∧ ¬ (byte = 0x08 ∨ byte = 0x7F) ∧
      (byte ≠ 0x09 ∧ (byte < 0x20 ∨ byte > 0x7E)) ∧ consoleKey byte = .control) ∨
    (¬ (byte = 0x0D ∨ byte = 0x0A) ∧ ¬ (byte = 0x08 ∨ byte = 0x7F) ∧
      ¬ (byte ≠ 0x09 ∧ (byte < 0x20 ∨ byte > 0x7E)) ∧
      consoleKey byte = .char (if byte = 0x09 then 0x20 else byte)) := by
  by_cases henter : byte = 0x0D ∨ byte = 0x0A
  · exact Or.inl ⟨henter, if_pos henter⟩
  refine Or.inr ?_
  by_cases herase : byte = 0x08 ∨ byte = 0x7F
  · refine Or.inl ⟨henter, herase, ?_⟩
    rw [consoleKey, if_neg henter, if_pos herase]
  refine Or.inr ?_
  rw [consoleKey, if_neg henter, if_neg herase]
  by_cases htab : byte = 0x09
  · rw [if_pos htab, if_pos htab]
    exact Or.inr ⟨henter, herase, fun h => h.1 htab, rfl⟩
  · rw [if_neg htab, if_neg htab]
    by_cases hcontrol : byte < 0x20 ∨ byte > 0x7E
    · exact Or.inl ⟨henter, herase, ⟨htab, hcontrol⟩, if_pos hcontrol⟩
    · exact Or.inr ⟨henter, herase, fun h => hcontrol h.2, if_neg hcontrol⟩

/-- A character that is kept is not the end of a string. -/
theorem consoleKey_char_ne {byte a : UInt8} (hkey : consoleKey byte = .char a) : a ≠ 0 := by
  obtain ⟨-, h⟩ | ⟨-, -, h⟩ | ⟨-, -, -, h⟩ | ⟨-, -, hcontrol, h⟩ := consoleKey_cases byte
  all_goals rw [h] at hkey
  · cases hkey
  · cases hkey
  · cases hkey
  · obtain rfl := Key.char.inj hkey
    split
    · decide
    · rintro rfl
      exact hcontrol (by decide)

/-- **One more byte of a line.** -/
theorem readLineByte_spec (hwrite : ∀ n data, config.write n data = true) {byte : UInt8}
    (h : Typing typed c.line c.lineLength c.overflowed) :
    wp (readLineByte config byte) c
      (fun status c' => SameRun c c' ∧ c'.unread = c.unread ∧
        match consoleKey byte with
        | .enter => status = some .ready ∧ c'.written = c.written ∧
            Buffered c' (entered consoleKey diagnosticConsoleMaxLineLength typed)
        | .control => status = some .ready ∧ c'.written = c.written ++ echo .control ∧
            Buffered c' .control
        | .char _ | .erase => status = none ∧ c'.written = c.written ∧
            Typing (typed ++ [byte]) c'.line c'.lineLength c'.overflowed) E C := by
  have hlength := h.length
  rw [readLineByte]
  obtain ⟨henter, hkey⟩ | ⟨henter, herase, hkey⟩ | ⟨henter, herase, hcontrol, hkey⟩ |
    ⟨henter, herase, hcontrol, hkey⟩ := consoleKey_cases byte
  · rw [if_pos henter, hkey, wp_bind, wp_get, wp_bind]
    refine wp_storeChar hlength ⟨⟨rfl, rfl, rfl, rfl⟩, rfl, rfl, rfl, ?_⟩
    rw [entered]
    split
    · rename_i ho
      exact h.overlong ho
    · rename_i ho
      exact ⟨(h.fits ho).1, h.text ho⟩
  · rw [if_neg henter, if_pos herase, hkey, wp_bind, wp_get, wp_ite]
    refine ⟨fun hne => ?_, fun hzero => ?_⟩
    · rw [wp_bind]
      refine wp_setLineLength (by omega) ?_
      rw [wp_bind]
      exact wp_storeChar (by omega) ⟨⟨rfl, rfl, rfl, rfl⟩, rfl, rfl, rfl, h.erase hkey⟩
    · have hzero : c.lineLength = 0 := Decidable.not_not.mp hzero
      refine ⟨⟨rfl, rfl, rfl, rfl⟩, rfl, rfl, rfl, ?_⟩
      rw [hzero] at h ⊢
      exact h.erase_empty hkey
  · rw [if_neg henter, if_neg herase, if_pos hcontrol, hkey, wp_bind]
    refine wp_setLineLength (Nat.zero_le _) ?_
    rw [wp_bind]
    refine wp_storeChar (Nat.zero_le _) ?_
    rw [wp_bind, setOverflowed, wp_modify, wp_bind]
    refine wp_consolePuts hwrite ⟨⟨rfl, rfl, rfl, rfl⟩, rfl, rfl, rfl, rfl, ?_⟩
    exact Text.empty c.line
  · have hne := consoleKey_char_ne hkey
    rw [if_neg henter, if_neg herase, if_neg hcontrol, hkey, wp_bind, wp_get, wp_ite]
    refine ⟨fun hfull => ?_, fun hroom => ?_⟩
    · rw [wp_bind, setOverflowed, wp_modify]
      exact ⟨⟨rfl, rfl, rfl, rfl⟩, rfl, rfl, rfl, h.full hkey hne hfull⟩
    · rw [wp_bind]
      refine wp_storeChar hlength ?_
      rw [wp_bind]
      refine wp_setLineLength (by omega) ?_
      rw [wp_bind]
      refine wp_storeChar (by omega) ⟨⟨rfl, rfl, rfl, rfl⟩, rfl, rfl, rfl, ?_⟩
      exact h.char hkey hne (Nat.not_le.mp hroom)

/-- **The loop of `read_line`.** -/
theorem readLineLoop_spec (hwrite : ∀ n data, config.write n data = true) (bytes : List UInt8)
    (h : Typing typed c.line c.lineLength c.overflowed) (hunread : c.unread = bytes) :
    wp (readLineLoop config bytes) c
      (fun status c' => SameRun c c' ∧
        ((status = (if config.timesOut then .timeout else .ioError) ∧
            entriesFrom consoleKey diagnosticConsoleMaxLineLength typed bytes = [] ∧
            c'.written = c.written) ∨
          (status = .ready ∧ ∃ entry,
            entriesFrom consoleKey diagnosticConsoleMaxLineLength typed bytes =
              entry :: consoleEntries c'.unread ∧
            c'.unread.length < bytes.length ∧ Buffered c' entry ∧
            c'.written = c.written ++ echo entry))) E C := by
  induction bytes generalizing c typed with
  | nil => exact ⟨⟨rfl, rfl, rfl, rfl⟩, Or.inl ⟨rfl, rfl, rfl⟩⟩
  | cons byte bytes ih =>
    rw [readLineLoop, wp_bind, wp_modify, wp_bind]
    refine wp.mono (readLineByte_spec (c := { c with unread := bytes }) hwrite h) ?_
      (fun _ _ h => h) fun _ h => h
    rintro status c₁ ⟨⟨hcount, hboot, hresets, hdev⟩, hunread₁, hcase⟩
    have hsame : SameRun c c₁ := ⟨hcount, hboot, hresets, hdev⟩
    have hshorter : c₁.unread.length < (byte :: bytes).length := by
      rw [hunread₁]
      exact Nat.lt_succ_self _
    rw [entriesFrom]
    cases hkey : consoleKey byte with
    | enter =>
      rw [hkey] at hcase
      obtain ⟨rfl, hwritten, hbuffered⟩ := hcase
      refine ⟨hsame, Or.inr ⟨rfl, _, ?_, hshorter, hbuffered, ?_⟩⟩
      · rw [hunread₁]
        rfl
      · rw [hwritten, entered]
        split <;> exact (List.append_nil _).symm
    | control =>
      rw [hkey] at hcase
      obtain ⟨rfl, hwritten, hbuffered⟩ := hcase
      refine ⟨hsame, Or.inr ⟨rfl, .control, ?_, hshorter, hbuffered, hwritten⟩⟩
      rw [hunread₁]
      rfl
    | _ =>
      rw [hkey] at hcase
      obtain ⟨rfl, hwritten, htyping₁⟩ := hcase
      refine (ih htyping₁ hunread₁).mono ?_ (fun _ _ h => h) fun _ h => h
      rintro status c' ⟨⟨hcount', hboot', hresets', hdev'⟩, hcase⟩
      refine ⟨⟨hcount'.trans hcount, hboot'.trans hboot, hresets'.trans hresets,
        hdev'.trans hdev⟩, ?_⟩
      rcases hcase with ⟨hstatus, hnone, hwritten'⟩ | ⟨hstatus, entry, hfirst, hless, hbuf, hwr⟩
      · exact Or.inl ⟨hstatus, hnone, hwritten'.trans hwritten⟩
      · exact Or.inr ⟨hstatus, entry, hfirst, hless.trans (Nat.lt_succ_self _), hbuf,
          hwr.trans (by rw [hwritten])⟩

/-- **The line that is read is the next entry of the input.** -/
theorem readLine_spec (hwrite : ∀ n data, config.write n data = true) (hlength : c.lineLength = 0)
    (hoverflowed : c.overflowed = false) :
    wp (readLine config) c
      (fun status c' => SameRun c c' ∧
        ((status = (if config.timesOut then .timeout else .ioError) ∧
            consoleEntries c.unread = [] ∧ c'.written = c.written) ∨
          (status = .ready ∧ ∃ entry,
            consoleEntries c.unread = entry :: consoleEntries c'.unread ∧
            c'.unread.length < c.unread.length ∧ Buffered c' entry ∧
            c'.written = c.written ++ echo entry))) E C := by
  rw [readLine, wp_bind, wp_get]
  refine readLineLoop_spec hwrite c.unread ?_ rfl
  rw [hlength, hoverflowed]
  exact .start c.line

end Reading

/-! ### Following the editor -/

/-- A part of the console does what a program of the editor does. -/
def Follows {α β : Type} (x : Console α) (y : Prog Device ConsoleTrap β)
    (R : β → α → DiagnosticConsole → Prop) (c : DiagnosticConsole) : Prop :=
  wp x c (fun a c' => ∃ b, y c.dev = .ret b c'.dev ∧ R b a c') (fun _ _ => False)
    fun c' => y c.dev = .cut c'.dev

section Following

variable {α β γ δ : Type} {x : Console α} {y : Prog Device ConsoleTrap β} {f : α → Console γ}
  {g : β → Prog Device ConsoleTrap δ} {R : β → α → DiagnosticConsole → Prop}
  {S : δ → γ → DiagnosticConsole → Prop} {c : DiagnosticConsole}

theorem Follows.pure {a : α} {b : β} (h : R b a c) : Follows (pure a) (pure b) R c := ⟨b, rfl, h⟩

/-- **One after the other.** -/
theorem Follows.bind (h : Follows x y R c) (hnext : ∀ a b c', R b a c' → Follows (f a) (g b) S c') :
    Follows (x >>= f) (y >>= g) S c := by
  refine wp_bind.mpr (h.mono ?_ (fun _ _ h => h) fun c' hcut => bind_of_cut hcut)
  rintro a c' ⟨b, hret, hR⟩
  refine (hnext a b c' hR).mono ?_ (fun _ _ h => h) fun c'' hcut => ?_
  · rintro a' c'' ⟨b', hret', hS⟩
    exact ⟨b', (bind_of_ret hret).trans hret', hS⟩
  · exact (bind_of_ret hret).trans hcut

/-- What the console knows nothing of. -/
theorem Follows.last {S : δ → α → DiagnosticConsole → Prop} (h : Follows x y R c)
    (hlast : ∀ a b c', R b a c' → Follows (Pure.pure a) (g b) S c') : Follows x (y >>= g) S c := by
  refine wp.mono h ?_ (fun _ _ h => h) fun c' hcut => bind_of_cut hcut
  rintro a c' ⟨b, hret, hR⟩
  obtain ⟨b', hret', hS⟩ := hlast a b c' hR
  exact ⟨b', (bind_of_ret hret).trans hret', hS⟩

/-- What the editor knows nothing of. -/
theorem Follows.silent {S : β → γ → DiagnosticConsole → Prop}
    (h : wp x c (fun a c' => c'.dev = c.dev ∧ Follows (f a) y S c') (fun _ _ => False)
      fun _ => False) : Follows (x >>= f) y S c := by
  refine wp_bind.mpr (h.mono ?_ (fun _ _ h => h) fun _ h => h.elim)
  rintro a c' ⟨hdev, hf⟩
  rw [← hdev]
  exact hf

theorem Follows.mono {S : β → α → DiagnosticConsole → Prop} (h : Follows x y R c)
    (hS : ∀ b a c', R b a c' → S b a c') : Follows x y S c :=
  wp.mono h (fun a c' ⟨b, hret, hR⟩ => ⟨b, hret, hS b a c' hR⟩) (fun _ _ h => h) fun _ h => h

/-- The editor says it in other words. -/
theorem Follows.pure_congr {b : β} {b' : δ} {S : δ → α → DiagnosticConsole → Prop}
    (h : Follows x (Pure.pure b) R c) (hS : ∀ a c', R b a c' → S b' a c') :
    Follows x (Pure.pure b') S c := by
  refine wp.mono h ?_ (fun _ _ h => h) fun c' hcut => nomatch hcut
  rintro a c' ⟨b, hret, hR⟩
  obtain ⟨rfl, hdev⟩ := Outcome.ret.inj hret
  exact ⟨b', congrArg (Outcome.ret b') hdev, hS a c' hR⟩

end Following

/-! ### Executing a line -/

/-- The console after it has given an answer. What was there `before` comes first. -/
structure Performed (config : DiagnosticConsoleConfig) (before : List UInt8)
    (c : DiagnosticConsole) (answer : ConsoleAnswer) (result : DiagnosticConsoleResult)
    (c' : DiagnosticConsole) : Prop where
  written : c'.written.flatten = before ++ answer.output
  commandCount : c'.commandCount = answer.commandCount
  result : result = answer.final.getD .bootContinue
  ends : ∀ final, answer.final = some final → final = .bootContinue ∨ final.IsFinal
  bootRequested : c'.bootRequested = (c.bootRequested || answer.final = some .bootContinue)
  resets : c'.resets =
    c.resets + if answer.final = some .resetRequested ∧ config.reset then 1 else 0
  lineLength : c'.lineLength = 0
  overflowed : c'.overflowed = false
  unread : c'.unread = c.unread

section Executing

variable {config : DiagnosticConsoleConfig} {c : DiagnosticConsole}

theorem wp_consoleWriteAll (hwrite : ∀ n data, config.write n data = true)
    {output : List (List UInt8)} {Q : Bool → DiagnosticConsole → Prop}
    {E : ConsoleTrap → DiagnosticConsole → Prop} {C : DiagnosticConsole → Prop}
    (h : Q true { c with written := c.written ++ output }) :
    wp (consoleWriteAll config output) c Q E C := by
  induction output generalizing c with
  | nil =>
    rw [List.append_nil] at h
    exact h
  | cons data rest ih =>
    rw [consoleWriteAll, wp_bind, consoleWrite, wp_bind, wp_get, wp_bind, wp_modify, hwrite]
    refine ih ?_
    dsimp only
    rw [List.append_assoc]
    exact h

/-- The name of a command is looked up in the order of the table. -/
theorem findCommand_spec {word : List UInt8} {cursor : ℕ} {table : List (String × ConsoleCommand)}
    {E : ConsoleTrap → DiagnosticConsole → Prop} {C : DiagnosticConsole → Prop}
    (hword : Text c.line cursor word) (htable : ∀ entry ∈ table, 0 ∉ ascii entry.1) :
    wp (findCommand cursor table) c
      (fun command c' => command =
        (table.find? fun entry => ascii entry.1 = word).map (·.2) ∧ c' = c) E C := by
  induction table with
  | nil => exact ⟨rfl, rfl⟩
  | cons entry table ih =>
    rw [findCommand, wp_bind]
    refine (strEqual_spec hword (htable entry List.mem_cons_self)).mono ?_ (fun _ _ h => h)
      fun _ h => h
    rintro equal c' ⟨rfl, rfl⟩
    by_cases heq : word = ascii entry.1
    · rw [decide_eq_true heq, if_pos rfl, List.find?_cons, decide_eq_true heq.symm]
      exact ⟨rfl, rfl⟩
    · rw [decide_eq_false heq, if_neg Bool.false_ne_true, List.find?_cons,
        decide_eq_false fun h => heq h.symm]
      exact ih fun other hother => htable other (List.mem_cons_of_mem _ hother)

theorem Performed.congr {before : List UInt8} {c₁ c' : DiagnosticConsole} {answer : ConsoleAnswer}
    {result : DiagnosticConsoleResult} (h : Performed config before c₁ answer result c')
    (hboot : c₁.bootRequested = c.bootRequested) (hresets : c₁.resets = c.resets)
    (hunread : c₁.unread = c.unread) : Performed config before c answer result c' :=
  ⟨h.written, h.commandCount, h.result, h.ends, hboot ▸ h.bootRequested, hresets ▸ h.resets,
    h.lineLength, h.overflowed, hunread ▸ h.unread⟩

/-- A command never fails by itself. -/
theorem commandOutput_noErr (commandCount : UInt32) (command : ConsoleCommand) (d : Device) :
    wp (commandOutput config commandCount command : Prog Device ConsoleTrap _) d (fun _ _ => True)
      (fun _ _ => False) fun _ => True := by
  cases command with
  | metadata =>
    show wp (commandMetadata config) d _ _ _
    rw [commandMetadata, wp_ite]
    refine ⟨fun _ => trivial, fun _ => ?_⟩
    rw [wp_bind]
    exact bootMetadataRecoverFromFlash_spec (fun _ _ => trivial) (fun _ _ => trivial)
      fun _ _ => trivial
  | _ => trivial

/-- A command prints its output and does nothing else, unless it ends the run. -/
theorem runCommand_follows (hwrite : ∀ n data, config.write n data = true)
    (command : ConsoleCommand) (hlength : c.lineLength = 0) (hoverflowed : c.overflowed = false) :
    Follows (runCommand config command)
      (do
        let output ← commandOutput config c.commandCount command
        pure ⟨output.flatten, c.commandCount, command.final⟩)
      (Performed config c.written.flatten c) c := by
  rw [runCommand]
  refine Follows.silent ⟨rfl, ?_⟩
  have houtput : Follows ((commandOutput config c.commandCount command).zoom (·.dev)
      fun d (c : DiagnosticConsole) => { c with dev := d })
      (commandOutput config c.commandCount command)
      (fun output output' c' => output' = output ∧ c' = { c with dev := c'.dev }) c := by
    have hnever := @commandOutput_noErr config c.commandCount command c.dev
    rw [Follows, wp_zoom]
    refine wp_of_outcome (fun output d hret => ⟨output, hret, rfl, rfl⟩)
      (fun e d herr => ?_) fun d hcut => hcut
    rw [wp, herr] at hnever
    exact hnever
  refine houtput.bind ?_
  rintro output output' c' ⟨rfl, hc'⟩
  obtain ⟨d, rfl⟩ : ∃ d, c' = { c with dev := d } := ⟨_, hc'⟩
  have hflatten : (c.written ++ output).flatten = c.written.flatten ++ output.flatten :=
    List.flatten_append
  have hends : ∀ final, command.final = some final → final = .bootContinue ∨ final.IsFinal := by
    cases command <;> decide
  cases command with
  | boot =>
    exact Follows.silent (wp_consoleWriteAll hwrite ⟨rfl, Follows.silent ⟨rfl, Follows.pure
      ⟨hflatten, rfl, rfl, hends, (Bool.or_true _).symm, rfl, hlength, hoverflowed, rfl⟩⟩⟩)
  | reboot =>
    refine Follows.silent (wp_consoleWriteAll hwrite ⟨rfl, Follows.silent ⟨rfl, Follows.pure
      ⟨hflatten, rfl, rfl, hends, (Bool.or_false _).symm, ?_, hlength, hoverflowed, rfl⟩⟩⟩)
    cases hreset : config.reset <;> rfl
  | _ =>
    exact Follows.silent (wp_consoleWriteAll hwrite ⟨rfl, Follows.pure
      ⟨hflatten, rfl, rfl, hends, (Bool.or_false _).symm, rfl, hlength, hoverflowed, rfl⟩⟩)

/-- More than one word is too many. -/
theorem answerWords_many (commandCount : UInt32) {words : List (List UInt8)}
    (h : 2 ≤ words.length) :
    answerWords config commandCount words =
      pure ⟨ascii "ERR args\n", commandCount + 1, none⟩ := by
  match words, h with
  | _ :: _ :: _, _ => rfl

/-- An answer that is nothing but a message. -/
theorem message_follows (hwrite : ∀ n data, config.write n data = true) (text : String)
    (hlength : c.lineLength = 0) (hoverflowed : c.overflowed = false) :
    Follows (do
        let ok ← consolePuts config text
        pure (resultOf ok .bootContinue))
      (pure ⟨ascii text, c.commandCount, none⟩) (Performed config c.written.flatten c) c := by
  refine Follows.silent (wp_consolePuts hwrite ⟨rfl, Follows.pure
    ⟨?_, rfl, rfl, fun _ h => (nomatch h), (Bool.or_false _).symm, rfl, hlength, hoverflowed, rfl⟩⟩)
  rw [List.flatten_append, List.flatten_singleton]

/-- The only word of a line is the name of a command, or unknown. -/
theorem word_follows (hwrite : ∀ n data, config.write n data = true) {word : List UInt8}
    {argument : ℕ} {commandCount : UInt32} (hword : Text c.line argument word)
    (hcount : c.commandCount = commandCount + 1) (hlength : c.lineLength = 0)
    (hoverflowed : c.overflowed = false) :
    Follows (do
        match ← findCommand argument consoleCommands with
        | some command => runCommand config command
        | none => do
          let ok ← consolePuts config "ERR unknown\n"
          pure (resultOf ok .bootContinue))
      (answerWords config commandCount [word]) (Performed config c.written.flatten c) c := by
  have hnames : ∀ entry ∈ consoleCommands, 0 ∉ ascii entry.1 := by decide
  refine Follows.silent ((findCommand_spec hword hnames).mono ?_ (fun _ _ h => h) fun _ h => h)
  rintro found c' ⟨hfound, rfl⟩
  refine ⟨rfl, ?_⟩
  rw [answerWords, show commandNamed word = found from hfound.symm, ← hcount]
  cases found with
  | none => exact message_follows hwrite "ERR unknown\n" hlength hoverflowed
  | some command => exact runCommand_follows hwrite command hlength hoverflowed

/-- **A line is executed as its words are answered.** -/
theorem executeLine_words (hwrite : ∀ n data, config.write n data = true) {text : List UInt8}
    (hoverflowed : c.overflowed = false) (htext : Text c.line 0 text) :
    Follows (executeLine config) (answerWords config c.commandCount (words isSpace text))
      (Performed config c.written.flatten c) c := by
  rw [executeLine]
  refine Follows.silent ⟨rfl, ?_⟩
  rw [if_neg (by rw [hoverflowed]; exact Bool.false_ne_true)]
  refine Follows.silent ((tokenize_spec htext).mono ?_ (fun _ _ h => h) fun _ h => h)
  rintro ⟨argv, tooMany⟩ c₁ ⟨hc₁, htokens⟩
  obtain ⟨line, rfl⟩ : ∃ line, c₁ = { c with line } := ⟨_, hc₁⟩
  refine ⟨rfl, Follows.silent (wp_setLineLength (Nat.zero_le _) ⟨rfl, ?_⟩)⟩
  cases argv with
  | nil =>
    obtain hnil : words isSpace text = [] := by
      cases tooMany with
      | false => exact List.forall₂_nil_left_iff.mp htokens
      | true => exact absurd htokens.1 (by decide)
    rw [hnil]
    exact Follows.pure ⟨(List.append_nil _).symm, rfl, rfl, fun _ h => (nomatch h),
      (Bool.or_false _).symm, rfl, rfl, hoverflowed, rfl⟩
  | cons argument rest =>
    refine Follows.silent ⟨rfl, ?_⟩
    by_cases hmany : tooMany = true ∨ rest ≠ []
    · have hlength : 2 ≤ (words isSpace text).length := by
        cases tooMany with
        | false =>
          have hcount : (argument :: rest).length = (words isSpace text).length :=
            List.Forall₂.length_eq htokens
          have hrest := List.length_pos_iff.mpr (hmany.resolve_left Bool.false_ne_true)
          rw [List.length_cons] at hcount
          omega
        | true =>
          obtain ⟨hfour, hmore⟩ := htokens
          rw [hfour, diagnosticConsoleMaxArguments] at hmore
          omega
      rw [if_pos hmany, answerWords_many _ hlength]
      exact Follows.mono (message_follows hwrite "ERR args\n" rfl hoverflowed)
        fun _ _ _ h => h.congr rfl rfl rfl
    · rw [if_neg hmany]
      obtain ⟨htooMany, hrest⟩ := not_or.mp hmany
      obtain rfl := Decidable.not_not.mp hrest
      obtain rfl := Bool.eq_false_iff.mpr htooMany
      obtain ⟨word, others, hword, hothers, hwords⟩ := List.forall₂_cons_left_iff.mp htokens
      obtain rfl := List.forall₂_nil_left_iff.mp hothers
      rw [hwords]
      exact Follows.mono (word_follows hwrite hword rfl rfl hoverflowed)
        fun _ _ _ h => h.congr rfl rfl rfl

/-- **An entry is answered**, whatever has become of its line in the buffer. -/
theorem executeLine_follows (hwrite : ∀ n data, config.write n data = true) {entry : Entry UInt8}
    {before : List UInt8} (hbuffered : Buffered c entry)
    (hwritten : c.written.flatten = before ++ (echo entry).flatten) :
    Follows (executeLine config) (answerEntry config c.commandCount entry)
      (Performed config before c) c := by
  cases entry with
  | line text =>
    obtain ⟨hoverflowed, htext⟩ := hbuffered
    have hline := executeLine_words hwrite hoverflowed htext
    rw [hwritten, show (echo (.line text)).flatten = [] from rfl, List.append_nil] at hline
    exact hline
  | control =>
    obtain ⟨hoverflowed, htext⟩ := hbuffered
    refine Follows.pure_congr (executeLine_words hwrite hoverflowed htext) fun result c' h => ?_
    refine ⟨?_, h.commandCount, h.result, h.ends, h.bootRequested, h.resets, h.lineLength,
      h.overflowed, h.unread⟩
    rw [h.written, List.append_nil, hwritten]
    exact congrArg (before ++ ·) List.flatten_singleton
  | overlong =>
    have hbefore : c.written.flatten = before := by
      rw [hwritten]
      exact List.append_nil before
    rw [executeLine]
    refine Follows.silent ⟨rfl, ?_⟩
    rw [if_pos (show c.overflowed = true from hbuffered)]
    refine Follows.silent ⟨rfl, Follows.silent (wp_setLineLength (Nat.zero_le _) ⟨rfl,
      Follows.silent (wp_storeChar (Nat.zero_le _) ⟨rfl, ?_⟩)⟩)⟩
    rw [← hbefore]
    exact Follows.mono (message_follows hwrite "ERR line-too-long\n" rfl rfl)
      fun _ _ _ h => h.congr rfl rfl rfl

end Executing

/-! ### The whole run -/

/-- The console at the end of a run that has printed `output` and come to `result`. -/
structure Concluded (config : DiagnosticConsoleConfig) (c : DiagnosticConsole)
    (out : List UInt8 × DiagnosticConsoleResult) (result : Option DiagnosticConsoleResult)
    (c' : DiagnosticConsole) : Prop where
  result : result = some out.2
  written : c'.written.flatten = c.written.flatten ++ out.1
  resets : c'.resets = c.resets + if out.2 = .resetRequested ∧ config.reset then 1 else 0

section Running

variable {config : DiagnosticConsoleConfig} {c : DiagnosticConsole}

/-- Between two lines the buffer is empty. -/
structure Prompting (c : DiagnosticConsole) : Prop where
  lineLength : c.lineLength = 0
  overflowed : c.overflowed = false
  bootRequested : c.bootRequested = false

/-- An answer that does not end the run leaves the console at the prompt. -/
theorem Performed.prompting {before : List UInt8} {answer : ConsoleAnswer}
    {result : DiagnosticConsoleResult} {c' : DiagnosticConsole}
    (h : Performed config before c answer result c') (hboot : c.bootRequested = false)
    (hfinal : answer.final = none) : Prompting c' := by
  refine ⟨h.lineLength, h.overflowed, ?_⟩
  rw [h.bootRequested, hboot, hfinal]
  rfl

/-- **The rounds of the console.** Each takes an entry off the input. -/
theorem consoleLoop_follows (hwrite : ∀ n data, config.write n data = true) {fuel : ℕ}
    (hprompting : Prompting c) (hfuel : c.unread.length < fuel) :
    Follows (consoleLoop config fuel)
      (answerEntries config (consoleEntries c.unread) c.commandCount) (Concluded config c) c := by
  induction fuel generalizing c with
  | zero => exact absurd hfuel (Nat.not_lt_zero _)
  | succ fuel ih =>
    rw [consoleLoop]
    refine Follows.silent (wp_consolePuts hwrite ⟨rfl, ?_⟩)
    rw [if_pos rfl]
    refine Follows.silent (wp.mono (readLine_spec (c := { c with written := _ }) hwrite
      hprompting.lineLength hprompting.overflowed) ?_ (fun _ _ h => h) fun _ h => h)
    rintro status c₁ ⟨⟨hcount, hboot, hresets, hdev⟩, hcase⟩
    refine ⟨hdev, ?_⟩
    have hprompt (out : List (List UInt8)) :
        (c.written ++ [ascii "> "] ++ out).flatten =
          c.written.flatten ++ ascii "> " ++ out.flatten := by
      rw [List.flatten_append, List.flatten_append, List.flatten_singleton]
    rcases hcase with ⟨rfl, hnone, hwritten⟩ | ⟨rfl, entry, hfirst, hshorter, hbuffered, hwritten⟩
    · -- the reader has nothing more to give
      rw [show consoleEntries c.unread = [] from hnone, answerEntries]
      cases config.timesOut with
      | true =>
        refine Follows.silent (wp_consolePuts hwrite ⟨rfl, Follows.pure ⟨rfl, ?_, hresets⟩⟩)
        rw [hwritten, hprompt, List.flatten_singleton]
        exact List.append_assoc ..
      | false =>
        refine Follows.pure ⟨rfl, ?_, hresets⟩
        rw [hwritten, List.flatten_append, List.flatten_singleton]
        rfl
    · rw [show consoleEntries c.unread = _ from hfirst, answerEntries]
      have hbefore : c₁.written.flatten =
          c.written.flatten ++ ascii "> " ++ (echo entry).flatten := by
        rw [hwritten, hprompt]
      have hexecute := executeLine_follows hwrite hbuffered hbefore
      rw [hcount] at hexecute
      refine hexecute.bind ?_
      intro result answer c₂ hperformed
      refine Follows.silent ⟨rfl, ?_⟩
      have hresult := hperformed.result
      have hboot₂ := hperformed.bootRequested
      have hresets₂ := hperformed.resets
      have hwritten₂ := hperformed.written
      cases hfinal : answer.final with
      | none =>
        rw [hfinal] at hresult hboot₂ hresets₂
        obtain rfl : result = .bootContinue := hresult
        have hprompting₂ := hperformed.prompting (hboot.trans hprompting.bootRequested) hfinal
        rw [if_neg (by decide),
          if_neg (by rw [hprompting₂.bootRequested]; exact Bool.false_ne_true),
          ← hperformed.unread, ← hperformed.commandCount]
        refine (ih hprompting₂ ?_).last ?_
        · have := hperformed.unread ▸ hshorter
          exact Nat.lt_of_lt_of_le this (Nat.le_of_lt_succ hfuel)
        · rintro result' ⟨output, final⟩ c' ⟨hresult', hwritten', hresets'⟩
          refine Follows.pure ⟨hresult', ?_, ?_⟩
          · rw [hwritten', hwritten₂, List.append_assoc, List.append_assoc, List.append_assoc]
          · rw [hresets', hresets₂, hresets]
            rfl
      | some final =>
        rw [hfinal] at hresult hboot₂ hresets₂
        obtain rfl : result = final := hresult
        have hanswered :
            Concluded config c (ascii "> " ++ answer.output, result) (some result) c₂ := by
          refine ⟨rfl, ?_, ?_⟩
          · rw [hwritten₂, List.append_assoc]
          · rw [hresets₂, hresets]
            simp only [Option.some.injEq]
        rcases hperformed.ends result hfinal with rfl | hends
        · rw [if_neg (by decide), if_pos (by rw [hboot₂]; exact Bool.or_true _)]
          exact Follows.pure hanswered
        · rw [if_pos hends]
          exact Follows.pure hanswered

theorem consoleRounds_follows (hwrite : ∀ n data, config.write n data = true)
    (hprompting : Prompting c) :
    Follows (consoleRounds config)
      (answerEntries config (consoleEntries c.unread) c.commandCount) (Concluded config c) c := by
  rw [consoleRounds]
  exact Follows.silent ⟨rfl, consoleLoop_follows hwrite hprompting (Nat.lt_succ_self _)⟩

/-- **The line that is there before** ends up in the buffer as one that has been typed. -/
theorem copyInitialLine_spec {E : ConsoleTrap → DiagnosticConsole → Prop}
    {C : DiagnosticConsole → Prop} {done text : List UInt8}
    (hdone : slice c.line 0 done.length = done)
    (hroom : done.length ≤ diagnosticConsoleMaxLineLength) (hnonzero : 0 ∉ done ++ text) :
    wp (copyInitialLine done.length text) c
      (fun _ c' => SameRun c c' ∧ c'.unread = c.unread ∧ c'.written = c.written ∧
        Buffered c' (if (done ++ text).length ≤ diagnosticConsoleMaxLineLength
          then .line (done ++ text) else .overlong)) E C := by
  induction text generalizing c done with
  | nil =>
    rw [List.append_nil] at hnonzero ⊢
    rw [copyInitialLine, wp_bind]
    refine wp_storeChar hroom ?_
    rw [wp_bind]
    refine wp_setLineLength hroom ⟨⟨rfl, rfl, rfl, rfl⟩, rfl, rfl, ?_⟩
    rw [if_pos hroom]
    refine ⟨rfl, ?_, ?_, ?_, hnonzero⟩
    · show slice (Function.update c.line done.length 0) 0 done.length = done
      rw [slice_congr fun x _ hx => Function.update_of_ne (by omega) _ _, hdone]
    · rw [Nat.zero_add]
      exact Function.update_self ..
    · rw [Nat.zero_add]
      exact hroom
  | cons a rest ih =>
    rw [copyInitialLine, wp_ite]
    refine ⟨fun hfull => ?_, fun hless => ?_⟩
    · rw [wp_bind]
      refine wp_setLineLength (Nat.zero_le _) ?_
      rw [wp_bind]
      refine wp_storeChar (Nat.zero_le _) ⟨⟨rfl, rfl, rfl, rfl⟩, rfl, rfl, ?_⟩
      rw [if_neg]
      · exact rfl
      · rw [List.length_append, List.length_cons]
        omega
    · rw [wp_bind]
      refine wp_storeChar hroom ?_
      have hlast := slice_update c.line 0 done.length a
      rw [Nat.zero_add, hdone] at hlast
      have hlength : (done ++ [a]).length = done.length + 1 := List.length_append
      have hnext := @ih { c with line := Function.update c.line done.length a } (done ++ [a])
        (by rw [hlength]; exact hlast) (by omega)
        (by rw [List.append_assoc]; exact hnonzero)
      rw [hlength, List.append_assoc, List.singleton_append] at hnext
      exact hnext

/-- **The console does what the editor does.** -/
theorem diagnosticConsoleRun_follows (hwrite : ∀ n data, config.write n data = true)
    (initialLine : Option CString) :
    Follows (diagnosticConsoleRun config initialLine)
      (editorSession config initialLine c.unread) (Concluded config c) c := by
  rw [diagnosticConsoleRun.eq_def]
  refine Follows.silent ⟨rfl, Follows.silent (wp_consolePuts hwrite ⟨rfl, ?_⟩)⟩
  rw [if_neg (by decide), editorSession]
  have hbanner : (c.written ++ [ascii "diagnostic console readonly\n"]).flatten =
      c.written.flatten ++ ascii "diagnostic console readonly\n" := by
    rw [List.flatten_append, List.flatten_singleton]
  refine Follows.last (R := fun (out : List UInt8 × DiagnosticConsoleResult) result c' =>
    result = some out.2 ∧
    c'.written.flatten = c.written.flatten ++ ascii "diagnostic console readonly\n" ++ out.1 ∧
    c'.resets = c.resets + if out.2 = .resetRequested ∧ config.reset then 1 else 0) ?_ ?_
  · cases initialLine with
    | none =>
      refine Follows.mono (consoleRounds_follows hwrite ⟨rfl, rfl, rfl⟩) fun out result c' h => ?_
      refine ⟨h.result, ?_, h.resets⟩
      rw [h.written, hbanner]
    | some initialLine =>
      refine Follows.silent (wp.mono (@copyInitialLine_spec _ _ _ [] initialLine.bytes rfl
        (Nat.zero_le _) initialLine.terminated) ?_ (fun _ _ h => h) fun _ h => h)
      rintro _ c₁ ⟨⟨hcount, hboot, hresets, hdev⟩, hunread, hwritten, hbuffered⟩
      refine ⟨hdev, ?_⟩
      have hbefore : c₁.written.flatten = c.written.flatten ++
          ascii "diagnostic console readonly\n" ++ (echo (initialEntry initialLine)).flatten := by
        rw [hwritten, hbanner, initialEntry]
        split <;> exact (List.append_nil _).symm
      have hexecute := executeLine_follows hwrite hbuffered hbefore
      rw [hcount] at hexecute
      refine hexecute.bind ?_
      intro result answer c₂ hperformed
      refine Follows.silent ⟨rfl, ?_⟩
      have hresult := hperformed.result
      have hresets₂ := hperformed.resets
      have hwritten₂ := hperformed.written
      rw [hresets] at hresets₂
      cases hfinal : answer.final with
      | none =>
        rw [hfinal] at hresult hresets₂
        obtain rfl : result = .bootContinue := hresult
        have hprompting := hperformed.prompting hboot hfinal
        rw [if_neg (by rw [hprompting.bootRequested]; decide), ← hperformed.commandCount,
          show c.unread = c₂.unread from (hperformed.unread.trans hunread).symm]
        refine (consoleRounds_follows hwrite hprompting).last ?_
        rintro result' ⟨output, final⟩ c' ⟨hresult', hwritten', hresets'⟩
        refine Follows.pure ⟨hresult', ?_, ?_⟩
        · rw [hwritten', hwritten₂, List.append_assoc _ answer.output]
        · rw [hresets', hresets₂]
          rfl
      | some final =>
        rw [hfinal] at hresult hresets₂
        obtain rfl : result = final := hresult
        rw [if_pos]
        · refine Follows.pure ⟨rfl, hwritten₂, ?_⟩
          rw [hresets₂]
          simp only [Option.some.injEq]
        · rcases hperformed.ends result hfinal with rfl | hends
          · refine Or.inr ?_
            rw [hperformed.bootRequested, hfinal]
            exact Bool.or_true _
          · exact Or.inl hends
  · rintro result ⟨output, final⟩ c' ⟨hresult, hwritten, hresets⟩
    refine Follows.pure ⟨hresult, ?_, hresets⟩
    rw [hwritten, List.append_assoc]

/-- The run returns when the editor does. -/
theorem diagnosticConsoleRun_of_ret (hwrite : ∀ n data, config.write n data = true)
    {initialLine : Option CString} {output : List UInt8} {final : DiagnosticConsoleResult} {d : Device}
    (h : answerInput config initialLine c.unread c.dev = .ret (output, final) d) :
    ∃ c', diagnosticConsoleRun config initialLine c = .ret (some final) c' ∧ c'.dev = d ∧
      Concluded config c (ascii "diagnostic console readonly\n" ++ output, final) (some final)
        c' := by
  have hsession : editorSession config initialLine c.unread c.dev =
      .ret (ascii "diagnostic console readonly\n" ++ output, final) d := bind_of_ret h
  have hrun := diagnosticConsoleRun_follows hwrite (c := c) initialLine
  rw [Follows, hsession] at hrun
  cases hend : diagnosticConsoleRun config initialLine c with
  | ret result c' =>
    rw [wp, hend] at hrun
    obtain ⟨out, hret, hconcluded⟩ := hrun
    obtain ⟨rfl, hdev⟩ := Outcome.ret.inj hret
    obtain rfl := hconcluded.result
    exact ⟨c', rfl, hdev.symm, hconcluded⟩
  | err e c' =>
    rw [wp, hend] at hrun
    exact hrun.elim
  | cut c' =>
    rw [wp, hend] at hrun
    cases hrun

/-- The run is cut where the editor is. -/
theorem diagnosticConsoleRun_of_cut (hwrite : ∀ n data, config.write n data = true)
    {initialLine : Option CString} {d : Device}
    (h : answerInput config initialLine c.unread c.dev = .cut d) :
    ∃ c', diagnosticConsoleRun config initialLine c = .cut c' ∧ c'.dev = d := by
  have hsession : editorSession config initialLine c.unread c.dev = .cut d := bind_of_cut h
  have hrun := diagnosticConsoleRun_follows hwrite (c := c) initialLine
  rw [Follows, hsession] at hrun
  cases hend : diagnosticConsoleRun config initialLine c with
  | ret result c' =>
    rw [wp, hend] at hrun
    obtain ⟨out, hret, -⟩ := hrun
    cases hret
  | err e c' =>
    rw [wp, hend] at hrun
    exact hrun.elim
  | cut c' =>
    rw [wp, hend] at hrun
    exact ⟨c', rfl, (Outcome.cut.inj hrun).symm⟩

/-- The editor never fails. -/
theorem answerInput_ne_err (hwrite : ∀ n data, config.write n data = true)
    (initialLine : Option CString) (e : ConsoleTrap) (d : Device) :
    answerInput config initialLine c.unread c.dev ≠ .err e d := by
  intro h
  have hsession : editorSession config initialLine c.unread c.dev = .err e d := bind_of_err h
  have hrun := diagnosticConsoleRun_follows hwrite (c := c) initialLine
  rw [Follows, hsession] at hrun
  cases hend : diagnosticConsoleRun config initialLine c with
  | ret result c' =>
    rw [wp, hend] at hrun
    obtain ⟨out, hret, -⟩ := hrun
    cases hret
  | err e c' =>
    rw [wp, hend] at hrun
    exact hrun.elim
  | cut c' =>
    rw [wp, hend] at hrun
    cases hrun

end Running

/-! ### The flash -/

section Unwritten

variable {config : DiagnosticConsoleConfig} {R : FlashOp → Prop}

theorem steps_commandOutput (commandCount : UInt32) (command : ConsoleCommand) :
    Steps (Device.Extends R)
      (commandOutput config commandCount command : Prog Device ConsoleTrap _) := by
  cases command with
  | metadata =>
    show Steps _ (commandMetadata config)
    rw [commandMetadata]
    split
    · exact Steps.pure _
    · exact steps_bootMetadataRecoverFromFlash.bind fun _ => Steps.pure _
  | _ => exact Steps.pure _

theorem steps_answerEntry (commandCount : UInt32) (entry : Entry UInt8) :
    Steps (Device.Extends R) (answerEntry config commandCount entry) := by
  cases entry with
  | line text =>
    rw [answerEntry]
    match words isSpace text with
    | [] | _ :: _ :: _ => exact Steps.pure _
    | [word] =>
      rw [answerWords]
      split
      · exact (steps_commandOutput _ _).bind fun _ => Steps.pure _
      · exact Steps.pure _
  | overlong | control => exact Steps.pure _

theorem steps_answerEntries (entries : List (Entry UInt8)) (commandCount : UInt32) :
    Steps (Device.Extends R) (answerEntries config entries commandCount) := by
  induction entries generalizing commandCount with
  | nil => exact Steps.pure _
  | cons entry rest ih =>
    rw [answerEntries]
    refine (steps_answerEntry _ _).bind fun answer => ?_
    split
    · exact Steps.pure _
    · exact (ih _).bind fun _ => Steps.pure _

/-- **No answer writes the flash.** -/
theorem steps_editorSession (initialLine : Option CString) (bytes : List UInt8) :
    Steps (Device.Extends R) (editorSession config initialLine bytes) := by
  refine Steps.bind ?_ fun _ => Steps.pure _
  cases initialLine with
  | none => exact steps_answerEntries _ _
  | some initialLine =>
    refine (steps_answerEntry _ _).bind fun answer => ?_
    split
    · exact Steps.pure _
    · exact (steps_answerEntries _ _).bind fun _ => Steps.pure _

end Unwritten

/-- **The discipline of the console.** It answers as the editor does and ends with the same result,
the flash is as it was, and nothing undefined happens. -/
theorem console_discipline (config : DiagnosticConsoleConfig)
    (hwrite : ∀ n data, config.write n data = true) (initialLine : Option CString)
    (c : DiagnosticConsole) :
    wp (diagnosticConsoleRun config initialLine) c
      (fun result c' =>
        (∃ output final,
          editorSession config initialLine c.unread c.dev = .ret (output, final) c'.dev ∧
          result = some final ∧ c'.written.flatten = c.written.flatten ++ output ∧
          c'.resets = c.resets + if final = .resetRequested ∧ config.reset then 1 else 0) ∧
        c'.dev.mem = c.dev.mem ∧ c'.dev.log = c.dev.log)
      (fun _ _ => False)
      (fun c' => editorSession config initialLine c.unread c.dev = .cut c'.dev ∧
        c'.dev.mem = c.dev.mem ∧ c'.dev.log = c.dev.log) := by
  have hflash : c.dev.Extends (fun _ => False)
      (editorSession config initialLine c.unread c.dev).state :=
    (steps_editorSession initialLine c.unread).state c.dev
  refine wp.mono (diagnosticConsoleRun_follows hwrite initialLine) ?_ (fun _ _ h => h) ?_
  · rintro result c' ⟨⟨output, final⟩, hret, hresult, hwritten, hresets⟩
    rw [hret] at hflash
    exact ⟨⟨output, final, hret, hresult, hwritten, hresets⟩, hflash.eq_of_false⟩
  · intro c' hcut
    rw [hcut] at hflash
    exact ⟨hcut, hflash.eq_of_false⟩

/-- A console whose writer never fails. -/
def patientConfig : DiagnosticConsoleConfig where
  timesOut := true
  write _ _ := true
  flash := true
  boardName := none
  resetCause := none
  reset := true
  board := ⟨180000000, 0, 0, 0⟩

/-- Somebody mistypes `reboot`, and corrects it. -/
def mistyped : DiagnosticConsole where
  unread := ascii "rebo" ++ [0x74, 0x7F] ++ ascii "ot\nhelp\n"
  dev := ⟨fun _ => 0xFF, [], []⟩

theorem consoleEntries_mistyped :
    consoleEntries mistyped.unread = [.line (ascii "reboot"), .line (ascii "help")] := rfl

theorem editorSession_mistyped :
    editorSession patientConfig none mistyped.unread mistyped.dev =
      .ret (ascii "diagnostic console readonly\n" ++ (ascii "> " ++ ascii "reboot\n"),
        .resetRequested) mistyped.dev := by
  rw [editorSession, answerInput, consoleEntries_mistyped]
  rfl

/-- The line is corrected, and the one behind it never read. -/
theorem console_discipline_mistyped :
    ∃ c', diagnosticConsoleRun patientConfig none mistyped = .ret (some .resetRequested) c' ∧
      c'.resets = 1 ∧ c'.dev.log = [] ∧ c'.written.flatten =
        ascii "diagnostic console readonly\n" ++ (ascii "> " ++ ascii "reboot\n") := by
  -- the run is not to be evaluated
  obtain ⟨config, hconfig⟩ : ∃ config, config = patientConfig := ⟨_, rfl⟩
  obtain ⟨c, hc⟩ : ∃ c, c = mistyped := ⟨_, rfl⟩
  have hwrite : ∀ n data, config.write n data = true := by
    rw [hconfig]
    exact fun _ _ => rfl
  have hsession := editorSession_mistyped
  rw [← hconfig, ← hc] at hsession
  rw [← hconfig, ← hc]
  have hrun := console_discipline config hwrite none c
  rw [hsession] at hrun
  cases hend : diagnosticConsoleRun config none c with
  | ret result c' =>
    rw [wp, hend] at hrun
    obtain ⟨⟨output, final, hret, hresult, hwritten, hresets⟩, -, hlog⟩ := hrun
    obtain ⟨hout, -⟩ := Outcome.ret.inj hret
    obtain ⟨rfl, rfl⟩ := Prod.mk.inj hout
    rw [hc] at hwritten hlog
    rw [hc, hconfig] at hresets
    rw [hresult]
    exact ⟨c', rfl, hresets, hlog, hwritten⟩
  | err e c' =>
    rw [wp, hend] at hrun
    exact hrun.elim
  | cut c' =>
    rw [wp, hend] at hrun
    cases hrun.1

end Stm32SecurityLab
