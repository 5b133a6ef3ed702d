import Mathlib.Data.List.Infix

/-!
# Line editors

What somebody means who types a line: characters are kept, an erase takes the last of them away,
and a line is over when it is entered. A line that has once held more characters than there is
room for is lost, even if some of them are erased again, and so is a line with something in it
that is not a character at all. Everything is said about whole streams of input; how an editor
keeps its buffer is of no concern here.

The type of the input and the meaning of its elements are parameters.

## Main definitions

* `LineEditor.Key` — what an element of the input means
* `LineEditor.kept`, `LineEditor.Overlong` — a line while it is being typed
* `LineEditor.entries` — the lines of a stream
* `LineEditor.pending` — what a stream leaves behind
* `LineEditor.words` — the words of a line

## Main results

* `LineEditor.kept_concat`, `LineEditor.overlong_concat` — one more key
* `LineEditor.entriesFrom_append` — a stream can be cut anywhere
* `LineEditor.words_cons_blank`, `LineEditor.words_append` — the first word of a line
-/

namespace LineEditor

/-- What an element of the input means. -/
inductive Key (α : Type*) where
  | char (a : α)
  | erase
  | enter
  /-- Nothing that belongs into a line. -/
  | control

/-- The key is no character. -/
def Key.isControl {α : Type*} : Key α → Bool
  | .control => true
  | .char _ | .erase | .enter => false

/-- A line that is over. -/
inductive Entry (α : Type*) where
  | line (text : List α)
  | overlong
  | control

variable {α β : Type*} (key : β → Key α) (limit : ℕ)

/-! ### Typing -/

/-- What a key does to the characters that are kept. -/
def edit (text : List α) : Key α → List α
  | .char a => text ++ [a]
  | .erase => text.dropLast
  | .enter | .control => text

/-- The characters that are kept of what has been typed. -/
def kept (typed : List β) : List α := typed.foldl (fun text b => edit text (key b)) []

/-- There were once more than `limit` characters. -/
def Overlong (typed : List β) : Prop :=
  ∃ earlier, earlier <+: typed ∧ limit < (kept key earlier).length

instance (typed : List β) : Decidable (Overlong key limit typed) :=
  decidable_of_iff (∃ earlier ∈ typed.inits, limit < (kept key earlier).length)
    (exists_congr fun earlier => and_congr_left fun _ => List.mem_inits earlier typed)

@[simp] theorem kept_nil : kept key [] = [] := rfl

/-- **One more key.** -/
theorem kept_concat (typed : List β) (b : β) :
    kept key (typed ++ [b]) = edit (kept key typed) (key b) := by
  rw [kept, List.foldl_append]
  rfl

theorem not_overlong_nil : ¬ Overlong key limit [] := by
  rintro ⟨earlier, hearlier, hlength⟩
  rw [List.prefix_nil.mp hearlier] at hlength
  exact Nat.not_lt_zero _ hlength

/-- **A line is overlong from the first character that finds no room.** -/
theorem overlong_concat (typed : List β) (b : β) :
    Overlong key limit (typed ++ [b]) ↔
      Overlong key limit typed ∨ limit < (edit (kept key typed) (key b)).length := by
  constructor
  · rintro ⟨earlier, hearlier, hlength⟩
    rcases List.prefix_concat_iff.mp hearlier with rfl | hearlier
    · rw [kept_concat] at hlength
      exact Or.inr hlength
    · exact Or.inl ⟨earlier, hearlier, hlength⟩
  · rintro (⟨earlier, hearlier, hlength⟩ | hlength)
    · exact ⟨earlier, hearlier.trans (List.prefix_append ..), hlength⟩
    · exact ⟨_, List.prefix_rfl, by rwa [kept_concat]⟩

theorem length_le_of_not_overlong {typed : List β} (h : ¬ Overlong key limit typed) :
    (kept key typed).length ≤ limit := by
  by_contra hlt
  exact h ⟨typed, List.prefix_rfl, Nat.not_le.mp hlt⟩

/-! ### Streams -/

/-- What becomes of a line that is entered. -/
def entered (typed : List β) : Entry α :=
  if Overlong key limit typed then .overlong else .line (kept key typed)

/-- The lines of a stream, when some of the first has been typed before. -/
def entriesFrom (typed : List β) : List β → List (Entry α)
  | [] => []
  | b :: bytes =>
    match key b with
    | .enter => entered key limit typed :: entriesFrom [] bytes
    | .control => .control :: entriesFrom [] bytes
    | .char _ | .erase => entriesFrom (typed ++ [b]) bytes

/-- The lines of a stream. -/
def entries (bytes : List β) : List (Entry α) := entriesFrom key limit [] bytes

/-- What has been typed, by the end of a stream, of the line that is not over. -/
def pending (typed : List β) : List β → List β
  | [] => typed
  | b :: bytes =>
    match key b with
    | .enter | .control => pending [] bytes
    | .char _ | .erase => pending (typed ++ [b]) bytes

theorem pending_append (typed bytes more : List β) :
    pending key typed (bytes ++ more) = pending key (pending key typed bytes) more := by
  induction bytes generalizing typed with
  | nil => rfl
  | cons b bytes ih =>
    rw [List.cons_append, pending, pending]
    cases key b with
    | enter | control => exact ih []
    | char a => exact ih (typed ++ [b])
    | erase => exact ih (typed ++ [b])

/-- **A stream can be cut anywhere.** -/
theorem entriesFrom_append (typed bytes more : List β) :
    entriesFrom key limit typed (bytes ++ more) =
      entriesFrom key limit typed bytes ++ entriesFrom key limit (pending key typed bytes) more := by
  induction bytes generalizing typed with
  | nil => rfl
  | cons b bytes ih =>
    rw [List.cons_append, entriesFrom, entriesFrom, pending]
    cases key b with
    | enter | control => exact congrArg _ (ih [])
    | char a => exact ih (typed ++ [b])
    | erase => exact ih (typed ++ [b])

/-- Where nothing is entered, there are only the lines that have been given up. -/
theorem entriesFrom_of_no_enter {bytes : List β} (h : ∀ b ∈ bytes, key b ≠ .enter)
    (typed : List β) :
    entriesFrom key limit typed bytes =
      List.replicate (bytes.countP fun b => (key b).isControl) .control := by
  induction bytes generalizing typed with
  | nil => rfl
  | cons b bytes ih =>
    have hrest := ih fun b' hb' => h b' (List.mem_cons_of_mem _ hb')
    rw [entriesFrom, List.countP_cons]
    cases hkey : key b with
    | enter => exact absurd hkey (h b List.mem_cons_self)
    | control => exact congrArg _ (hrest [])
    | char a => exact hrest (typed ++ [b])
    | erase => exact hrest (typed ++ [b])

/-! ### Words -/

variable (blank : α → Bool)

/-- The words of a line. -/
def words (text : List α) : List (List α) :=
  (text.splitOnP blank).filter fun word => !word.isEmpty

@[simp] theorem words_nil : words blank [] = [] := rfl

variable {blank}

theorem words_cons_blank {a : α} {text : List α} (h : blank a = true) :
    words blank (a :: text) = words blank text := by
  have hsplit : (a :: text).splitOnP blank = [] :: text.splitOnP blank :=
    List.splitOnP_append_cons_of_forall_mem (fun _ hx => absurd hx List.not_mem_nil) a h text
  rw [words, hsplit]
  rfl

/-- **The first word ends at a blank, or with the line.** -/
theorem words_append {word rest : List α} (hword : ∀ a ∈ word, blank a = false) (hne : word ≠ [])
    (hrest : ∀ a ∈ rest.head?, blank a = true) :
    words blank (word ++ rest) = word :: words blank rest := by
  have hkeep (others : List (List α)) :
      (word :: others).filter (fun word => !word.isEmpty) =
        word :: others.filter fun word => !word.isEmpty :=
    List.filter_cons_of_pos (by rw [List.isEmpty_eq_false_iff.mpr hne]; rfl)
  cases rest with
  | nil =>
    rw [List.append_nil, words, List.splitOnP_eq_singleton hword, hkeep]
    rfl
  | cons a rest =>
    have hblank : blank a = true := hrest a rfl
    rw [words_cons_blank hblank, words,
      List.splitOnP_append_cons_of_forall_mem hword a hblank rest, hkeep]
    rfl

end LineEditor
