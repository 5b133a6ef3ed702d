import Mathlib.Tactic.Common
import Mathlib.Logic.Function.Basic

/-!
# A register kept in two copies

The classical way to update a value in memory that can only be erased and rewritten: keep two
copies, each carrying a sequence number, read the newer one and overwrite the other. The argument
is about options of an arbitrary record type; an option is `none` when the copy does not decode.

A write destroys its target before the new value is complete, so three states of the target
matter: still as it was, unreadable, and holding the new value. `read_update_none` says that the
value read survives the second, `read_update_some` that it is exactly the new value in the third.
Nothing else about the storage enters.

Two readable copies with equal sequence numbers and different contents are a `conflict`. Neither
lemma produces one, and that is the point: a conflict has to come from outside.

## Main definitions

* `TwoCopy.read`, `TwoCopy.target` — the value of a pair of copies, and the copy to overwrite

## Main results

* `TwoCopy.read_update_none`, `TwoCopy.read_update_some`
-/

namespace TwoCopy

/-- The two copies. -/
inductive Side where
  | first
  | second
  deriving DecidableEq, Repr

/-- What a pair of copies says. -/
inductive Value (R : Type) where
  /-- Neither copy is readable. -/
  | empty
  /-- Both are readable, equally new and different. -/
  | conflict
  /-- The newer readable copy. -/
  | value (r : R)
  deriving DecidableEq, Repr

variable {R : Type} [DecidableEq R] (seq : R → ℕ)

/-- The value of a pair of copies. -/
def read (copies : Side → Option R) : Value R :=
  match copies .first, copies .second with
  | none, none => .empty
  | some a, none => .value a
  | none, some b => .value b
  | some a, some b =>
    if seq a = seq b then if a = b then .value a else .conflict
    else if seq b < seq a then .value a else .value b

/-- The copy the next write goes to: an unreadable one if there is one, otherwise the one that was
not read. -/
def target (copies : Side → Option R) : Side :=
  match copies .first, copies .second with
  | none, _ => .first
  | some _, none => .second
  | some a, some b => if seq b ≤ seq a then .second else .first

variable {seq} {copies : Side → Option R}

/-- Nothing is read exactly when there is nothing to read. -/
theorem read_eq_empty_iff : read seq copies = .empty ↔ copies = fun _ => none := by
  constructor
  · intro h
    rw [read] at h
    funext side
    rcases ha : copies .first with _ | a <;> rcases hb : copies .second with _ | b <;>
      rw [ha, hb] at h
    · cases side <;> assumption
    · cases h
    · cases h
    · simp only at h
      repeat' split at h
      all_goals cases h
  · rintro rfl
    rfl

/-- **Losing the target loses nothing.** -/
theorem read_update_none (h : read seq copies ≠ .conflict) :
    read seq (Function.update copies (target seq copies) none) = read seq copies := by
  unfold read target at *
  rcases ha : copies .first with _ | a <;> rcases hb : copies .second with _ | b
  · simp [hb]
  · simp [hb]
  · simp [ha]
  · simp only [ha, hb] at h ⊢
    by_cases heq : seq a = seq b
    · simp only [heq, Nat.le_refl, if_true] at h ⊢
      by_cases hab : a = b
      · simp [ha, hab]
      · simp [hab] at h
    · by_cases hlt : seq b < seq a
      · simp [ha, heq, hlt, Nat.le_of_lt hlt]
      · simp [hb, heq, hlt, show ¬ seq b ≤ seq a by omega]

/-- **Writing the target is the update.** The new record has to be newer than the one read. -/
theorem read_update_some {n : R} (h : read seq copies ≠ .conflict)
    (hnew : ∀ r, read seq copies = .value r → seq r < seq n) :
    read seq (Function.update copies (target seq copies) (some n)) = .value n := by
  unfold read target at *
  rcases ha : copies .first with _ | a <;> rcases hb : copies .second with _ | b
  · simp [hb]
  · have := hnew b (by simp [ha, hb])
    simp only [Function.update_self, Function.update_of_ne (show Side.second ≠ .first by decide), hb]
    rw [if_neg (by omega), if_pos this]
  · have := hnew a (by simp [ha, hb])
    simp only [Function.update_self, Function.update_of_ne (show Side.first ≠ .second by decide), ha]
    rw [if_neg (by omega), if_neg (by omega)]
  · simp only [ha, hb] at h hnew ⊢
    by_cases hle : seq b ≤ seq a
    · have hn : seq a < seq n := by
        refine hnew a ?_
        by_cases heq : seq a = seq b
        · rw [if_pos heq] at h ⊢
          by_cases hab : a = b
          · rw [if_pos hab]
          · exact absurd (if_neg hab) h
        · rw [if_neg heq, if_pos (by omega)]
      simp only [hle, if_true, Function.update_self,
        Function.update_of_ne (show Side.first ≠ .second by decide), ha]
      rw [if_neg (by omega), if_neg (by omega)]
    · have hn : seq b < seq n := hnew b (by rw [if_neg (by omega), if_neg (by omega)])
      simp only [hle, if_false, Function.update_self,
        Function.update_of_ne (show Side.second ≠ .first by decide), hb]
      rw [if_neg (by omega), if_pos hn]

end TwoCopy
