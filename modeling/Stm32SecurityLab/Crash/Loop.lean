import Stm32SecurityLab.Crash.Prog
import Mathlib.Data.List.Forall2

/-!
# Loops, and programs that do no less

`Prog.untilSome round` is `while True` for code whose rounds either end the loop with a value or go on.
The number of rounds is bounded by a fuel; a loop with a measure that falls in every round is shown to
end for every fuel above the measure (`wp_untilSome`), and from there on more fuel changes nothing
(`untilSome_stable`).

`Keeps I ρ E x` is the invariant rule: from a state in `I` the program ends in `I`, it raises nothing
but errors in `E`, and what it changes is in `ρ`. `Serves x y` compares two programs: whenever `x` returns, `y` returns the same. Both
follow the shape of the program.

## Main definitions

* `Crash.Prog.untilSome`, `Crash.Visits` — the loop, and the states between its rounds
* `Crash.Raises` — the errors that pure code can end with
* `Crash.Keeps` — the invariant rule
* `Crash.Serves` — a second program that can do whatever the first does
-/

namespace Crash

variable {σ ε α β : Type}

/-! ### The loop -/

/-- At most `fuel` rounds; `none` if the loop is still going. -/
def Prog.untilSome (round : Prog σ ε (Option α)) : ℕ → Prog σ ε (Option α)
  | 0 => pure none
  | fuel + 1 => do
    match ← round with
    | some a => pure (some a)
    | none => Prog.untilSome round fuel

/-- The states between the rounds of a loop that starts in `s₀`. -/
inductive Visits (round : Prog σ ε (Option α)) (s₀ : σ) : σ → Prop
  | start : Visits round s₀ s₀
  | next {s s' : σ} : Visits round s₀ s → round s = .ret none s' → Visits round s₀ s'

section Loop

variable {round : Prog σ ε (Option α)} {I : σ → Prop} {Q : α → σ → Prop} {E : ε → σ → Prop}

/-- An invariant of the rounds holds between any two of them. -/
theorem Visits.inv (h : ∀ s s', I s → round s = .ret none s' → I s') {s₀ s : σ} (h₀ : I s₀)
    (hs : Visits round s₀ s) : I s := by
  induction hs with
  | start => exact h₀
  | next _ hround ih => exact h _ _ ih hround

/-- **The loop ends.** The measure falls in every round that does not end it. -/
theorem wp_untilSome (μ : σ → ℕ)
    (h : ∀ s, I s → wp round s (fun r s' => (∀ a, r = some a → Q a s') ∧
      (r = none → I s' ∧ μ s' < μ s)) E fun _ => False) :
    ∀ fuel s, I s → μ s < fuel →
      wp (round.untilSome fuel) s (fun r s' => ∃ a, r = some a ∧ Q a s') E fun _ => False := by
  intro fuel
  induction fuel with
  | zero => exact fun s _ hlt => absurd hlt (Nat.not_lt_zero _)
  | succ fuel ih =>
    intro s hs hlt
    refine wp_bind.mpr ((h s hs).mono (fun r s' hr => ?_) (fun _ _ he => he) fun _ hc => hc)
    cases r with
    | some a => exact ⟨a, rfl, hr.1 a rfl⟩
    | none =>
      obtain ⟨hs', hμ⟩ := hr.2 rfl
      exact ih s' hs' (by omega)

/-- A loop that has ended within its fuel does not use more of it. -/
theorem untilSome_stable {fuel more : ℕ} {s : σ}
    (h : ∀ s', round.untilSome fuel s ≠ .ret none s') (hle : fuel ≤ more) :
    round.untilSome more s = round.untilSome fuel s := by
  induction fuel generalizing more s with
  | zero => exact absurd rfl (h s)
  | succ fuel ih =>
    obtain ⟨more, rfl⟩ : ∃ k, more = k + 1 := ⟨more - 1, by omega⟩
    refine bind_congr (wp_of_outcome (fun r s' hr => ?_) (fun _ _ _ => trivial) fun _ _ => trivial)
    cases r with
    | some a => rfl
    | none =>
      exact ih (fun s'' hend => h s'' ((bind_of_ret hr).trans hend)) (by omega)

end Loop

/-! ### Errors of pure code -/

/-- Every error that the computation can end with is in `E`. -/
def Raises (E : ε → Prop) (r : Except ε α) : Prop := ∀ e, r = .error e → E e

section Raises

variable {E : ε → Prop}

theorem Raises.pure (a : α) : Raises E (pure a : Except ε α) := fun _ h => nomatch h

theorem Raises.bind {x : Except ε α} {f : α → Except ε β} (hx : Raises E x)
    (hf : ∀ a, x = .ok a → Raises E (f a)) : Raises E (x >>= f) := by
  cases x with
  | ok a => exact hf a rfl
  | error e =>
    intro e' h
    cases h
    exact hx e rfl

theorem Raises.require {c : Prop} [Decidable c] {e : ε} (he : ¬ c → E e) :
    Raises E (Crash.require c e) := by
  intro e' h
  by_cases hc : c
  · simp [Crash.require, hc] at h
  · simp only [Crash.require, if_neg hc, Except.error.injEq] at h
    exact h ▸ he hc

theorem Raises.require_bind {c : Prop} [Decidable c] {e : ε} {f : Unit → Except ε β}
    (he : ¬ c → E e) (hf : c → Raises E (f ())) : Raises E (Crash.require c e >>= f) :=
  Raises.bind (Raises.require he) fun _ h => hf (require_eq_ok.mp h)

theorem Raises.mapM {f : α → Except ε β} {xs : List α} (h : ∀ x ∈ xs, Raises E (f x)) :
    Raises E (xs.mapM f) := by
  induction xs with
  | nil => exact Raises.pure []
  | cons x xs ih =>
    rw [List.mapM_cons]
    refine Raises.bind (h x List.mem_cons_self) fun y _ => ?_
    exact Raises.bind (ih fun x hx => h x (List.mem_cons_of_mem _ hx)) fun ys _ => Raises.pure _

end Raises

/-- A list of computations succeeds when each of them does. -/
theorem mapM_eq_ok_iff {f : α → Except ε β} {xs : List α} {ys : List β} :
    xs.mapM f = .ok ys ↔ List.Forall₂ (fun x y => f x = .ok y) xs ys := by
  induction xs generalizing ys with
  | nil =>
    rw [List.mapM_nil, List.forall₂_nil_left_iff]
    exact ⟨fun h => (Except.ok.inj h).symm, fun h => congrArg Except.ok h.symm⟩
  | cons x xs ih =>
    rw [List.mapM_cons, except_bind_eq_ok, List.forall₂_cons_left_iff]
    constructor
    · rintro ⟨y, hy, h⟩
      obtain ⟨ys, hys, h⟩ := except_bind_eq_ok.mp h
      exact ⟨y, ys, hy, ih.mp hys, (Except.ok.inj h).symm⟩
    · rintro ⟨y, ys, hy, hys, rfl⟩
      exact ⟨y, hy, except_bind_eq_ok.mpr ⟨ys, ih.mpr hys, rfl⟩⟩

/-- Each value of the result comes from one of the computations. -/
theorem mem_of_mapM_eq_ok {f : α → Except ε β} {xs : List α} {ys : List β}
    (h : xs.mapM f = .ok ys) {y : β} (hy : y ∈ ys) : ∃ x ∈ xs, f x = .ok y := by
  have hall := mapM_eq_ok_iff.mp h
  clear h
  induction hall with
  | nil => exact absurd hy List.not_mem_nil
  | @cons x z xs zs hx _ ih =>
    cases hy with
    | head => exact ⟨x, List.mem_cons_self, hx⟩
    | tail _ hy =>
      obtain ⟨x', hmem, hx'⟩ := ih hy
      exact ⟨x', List.mem_cons_of_mem _ hmem, hx'⟩

/-! ### The invariant rule -/

/-- From a state in `I` the program ends in `I`, in a state `ρ`-related to the first; and every error
it raises is in `E`. -/
def Keeps (I : σ → Prop) (ρ : σ → σ → Prop) (E : ε → Prop) (x : Prog σ ε α) : Prop :=
  ∀ s, I s → wp x s (fun _ s' => I s' ∧ ρ s s') (fun e s' => E e ∧ I s' ∧ ρ s s') fun _ => False

section Keeps

variable {I : σ → Prop} {ρ : σ → σ → Prop} {E : ε → Prop}

theorem Keeps.pure [Std.Refl ρ] (a : α) : Keeps I ρ E (pure a : Prog σ ε α) :=
  fun s hs => ⟨hs, Std.Refl.refl s⟩

theorem Keeps.fail [Std.Refl ρ] {e : ε} (he : E e) : Keeps I ρ E (Prog.fail e : Prog σ ε α) :=
  fun s hs => ⟨he, hs, Std.Refl.refl s⟩

theorem Keeps.ofExcept [Std.Refl ρ] {r : Except ε α} (he : Raises E r) :
    Keeps I ρ E (Prog.ofExcept r : Prog σ ε α) :=
  fun s hs => wp_ofExcept.mpr
    ⟨fun _ _ => ⟨hs, Std.Refl.refl s⟩, fun e hr => ⟨he e hr, hs, Std.Refl.refl s⟩⟩

theorem Keeps.modify {f : σ → σ} (h : ∀ s, I s → I (f s) ∧ ρ s (f s)) :
    Keeps I ρ E (Prog.modify f : Prog σ ε Unit) :=
  fun s hs => h s hs

theorem Keeps.bind [IsTrans σ ρ] {x : Prog σ ε α} {f : α → Prog σ ε β} (hx : Keeps I ρ E x)
    (hf : ∀ a, Keeps I ρ E (f a)) : Keeps I ρ E (x >>= f) := by
  intro s hs
  refine wp_bind.mpr ((hx s hs).mono (fun a s' hs' => ?_) (fun _ _ he => he) fun _ hc => hc)
  refine (hf a s' hs'.1).mono (fun _ s'' h => ?_) (fun e s'' h => ?_) fun _ hc => hc
  · exact ⟨h.1, IsTrans.trans _ _ _ hs'.2 h.2⟩
  · exact ⟨h.1, h.2.1, IsTrans.trans _ _ _ hs'.2 h.2.2⟩

/-- What follows a check may use it. -/
theorem Keeps.check_bind [Std.Refl ρ] {c : Prop} [Decidable c] {e : ε} {f : Unit → Prog σ ε β}
    (he : E e) (hf : c → Keeps I ρ E (f ())) : Keeps I ρ E (Prog.check c e >>= f) :=
  fun s hs => wp_bind.mpr (wp_check.mpr
    ⟨fun hc => hf hc s hs, fun _ => ⟨he, hs, Std.Refl.refl s⟩⟩)

theorem Keeps.ite {c : Prop} [Decidable c] {x y : Prog σ ε α} (hx : c → Keeps I ρ E x)
    (hy : ¬ c → Keeps I ρ E y) : Keeps I ρ E (if c then x else y) := by
  by_cases hc : c
  · rw [if_pos hc]
    exact hx hc
  · rw [if_neg hc]
    exact hy hc

end Keeps

/-! ### Programs that do no less -/

/-- Whenever `x` returns, `y` returns the same. -/
def Serves (x y : Prog σ ε α) : Prop := ∀ s a s', x s = .ret a s' → y s = .ret a s'

section Serves

theorem Serves.refl (x : Prog σ ε α) : Serves x x := fun _ _ _ h => h

theorem Serves.bind {x y : Prog σ ε α} {f g : α → Prog σ ε β} (hx : Serves x y)
    (hf : ∀ a, Serves (f a) (g a)) : Serves (x >>= f) (y >>= g) := by
  intro s b s' h
  cases hs : x s with
  | ret a s₁ =>
    rw [bind_of_ret hs] at h
    rw [bind_of_ret (hx s a s₁ hs)]
    exact hf a s₁ b s' h
  | err e s₁ =>
    rw [bind_of_err hs] at h
    cases h
  | cut s₁ =>
    rw [bind_of_cut hs] at h
    cases h

theorem Serves.check {c d : Prop} [Decidable c] [Decidable d] {e : ε} (h : c → d) :
    Serves (Prog.check c e : Prog σ ε Unit) (Prog.check d e) := by
  intro s a s' hrun
  by_cases hc : c
  · simp only [Prog.check, if_pos hc] at hrun
    simp only [Prog.check, if_pos (h hc)]
    exact hrun
  · simp only [Prog.check, if_neg hc] at hrun
    cases hrun

theorem Serves.ite {c : Prop} [Decidable c] {x y x' y' : Prog σ ε α} (hx : Serves x x')
    (hy : Serves y y') : Serves (if c then x else y) (if c then x' else y') := by
  by_cases hc : c
  · rw [if_pos hc, if_pos hc]
    exact hx
  · rw [if_neg hc, if_neg hc]
    exact hy

theorem Serves.untilSome {x y : Prog σ ε (Option α)} (h : Serves x y) :
    ∀ fuel, Serves (x.untilSome fuel) (y.untilSome fuel) := by
  intro fuel
  induction fuel with
  | zero => exact Serves.refl _
  | succ fuel ih =>
    refine h.bind fun r => ?_
    cases r with
    | some a => exact Serves.refl _
    | none => exact ih

end Serves

end Crash
