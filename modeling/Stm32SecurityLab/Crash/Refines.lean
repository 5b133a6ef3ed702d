import Stm32SecurityLab.Crash.Logged

/-!
# A component whose faults are written down

A model of a component can carry a list of what will go wrong with it, one choice for each
operation. That is convenient for programs over the model, which are then functions. It says
something about the component itself when everything the component may do is what the model does
with a suitable list.

The list has to be known before the run, so it is found in hindsight: a program uses up some
choices, and whatever is behind them in the list is left for the next program.

## Main definitions

* `Crash.Refines` — a program over the component does what a program over the model does

## Main results

* `Crash.Refines.bind` and the other rules, one for each construct of the language
-/

namespace Crash

variable {σ τ ν κ ε ε' α β : Type}

/-- However `x` ends, `y` ends so too, on a list that starts with suitable choices, and uses these
up. `Rel` relates the component to the part of the model that is not the list, and `put` joins the
two parts of the model. -/
def Refines (Rel : σ → ν → Prop) (put : List κ → ν → τ) (x : Prog σ ε α) (y : Prog τ ε α) : Prop :=
  ∀ s v, Rel s v → ∃ choices v', Rel (x s).state v' ∧
    ∀ rest, y (put (choices ++ rest) v) = (x s).mapState fun _ => put rest v'

namespace Refines

variable {Rel : σ → ν → Prop} {put : List κ → ν → τ} {x : Prog σ ε α} {y : Prog τ ε α}

protected theorem pure (a : α) : Refines Rel put (pure a : Prog σ ε α) (pure a) :=
  fun _ v h => ⟨[], v, h, fun _ => rfl⟩

protected theorem fail (e : ε) : Refines Rel put (Prog.fail e : Prog σ ε α) (Prog.fail e) :=
  fun _ v h => ⟨[], v, h, fun _ => rfl⟩

protected theorem check (c : Prop) [Decidable c] (e : ε) :
    Refines Rel put (Prog.check c e : Prog σ ε Unit) (Prog.check c e) := by
  by_cases h : c
  · rw [Prog.check, Prog.check, if_pos h, if_pos h]
    exact .pure ()
  · rw [Prog.check, Prog.check, if_neg h, if_neg h]
    exact .fail e

protected theorem ofExcept (r : Except ε α) :
    Refines Rel put (Prog.ofExcept r : Prog σ ε α) (Prog.ofExcept r) := by
  cases r with
  | ok a => exact .pure a
  | error e => exact .fail e

protected theorem ite {c : Prop} [Decidable c] {x' : Prog σ ε α} {y' : Prog τ ε α}
    (hx : c → Refines Rel put x y) (hx' : ¬ c → Refines Rel put x' y') :
    Refines Rel put (if c then x else x') (if c then y else y') := by
  by_cases h : c
  · rw [if_pos h, if_pos h]
    exact hx h
  · rw [if_neg h, if_neg h]
    exact hx' h

/-- **Sequencing**: the choices of the first program come first. -/
protected theorem bind {f : α → Prog σ ε β} {g : α → Prog τ ε β} (hx : Refines Rel put x y)
    (hf : ∀ a, Refines Rel put (f a) (g a)) : Refines Rel put (x >>= f) (y >>= g) := by
  intro s v h
  obtain ⟨choices, v₁, h₁, hrun⟩ := hx s v h
  cases hend : x s with
  | ret a s₁ =>
    rw [hend] at h₁ hrun
    obtain ⟨choices', v₂, h₂, hrun'⟩ := hf a s₁ v₁ h₁
    have hbind : (x >>= f) s = f a s₁ := bind_of_ret hend
    rw [hbind]
    refine ⟨choices ++ choices', v₂, h₂, fun rest => ?_⟩
    rw [List.append_assoc]
    exact (bind_of_ret (hrun (choices' ++ rest))).trans (hrun' rest)
  | err e s₁ =>
    rw [hend] at h₁ hrun
    have hbind : (x >>= f) s = .err e s₁ := bind_of_err hend
    rw [hbind]
    exact ⟨choices, v₁, h₁, fun rest => bind_of_err (hrun rest)⟩
  | cut s₁ =>
    rw [hend] at h₁ hrun
    have hbind : (x >>= f) s = .cut s₁ := bind_of_cut hend
    rw [hbind]
    exact ⟨choices, v₁, h₁, fun rest => bind_of_cut (hrun rest)⟩

protected theorem attempt (hx : Refines Rel put x y) :
    Refines Rel put (x.attempt : Prog σ ε' (Except ε α)) y.attempt := by
  intro s v h
  obtain ⟨choices, v', h', hrun⟩ := hx s v h
  refine ⟨choices, v', ?_, fun rest => ?_⟩
  · rw [Prog.attempt]
    cases hend : x s <;> rw [hend] at h' <;> exact h'
  · rw [Prog.attempt, Prog.attempt, hrun]
    cases x s <;> rfl

end Refines

end Crash
