import Stm32SecurityLab.Crash.Prog

/-!
# Programs that leave a record of their calls

What a program asks of the component under it is not part of its state: a call that fails, or
one that the power cut short, may leave nothing behind. Here the calls are made visible. A
component over `σ` becomes one over `σ × List κ` whose operations append a record of themselves,
and a program over that component ends with the list of the calls it made.

Recording changes nothing. `Projects Prod.fst x y` says that `x` with its record forgotten is
`y`, and it is closed under every construct of the language, so a program over the recording
component is compared with the same program over the plain one by following its shape.

## Main definitions

* `Crash.Prog.logged` — an operation that records itself
* `Crash.Projects` — a program over a larger state that acts on a part of it as another one does

## Main results

* `Crash.wp_logged` — the record, however the operation ends
* `Crash.Projects.bind`, `Projects.logged` — recording is invisible below
-/

namespace Crash

variable {σ τ ε α β κ : Type}

/-- Run `x` and append a record of it, which may show what `x` returned. -/
def Prog.logged (call : Option α → κ) (x : Prog σ ε α) : Prog (σ × List κ) ε α := fun s =>
  match x s.1 with
  | .ret a s' => .ret a (s', s.2 ++ [call (some a)])
  | .err e s' => .err e (s', s.2 ++ [call none])
  | .cut s' => .cut (s', s.2 ++ [call none])

theorem wp_logged {call : Option α → κ} {x : Prog σ ε α} {s : σ} {calls : List κ}
    {Q : α → σ × List κ → Prop} {E : ε → σ × List κ → Prop} {C : σ × List κ → Prop} :
    wp (x.logged call) (s, calls) Q E C ↔
      wp x s (fun a s' => Q a (s', calls ++ [call (some a)]))
        (fun e s' => E e (s', calls ++ [call none])) fun s' => C (s', calls ++ [call none]) := by
  simp only [wp, Prog.logged]
  cases x s <;> exact Iff.rfl

/-- A record that does not show what was returned is the same for every ending. -/
theorem state_logged (call : κ) (x : Prog σ ε α) (s : σ × List κ) :
    (x.logged (fun _ => call) s).state.2 = s.2 ++ [call] := by
  rw [Prog.logged]
  cases x s.1 <;> rfl

/-! ### Forgetting a part of the state -/

/-- The same ending, seen through `f`. -/
def Outcome.mapState (f : τ → σ) : Outcome τ ε α → Outcome σ ε α
  | .ret a s => .ret a (f s)
  | .err e s => .err e (f s)
  | .cut s => .cut (f s)

/-- Seen through `f`, the program `x` is `y`. -/
def Projects (f : τ → σ) (x : Prog τ ε α) (y : Prog σ ε α) : Prop :=
  ∀ t, (x t).mapState f = y (f t)

section Projects

variable {f : τ → σ}

theorem Projects.pure (a : α) : Projects f (pure a : Prog τ ε α) (pure a) := fun _ => rfl

theorem Projects.check (c : Prop) [Decidable c] (e : ε) :
    Projects f (Prog.check c e : Prog τ ε Unit) (Prog.check c e) := by
  intro t
  by_cases h : c
  · rw [Prog.check, if_pos h, Prog.check, if_pos h]
    rfl
  · rw [Prog.check, if_neg h, Prog.check, if_neg h]
    rfl

theorem Projects.ofExcept (r : Except ε α) :
    Projects f (Prog.ofExcept r : Prog τ ε α) (Prog.ofExcept r) := by
  intro t
  cases r <;> rfl

theorem Projects.bind {x : Prog τ ε α} {y : Prog σ ε α} {g : α → Prog τ ε β}
    {h : α → Prog σ ε β} (hx : Projects f x y) (hg : ∀ a, Projects f (g a) (h a)) :
    Projects f (x >>= g) (y >>= h) := by
  intro t
  change (Prog.bind x g t).mapState f = Prog.bind y h (f t)
  have hxt := hx t
  rw [Prog.bind, Prog.bind, ← hxt]
  cases x t with
  | ret a t' => exact hg a t'
  | err e t' => rfl
  | cut t' => rfl

theorem Projects.ite {c : Prop} [Decidable c] {x x' : Prog τ ε α} {y y' : Prog σ ε α}
    (hx : Projects f x y) (hx' : Projects f x' y') :
    Projects f (if c then x else x') (if c then y else y') := by
  by_cases h : c
  · rw [if_pos h, if_pos h]
    exact hx
  · rw [if_neg h, if_neg h]
    exact hx'

/-- Recording changes nothing. -/
theorem Projects.logged (call : Option α → κ) (x : Prog σ ε α) :
    Projects Prod.fst (x.logged call) x := by
  intro s
  rw [Prog.logged]
  cases x s.1 <;> rfl

end Projects

end Crash
