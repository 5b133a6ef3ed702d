import Mathlib.Tactic.Common

/-!
# Programs that fail and programs that lose power

A small program logic for code on a device whose memory survives a power cut. A program over a
state `σ` has three ways to end, and all three leave a state behind:

```
ret a s     it returned the value a
err e s     it returned the error status e
cut s       the power went while it was running
```

The difference between the last two is who runs next. After `err` the caller goes on and may
clean up; after `cut` nobody does, and whatever `s` holds is what the next boot finds. A
specification therefore has three postconditions, and the third one is the interesting one.

## Reasoning

`wp x s Q E C` is the weakest precondition of `x` at the *fixed* state `s`. Programs are opened
by the `wp_*` equations, which are all equivalences, and a call is replaced by its specification
with `wp.mono`. There is no separate consequence rule and no assertion language.

`Steps ρ x` says that every way `x` can end is `ρ`-related to where it started. For a reflexive
and transitive `ρ` it is closed under every construct of the language, so frame conditions are
proved by following the shape of the program and nothing else.

## Main definitions

* `Crash.Outcome`, `Crash.Prog` — the three endings, and programs as state transformers
* `Crash.wp` — the weakest precondition
* `Crash.Returns` — a program that neither fails nor loses power
* `Crash.Steps` — the relational frame rule
* `Crash.Prog.attempt`, `mapErr`, `onErr`, `zoom` — handling a status, and running a program of a
  component inside a larger state
-/

namespace Crash

/-- The three ways a program can end. -/
inductive Outcome (σ ε α : Type) where
  /-- It returned a value. -/
  | ret (a : α) (s : σ)
  /-- It returned an error status. -/
  | err (e : ε) (s : σ)
  /-- The power was lost while it ran. -/
  | cut (s : σ)

/-- The state a program leaves behind, however it ended. -/
def Outcome.state {σ ε α : Type} : Outcome σ ε α → σ
  | .ret _ s => s
  | .err _ s => s
  | .cut s => s

/-- A program over the state `σ` with error statuses `ε`. -/
def Prog (σ ε α : Type) : Type := σ → Outcome σ ε α

variable {σ τ ε ε' α β : Type}

namespace Prog

/-- Sequencing: an error or a power cut ends the whole program. -/
def bind (x : Prog σ ε α) (f : α → Prog σ ε β) : Prog σ ε β := fun s =>
  match x s with
  | .ret a s' => f a s'
  | .err e s' => .err e s'
  | .cut s' => .cut s'

instance : Monad (Prog σ ε) where
  pure a := fun s => .ret a s
  bind := Prog.bind

/-- Return the error status `e`. -/
def fail (e : ε) : Prog σ ε α := fun s => .err e s

/-- Lose power. -/
def cut : Prog σ ε α := fun s => .cut s

/-- Read the state. -/
def get : Prog σ ε σ := fun s => .ret s s

/-- Change the state. -/
def modify (f : σ → σ) : Prog σ ε Unit := fun s => .ret () (f s)

/-- Return the error status `e` unless `c` holds. -/
def check (c : Prop) [Decidable c] (e : ε) : Prog σ ε Unit :=
  if c then pure () else fail e

/-- Return a computed status. -/
def ofExcept : Except ε α → Prog σ ε α
  | .ok a => pure a
  | .error e => fail e

/-- Run `x` and hand its status to the caller as a value. A power cut is not a status. -/
def attempt (x : Prog σ ε α) : Prog σ ε' (Except ε α) := fun s =>
  match x s with
  | .ret a s' => .ret (.ok a) s'
  | .err e s' => .ret (.error e) s'
  | .cut s' => .cut s'

/-- Translate the error status of `x`. -/
def mapErr (f : ε → ε') (x : Prog σ ε α) : Prog σ ε' α := fun s =>
  match x s with
  | .ret a s' => .ret a s'
  | .err e s' => .err (f e) s'
  | .cut s' => .cut s'

/-- Adjust the state on the error path of `x`, keeping the status. -/
def onErr (f : σ → σ) (x : Prog σ ε α) : Prog σ ε α := fun s =>
  match x s with
  | .ret a s' => .ret a s'
  | .err e s' => .err e (f s')
  | .cut s' => .cut s'

/-- Run a program of the component `σ` inside the larger state `τ`. -/
def zoom (view : τ → σ) (put : σ → τ → τ) (x : Prog σ ε α) : Prog τ ε α := fun t =>
  match x (view t) with
  | .ret a s => .ret a (put s t)
  | .err e s => .err e (put s t)
  | .cut s => .cut (put s t)

end Prog

/-! ### Weakest preconditions -/

/-- Started in `s`, the program `x` returns into `Q`, fails into `E` and loses power into `C`. -/
def wp (x : Prog σ ε α) (s : σ) (Q : α → σ → Prop) (E : ε → σ → Prop) (C : σ → Prop) : Prop :=
  match x s with
  | .ret a s' => Q a s'
  | .err e s' => E e s'
  | .cut s' => C s'

section Rules

variable {s : σ} {Q Q' : α → σ → Prop} {E E' : ε → σ → Prop} {C C' : σ → Prop}

/-- **Consequence.** This is also how a call is replaced by its specification. -/
theorem wp.mono {x : Prog σ ε α} (h : wp x s Q E C) (hQ : ∀ a s', Q a s' → Q' a s')
    (hE : ∀ e s', E e s' → E' e s') (hC : ∀ s', C s' → C' s') : wp x s Q' E' C' := by
  unfold wp at *
  cases hx : x s with
  | ret a s' => rw [hx] at h; exact hQ a s' h
  | err e s' => rw [hx] at h; exact hE e s' h
  | cut s' => rw [hx] at h; exact hC s' h

/-- Two specifications of one program hold together. -/
theorem wp.and {x : Prog σ ε α} (h : wp x s Q E C) (h' : wp x s Q' E' C') :
    wp x s (fun a s' => Q a s' ∧ Q' a s') (fun e s' => E e s' ∧ E' e s')
      (fun s' => C s' ∧ C' s') := by
  unfold wp at *
  cases hx : x s with
  | ret a s' => rw [hx] at h h'; exact ⟨h, h'⟩
  | err e s' => rw [hx] at h h'; exact ⟨h, h'⟩
  | cut s' => rw [hx] at h h'; exact ⟨h, h'⟩

/-- A postcondition that no ending depends on can be read off the state left behind. -/
theorem wp_state_iff {x : Prog σ ε α} {P : σ → Prop} :
    wp x s (fun _ => P) (fun _ => P) P ↔ P (x s).state := by
  unfold wp Outcome.state
  cases x s <;> exact Iff.rfl

/-- What both postconditions of a program say about the state left behind. -/
theorem wp.state {x : Prog σ ε α} {P : σ → Prop} (h : wp x s Q E fun _ => False)
    (hQ : ∀ a s', Q a s' → P s') (hE : ∀ e s', E e s' → P s') : P (x s).state :=
  wp_state_iff.mp (h.mono hQ hE fun _ h => h.elim)

/-- A program that returned did so into `Q`. -/
theorem wp.ret {x : Prog σ ε α} {a : α} {s' : σ} (h : wp x s Q E C) (hx : x s = .ret a s') :
    Q a s' := by
  rw [wp] at h
  rw [hx] at h
  exact h

theorem wp.err {x : Prog σ ε α} {e : ε} {s' : σ} (h : wp x s Q E C) (hx : x s = .err e s') :
    E e s' := by
  rw [wp] at h
  rw [hx] at h
  exact h

theorem wp.cut {x : Prog σ ε α} {s' : σ} (h : wp x s Q E C) (hx : x s = .cut s') : C s' := by
  rw [wp] at h
  rw [hx] at h
  exact h

/-- A specification can be proved ending by ending. -/
theorem wp_of_outcome {x : Prog σ ε α} (hQ : ∀ a s', x s = .ret a s' → Q a s')
    (hE : ∀ e s', x s = .err e s' → E e s') (hC : ∀ s', x s = .cut s' → C s') :
    wp x s Q E C := by
  rw [wp]
  cases hx : x s with
  | ret a s' => exact hQ a s' hx
  | err e s' => exact hE e s' hx
  | cut s' => exact hC s' hx

/-- A postcondition that always holds, where only a return matters. -/
theorem wp_of_forall {x : Prog σ ε α} (h : ∀ a s', Q a s') :
    wp x s Q (fun _ _ => True) fun _ => True :=
  wp_of_outcome (fun a s' _ => h a s') (fun _ _ _ => trivial) fun _ _ => trivial

theorem wp_of_ret {x : Prog σ ε α} {a : α} {s' : σ} (h : x s = .ret a s') (hq : Q a s') :
    wp x s Q E C := by
  rw [wp]
  rw [h]
  exact hq

/-- A program ends in one way only. -/
theorem wp_not {x : Prog σ ε α} (h : ¬ wp x s Q E C) :
    wp x s (fun a s' => ¬ Q a s') (fun e s' => ¬ E e s') (fun s' => ¬ C s') := by
  unfold wp at *
  cases hx : x s with
  | ret a s' => rw [hx] at h; exact h
  | err e s' => rw [hx] at h; exact h
  | cut s' => rw [hx] at h; exact h

@[simp] theorem wp_pure {a : α} : wp (pure a : Prog σ ε α) s Q E C ↔ Q a s := Iff.rfl

@[simp] theorem wp_fail {e : ε} : wp (Prog.fail e : Prog σ ε α) s Q E C ↔ E e s := Iff.rfl

@[simp] theorem wp_cut : wp (Prog.cut : Prog σ ε α) s Q E C ↔ C s := Iff.rfl

@[simp] theorem wp_get {Q : σ → σ → Prop} : wp (Prog.get : Prog σ ε σ) s Q E C ↔ Q s s := Iff.rfl

@[simp] theorem wp_modify {f : σ → σ} {Q : Unit → σ → Prop} :
    wp (Prog.modify f : Prog σ ε Unit) s Q E C ↔ Q () (f s) := Iff.rfl

@[simp] theorem wp_bind {x : Prog σ ε α} {f : α → Prog σ ε β} {Q : β → σ → Prop} :
    wp (x >>= f) s Q E C ↔ wp x s (fun a s' => wp (f a) s' Q E C) E C := by
  unfold wp
  change (match Prog.bind x f s with
    | .ret a s' => Q a s' | .err e s' => E e s' | .cut s' => C s') ↔ _
  unfold Prog.bind
  cases x s <;> exact Iff.rfl

@[simp] theorem wp_check {c : Prop} [Decidable c] {e : ε} {Q : Unit → σ → Prop} :
    wp (Prog.check c e : Prog σ ε Unit) s Q E C ↔ (c → Q () s) ∧ (¬ c → E e s) := by
  rw [Prog.check]
  by_cases h : c <;> simp [h]

@[simp] theorem wp_ofExcept {r : Except ε α} :
    wp (Prog.ofExcept r : Prog σ ε α) s Q E C ↔
      (∀ a, r = .ok a → Q a s) ∧ (∀ e, r = .error e → E e s) := by
  cases r <;> simp [Prog.ofExcept]

@[simp] theorem wp_attempt {x : Prog σ ε α} {Q : Except ε α → σ → Prop} {E : ε' → σ → Prop} :
    wp (x.attempt : Prog σ ε' (Except ε α)) s Q E C ↔
      wp x s (fun a s' => Q (.ok a) s') (fun e s' => Q (.error e) s') C := by
  unfold wp Prog.attempt
  cases x s <;> exact Iff.rfl

@[simp] theorem wp_mapErr {x : Prog σ ε α} {f : ε → ε'} {E : ε' → σ → Prop} :
    wp (x.mapErr f) s Q E C ↔ wp x s Q (fun e s' => E (f e) s') C := by
  unfold wp Prog.mapErr
  cases x s <;> exact Iff.rfl

/-- Translating a status loses the status. -/
theorem wp.mapErr {x : Prog σ ε α} (h : wp x s Q E C) (f : ε → ε') :
    wp (x.mapErr f) s Q (fun _ s' => ∃ e, E e s') C :=
  wp_mapErr.mpr (h.mono (fun _ _ h => h) (fun e _ h => ⟨e, h⟩) fun _ h => h)

@[simp] theorem wp_onErr {x : Prog σ ε α} {f : σ → σ} :
    wp (x.onErr f) s Q E C ↔ wp x s Q (fun e s' => E e (f s')) C := by
  unfold wp Prog.onErr
  cases x s <;> exact Iff.rfl

@[simp] theorem wp_zoom {x : Prog σ ε α} {view : τ → σ} {put : σ → τ → τ} {t : τ}
    {Q : α → τ → Prop} {E : ε → τ → Prop} {C : τ → Prop} :
    wp (x.zoom view put) t Q E C ↔
      wp x (view t) (fun a s' => Q a (put s' t)) (fun e s' => E e (put s' t))
        (fun s' => C (put s' t)) := by
  unfold wp Prog.zoom
  cases x (view t) <;> exact Iff.rfl

theorem bind_assoc (x : Prog σ ε α) (f : α → Prog σ ε β) {γ : Type} (g : β → Prog σ ε γ) :
    (x >>= f >>= g) = x >>= fun a => f a >>= g := by
  funext s
  change Prog.bind (Prog.bind x f) g s = Prog.bind x (fun a => Prog.bind (f a) g) s
  simp only [Prog.bind]
  cases x s <;> rfl

/-- Programs that start alike and agree from there on are alike. -/
theorem bind_congr {x : Prog σ ε α} {f g : α → Prog σ ε β}
    (h : wp x s (fun a s' => f a s' = g a s') (fun _ _ => True) fun _ => True) :
    (x >>= f) s = (x >>= g) s := by
  change Prog.bind x f s = Prog.bind x g s
  simp only [Prog.bind]
  cases hx : x s with
  | ret a s' => exact h.ret hx
  | err e s' => rfl
  | cut s' => rfl

theorem wp_ite {c : Prop} [Decidable c] {x y : Prog σ ε α} :
    wp (if c then x else y) s Q E C ↔ (c → wp x s Q E C) ∧ (¬ c → wp y s Q E C) := by
  by_cases h : c <;> simp [h]

end Rules

/-! ### How a sequence ends -/

section Bind

variable {x : Prog σ ε α} {f : α → Prog σ ε β} {s s' : σ}

theorem bind_of_ret {a : α} (h : x s = .ret a s') : (x >>= f) s = f a s' := by
  change Prog.bind x f s = _
  simp only [Prog.bind, h]

theorem bind_of_err {e : ε} (h : x s = .err e s') : (x >>= f) s = .err e s' := by
  change Prog.bind x f s = _
  simp only [Prog.bind, h]

theorem bind_of_cut (h : x s = .cut s') : (x >>= f) s = .cut s' := by
  change Prog.bind x f s = _
  simp only [Prog.bind, h]

/-- A sequence fails in one of its parts. -/
theorem bind_eq_err {e : ε} : (x >>= f) s = .err e s' ↔
    x s = .err e s' ∨ ∃ a s₁, x s = .ret a s₁ ∧ f a s₁ = .err e s' := by
  change Prog.bind x f s = .err e s' ↔ _
  rw [Prog.bind]
  cases x s <;> simp

theorem onErr_eq_err {g : σ → σ} {e : ε} :
    x.onErr g s = .err e s' ↔ ∃ s₁, x s = .err e s₁ ∧ s' = g s₁ := by
  rw [Prog.onErr]
  cases x s <;> simp [eq_comm]

end Bind

/-! ### Programs that return -/

/-- Started in `s`, the program neither fails nor loses power. -/
def Returns (x : Prog σ ε α) (s : σ) : Prop :=
  wp x s (fun _ _ => True) (fun _ _ => False) fun _ => False

section Returns

variable {s : σ} {Q : α → σ → Prop} {E : ε → σ → Prop} {C : σ → Prop}

theorem returns_iff {x : Prog σ ε α} : Returns x s ↔ ∃ a s', x s = .ret a s' := by
  rw [Returns, wp]
  cases x s <;> simp

/-- Of a program that returns, only the first postcondition of a specification matters. -/
theorem Returns.spec {x : Prog σ ε α} (h : Returns x s) (hx : wp x s Q E C) :
    wp x s Q (fun _ _ => False) fun _ => False :=
  (wp.and hx h).mono (fun _ _ h => h.1) (fun _ _ h => h.2) fun _ h => h.2

/-- When the postconditions of the two endings exclude each other, they tell the endings apart. -/
theorem wp.returns_iff {x : Prog σ ε α} {c : Prop} (h : wp x s Q E fun _ => False)
    (hQ : ∀ a s', Q a s' → c) (hE : ∀ e s', E e s' → ¬ c) : Returns x s ↔ c := by
  constructor
  · intro hret
    obtain ⟨a, s', hrun⟩ := Crash.returns_iff.mp hret
    exact hQ a s' (h.ret hrun)
  · intro hc
    exact h.mono (fun _ _ _ => trivial) (fun e s' hs => hE e s' hs hc) fun _ hs => hs

theorem Returns.pure (a : α) : Returns (pure a : Prog σ ε α) s := trivial

theorem Returns.check_bind {c : Prop} [Decidable c] {e : ε} {f : Unit → Prog σ ε β} (hc : c)
    (h : Returns (f ()) s) : Returns (Prog.check c e >>= f) s :=
  wp_bind.mpr (wp_check.mpr ⟨fun _ => h, fun hn => absurd hc hn⟩)

theorem Returns.ofExcept_bind {r : Except ε α} {a : α} {f : α → Prog σ ε β} (hr : r = .ok a)
    (h : Returns (f a) s) : Returns (Prog.ofExcept r >>= f) s := by
  rw [hr]
  exact h

/-- What comes second starts where the specification of the first says. -/
theorem Returns.bind {x : Prog σ ε α} {f : α → Prog σ ε β} (h : Returns x s) (hx : wp x s Q E C)
    (hf : ∀ a s', Q a s' → Returns (f a) s') : Returns (x >>= f) s :=
  wp_bind.mpr ((h.spec hx).mono hf (fun _ _ h => h) fun _ h => h)

theorem Returns.mapErr {x : Prog σ ε α} (h : Returns x s) (f : ε → ε') : Returns (x.mapErr f) s :=
  wp_mapErr.mpr h

theorem Returns.onErr {x : Prog σ ε α} (h : Returns x s) (f : σ → σ) : Returns (x.onErr f) s :=
  wp_onErr.mpr h

theorem Returns.zoom {x : Prog σ ε α} {view : τ → σ} {put : σ → τ → τ} {t : τ}
    (h : Returns x (view t)) : Returns (x.zoom view put) t :=
  wp_zoom.mpr h

end Returns

/-! ### Pure status codes -/

/-- Return the error status `e` unless `c` holds, in code that has no state. -/
def require (c : Prop) [Decidable c] (e : ε) : Except ε Unit := if c then .ok () else .error e

@[simp] theorem require_eq_ok {c : Prop} [Decidable c] {e : ε} {u : Unit} :
    require c e = .ok u ↔ c := by
  rw [require]
  by_cases h : c <;> simp [h]

/-- What follows a status check may use it. -/
theorem require_bind_congr {c : Prop} [Decidable c] {e : ε} {f g : Unit → Except ε α}
    (h : c → f () = g ()) : (require c e >>= f) = (require c e >>= g) := by
  rw [require]
  by_cases hc : c
  · simp only [if_pos hc]
    exact h hc
  · simp only [if_neg hc]
    rfl

/-- What follows a computation may use that it succeeded. -/
theorem except_bind_congr {x : Except ε α} {f g : α → Except ε β}
    (h : ∀ a, x = .ok a → f a = g a) : (x >>= f) = (x >>= g) := by
  cases x with
  | ok a => exact h a rfl
  | error e => rfl

/-- A sequence of status checks passes when each of them does. -/
@[simp] theorem except_bind_eq_ok {x : Except ε α} {f : α → Except ε β} {b : β} :
    (x >>= f) = .ok b ↔ ∃ a, x = .ok a ∧ f a = .ok b := by
  cases x with
  | ok a => simp [bind, Except.bind]
  | error e => simp [bind, Except.bind]

@[simp] theorem mapError_eq_ok {x : Except ε α} {f : ε → ε'} {a : α} :
    x.mapError f = .ok a ↔ x = .ok a := by
  cases x <;> simp [Except.mapError]

/-! ### The relational frame rule -/

/-- Every way `x` can end from `s` is `ρ`-related to `s`. -/
def StepsFrom (ρ : σ → σ → Prop) (x : Prog σ ε α) (s : σ) : Prop :=
  wp x s (fun _ s' => ρ s s') (fun _ s' => ρ s s') (fun s' => ρ s s')

/-- Every way `x` can end is `ρ`-related to where it started. -/
def Steps (ρ : σ → σ → Prop) (x : Prog σ ε α) : Prop := ∀ s, StepsFrom ρ x s

section Steps

variable {ρ : σ → σ → Prop} {s : σ}

theorem StepsFrom.mono {ρ' : σ → σ → Prop} {x : Prog σ ε α} (h : StepsFrom ρ x s)
    (hρ : ∀ s', ρ s s' → ρ' s s') : StepsFrom ρ' x s :=
  wp.mono h (fun _ => hρ) (fun _ => hρ) hρ

theorem StepsFrom.pure [Std.Refl ρ] (a : α) : StepsFrom ρ (pure a : Prog σ ε α) s :=
  Std.Refl.refl s

theorem StepsFrom.fail [Std.Refl ρ] (e : ε) : StepsFrom ρ (Prog.fail e : Prog σ ε α) s :=
  Std.Refl.refl s

theorem StepsFrom.check [Std.Refl ρ] (c : Prop) [Decidable c] (e : ε) :
    StepsFrom ρ (Prog.check c e : Prog σ ε Unit) s :=
  wp_check.mpr ⟨fun _ => Std.Refl.refl s, fun _ => Std.Refl.refl s⟩

theorem StepsFrom.ofExcept [Std.Refl ρ] (r : Except ε α) :
    StepsFrom ρ (Prog.ofExcept r : Prog σ ε α) s :=
  wp_ofExcept.mpr ⟨fun _ _ => Std.Refl.refl s, fun _ _ => Std.Refl.refl s⟩

/-- What comes second starts from a state related to the first. -/
theorem StepsFrom.bind [IsTrans σ ρ] {x : Prog σ ε α} {f : α → Prog σ ε β} (hx : StepsFrom ρ x s)
    (hf : ∀ a s', ρ s s' → StepsFrom ρ (f a) s') : StepsFrom ρ (x >>= f) s := by
  rw [StepsFrom]
  rw [wp_bind]
  refine wp.mono hx (fun a s' hs => ?_) (fun _ _ hs => hs) (fun _ hs => hs)
  exact wp.mono (hf a s' hs) (fun _ _ h => IsTrans.trans _ _ _ hs h)
    (fun _ _ h => IsTrans.trans _ _ _ hs h) (fun _ h => IsTrans.trans _ _ _ hs h)

/-- A program that starts by reading the state. -/
theorem StepsFrom.get_bind {f : σ → Prog σ ε β} (h : StepsFrom ρ (f s) s) :
    StepsFrom ρ (Prog.get >>= f) s :=
  wp_bind.mpr h

theorem StepsFrom.modify_bind [IsTrans σ ρ] {g : σ → σ} {f : Unit → Prog σ ε β} (hg : ρ s (g s))
    (h : StepsFrom ρ (f ()) (g s)) : StepsFrom ρ (Prog.modify g >>= f) s := by
  rw [StepsFrom]
  rw [wp_bind, wp_modify]
  exact wp.mono h (fun _ _ hs => IsTrans.trans _ _ _ hg hs)
    (fun _ _ hs => IsTrans.trans _ _ _ hg hs) (fun _ hs => IsTrans.trans _ _ _ hg hs)

theorem StepsFrom.mapErr {x : Prog σ ε α} (hx : StepsFrom ρ x s) (f : ε → ε') :
    StepsFrom ρ (x.mapErr f) s :=
  wp_mapErr.mpr hx

/-- A program of a component relates the larger states as it relates the component's. -/
theorem StepsFrom.zoom {x : Prog σ ε α} {view : τ → σ} {put : σ → τ → τ} {ρ' : τ → τ → Prop}
    {t : τ} (hx : StepsFrom ρ x (view t)) (h : ∀ s', ρ (view t) s' → ρ' t (put s' t)) :
    StepsFrom ρ' (x.zoom view put) t :=
  wp_zoom.mpr (wp.mono hx (fun _ => h) (fun _ => h) h)

theorem Steps.state {x : Prog σ ε α} (h : Steps ρ x) (s : σ) : ρ s (x s).state :=
  wp_state_iff.mp (h s)

theorem Steps.mono {ρ' : σ → σ → Prop} {x : Prog σ ε α} (h : Steps ρ x)
    (hρ : ∀ s s', ρ s s' → ρ' s s') : Steps ρ' x :=
  fun s => (h s).mono (hρ s)

theorem Steps.pure [Std.Refl ρ] (a : α) : Steps ρ (pure a : Prog σ ε α) :=
  fun _ => StepsFrom.pure a

theorem Steps.fail [Std.Refl ρ] (e : ε) : Steps ρ (Prog.fail e : Prog σ ε α) :=
  fun _ => StepsFrom.fail e

theorem Steps.check [Std.Refl ρ] (c : Prop) [Decidable c] (e : ε) :
    Steps ρ (Prog.check c e : Prog σ ε Unit) :=
  fun _ => StepsFrom.check c e

theorem Steps.ofExcept [Std.Refl ρ] (r : Except ε α) :
    Steps ρ (Prog.ofExcept r : Prog σ ε α) :=
  fun _ => StepsFrom.ofExcept r

theorem Steps.bind [IsTrans σ ρ] {x : Prog σ ε α} {f : α → Prog σ ε β} (hx : Steps ρ x)
    (hf : ∀ a, Steps ρ (f a)) : Steps ρ (x >>= f) :=
  fun s => (hx s).bind fun a s' _ => hf a s'

theorem Steps.mapErr {x : Prog σ ε α} (hx : Steps ρ x) (f : ε → ε') : Steps ρ (x.mapErr f) :=
  fun s => (hx s).mapErr f

end Steps

end Crash
