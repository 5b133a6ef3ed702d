import Stm32SecurityLab.Crash.Prog

/-!
# Programs with a hazard ahead

A device may carry something that will go wrong at a later operation. Until it does, a program
cannot tell: it runs as it would have run without it. Once it has gone wrong, it is over.

`Oblivious h x` says both. It is closed under the constructs of the language, and so a run that
ended while the hazard was still ahead is a run of the device without a hazard. What is known about
such devices can be used for it.

## Main definitions

* `Crash.Hazard` — a hazard that is ahead or past, and the state without it
* `Crash.Oblivious` — the program does not notice a hazard that lies ahead
-/

namespace Crash

variable {σ τ ε ε' α β : Type}

/-- Rename the state that is left behind. -/
def Outcome.map (f : σ → σ) : Outcome σ ε α → Outcome σ ε α
  | .ret a s => .ret a (f s)
  | .err e s => .err e (f s)
  | .cut s => .cut (f s)

/-- Something that will go wrong. -/
structure Hazard (σ : Type) where
  /-- It has not gone wrong yet. -/
  ahead : σ → Prop
  /-- Nothing can go wrong any more. -/
  past : σ → Prop
  /-- The state without it. -/
  calm : σ → σ

/-- The program does not notice a hazard that lies ahead. -/
structure Oblivious (h : Hazard σ) (x : Prog σ ε α) : Prop where
  past : ∀ s, h.past s → h.past (x s).state
  ahead : ∀ s, h.ahead s →
    h.past (x s).state ∨ (h.ahead (x s).state ∧ x (h.calm s) = (x s).map h.calm)

namespace Oblivious

variable {h : Hazard σ} {x : Prog σ ε α}

/-- With the hazard behind or ahead, that is where it is in the end. -/
theorem settled (hx : Oblivious h x) {s : σ} (hs : h.past s ∨ h.ahead s) :
    h.past (x s).state ∨ h.ahead (x s).state :=
  hs.elim (fun hs => .inl (hx.past s hs)) fun hs => (hx.ahead s hs).imp_right And.left

/-- A program that is not over when the hazard is ahead would have done the same without it. -/
theorem calm (hx : Oblivious h x) {s : σ} (hs : h.past s ∨ h.ahead s)
    (hend : ¬ h.past (x s).state) : h.ahead s ∧ x (h.calm s) = (x s).map h.calm := by
  have hs := hs.resolve_left fun hpast => hend (hx.past s hpast)
  exact ⟨hs, ((hx.ahead s hs).resolve_left hend).2⟩

protected theorem pure (a : α) : Oblivious h (pure a : Prog σ ε α) :=
  ⟨fun _ hs => hs, fun _ hs => .inr ⟨hs, rfl⟩⟩

protected theorem fail (e : ε) : Oblivious h (Prog.fail e : Prog σ ε α) :=
  ⟨fun _ hs => hs, fun _ hs => .inr ⟨hs, rfl⟩⟩

protected theorem cut : Oblivious h (Prog.cut : Prog σ ε α) :=
  ⟨fun _ hs => hs, fun _ hs => .inr ⟨hs, rfl⟩⟩

protected theorem check (c : Prop) [Decidable c] (e : ε) :
    Oblivious h (Prog.check c e : Prog σ ε Unit) := by
  rw [Prog.check]
  split
  · exact .pure ()
  · exact .fail e

protected theorem ofExcept (r : Except ε α) : Oblivious h (Prog.ofExcept r : Prog σ ε α) := by
  cases r with
  | ok a => exact .pure a
  | error e => exact .fail e

protected theorem bind {f : α → Prog σ ε β} (hx : Oblivious h x) (hf : ∀ a, Oblivious h (f a)) :
    Oblivious h (x >>= f) := by
  have hbind : ∀ s, (x >>= f) s = Prog.bind x f s := fun _ => rfl
  constructor
  · intro s hs
    have hmid := hx.past s hs
    rw [hbind, Prog.bind]
    cases hrun : x s with
    | ret a s₁ => rw [hrun] at hmid; exact (hf a).past s₁ hmid
    | err e s₁ => rw [hrun] at hmid; exact hmid
    | cut s₁ => rw [hrun] at hmid; exact hmid
  · intro s hs
    have hmid := hx.ahead s hs
    rw [hbind, hbind, Prog.bind, Prog.bind]
    cases hrun : x s with
    | err e s₁ | cut s₁ =>
      rw [hrun] at hmid
      refine hmid.imp_right fun hmid => ⟨hmid.1, ?_⟩
      rw [hmid.2]
      rfl
    | ret a s₁ =>
      rw [hrun] at hmid
      rcases hmid with hpast | ⟨hahead, hcalm⟩
      · exact .inl ((hf a).past s₁ hpast)
      · refine ((hf a).ahead s₁ hahead).imp_right fun hend => ⟨hend.1, ?_⟩
        rw [hcalm]
        exact hend.2

/-- A program that starts by reading the state, and does not look at the hazard. -/
protected theorem get_bind {f : σ → Prog σ ε β} (hcalm : ∀ s, f (h.calm s) = f s)
    (hf : ∀ s, Oblivious h (f s)) : Oblivious h (Prog.get >>= f) := by
  have hget : ∀ s, (Prog.get >>= f) s = f s s := fun _ => rfl
  refine ⟨fun s hs => (hf s).past s hs, fun s hs => ?_⟩
  rw [hget, hget, hcalm]
  exact (hf s).ahead s hs

protected theorem modify {f : σ → σ} (hpast : ∀ s, h.past s → h.past (f s))
    (hahead : ∀ s, h.ahead s → h.ahead (f s)) (hcalm : ∀ s, f (h.calm s) = h.calm (f s)) :
    Oblivious h (Prog.modify f : Prog σ ε Unit) := by
  refine ⟨hpast, fun s hs => .inr ⟨hahead s hs, ?_⟩⟩
  exact congrArg (Outcome.ret ()) (hcalm s)

protected theorem mapErr (hx : Oblivious h x) (f : ε → ε') : Oblivious h (x.mapErr f) := by
  constructor
  · intro s hs
    have hend := hx.past s hs
    rw [Prog.mapErr]
    cases hrun : x s <;> rw [hrun] at hend <;> exact hend
  · intro s hs
    have hend := hx.ahead s hs
    rw [Prog.mapErr, Prog.mapErr]
    cases hrun : x s <;>
      (rw [hrun] at hend
       refine hend.imp_right fun ⟨hahead, hcalm⟩ => ⟨hahead, ?_⟩
       rw [hcalm]
       rfl)

protected theorem attempt (hx : Oblivious h x) :
    Oblivious h (x.attempt : Prog σ ε' (Except ε α)) := by
  constructor
  · intro s hs
    have hend := hx.past s hs
    rw [Prog.attempt]
    cases hrun : x s <;> rw [hrun] at hend <;> exact hend
  · intro s hs
    have hend := hx.ahead s hs
    rw [Prog.attempt, Prog.attempt]
    cases hrun : x s <;>
      (rw [hrun] at hend
       refine hend.imp_right fun ⟨hahead, hcalm⟩ => ⟨hahead, ?_⟩
       rw [hcalm]
       rfl)

protected theorem onErr {f : σ → σ} (hx : Oblivious h x) (hpast : ∀ s, h.past s → h.past (f s))
    (hahead : ∀ s, h.ahead s → h.ahead (f s)) (hcalm : ∀ s, f (h.calm s) = h.calm (f s)) :
    Oblivious h (x.onErr f) := by
  constructor
  · intro s hs
    have hend := hx.past s hs
    rw [Prog.onErr]
    cases hrun : x s with
    | ret a s₁ => rw [hrun] at hend; exact hend
    | err e s₁ => rw [hrun] at hend; exact hpast s₁ hend
    | cut s₁ => rw [hrun] at hend; exact hend
  · intro s hs
    have hend := hx.ahead s hs
    rw [Prog.onErr, Prog.onErr]
    cases hrun : x s with
    | ret a s₁ | cut s₁ =>
      rw [hrun] at hend
      refine hend.imp_right fun hend => ⟨hend.1, ?_⟩
      rw [hend.2]
      rfl
    | err e s₁ =>
      rw [hrun] at hend
      refine hend.imp (hpast s₁) fun hend => ⟨hahead s₁ hend.1, ?_⟩
      rw [hend.2]
      exact congrArg (Outcome.err e) (hcalm s₁)

end Oblivious

/-- The hazard of a component inside a larger state. -/
structure Hazard.Within (h : Hazard σ) (h' : Hazard τ) (view : τ → σ) (put : σ → τ → τ) : Prop where
  past : ∀ t, h'.past t → h.past (view t)
  put_past : ∀ s t, h.past s → h'.past (put s t)
  ahead : ∀ t, h'.ahead t → h.ahead (view t)
  put_ahead : ∀ s t, h.ahead s → h'.ahead t → h'.ahead (put s t)
  calm : ∀ t, view (h'.calm t) = h.calm (view t)
  put_calm : ∀ s t, put (h.calm s) (h'.calm t) = h'.calm (put s t)

/-- A program of the component is as oblivious in the larger state. -/
theorem Oblivious.zoom {h : Hazard σ} {h' : Hazard τ} {x : Prog σ ε α} {view : τ → σ}
    {put : σ → τ → τ} (hx : Oblivious h x) (hw : h.Within h' view put) :
    Oblivious h' (x.zoom view put) := by
  constructor
  · intro t ht
    have hend := hx.past _ (hw.past t ht)
    rw [Prog.zoom]
    cases hrun : x (view t) <;> rw [hrun] at hend <;> exact hw.put_past _ t hend
  · intro t ht
    have hend := hx.ahead _ (hw.ahead t ht)
    rw [Prog.zoom, Prog.zoom, hw.calm]
    cases hrun : x (view t) with
    | ret a s | err e s | cut s =>
      rw [hrun] at hend
      refine hend.imp (hw.put_past s t) fun ⟨hend, hsame⟩ => ⟨hw.put_ahead s t hend ht, ?_⟩
      rw [hsame]
      simp only [Outcome.map, hw.put_calm]

end Crash
