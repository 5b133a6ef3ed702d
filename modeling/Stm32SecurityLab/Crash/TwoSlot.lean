import Mathlib.Tactic.Common
import Mathlib.Logic.Relation
import Mathlib.Order.Lattice

/-!
# Updating by turns

The update protocol of a device with several image slots, as a relation on what the next boot can
see: a `Phase` and, for each slot, the version of its contents and whether they verify. Slots and
versions are arbitrary types, the latter ordered. Nothing is said about how a phase is stored; the
point of the abstraction is that an interrupted step is either no step or a whole one.

```
blank ──bootstrap──▸ writing ──ready──▸ ready ──▸ trial ──▸ trial ──confirm──▸ confirmed
                        │                 │          │                            │
                        └────────────── rejected ◂───┘      ◂──── begin ──────────┘
```

Only `fill` changes slot contents, and only those of the slot being written. A new update has to
be newer than the confirmed image, and after a rejection the confirmed image has to verify.

## Main definitions

* `TwoSlot.Phase`, `TwoSlot.Store`, `TwoSlot.Step`
* `TwoSlot.Store.Sound` — the invariant: a candidate on offer verifies, the slot being written is
  not the confirmed one, and the version on record is the confirmed one or newer

## Main results

* `TwoSlot.Store.Settled.steps`, `TwoSlot.Store.Sound.steps`, `TwoSlot.Store.ActiveValid.steps` —
  preserved by every run
* `TwoSlot.Store.Floor.steps` — the confirmed version never decreases
* `TwoSlot.Store.Floor.steps_lt` — and every confirmation increases it
-/

namespace TwoSlot

/-- How far the update has come. The optional slot holds the confirmed image, if there is one. -/
inductive Phase (S V : Type) where
  | blank
  | confirmed (active : S) (version : V)
  | writing (active : Option S) (candidate : S) (version : V)
  | ready (active : Option S) (candidate : S) (version : V)
  | trial (active : Option S) (candidate : S) (version : V) (left : ℕ)
  | rejected (active : Option S) (candidate : S) (version : V)

/-- What the next boot can see. -/
structure Store (S V : Type) where
  phase : Phase S V
  /-- The version the contents of a slot claim to have. -/
  version : S → V
  /-- Whether the contents of a slot verify. -/
  valid : S → Prop

variable {S V : Type} [LinearOrder V]

/-- One durable change. -/
inductive Step : Store S V → Store S V → Prop where
  | bootstrap {c w ver ok} : Step ⟨.blank, ver, ok⟩ ⟨.writing none c w, ver, ok⟩
  | beginConfirmed {a c v w ver ok} (hne : a ≠ c) (hlt : v < w) :
    Step ⟨.confirmed a v, ver, ok⟩ ⟨.writing (some a) c w, ver, ok⟩
  | beginRejected {a c c' v w ver ok} (hne : a ≠ c) (hok : ok a) (hlt : ver a < w) :
    Step ⟨.rejected (some a) c' v, ver, ok⟩ ⟨.writing (some a) c w, ver, ok⟩
  | fill {a c w ver ver' ok ok'} (hver : ∀ s, s ≠ c → ver' s = ver s)
    (hok : ∀ s, s ≠ c → (ok' s ↔ ok s)) : Step ⟨.writing a c w, ver, ok⟩ ⟨.writing a c w, ver', ok'⟩
  | ready {a c w ver ok} (hver : ver c = w) (hok : ok c) :
    Step ⟨.writing a c w, ver, ok⟩ ⟨.ready a c w, ver, ok⟩
  | trialFirst {a c w n ver ok} : Step ⟨.ready a c w, ver, ok⟩ ⟨.trial a c w n, ver, ok⟩
  | trialNext {a c w n ver ok} : Step ⟨.trial a c w (n + 1), ver, ok⟩ ⟨.trial a c w n, ver, ok⟩
  | confirm {a c w n ver ok} : Step ⟨.trial a c w n, ver, ok⟩ ⟨.confirmed c w, ver, ok⟩
  | rejectWriting {a c w ver ok} : Step ⟨.writing a c w, ver, ok⟩ ⟨.rejected a c w, ver, ok⟩
  | rejectReady {a c w ver ok} : Step ⟨.ready a c w, ver, ok⟩ ⟨.rejected a c w, ver, ok⟩
  | rejectTrial {a c w n ver ok} : Step ⟨.trial a c w n, ver, ok⟩ ⟨.rejected a c w, ver, ok⟩

/-- Any number of durable changes. -/
abbrev Steps : Store S V → Store S V → Prop := Relation.ReflTransGen Step

/-! ### Invariants -/

/-- The slot of the confirmed image. -/
def Phase.active : Phase S V → Option S
  | .blank => none
  | .confirmed a _ => some a
  | .writing a _ _ | .ready a _ _ | .trial a _ _ _ | .rejected a _ _ => a

namespace Store

/-- A candidate on offer is an image of the recorded version that verifies. -/
def Offered (st : Store S V) : Prop :=
  match st.phase with
  | .ready _ c w | .trial _ c w _ => st.valid c ∧ st.version c = w
  | _ => True

/-- The confirmed slot is not the one being written. -/
def Apart (st : Store S V) : Prop :=
  match st.phase with
  | .writing a c _ | .ready a c _ | .trial a c _ _ | .rejected a c _ => a ≠ some c
  | _ => True

/-- The record names the version of the confirmed image, or a newer one that is under way. -/
def Newer (st : Store S V) : Prop :=
  match st.phase with
  | .confirmed a v => st.version a = v
  | .writing (some a) _ w | .ready (some a) _ w | .trial (some a) _ w _ => st.version a < w
  | _ => True

/-- The invariant of the protocol about slots. -/
structure Settled (st : Store S V) : Prop where
  offered : st.Offered
  apart : st.Apart

/-- The invariant of the protocol about slots and versions. -/
structure Sound (st : Store S V) : Prop extends Settled st where
  newer : st.Newer

/-- The confirmed image verifies. -/
def ActiveValid (st : Store S V) : Prop := ∀ a, st.phase.active = some a → st.valid a

/-- The version of the confirmed image, where there is one. -/
def Floor (st : Store S V) (v : V) : Prop := ∃ a, st.phase.active = some a ∧ st.version a = v

variable {st st' : Store S V}

theorem Offered.step (h : st.Offered) (hs : Step st st') : st'.Offered := by
  cases hs with
  | bootstrap | beginConfirmed | beginRejected | fill | confirm => trivial
  | rejectWriting | rejectReady | rejectTrial => trivial
  | ready hver hok => exact ⟨hok, hver⟩
  | trialFirst | trialNext => exact h

theorem Apart.step (h : st.Apart) (hs : Step st st') : st'.Apart := by
  cases hs with
  | bootstrap => exact fun hc => nomatch hc
  | beginConfirmed hne _ => exact fun hc => hne (Option.some.inj hc)
  | beginRejected hne _ _ => exact fun hc => hne (Option.some.inj hc)
  | confirm => trivial
  | fill | ready | trialFirst | trialNext | rejectWriting | rejectReady | rejectTrial => exact h

theorem Newer.step (h : st.Newer) (ha : st.Apart) (ho : st.Offered) (hs : Step st st') :
    st'.Newer := by
  cases hs with
  | bootstrap => trivial
  | beginConfirmed hne hlt =>
    simp only [Newer] at h ⊢
    rw [h]
    exact hlt
  | beginRejected _ _ hlt => exact hlt
  | @fill a c w ver ver' ok ok' hver hok =>
    cases a with
    | none => trivial
    | some a =>
      have hne : a ≠ c := fun hc => ha (by rw [hc])
      simp only [Newer] at h ⊢
      rw [hver a hne]
      exact h
  | @ready a c w ver ok _ _ => cases a <;> exact h
  | @trialFirst a c w n ver ok => cases a <;> exact h
  | @trialNext a c w n ver ok => cases a <;> exact h
  | confirm => exact ho.2
  | rejectWriting | rejectReady | rejectTrial => trivial

theorem Settled.steps (h : st.Settled) (hs : Steps st st') : st'.Settled := by
  induction hs with
  | refl => exact h
  | tail _ hstep ih => exact ⟨ih.offered.step hstep, ih.apart.step hstep⟩

/-- **The invariant holds in every reachable store.** -/
theorem Sound.steps (h : st.Sound) (hs : Steps st st') : st'.Sound := by
  induction hs with
  | refl => exact h
  | tail _ hstep ih =>
    exact ⟨⟨ih.offered.step hstep, ih.apart.step hstep⟩, ih.newer.step ih.apart ih.offered hstep⟩

/-- There is a confirmed image once there has been one. -/
theorem active_steps (h : st.phase.active ≠ none) (hs : Steps st st') : st'.phase.active ≠ none := by
  induction hs with
  | refl => exact h
  | tail _ hstep ih =>
    cases hstep with
    | bootstrap => exact absurd rfl ih
    | confirm => exact fun hc => nomatch hc
    | beginConfirmed | beginRejected | fill | ready | trialFirst | trialNext | rejectWriting
    | rejectReady | rejectTrial => exact ih

/-- What is written is not the confirmed image, so that keeps verifying. -/
theorem ActiveValid.steps (h : st.ActiveValid) (hsettled : st.Settled) (hs : Steps st st') :
    st'.ActiveValid := by
  induction hs with
  | refl => exact h
  | @tail mid last hrun hstep ih =>
    have hmid := hsettled.steps hrun
    intro a hact
    cases hstep with
    | bootstrap => cases hact
    | @fill b c w ver ver' ok ok' hver hok =>
      have hne : a ≠ c := fun hc => hmid.apart (by rw [← hc]; exact hact)
      exact (hok a hne).mpr (ih a hact)
    | confirm =>
      cases hact
      exact hmid.offered.1
    | beginConfirmed | beginRejected | ready | trialFirst | trialNext | rejectWriting
    | rejectReady | rejectTrial => exact ih a hact

/-! ### The rollback floor -/

/-- One step keeps the confirmed version or, if it is a confirmation, increases it. -/
theorem Floor.step {v : V} (hv : st.Floor v) (h : st.Sound) (hs : Step st st') :
    ∃ v', st'.Floor v' ∧ v ≤ v' := by
  obtain ⟨a, hact, rfl⟩ := hv
  cases hs with
  | bootstrap => cases hact
  | beginConfirmed | beginRejected | ready | trialFirst | trialNext | rejectWriting | rejectReady
  | rejectTrial => exact ⟨_, ⟨a, hact, rfl⟩, le_refl _⟩
  | @fill b c w ver ver' ok ok' hver hok =>
    have hne : a ≠ c := fun hc => h.apart (by rw [← hc]; exact hact)
    exact ⟨_, ⟨a, hact, rfl⟩, le_of_eq (hver a hne).symm⟩
  | @confirm b c w n ver ok =>
    obtain rfl : b = some a := hact
    refine ⟨_, ⟨c, rfl, rfl⟩, ?_⟩
    have hlt : ver a < w := h.newer
    have hw : ver c = w := h.offered.2
    exact le_of_lt (hw ▸ hlt)

/-- **The confirmed version never decreases.** -/
theorem Floor.steps {v : V} (hv : st.Floor v) (h : st.Sound) (hs : Steps st st') :
    ∃ v', st'.Floor v' ∧ v ≤ v' := by
  induction hs with
  | refl => exact ⟨v, hv, le_refl v⟩
  | tail hrun hstep ih =>
    obtain ⟨u, hu, hvu⟩ := ih
    obtain ⟨v', hv', huv⟩ := hu.step (h.steps hrun) hstep
    exact ⟨v', hv', le_trans hvu huv⟩

/-- From a store without a confirmed phase, a confirmation increases the version strictly. -/
theorem Floor.steps_lt {v : V} (hv : st.Floor v) (h : st.Sound)
    (hne : ∀ a w, st.phase ≠ .confirmed a w) (hs : Steps st st') :
    (st'.Floor v ∧ ∀ a w, st'.phase ≠ .confirmed a w) ∨ ∃ v', st'.Floor v' ∧ v < v' := by
  induction hs with
  | refl => exact .inl ⟨hv, hne⟩
  | @tail mid last hrun hstep ih =>
    have hmid := h.steps hrun
    rcases ih with ⟨⟨a, hact, rfl⟩, hnot⟩ | ⟨u, hu, hlt⟩
    · cases hstep with
      | bootstrap => cases hact
      | @beginConfirmed b _ w => exact absurd rfl (hnot b w)
      | beginRejected | ready | trialFirst | trialNext | rejectWriting | rejectReady
      | rejectTrial => exact .inl ⟨⟨a, hact, rfl⟩, fun _ _ hc => nomatch hc⟩
      | @fill b c w ver ver' ok ok' hver hok =>
        have hne' : a ≠ c := fun hc => hmid.apart (by rw [← hc]; exact hact)
        exact .inl ⟨⟨a, hact, hver a hne'⟩, fun _ _ hc => nomatch hc⟩
      | @confirm b c w n ver ok =>
        obtain rfl : b = some a := hact
        have hlt : ver a < w := hmid.newer
        have hw : ver c = w := hmid.offered.2
        exact .inr ⟨ver c, ⟨c, rfl, rfl⟩, hw ▸ hlt⟩
    · obtain ⟨v', hv', huv⟩ := hu.step hmid hstep
      exact .inr ⟨v', hv', lt_of_lt_of_le hlt huv⟩

end Store

end TwoSlot
