import Mathlib.Tactic.Common
import Mathlib.Data.List.TakeDrop

/-!
# Taking a stream in blocks

A hash function takes its message in blocks of `n` elements. Whoever feeds it a stream keeps the
elements that do not fill a block yet. Here one element is taken at a time, so that a stream in
pieces is the stream itself by `List.foldl_append`, and the lemmas say what a caller sees who adds
several elements at once.

## Main definitions

* `Blocks.absorb` — the state after a stream, and the elements left over
* `Blocks.compressAll` — the state after a list of full blocks

## Main results

* `Blocks.absorb_append` — a stream may be cut anywhere
* `Blocks.absorb_take_blocks` — a stream of full blocks leaves nothing over
-/

namespace Blocks

variable {σ α : Type} (n : ℕ) (f : σ → List α → σ)

/-- One more element. A buffer that is full becomes a block. -/
def push (p : σ × List α) (a : α) : σ × List α :=
  if p.2.length + 1 < n then (p.1, p.2 ++ [a]) else (f p.1 (p.2 ++ [a]), [])

/-- What a stream does, and what it leaves. -/
def absorb (p : σ × List α) (l : List α) : σ × List α := l.foldl (push n f) p

/-- The first `k` blocks of a message, one after the other. -/
def compressAll (s : σ) (l : List α) (k : ℕ) : σ :=
  (List.range k).foldl (fun s i => f s ((l.drop (n * i)).take n)) s

variable {n f} {p : σ × List α} {s : σ} {buf l : List α}

@[simp] theorem absorb_nil : absorb n f p [] = p := rfl

/-- **A stream may be cut anywhere.** -/
theorem absorb_append (l l' : List α) : absorb n f p (l ++ l') = absorb n f (absorb n f p l) l' :=
  List.foldl_append

/-- Less than a block stays in the buffer. -/
theorem absorb_of_lt (h : buf.length + l.length < n) : absorb n f (s, buf) l = (s, buf ++ l) := by
  induction l generalizing buf with
  | nil => rw [absorb_nil, List.append_nil]
  | cons a l ih =>
    rw [List.length_cons] at h
    have hpush : push n f (s, buf) a = (s, buf ++ [a]) :=
      if_pos (show buf.length + 1 < n by omega)
    have hlength : (buf ++ [a]).length = buf.length + 1 := by rw [List.length_append]; rfl
    show absorb n f (push n f (s, buf) a) l = _
    rw [hpush, ih (by omega), List.append_assoc]
    rfl

/-- What fills the buffer exactly is a block with it. -/
theorem absorb_of_eq (hl : l ≠ []) (h : buf.length + l.length = n) :
    absorb n f (s, buf) l = (f s (buf ++ l), []) := by
  obtain ⟨init, a, rfl⟩ : ∃ init a, l = init ++ [a] :=
    ⟨l.dropLast, l.getLast hl, (List.dropLast_concat_getLast hl).symm⟩
  rw [List.length_append, List.length_singleton] at h
  have hlength : (buf ++ init).length = buf.length + init.length := List.length_append
  have hpush : push n f (s, buf ++ init) a = (f s (buf ++ init ++ [a]), []) :=
    if_neg (show ¬ (buf ++ init).length + 1 < n by omega)
  have hinit : absorb n f (s, buf) init = (s, buf ++ init) := absorb_of_lt (by omega)
  rw [absorb_append, hinit]
  show push n f (s, buf ++ init) a = _
  rw [hpush, List.append_assoc]

/-- The buffer never holds a block. -/
theorem absorb_length (hp : p.2.length < n) : (absorb n f p l).2.length < n := by
  induction l generalizing p with
  | nil => exact hp
  | cons a l ih =>
    refine ih ?_
    rw [push]
    split
    · rwa [List.length_append]
    · exact Nat.zero_lt_of_lt hp

theorem compressAll_succ (l : List α) (k : ℕ) :
    compressAll n f s l (k + 1) = compressAll n f (f s (l.take n)) (l.drop n) k := by
  rw [compressAll, compressAll, List.range_succ_eq_map, List.foldl_cons, List.foldl_map]
  simp only [Nat.mul_zero, List.drop_zero, List.drop_drop, Nat.mul_succ, Nat.add_comm]

/-- **A stream of full blocks** leaves nothing over. -/
theorem absorb_take_blocks {k : ℕ} (hn : 0 < n) (h : n * k ≤ l.length) :
    absorb n f (s, []) (l.take (n * k)) = (compressAll n f s l k, []) := by
  induction k generalizing s l with
  | zero => rfl
  | succ k ih =>
    rw [Nat.mul_succ] at h ⊢
    have htake : (l.take n).length = n := by rw [List.length_take]; omega
    have hne : l.take n ≠ [] := List.ne_nil_of_length_pos (by omega)
    have hdrop : n * k ≤ (l.drop n).length := by rw [List.length_drop]; omega
    calc absorb n f (s, []) (l.take (n * k + n))
        = absorb n f (s, []) (l.take n ++ (l.drop n).take (n * k)) := by
          rw [Nat.add_comm, List.take_add]
      _ = absorb n f (f s (l.take n), []) ((l.drop n).take (n * k)) := by
          rw [absorb_append, absorb_of_eq hne (by rw [htake]; exact Nat.zero_add n), List.nil_append]
      _ = (compressAll n f s l (k + 1), []) := by rw [ih hdrop, compressAll_succ]

theorem absorb_blocks {k : ℕ} (hn : 0 < n) (h : l.length = n * k) :
    absorb n f (s, []) l = (compressAll n f s l k, []) := by
  have hall := absorb_take_blocks (f := f) (s := s) hn (Nat.le_of_eq h.symm)
  rwa [← h, List.take_length] at hall

end Blocks
