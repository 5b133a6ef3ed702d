import Stm32SecurityLab.Hash.Sha512

/-!
# Eighty words in sixteen

`sha512_compress` has no room for the eighty words of the schedule. It replaces the sixteen words of
the block in place, one before each round, so that while round `t` is done the words are those of
the rounds `t - 15` to `t`.

## Main definitions

* `Rolled` — the words while a pass over the block is under way

## Main results

* `sha512Compress_hash` — the rounds are those of the standard
-/

namespace Stm32SecurityLab.Monocypher

variable {block input : Words} {v : Working}

theorem schedule_of_lt {t : ℕ} (h : t < 16) : schedule block t = block ⟨t, h⟩ := by
  rw [schedule, dif_pos h]

theorem schedule_of_ge {t : ℕ} (h : 16 ≤ t) :
    schedule block t = litSigma1 (schedule block (t - 2)) + schedule block (t - 7) +
      litSigma0 (schedule block (t - 15)) + schedule block (t - 16) := by
  rw [schedule, dif_neg (by omega)]

/-- The first `t` rounds. -/
def rounds (block : Words) (v : Working) (t : ℕ) : Working :=
  (List.range t).foldl (fun v t => v.round (roundConstant t + schedule block t)) v

theorem rounds_succ (t : ℕ) :
    rounds block v (t + 1) = (rounds block v t).round (roundConstant t + schedule block t) := by
  rw [rounds, List.range_succ, List.foldl_append]
  rfl

/-- A loop over an array, with an invariant for each index. -/
theorem foldl_finRange {σ : Type} {n : ℕ} {f : σ → Fin n → σ} {P : ℕ → σ → Prop} {s : σ}
    (h : P 0 s) (hstep : ∀ (i : Fin n) s, P i s → P (i + 1) (f s i)) :
    P n ((List.finRange n).foldl f s) := by
  induction n with
  | zero => exact h
  | succ n ih =>
    rw [List.finRange_succ_last, List.foldl_append, List.foldl_map]
    exact hstep (Fin.last n) _ (ih fun i s hs => hstep i.castSucc s hs)

/-- A pass over the block from round `i16` on, `j` of its rounds done: the words up to `j` have been
replaced. -/
structure Rolled (block : Words) (v : Working) (i16 j : ℕ) (s : Words × Working) : Prop where
  new : ∀ w : Fin 16, w < j → s.1 w = schedule block (i16 + w)
  old : ∀ w : Fin 16, j ≤ w → s.1 w = schedule block (i16 + w - 16)
  working : s.2 = rounds block v (i16 + j)

namespace Rolled

variable {i16 : ℕ} {j : Fin 16} {s : Words × Working}

/-- A word that is read belongs to the round `c` rounds before. -/
theorem back (h : Rolled block v i16 j s) {c : Fin 16} (hc : 0 < c.val) :
    s.1 (j - c) = schedule block (i16 + j - c) := by
  have hj := j.isLt
  have hcl := c.isLt
  rcases Nat.lt_or_ge j.val c.val with hlt | hge
  · have hval : (j - c).val = j + 16 - c := by
      rw [Fin.val_sub, Nat.mod_eq_of_lt (by omega)]
      omega
    rw [h.old _ (by rw [hval]; omega), hval]
    congr 1
    omega
  · have hval : (j - c).val = j - c := Fin.sub_val_of_le hge
    rw [h.new _ (by rw [hval]; omega), hval]
    congr 1
    omega

/-- One round of a pass. -/
theorem step (h : Rolled block v i16 j s) (hi16 : 16 ≤ i16) :
    Rolled block v i16 (j + 1) (scheduleRound i16 s j) := by
  have hne {c : Fin 16} (hc : 0 < c.val) : j - c ≠ j := by
    intro heq
    have hval := congrArg Fin.val heq
    rw [Fin.val_sub] at hval
    have hj := j.isLt
    have hcl := c.isLt
    omega
  have hcurrent : s.1 j = schedule block (i16 + j - 16) := h.old j le_rfl
  have hword : (scheduleRound i16 s j).1 j = schedule block (i16 + j) := by
    rw [schedule_of_ge (by omega), scheduleRound]
    simp only [Function.update_self, Function.update_of_ne (hne (c := 15) (by decide)),
      Function.update_of_ne (hne (c := 7) (by decide)), h.back (c := 2) (by decide),
      h.back (c := 7) (by decide), h.back (c := 15) (by decide), hcurrent]
    show schedule block (i16 + j - 16) + litSigma1 (schedule block (i16 + j - 2)) +
      litSigma0 (schedule block (i16 + j - 15)) + schedule block (i16 + j - 7) = _
    ac_rfl
  have hother {w : Fin 16} (hw : w ≠ j) : (scheduleRound i16 s j).1 w = s.1 w := by
    rw [scheduleRound]
    simp only [Function.update_of_ne hw]
  refine ⟨fun w hw => ?_, fun w hw => ?_, ?_⟩
  · by_cases heq : w = j
    · rw [heq, hword]
    · rw [hother heq, h.new w (by omega)]
  · rw [hother (fun heq => by rw [heq] at hw; omega), h.old w (by omega)]
  · show s.2.round (roundConstant (i16 + j) + (scheduleRound i16 s j).1 j) = _
    rw [hword, h.working, ← Nat.add_assoc, rounds_succ]

end Rolled

/-- A pass replaces all words. -/
theorem rolled_pass {i16 : ℕ} {s : Words × Working} (h : Rolled block v i16 0 s) (hi16 : 16 ≤ i16) :
    Rolled block v i16 16 ((List.finRange 16).foldl (scheduleRound i16) s) :=
  foldl_finRange h fun _ _ hs => hs.step hi16

theorem Rolled.next {i16 : ℕ} {s : Words × Working} (h : Rolled block v i16 16 s) :
    Rolled block v (i16 + 16) 0 s := by
  refine ⟨fun w hw => absurd hw (Nat.not_lt_zero _), fun w _ => ?_, h.working⟩
  rw [h.new w w.isLt]
  congr 1
  omega

/-- The rounds with the words of the block itself. -/
theorem rolled_first :
    Rolled block v 16 0 (block, (List.finRange 16).foldl
      (fun v (j : Fin 16) => v.round (roundConstant j + block j)) v) := by
  refine ⟨fun w hw => absurd hw (Nat.not_lt_zero _), fun w _ => ?_, ?_⟩
  · rw [show 16 + w.val - 16 = w by omega, schedule_of_lt w.isLt]
  · refine foldl_finRange (P := fun t u => u = rounds block v t) rfl fun j u hu => ?_
    rw [hu, rounds_succ, schedule_of_lt j.isLt]

/-- `m` passes. -/
theorem rolled_passes (m : ℕ) :
    ∃ s, Rolled block v (16 * m + 16) 0 s ∧
      (List.range m).foldl (fun (s : ℕ × Words × Working) _ =>
        let i16 := s.1 + 16
        (i16, (List.finRange 16).foldl (scheduleRound i16) s.2)) (0, block,
          (List.finRange 16).foldl (fun v (j : Fin 16) => v.round (roundConstant j + block j)) v) =
        (16 * m, s) := by
  induction m with
  | zero => exact ⟨_, rolled_first, rfl⟩
  | succ m ih =>
    obtain ⟨s, hs, hfold⟩ := ih
    refine ⟨_, (rolled_pass hs (by omega)).next, ?_⟩
    rw [List.range_succ, List.foldl_append, hfold]
    rfl

/-- **The rounds are those of the standard**, and nothing else in the context changes. -/
theorem sha512Compress_hash (ctx : CryptoSha512Ctx) :
    (sha512Compress ctx).hash = compressBlock ctx.hash ctx.input ∧
      (sha512Compress ctx).inputSize = ctx.inputSize ∧
      (sha512Compress ctx).inputIdx = ctx.inputIdx := by
  obtain ⟨s, hs, hfold⟩ := @rolled_passes ctx.input (Working.ofHash ctx.hash) 4
  rw [sha512Compress, hfold]
  refine ⟨?_, rfl, rfl⟩
  show ctx.hash + s.2.toHash = _
  rw [hs.working]
  rfl

end Stm32SecurityLab.Monocypher
