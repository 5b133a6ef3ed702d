import Stm32SecurityLab.Hash.Compress
import Stm32SecurityLab.Installer.Calls

/-!
# A message in pieces

`crypto_sha512_update` adds bytes until the context is at a word, words until it is at a block,
then whole blocks, then words and bytes again. However a message is cut into pieces, no access
leaves the context or the piece, and the digest is that of the whole message.

The context is always what the standard says of the bytes so far: the hash of the full blocks, and
the words of the bytes that are left, with zeros after them.

## Main definitions

* `Holds` — the context, as a hash, the bytes left over and the number of blocks
* `Absorbed` — the context after the bytes of a message
* `monocypherCrypto` — the cryptography of the bootloader, up to the check of signatures

## Main results

* `Absorbed.update`, `Absorbed.final`
* `crypto_sha512_streams` — a message in pieces
* `verifyStreamingPayloadHash_iff` — the installer may keep the bytes in place of the context
-/

namespace Stm32SecurityLab.Monocypher

open Blocks

variable {buf l l' message : List UInt8} {ctx ctx' : CryptoSha512Ctx} {hash : Hash} {k n : ℕ}

/-! ### Words -/

theorem load64Be_congr {s t : Mem} (h : ∀ k < 8, s k = t k) : load64Be s = load64Be t := by
  simp only [load64Be, h 0 (by decide), h 1 (by decide), h 2 (by decide), h 3 (by decide),
    h 4 (by decide), h 5 (by decide), h 6 (by decide), h 7 (by decide)]

/-- The first `n` words of `f`, joined by `|`. -/
def orWords (f : ℕ → UInt64) : ℕ → UInt64
  | 0 => 0
  | n + 1 => orWords f n ||| f n

/-- One word more. -/
theorem orWords_update {f g : ℕ → UInt64} (hzero : f k = 0) (hother : ∀ j, j ≠ k → g j = f j)
    (n : ℕ) : orWords g n = orWords f n ||| if k < n then g k else 0 := by
  induction n with
  | zero => rw [if_neg (Nat.not_lt_zero k), orWords, orWords, UInt64.or_zero]
  | succ n ih =>
    rw [orWords, orWords, ih]
    by_cases hk : k = n
    · rw [← hk, if_neg (lt_irrefl k), if_pos (Nat.lt_succ_self k), hzero, UInt64.or_zero]
    · rw [hother n (Ne.symm hk)]
      by_cases hlt : k < n
      · rw [if_pos hlt, if_pos (by omega), UInt64.or_assoc, UInt64.or_comm (g k), UInt64.or_assoc]
      · rw [if_neg hlt, if_neg (by omega), UInt64.or_zero, UInt64.or_zero]

theorem load64Be_eq (s : Mem) :
    load64Be s = orWords (fun k => (s k).toUInt64 <<< UInt64.ofNat (8 * (7 - k))) 8 := by
  simp only [orWords, UInt64.zero_or]
  rw [show UInt64.ofNat (8 * (7 - 7)) = 0 from rfl, UInt64.shiftLeft_zero]
  rfl

/-- A byte that was zero is added by `|=`. -/
theorem load64Be_update {s : Mem} (hk : k < 8) (h : s k = 0) (byte : UInt8) :
    load64Be (Function.update s k byte) =
      load64Be s ||| byte.toUInt64 <<< UInt64.ofNat (8 * (7 - k)) := by
  rw [load64Be_eq, load64Be_eq, orWords_update (k := k), if_pos hk, Function.update_self]
  · show (s k).toUInt64 <<< _ = 0
    rw [h]
    exact UInt64.zero_shiftLeft
  · intro j hj
    show (Function.update s k byte j).toUInt64 <<< _ = (s j).toUInt64 <<< _
    rw [Function.update_of_ne hj]

/-- Each bit of a word is in one of its bytes. -/
theorem load64Be_store64Be (word : UInt64) : load64Be (byteAt (store64Be word)) = word := by
  apply UInt64.toBitVec_inj.mp
  ext i hi
  have hbyte (c : ℕ) : (!decide (i < c) && (decide (i - c < 8) &&
      word.toBitVec.getLsbD (c + (i - c)))) =
      (decide (c ≤ i ∧ i < c + 8) && word.toBitVec.getLsbD i) := by
    by_cases h : i < c
    · simp [h, Nat.not_le.mpr h]
    · rw [Nat.add_sub_of_le (Nat.not_lt.mp h)]
      simp [h, Nat.not_lt.mp h, Nat.sub_lt_iff_lt_add (Nat.not_lt.mp h), Nat.add_comm]
  simp only [load64Be, byteAt, store64Be, List.getD_eq_getElem?_getD, List.length_cons,
    List.length_nil, zero_add, Nat.reduceAdd, Nat.ofNat_pos, getElem?_pos, List.getElem_cons_zero,
    Option.getD_some, Nat.one_lt_ofNat, List.getElem_cons_succ, Nat.reduceLT, Nat.lt_add_one,
    UInt64.toBitVec_or, UInt64.toBitVec_shiftLeft, UInt8.toBitVec_toUInt64, UInt64.toBitVec_toUInt8,
    UInt64.toBitVec_shiftRight, UInt64.toBitVec_ofNat, BitVec.ofNat_eq_ofNat, BitVec.reduceMod,
    BitVec.ushiftRight_eq', BitVec.toNat_ofNat, Nat.reducePow, Nat.reduceMod, BitVec.shiftLeft_eq',
    BitVec.getElem_or, BitVec.getElem_shiftLeft, BitVec.getElem_setWidth, BitVec.getLsbD_setWidth,
    BitVec.getLsbD_ushiftRight]
  simp only [hbyte, ← BitVec.getLsbD_eq_getElem]
  cases word.toBitVec.getLsbD i
  · simp only [Bool.and_false, Bool.or_false]
  · simp only [Bool.and_true, ← Bool.decide_or, decide_eq_true_eq]
    omega

theorem byteAt_of_ge {i : ℕ} (h : l.length ≤ i) : byteAt l i = 0 := by
  rw [byteAt, List.getD, List.getElem?_eq_none h]
  rfl

theorem byteAt_take {i : ℕ} (h : i < n) : byteAt (l.take n) i = byteAt l i := by
  rw [byteAt, byteAt, List.getD, List.getD, List.getElem?_take_of_lt h]

theorem wordsOf_nil : wordsOf [] = 0 := by
  funext i
  rw [wordsOf, load64Be_eq]
  show orWords (fun k => (0 : UInt64) <<< UInt64.ofNat (8 * (7 - k))) 8 = 0
  simp only [orWords, UInt64.zero_shiftLeft, UInt64.or_zero]

/-- Zeros after the bytes are there already. -/
theorem wordsOf_append_zeros : wordsOf (l ++ List.replicate n 0) = wordsOf l := by
  funext i
  refine load64Be_congr fun k _ => ?_
  rcases Nat.lt_or_ge (8 * i.val + k) l.length with h | h
  · exact byteAt_append_left h
  · rw [byteAt_of_ge h, ← Nat.add_sub_of_le h, byteAt_append_right rfl, byteAt_replicate_zero]

/-- One more byte. -/
theorem wordsOf_append_byte (h : buf.length / 8 < 16) (byte : UInt8) :
    Function.update (wordsOf buf) ⟨buf.length / 8, h⟩ (wordsOf buf ⟨buf.length / 8, h⟩ |||
      byte.toUInt64 <<< UInt64.ofNat (8 * (7 - buf.length % 8))) = wordsOf (buf ++ [byte]) := by
  funext i
  by_cases hi : i = ⟨buf.length / 8, h⟩
  · have hzero : byteAt buf (8 * (buf.length / 8) + buf.length % 8) = 0 := byteAt_of_ge (by omega)
    rw [hi, Function.update_self, wordsOf,
      ← load64Be_update (s := fun k => byteAt buf (8 * (buf.length / 8) + k))
        (Nat.mod_lt _ (by decide)) hzero, wordsOf]
    refine load64Be_congr fun k hk => ?_
    dsimp only
    by_cases hlast : k = buf.length % 8
    · rw [hlast, Function.update_self,
        show 8 * (buf.length / 8) + buf.length % 8 = buf.length + 0 from Nat.div_add_mod _ _,
        byteAt_append_right rfl]
      rfl
    · rw [Function.update_of_ne hlast]
      rcases Nat.lt_or_ge (8 * (buf.length / 8) + k) buf.length with hlt | hge
      · exact (byteAt_append_left hlt).symm
      · rw [byteAt_of_ge hge, byteAt_of_ge]
        rw [List.length_append, List.length_singleton]
        omega
  · rw [Function.update_of_ne hi]
    refine load64Be_congr fun k hk => ?_
    have hne : i.val ≠ buf.length / 8 := fun heq => hi (Fin.ext heq)
    rcases Nat.lt_or_ge (8 * i.val + k) buf.length with hlt | hge
    · exact (byteAt_append_left hlt).symm
    · rw [byteAt_of_ge hge, byteAt_of_ge]
      rw [List.length_append, List.length_singleton]
      omega

/-- Words from a message, where the bytes so far end with a word. -/
theorem load64BeBuf_wordsOf (haligned : buf.length % 8 = 0) (hroom : buf.length / 8 + n ≤ 16)
    (hsrc : 8 * n ≤ message.length) :
    load64BeBuf (wordsOf buf) (buf.length / 8) message n =
      some (wordsOf (buf ++ message.take (8 * n))) := by
  induction n with
  | zero =>
    rw [Nat.mul_zero, List.take_zero, List.append_nil]
    rfl
  | succ n ih =>
    have hbound : buf.length / 8 + n < 16 ∧ n * 8 + 8 ≤ message.length := ⟨by omega, by omega⟩
    have hat {m i : ℕ} (h : i < 8 * m) :
        byteAt (buf ++ message.take (8 * m)) (buf.length + i) = byteAt message i := by
      rw [byteAt_append_right rfl, byteAt_take h]
    rw [load64BeBuf, ih (by omega) (by omega)]
    simp only [Option.bind_eq_bind, Option.bind_some, dif_pos hbound, Option.some.injEq]
    funext i
    by_cases hi : i = ⟨buf.length / 8 + n, hbound.1⟩
    · rw [hi, Function.update_self, wordsOf]
      refine load64Be_congr fun k hk => ?_
      rw [show 8 * (buf.length / 8 + n) + k = buf.length + (8 * n + k) by omega, hat (by omega),
        Nat.mul_comm n 8]
    · rw [Function.update_of_ne hi]
      have hne : i.val ≠ buf.length / 8 + n := fun heq => hi (Fin.ext heq)
      refine load64Be_congr fun k hk => ?_
      rcases Nat.lt_or_ge (8 * i.val + k) buf.length with hlt | hge
      · rw [byteAt_append_left hlt, byteAt_append_left hlt]
      · rw [← Nat.add_sub_of_le hge]
        rcases Nat.lt_or_ge (8 * i.val + k - buf.length) (8 * n) with hlt' | hge'
        · rw [hat hlt', hat (by omega)]
        · rw [byteAt_of_ge, byteAt_of_ge]
          · rw [List.length_append, List.length_take]
            omega
          · rw [List.length_append, List.length_take]
            omega

/-! ### The context -/

/-- A number of bits, in two words. -/
def bitCount (n : ℕ) : UInt64 × UInt64 := (UInt64.ofNat (n / 2 ^ 64), UInt64.ofNat n)

theorem sha512Incr_bitCount {m n : ℕ} (hn : n < 2 ^ 64) :
    sha512Incr (bitCount m) (UInt64.ofNat n) = bitCount (m + n) := by
  have hlow : UInt64.ofNat m + UInt64.ofNat n = UInt64.ofNat (m + n) := (UInt64.ofNat_add m n).symm
  have hcarry : UInt64.ofNat (m + n) < UInt64.ofNat n ↔ (m + n) / 2 ^ 64 = m / 2 ^ 64 + 1 := by
    rw [UInt64.lt_iff_toNat_lt, UInt64.toNat_ofNat', UInt64.toNat_ofNat']
    omega
  show (if UInt64.ofNat m + UInt64.ofNat n < UInt64.ofNat n then UInt64.ofNat (m / 2 ^ 64) + 1
    else UInt64.ofNat (m / 2 ^ 64), UInt64.ofNat m + UInt64.ofNat n) = _
  rw [hlow, bitCount]
  refine Prod.ext ?_ rfl
  split
  case isTrue h =>
    rw [hcarry.mp h]
    exact (UInt64.ofNat_add (m / 2 ^ 64) 1).symm
  case isFalse h =>
    have hsame : (m + n) / 2 ^ 64 = m / 2 ^ 64 := by
      rw [hcarry] at h
      omega
    rw [hsame]

theorem align_eight {x : ℕ} (h : x ≤ 128) : align x 8 = (8 - x % 8) % 8 := by
  revert x
  decide

theorem align_block {x : ℕ} (h : x ≤ 128) : align x 128 = (128 - x) % 128 := by
  revert x
  decide

/-- The context holds the hash of `k` blocks, and the bytes that are left. -/
structure Holds (ctx : CryptoSha512Ctx) (hash : Hash) (buf : List UInt8) (k : ℕ) : Prop where
  hash : ctx.hash = hash
  input : ctx.input = wordsOf buf
  inputSize : ctx.inputSize = bitCount (1024 * k)
  inputIdx : ctx.inputIdx = buf.length

/-- The next block of the standard. -/
def nextHash (hash : Hash) (block : List UInt8) : Hash := compressBlock hash (wordsOf block)

namespace Holds

/-- A complete block. -/
theorem finishBlock (hhash : ctx.hash = hash) (hinput : ctx.input = wordsOf buf)
    (hsize : ctx.inputSize = bitCount (1024 * k)) :
    Holds (finishBlock ctx) (nextHash hash buf) [] (k + 1) := by
  obtain ⟨hcompress, hcount, -⟩ := sha512Compress_hash
    { ctx with inputSize := sha512Incr ctx.inputSize 1024 }
  refine ⟨?_, wordsOf_nil.symm, ?_, rfl⟩
  · refine hcompress.trans ?_
    rw [nextHash, ← hhash, ← hinput]
  · refine hcount.trans ?_
    show sha512Incr ctx.inputSize (UInt64.ofNat 1024) = _
    rw [hsize, sha512Incr_bitCount (by decide), Nat.mul_succ]

/-- One byte. -/
theorem setInput (h : Holds ctx hash buf k) (hlt : buf.length < 128) (byte : UInt8) :
    ∃ ctx', sha512SetInput ctx byte = some ctx' ∧ ctx'.inputIdx = buf.length ∧
      ctx'.hash = hash ∧ ctx'.inputSize = bitCount (1024 * k) ∧
      ctx'.input = wordsOf (buf ++ [byte]) := by
  have hword : ctx.inputIdx >>> 3 = buf.length / 8 := by
    rw [h.inputIdx, Nat.shiftRight_eq_div_pow]
  have hbyte : ctx.inputIdx &&& 7 = buf.length % 8 := by
    rw [h.inputIdx]
    exact Nat.and_two_pow_sub_one_eq_mod buf.length 3
  have hroom : buf.length / 8 < 16 := by omega
  refine ⟨{ ctx with input := wordsOf (buf ++ [byte]) }, ?_, h.inputIdx, h.hash, h.inputSize, rfl⟩
  rw [sha512SetInput]
  simp only [hword, hbyte, dif_pos hroom, h.input, wordsOf_append_byte]

/-- Bytes one by one. -/
theorem setInputs (h : Holds ctx hash buf k) (hn : n ≤ message.length)
    (hroom : buf.length + n ≤ 128) :
    ∃ ctx', setInputs ctx message n = some ctx' ∧ Holds ctx' hash (buf ++ message.take n) k := by
  induction n with
  | zero =>
    refine ⟨ctx, rfl, ?_⟩
    rw [List.take_zero, List.append_nil]
    exact h
  | succ n ih =>
    obtain ⟨ctx₁, hrun₁, h₁⟩ := ih (by omega) (by omega)
    have hlength : (buf ++ message.take n).length = buf.length + n := by
      rw [List.length_append, List.length_take, Nat.min_eq_left (by omega)]
    have hlt : n < message.length := hn
    obtain ⟨ctx₂, hrun₂, hidx, hhash, hsize, hinput⟩ := h₁.setInput (by omega) message[n]
    refine ⟨{ ctx₂ with inputIdx := ctx₂.inputIdx + 1 }, ?_, hhash, ?_, hsize, ?_⟩
    · rw [Monocypher.setInputs, hrun₁]
      simp only [Option.bind_eq_bind, Option.bind_some, dif_pos hlt, hrun₂]
    · rw [hinput, List.append_assoc, List.take_concat_get' message n hlt]
    · show ctx₂.inputIdx + 1 = _
      rw [hidx, hlength, List.length_append, List.length_take, Nat.min_eq_left hn]
      rfl

/-- Words, where the context is at the word they are loaded to. -/
theorem loadWords {word : ℕ} (h : Holds ctx hash buf k) (hword : buf.length = 8 * word ∨ n = 0)
    (hn : 8 * n ≤ message.length) (hroom : buf.length + 8 * n ≤ 128) :
    ∃ ctx', loadWords ctx word message n = some ctx' ∧
      Holds ctx' hash (buf ++ message.take (8 * n)) k := by
  have hload : load64BeBuf ctx.input word message n =
      some (wordsOf (buf ++ message.take (8 * n))) := by
    rw [h.input]
    rcases hword with hword | rfl
    · have hdiv : buf.length / 8 = word := by omega
      rw [← hdiv]
      exact load64BeBuf_wordsOf (by omega) (by omega) hn
    · rw [Nat.mul_zero, List.take_zero, List.append_nil]
      rfl
  refine ⟨{ ctx with
    input := wordsOf (buf ++ message.take (8 * n))
    inputIdx := ctx.inputIdx + n <<< 3 }, ?_, h.hash, rfl, h.inputSize, ?_⟩
  · rw [Monocypher.loadWords, hload]
    rfl
  · show ctx.inputIdx + n <<< 3 = _
    rw [h.inputIdx, List.length_append, List.length_take, Nat.min_eq_left hn, Nat.shiftLeft_eq]
    omega

/-- Block by block. -/
theorem processBlocks (h : Holds ctx hash [] k) (hn : 128 * n ≤ message.length) :
    ∃ ctx', processBlocks n ctx message = some (ctx', message.drop (128 * n)) ∧
      Holds ctx' (compressAll 128 nextHash hash message n) [] (k + n) := by
  induction n generalizing ctx hash message k with
  | zero => exact ⟨ctx, rfl, h⟩
  | succ n ih =>
    have hload : load64BeBuf ctx.input 0 message 16 = some (wordsOf (message.take 128)) := by
      rw [h.input]
      exact @load64BeBuf_wordsOf [] message 16 rfl le_rfl (by omega)
    have hblock := @finishBlock _ { ctx with input := wordsOf (message.take 128) } hash k h.hash rfl
      h.inputSize
    have hrest : 128 * n ≤ (message.drop 128).length := by
      rw [List.length_drop]
      omega
    obtain ⟨ctx', hrun, h'⟩ := ih hblock hrest
    refine ⟨ctx', ?_, ?_⟩
    · rw [Monocypher.processBlocks, hload]
      simp only [Option.bind_eq_bind, Option.bind_some, hrun, List.drop_drop, Nat.mul_succ,
        Nat.add_comm]
    · rw [compressAll_succ, Nat.add_comm n 1, ← Nat.add_assoc]
      exact h'

end Holds

/-! ### A piece -/

/-- Part of a piece has gone to the context, without filling more than one block. -/
structure Advances (u u' : Update) (hash : Hash) (buf : List UInt8) (k : ℕ) (taken : List UInt8) :
    Prop where
  message : u.message = taken ++ u'.message
  messageSize : u'.messageSize = u'.message.length
  holds : Holds u'.ctx hash (buf ++ taken) k
  room : (buf ++ taken).length ≤ 128

variable {u : Update}

theorem Advances.refl (h : Holds u.ctx hash buf k) (hroom : buf.length ≤ 128)
    (hsize : u.messageSize = u.message.length) : Advances u u hash buf k [] :=
  ⟨rfl, hsize, by rwa [List.append_nil], by rwa [List.append_nil]⟩

/-- The context is at a word, or there is nothing left. -/
theorem alignWord_advances (h : Holds u.ctx hash buf k) (hlt : buf.length < 128)
    (hsize : u.messageSize = u.message.length) :
    ∃ u' taken, alignWord u = some u' ∧ Advances u u' hash buf k taken ∧
      ((buf ++ taken).length % 8 = 0 ∨ u'.message = []) := by
  have hmask : u.ctx.inputIdx &&& 7 = buf.length % 8 := by
    rw [h.inputIdx]
    exact Nat.and_two_pow_sub_one_eq_mod buf.length 3
  rw [alignWord, hmask, h.inputIdx, align_eight (by omega), hsize]
  by_cases haligned : buf.length % 8 = 0
  · refine ⟨u, [], if_neg (not_not_intro haligned), .refl h (by omega) hsize, .inl ?_⟩
    rwa [List.append_nil]
  · obtain ⟨n, hn⟩ : ∃ n, n = min ((8 - buf.length % 8) % 8) u.message.length := ⟨_, rfl⟩
    have hle : n ≤ u.message.length := by omega
    obtain ⟨ctx', hrun, h'⟩ := h.setInputs hle (by omega)
    have hlength : (buf ++ u.message.take n).length = buf.length + n := by
      rw [List.length_append, List.length_take, Nat.min_eq_left (by omega)]
    refine ⟨⟨ctx', u.message.drop n, u.message.length - n⟩, u.message.take n, ?_,
      ⟨(List.take_append_drop n u.message).symm, (List.length_drop ..).symm, h', by omega⟩, ?_⟩
    · rw [if_pos haligned]
      simp only [← hn, hrun, Option.bind_eq_bind, Option.bind_some]
    · rcases Nat.le_total u.message.length ((8 - buf.length % 8) % 8) with hle | hle
      · exact .inr (List.drop_eq_nil_of_le (by omega))
      · exact .inl (by omega)

/-- The context is at a block, or less than a word is left, and fits in with room to spare. -/
theorem alignBlock_advances (h : Holds u.ctx hash buf k) (hroom : buf.length ≤ 128)
    (hsize : u.messageSize = u.message.length) (haligned : buf.length % 8 = 0 ∨ u.message = []) :
    ∃ u' taken, alignBlock u = some u' ∧ Advances u u' hash buf k taken ∧
      ((buf ++ taken).length % 128 = 0 ∨
        u'.message.length < 8 ∧ (buf ++ taken).length + u'.message.length < 128) := by
  have hmask : u.ctx.inputIdx &&& 127 = buf.length % 128 := by
    rw [h.inputIdx]
    exact Nat.and_two_pow_sub_one_eq_mod buf.length 7
  rw [alignBlock, hmask, hsize, show align u.ctx.inputIdx 128 = (128 - buf.length) % 128 by
    rw [h.inputIdx, align_block hroom]]
  by_cases hblock : buf.length % 128 = 0
  · refine ⟨u, [], if_neg (not_not_intro hblock), .refl h hroom hsize, .inl ?_⟩
    rwa [List.append_nil]
  · obtain ⟨n, hn⟩ : ∃ n, n = min ((128 - buf.length) % 128) u.message.length >>> 3 := ⟨_, rfl⟩
    have hdiv : n = min (128 - buf.length) u.message.length / 8 := by
      rw [hn, Nat.shiftRight_eq_div_pow, Nat.mod_eq_of_lt (by omega)]
    have hbytes : n <<< 3 = 8 * n := by
      rw [Nat.shiftLeft_eq]
      omega
    have hword : buf.length = 8 * (u.ctx.inputIdx >>> 3) ∨ n = 0 := by
      refine haligned.imp (fun haligned => ?_) fun hnil => ?_
      · rw [h.inputIdx, Nat.shiftRight_eq_div_pow]
        omega
      · rw [hdiv, hnil, List.length_nil, Nat.min_zero]
    have hle : 8 * n ≤ u.message.length := by omega
    obtain ⟨ctx', hrun, h'⟩ := h.loadWords hword hle (by omega)
    have hlength : (buf ++ u.message.take (8 * n)).length = buf.length + 8 * n := by
      rw [List.length_append, List.length_take, Nat.min_eq_left (by omega)]
    have hrest : (u.message.drop (8 * n)).length = u.message.length - 8 * n := List.length_drop ..
    refine ⟨⟨ctx', u.message.drop (8 * n), u.message.length - 8 * n⟩, u.message.take (8 * n), ?_,
      ⟨(List.take_append_drop _ u.message).symm, hrest.symm, h', by omega⟩, ?_⟩
    · rw [if_pos hblock]
      simp only [← hn, hbytes, hrun, Option.bind_eq_bind, Option.bind_some]
    · rw [hlength, hrest]
      rcases haligned with haligned | hnil
      · omega
      · rw [hnil, List.length_nil] at hdiv ⊢
        omega

/-- A block that is full is finished. -/
theorem compressIfNeeded_holds (h : Holds ctx hash (buf ++ l) k) (hlt : buf.length < 128)
    (hroom : (buf ++ l).length ≤ 128) :
    ∃ hash' buf' k', Holds (compressIfNeeded ctx) hash' buf' k' ∧
      absorb 128 nextHash (hash, buf) l = (hash', buf') ∧ buf'.length < 128 ∧
      (buf' = [] ∨ buf' = buf ++ l) ∧ 128 * k' + buf'.length = 128 * k + buf.length + l.length := by
  rw [List.length_append] at hroom
  by_cases hfull : (buf ++ l).length = 128
  · have hne : l ≠ [] := fun hnil => by
      rw [hnil, List.append_nil] at hfull
      omega
    refine ⟨nextHash hash (buf ++ l), [], k + 1, ?_, ?_, by decide, .inl rfl, ?_⟩
    · rw [compressIfNeeded, if_pos (h.inputIdx.trans hfull)]
      exact .finishBlock h.hash h.input h.inputSize
    · rw [List.length_append] at hfull
      exact absorb_of_eq hne hfull
    · rw [List.length_append] at hfull
      rw [List.length_nil]
      omega
  · refine ⟨hash, buf ++ l, k, ?_, ?_, ?_, .inr rfl, ?_⟩
    · rw [compressIfNeeded, if_neg fun hidx => hfull (h.inputIdx.symm.trans hidx)]
      exact h
    · rw [List.length_append] at hfull
      exact absorb_of_lt (by omega)
    · rw [List.length_append] at hfull ⊢
      omega
    · rw [List.length_append]
      omega

/-- The blocks of a piece: there are none, or the context has nothing in it. -/
theorem processBlocks_holds (h : Holds ctx hash buf k) (hbuf : buf = [] ∨ n = 0)
    (hn : 128 * n ≤ message.length) :
    ∃ ctx' hash', processBlocks n ctx message = some (ctx', message.drop (128 * n)) ∧
      Holds ctx' hash' buf (k + n) ∧
      absorb 128 nextHash (hash, buf) (message.take (128 * n)) = (hash', buf) := by
  rcases hbuf with rfl | rfl
  · obtain ⟨ctx', hrun, h'⟩ := h.processBlocks hn
    exact ⟨ctx', _, hrun, h', absorb_take_blocks (by decide) hn⟩
  · exact ⟨ctx, hash, rfl, h, rfl⟩

/-- What is left of a piece stays in the context. Its words are loaded to the start of the block: the
context is empty, or there is no whole word. -/
theorem addRemaining_holds (h : Holds ctx hash buf k)
    (hbuf : buf = [] ∨ message.length < 8) (hroom : buf.length + message.length < 128) :
    ∃ ctx', addRemaining ctx message message.length = some ctx' ∧
      Holds ctx' hash (buf ++ message) k := by
  rw [addRemaining]
  by_cases hnil : message = []
  · refine ⟨ctx, by rw [hnil]; rfl, ?_⟩
    rw [hnil, List.append_nil]
    exact h
  · obtain ⟨n, hn⟩ : ∃ n, n = message.length >>> 3 := ⟨_, rfl⟩
    have hdiv : n = message.length / 8 := by rw [hn, Nat.shiftRight_eq_div_pow]
    have hbytes : n <<< 3 = 8 * n := by
      rw [Nat.shiftLeft_eq]
      omega
    have hword : buf.length = 8 * 0 ∨ n = 0 := by
      refine hbuf.imp (fun hbuf => ?_) fun hlt => by omega
      rw [hbuf, List.length_nil]
    have hle : 8 * n ≤ message.length := by omega
    obtain ⟨ctx₁, hrun₁, h₁⟩ := h.loadWords hword hle (by omega)
    have hlength : (buf ++ message.take (8 * n)).length = buf.length + 8 * n := by
      rw [List.length_append, List.length_take, Nat.min_eq_left (by omega)]
    have hrest : (message.drop (8 * n)).length = message.length - 8 * n := List.length_drop ..
    obtain ⟨ctx₂, hrun₂, h₂⟩ := h₁.setInputs hrest.ge (by omega)
    have hne : message.length ≠ 0 := fun hzero => hnil (List.eq_nil_of_length_eq_zero hzero)
    refine ⟨ctx₂, ?_, ?_⟩
    · rw [if_pos hne]
      simp only [← hn, hbytes, hrun₁, Option.bind_eq_bind, Option.bind_some, hrun₂]
    · rw [← hrest, List.take_length, List.append_assoc, List.take_append_drop] at h₂
      exact h₂

/-- **One piece**, as the standard has it. -/
theorem cryptoSha512Update_holds (h : Holds ctx hash buf k) (hlt : buf.length < 128)
    (message : List UInt8) :
    ∃ ctx' hash' buf' k', cryptoSha512Update ctx message = some ctx' ∧ Holds ctx' hash' buf' k' ∧
      absorb 128 nextHash (hash, buf) message = (hash', buf') ∧
      128 * k' + buf'.length = 128 * k + buf.length + message.length := by
  rw [cryptoSha512Update]
  by_cases hnil : message.length = 0
  · rw [if_pos hnil, List.eq_nil_of_length_eq_zero hnil]
    exact ⟨ctx, hash, buf, k, rfl, h, rfl, rfl⟩
  obtain ⟨u₁, l₁, hrun₁, h₁, haligned₁⟩ :=
    @alignWord_advances buf hash k ⟨ctx, message, message.length⟩ h hlt rfl
  obtain ⟨u₂, l₂, hrun₂, h₂, hblock⟩ :=
    alignBlock_advances h₁.holds h₁.room h₁.messageSize haligned₁
  have hmessage : message = l₁ ++ l₂ ++ u₂.message := by
    rw [List.append_assoc, ← h₂.message]
    exact h₁.message
  have hroom := h₂.room
  have hholds := h₂.holds
  rw [List.append_assoc] at hroom hholds hblock
  obtain ⟨n, hn⟩ : ∃ n, n = u₂.messageSize >>> 7 := ⟨_, rfl⟩
  have hdiv : n = u₂.message.length / 128 := by
    rw [hn, Nat.shiftRight_eq_div_pow, h₂.messageSize]
  have hmod : u₂.messageSize &&& 127 = (u₂.message.drop (128 * n)).length := by
    rw [List.length_drop, h₂.messageSize, show (127 : ℕ) = 2 ^ 7 - 1 from rfl,
      Nat.and_two_pow_sub_one_eq_mod]
    omega
  obtain ⟨hash₃, buf₃, k₃, h₃, habsorb₃, hlt₃, hbuf₃, hcount₃⟩ :=
    compressIfNeeded_holds hholds hlt hroom
  have hfits : buf₃ = [] ∨ n = 0 := by
    rcases hbuf₃ with hbuf₃ | hbuf₃
    · exact .inl hbuf₃
    · rw [← hbuf₃] at hblock
      refine hblock.imp (fun hmod => List.eq_nil_of_length_eq_zero (by omega)) fun hlt => ?_
      rw [hdiv]
      exact Nat.div_eq_of_lt (by omega)
  have hle : 128 * n ≤ u₂.message.length := by omega
  obtain ⟨ctx₄, hash₄, hrun₄, h₄, habsorb₄⟩ := processBlocks_holds h₃ hfits hle
  have hrest : buf₃.length + (u₂.message.drop (128 * n)).length < 128 := by
    rw [List.length_drop]
    rcases hbuf₃ with hbuf₃ | hbuf₃
    · rw [hbuf₃, List.length_nil]
      omega
    · rw [← hbuf₃] at hblock
      omega
  -- a word that is left finds the context empty
  have hword : buf₃ = [] ∨ (u₂.message.drop (128 * n)).length < 8 := by
    rcases hbuf₃ with hbuf₃ | hbuf₃
    · exact .inl hbuf₃
    · rw [← hbuf₃] at hblock
      refine hblock.imp (fun hmod => List.eq_nil_of_length_eq_zero (by omega)) fun hlt => ?_
      rw [List.length_drop]
      omega
  obtain ⟨ctx₅, hrun₅, h₅⟩ := addRemaining_holds h₄ hword hrest
  refine ⟨ctx₅, hash₄, _, _, ?_, h₅, ?_, ?_⟩
  · rw [if_neg hnil, hrun₁]
    simp only [Option.bind_eq_bind, Option.bind_some, hrun₂, ← hn, hmod, hrun₄, hrun₅]
  · calc absorb 128 nextHash (hash, buf) message
        = absorb 128 nextHash (hash, buf)
            (l₁ ++ l₂ ++ (u₂.message.take (128 * n) ++ u₂.message.drop (128 * n))) := by
          rw [List.take_append_drop, ← hmessage]
      _ = absorb 128 nextHash (hash₄, buf₃) (u₂.message.drop (128 * n)) := by
          rw [absorb_append, absorb_append, habsorb₃, habsorb₄]
      _ = (hash₄, buf₃ ++ u₂.message.drop (128 * n)) := absorb_of_lt hrest
  · have hlength := congrArg List.length hmessage
    rw [List.length_append, List.length_append] at hlength
    rw [List.length_append] at hcount₃
    rw [List.length_append, List.length_drop]
    omega

/-! ### The digest -/

/-- The last two words of a block. -/
theorem wordsOf_size (h : l.length = 112) (high low : UInt64) :
    Function.update (Function.update (wordsOf l) 14 high) 15 low =
      wordsOf (l ++ store64Be high ++ store64Be low) := by
  have hhigh : (l ++ store64Be high).length = 120 := by rw [List.length_append, h]; rfl
  funext i
  by_cases h15 : i = 15
  · rw [h15, Function.update_self, wordsOf]
    refine (load64Be_store64Be low).symm.trans (load64Be_congr fun k _ => ?_)
    exact (byteAt_append_right hhigh k).symm
  rw [Function.update_of_ne h15]
  by_cases h14 : i = 14
  · rw [h14, Function.update_self, wordsOf]
    refine (load64Be_store64Be high).symm.trans (load64Be_congr fun k hk => ?_)
    rw [byteAt_append_left (by rw [hhigh, show (14 : Fin 16).val = 14 from rfl]; omega)]
    exact (byteAt_append_right h k).symm
  · rw [Function.update_of_ne h14]
    refine load64Be_congr fun k hk => ?_
    have hi : i.val ≠ 15 ∧ i.val ≠ 14 := ⟨fun h => h15 (Fin.ext h), fun h => h14 (Fin.ext h)⟩
    have hlt : 8 * i.val + k < 112 := by have := i.isLt; omega
    rw [byteAt_append_left (by omega), byteAt_append_left (by omega)]

/-- The digest that belongs to a hash. -/
def digestOf (hash : Hash) : List UInt8 := (List.finRange 8).flatMap fun i => store64Be (hash i)

/-- The context after `crypto_wipe`. -/
def wiped : CryptoSha512Ctx where
  hash := 0
  input := 0
  inputSize := (0, 0)
  inputIdx := 0

/-- A context that holds no byte holds no word. -/
theorem Holds.clear (h : Holds ctx hash buf k) :
    (if ctx.inputIdx = 0 then { ctx with input := 0 } else ctx) = ctx := by
  split
  case isTrue hidx =>
    have hnil : buf = [] := List.eq_nil_of_length_eq_zero (h.inputIdx.symm.trans hidx)
    have hinput := h.input
    rw [hnil, wordsOf_nil] at hinput
    rw [← hinput]
  case isFalse => rfl

/-- The padding, with the length of the message in bits. -/
theorem padding_eq {n z : ℕ} (hz : (239 - n % 128) % 128 = z) :
    padding n = 0x80 :: List.replicate z 0 ++ store64Be (bitCount (8 * n)).1 ++
      store64Be (bitCount (8 * n)).2 := by
  rw [← hz]
  rfl

/-- **The end of a message**: the padding of the standard, in one block or two. -/
theorem cryptoSha512Final_holds (h : Holds ctx hash buf k) (hlt : buf.length < 128) :
    ∃ hash', cryptoSha512Final ctx = some (digestOf hash', wiped) ∧
      absorb 128 nextHash (hash, buf) (padding (128 * k + buf.length)) = (hash', []) := by
  obtain ⟨ctx₁, hrun, hidx, hhash, hsize, hinput⟩ := h.setInput hlt 128
  have hcount : sha512Incr ctx₁.inputSize (UInt64.ofNat (buf.length * 8)) =
      bitCount (8 * (128 * k + buf.length)) := by
    rw [hsize, sha512Incr_bitCount (by omega)]
    congr 1
    omega
  have hmod : (128 * k + buf.length) % 128 = buf.length := by omega
  have hpadding := @padding_eq (128 * k + buf.length) _ rfl
  rw [hmod] at hpadding
  generalize bitCount (8 * (128 * k + buf.length)) = count at hcount hpadding
  have hsizes : (store64Be count.1).length = 8 ∧ (store64Be count.2).length = 8 := ⟨rfl, rfl⟩
  rw [cryptoSha512Final, h.clear]
  simp only [Option.bind_eq_bind, hrun, Option.bind_some, hidx, hcount]
  by_cases hblocks : 111 < buf.length
  · -- the length has no room in the block that the message ends in
    have hz : (239 - buf.length) % 128 = 127 - buf.length + 112 := by omega
    rw [hz] at hpadding
    obtain ⟨first, hfirst⟩ : ∃ first, first = 0x80 :: List.replicate (127 - buf.length) (0 : UInt8) :=
      ⟨_, rfl⟩
    have hsplit : padding (128 * k + buf.length) =
        first ++ (List.replicate 112 0 ++ store64Be count.1 ++ store64Be count.2) := by
      rw [hpadding, List.replicate_add, hfirst]
      simp only [List.append_assoc, List.cons_append]
    have hlength : first.length = 128 - buf.length := by
      rw [hfirst, List.length_cons, List.length_replicate]
      omega
    have hwords : ctx₁.input = wordsOf (buf ++ first) := by
      rw [hinput, ← wordsOf_append_zeros (n := 127 - buf.length), List.append_assoc, hfirst]
      rfl
    have hzeros : wordsOf (List.replicate 112 0) = 0 := by
      rw [← List.nil_append (List.replicate 112 0), wordsOf_append_zeros, wordsOf_nil]
    have hlast (input : Words) : Function.update (Function.update (fun i => if i < 14 then 0 else
        input i) 14 count.1) 15 count.2 =
        wordsOf (List.replicate 112 0 ++ store64Be count.1 ++ store64Be count.2) := by
      rw [← wordsOf_size List.length_replicate, hzeros]
      funext i
      by_cases h15 : i = 15
      · rw [h15, Function.update_self, Function.update_self]
      rw [Function.update_of_ne h15, Function.update_of_ne h15]
      by_cases h14 : i = 14
      · rw [h14, Function.update_self, Function.update_self]
      · rw [Function.update_of_ne h14, Function.update_of_ne h14, if_pos (by omega)]
        rfl
    refine ⟨nextHash (nextHash hash (buf ++ first))
      (List.replicate 112 0 ++ store64Be count.1 ++ store64Be count.2), ?_, ?_⟩
    · rw [if_pos hblocks]
      dsimp only
      rw [(sha512Compress_hash _).1, (sha512Compress_hash _).1, (sha512Compress_hash _).2.1, hlast,
        hwords, hhash]
      rfl
    · have hne : first ≠ [] := by rw [hfirst]; exact List.cons_ne_nil _ _
      rw [hsplit, absorb_append, absorb_of_eq hne (by omega),
        absorb_of_eq (by simp) (by simp [hsizes])]
      rfl
  · have hz : (239 - buf.length) % 128 = 111 - buf.length := by omega
    rw [hz] at hpadding
    have hlength : (buf ++ 0x80 :: List.replicate (111 - buf.length) 0).length = 112 := by
      rw [List.length_append, List.length_cons, List.length_replicate]
      omega
    have hwords : ctx₁.input = wordsOf (buf ++ 0x80 :: List.replicate (111 - buf.length) 0) := by
      rw [hinput, ← wordsOf_append_zeros (n := 111 - buf.length), List.append_assoc]
      rfl
    have hblock : buf ++ 0x80 :: List.replicate (111 - buf.length) 0 ++ store64Be count.1 ++
        store64Be count.2 = buf ++ padding (128 * k + buf.length) := by
      rw [hpadding]
      simp only [List.append_assoc]
    refine ⟨nextHash hash (buf ++ padding (128 * k + buf.length)), ?_, ?_⟩
    · rw [if_neg hblocks]
      dsimp only
      rw [(sha512Compress_hash _).1, hwords, wordsOf_size hlength, hblock, hhash]
      rfl
    · refine absorb_of_eq (by rw [hpadding]; simp) ?_
      rw [hpadding]
      simp only [List.length_append, List.length_cons, List.length_replicate, hsizes]
      omega

/-- The context after the bytes of a message. -/
def Absorbed (ctx : CryptoSha512Ctx) (message : List UInt8) : Prop :=
  ∃ hash buf k, Holds ctx hash buf k ∧
    absorb 128 nextHash (cryptoSha512Init.hash, []) message = (hash, buf) ∧
    128 * k + buf.length = message.length

theorem absorbed_init : Absorbed cryptoSha512Init [] :=
  ⟨_, _, 0, ⟨rfl, wordsOf_nil.symm, rfl, rfl⟩, rfl, rfl⟩

namespace Absorbed

theorem lt (h : absorb 128 nextHash (cryptoSha512Init.hash, []) message = (hash, buf)) :
    buf.length < 128 := by
  have hlength := @absorb_length _ _ 128 nextHash (cryptoSha512Init.hash, []) message (by decide)
  rwa [h] at hlength

/-- Another piece. -/
theorem update (h : Absorbed ctx message) (piece : List UInt8) :
    ∃ ctx', cryptoSha512Update ctx piece = some ctx' ∧ Absorbed ctx' (message ++ piece) := by
  obtain ⟨hash, buf, k, hholds, habsorb, hcount⟩ := h
  obtain ⟨ctx', hash', buf', k', hrun, hholds', habsorb', hcount'⟩ :=
    cryptoSha512Update_holds hholds (lt habsorb) piece
  refine ⟨ctx', hrun, hash', buf', k', hholds', ?_, ?_⟩
  · rw [absorb_append, habsorb, habsorb']
  · rw [hcount', hcount, List.length_append]

/-- The digest is the one of the standard. -/
theorem final (h : Absorbed ctx message) : cryptoSha512Final ctx = some (sha512 message, wiped) := by
  obtain ⟨hash, buf, k, hholds, habsorb, hcount⟩ := h
  obtain ⟨hash', hrun, habsorb'⟩ := cryptoSha512Final_holds hholds (lt habsorb)
  rw [hcount] at habsorb'
  obtain ⟨n, hn⟩ : 128 ∣ (message ++ padding message.length).length := by
    rw [padding_eq rfl]
    simp only [List.length_append, List.length_cons, List.length_replicate]
    show 128 ∣ message.length + ((239 - message.length % 128) % 128 + 1 + 8 + 8)
    omega
  have hall : absorb 128 nextHash (cryptoSha512Init.hash, []) (message ++ padding message.length) =
      (hash', []) := by
    rw [absorb_append, habsorb, habsorb']
  rw [absorb_blocks (by decide) hn] at hall
  have hblocks : (message ++ padding message.length).length / 128 = n := by
    rw [hn, Nat.mul_div_cancel_left n (by decide)]
  have hhash : compressAll 128 nextHash cryptoSha512Init.hash (message ++ padding message.length) n =
      hash' := (Prod.ext_iff.mp hall).1
  rw [hrun, sha512, hblocks, ← hhash]
  rfl

/-- The pieces of a message. -/
theorem updates (h : Absorbed ctx message) (pieces : List (List UInt8)) :
    ∃ ctx', pieces.foldlM cryptoSha512Update ctx = some ctx' ∧
      Absorbed ctx' (message ++ pieces.flatten) := by
  induction pieces generalizing ctx message with
  | nil =>
    refine ⟨ctx, rfl, ?_⟩
    rwa [List.flatten_nil, List.append_nil]
  | cons piece pieces ih =>
    obtain ⟨ctx₁, hrun₁, h₁⟩ := h.update piece
    obtain ⟨ctx₂, hrun₂, h₂⟩ := ih h₁
    refine ⟨ctx₂, ?_, ?_⟩
    · rw [List.foldlM_cons, hrun₁]
      exact hrun₂
    · rwa [List.append_assoc, ← List.flatten_cons] at h₂

end Absorbed

/-- **A message in pieces**: the digest is the one of the standard for the whole message, whatever
the pieces, and no access is out of bounds. -/
theorem crypto_sha512_streams (pieces : List (List UInt8)) :
    ∃ ctx, pieces.foldlM cryptoSha512Update cryptoSha512Init = some ctx ∧
      cryptoSha512Final ctx = some (sha512 pieces.flatten, wiped) ∧
      cryptoSha512 pieces.flatten = some (sha512 pieces.flatten) := by
  obtain ⟨ctx, hrun, habsorbed⟩ := absorbed_init.updates pieces
  obtain ⟨ctx', hrun', habsorbed'⟩ := absorbed_init.update pieces.flatten
  refine ⟨ctx, hrun, habsorbed.final, ?_⟩
  rw [cryptoSha512, hrun']
  simp only [Option.bind_eq_bind, Option.bind_some, habsorbed'.final]
  rfl

/-! ### The payload of an update -/

theorem digestOf_length (hash : Hash) : (digestOf hash).length = 64 := by
  rw [digestOf, List.length_flatMap]
  rfl

/-- The hash of the bootloader, with any check of signatures. -/
def monocypherCrypto (ed25519Check : List UInt8 → List UInt8 → List UInt8 → Bool) : Crypto where
  sha512 := sha512
  ed25519Check
  sha512_length _ := digestOf_length _

/-- **The installer may keep the bytes in place of the context**: whatever the pieces were, the check
of the streamed payload compares what `crypto_sha512_final` returns. -/
theorem verifyStreamingPayloadHash_iff {ed25519Check : List UInt8 → List UInt8 → List UInt8 → Bool}
    {s : Installer} {pieces : List (List UInt8)}
    (h : pieces.flatten = s.session.payloadHashCtx) :
    Crash.Returns (verifyStreamingPayloadHash (monocypherCrypto ed25519Check)) s ↔
      ∃ ctx, pieces.foldlM cryptoSha512Update cryptoSha512Init = some ctx ∧
        cryptoSha512Final ctx = some (s.session.header.manifest.payloadSha512, wiped) := by
  obtain ⟨ctx, hrun, habsorbed⟩ := absorbed_init.updates pieces
  rw [List.nil_append, h] at habsorbed
  have hcheck : Crash.Returns (verifyStreamingPayloadHash (monocypherCrypto ed25519Check)) s ↔
      sha512 s.session.payloadHashCtx = s.session.header.manifest.payloadSha512 := by
    rw [Crash.Returns, verifyStreamingPayloadHash]
    simp only [Crash.wp_bind, wp_getSession, wp_modifySession, Crash.wp_check]
    exact ⟨fun hwp => not_not.mp fun hn => hwp.2 hn, fun hc => ⟨fun _ => trivial, fun hn => hn hc⟩⟩
  rw [hcheck]
  constructor
  · intro hhash
    exact ⟨ctx, hrun, by rw [habsorbed.final, hhash]⟩
  · rintro ⟨ctx', hrun', hfinal⟩
    cases hrun.symm.trans hrun'
    rw [habsorbed.final] at hfinal
    exact congrArg Prod.fst (Option.some.inj hfinal)

end Stm32SecurityLab.Monocypher
