import Stm32SecurityLab.Bytes
import Stm32SecurityLab.Hash.Blocks
import Mathlib.Data.Fin.VecNotation
import Mathlib.Data.List.FinRange
import Mathlib.Data.UInt

/-!
# SHA-512

`monocypher-ed25519.c`, as the bootloader uses it: a message arrives in pieces of any length, and
its bytes are packed into the sixteen words of a block as they come.

Array accesses are checked here, which the code does not do: an index outside `ctx->input` or
outside the message ends in `none`.

## Main definitions

* `CryptoSha512Ctx`, `cryptoSha512Init`, `cryptoSha512Update`, `cryptoSha512Final`
* `sha512` — the digest of a whole message, by the definition of the standard: the message is padded
  to blocks, and a block is expanded to eighty words before its eighty rounds
-/

namespace Stm32SecurityLab.Monocypher

/-- `u64[16]`. -/
abbrev Words := Fin 16 → UInt64

/-- `u64[8]`. -/
abbrev Hash := Fin 8 → UInt64

/-! ### Words and bytes -/

/-- `align`: how many bytes are missing to a multiple of `pow2`, a power of two. -/
def align (x pow2 : ℕ) : ℕ := ((~~~UInt32.ofNat x + 1) &&& (UInt32.ofNat pow2 - 1)).toNat

/-- `load64_be`. -/
def load64Be (s : Mem) : UInt64 :=
  (s 0).toUInt64 <<< 56 ||| (s 1).toUInt64 <<< 48 ||| (s 2).toUInt64 <<< 40 |||
    (s 3).toUInt64 <<< 32 ||| (s 4).toUInt64 <<< 24 ||| (s 5).toUInt64 <<< 16 |||
    (s 6).toUInt64 <<< 8 ||| (s 7).toUInt64

/-- `store64_be`. -/
def store64Be (word : UInt64) : List UInt8 :=
  [(word >>> 56).toUInt8, (word >>> 48).toUInt8, (word >>> 40).toUInt8, (word >>> 32).toUInt8,
    (word >>> 24).toUInt8, (word >>> 16).toUInt8, (word >>> 8).toUInt8, word.toUInt8]

/-- `load64_be_buf` to `input + dst`. -/
def load64BeBuf (input : Words) (dst : ℕ) (src : List UInt8) : ℕ → Option Words
  | 0 => some input
  | i + 1 => do
    let input ← load64BeBuf input dst src i
    if h : dst + i < 16 ∧ i * 8 + 8 ≤ src.length then
      some (Function.update input ⟨dst + i, h.1⟩ (load64Be fun k => byteAt src (i * 8 + k)))
    else
      none

/-! ### Rounds -/

/-- `rot`. -/
def rot (x : UInt64) (c : UInt64) : UInt64 := x >>> c ||| x <<< (64 - c)

/-- `ch`. -/
def ch (x y z : UInt64) : UInt64 := (x &&& y) ^^^ (~~~x &&& z)

/-- `maj`. -/
def maj (x y z : UInt64) : UInt64 := (x &&& y) ^^^ (x &&& z) ^^^ (y &&& z)

/-- `big_sigma0`. -/
def bigSigma0 (x : UInt64) : UInt64 := rot x 28 ^^^ rot x 34 ^^^ rot x 39

/-- `big_sigma1`. -/
def bigSigma1 (x : UInt64) : UInt64 := rot x 14 ^^^ rot x 18 ^^^ rot x 41

/-- `lit_sigma0`. -/
def litSigma0 (x : UInt64) : UInt64 := rot x 1 ^^^ rot x 8 ^^^ x >>> 7

/-- `lit_sigma1`. -/
def litSigma1 (x : UInt64) : UInt64 := rot x 19 ^^^ rot x 61 ^^^ x >>> 6

/-- `K`. -/
def roundConstants : List UInt64 :=
  [0x428a2f98d728ae22, 0x7137449123ef65cd, 0xb5c0fbcfec4d3b2f, 0xe9b5dba58189dbbc,
    0x3956c25bf348b538, 0x59f111f1b605d019, 0x923f82a4af194f9b, 0xab1c5ed5da6d8118,
    0xd807aa98a3030242, 0x12835b0145706fbe, 0x243185be4ee4b28c, 0x550c7dc3d5ffb4e2,
    0x72be5d74f27b896f, 0x80deb1fe3b1696b1, 0x9bdc06a725c71235, 0xc19bf174cf692694,
    0xe49b69c19ef14ad2, 0xefbe4786384f25e3, 0x0fc19dc68b8cd5b5, 0x240ca1cc77ac9c65,
    0x2de92c6f592b0275, 0x4a7484aa6ea6e483, 0x5cb0a9dcbd41fbd4, 0x76f988da831153b5,
    0x983e5152ee66dfab, 0xa831c66d2db43210, 0xb00327c898fb213f, 0xbf597fc7beef0ee4,
    0xc6e00bf33da88fc2, 0xd5a79147930aa725, 0x06ca6351e003826f, 0x142929670a0e6e70,
    0x27b70a8546d22ffc, 0x2e1b21385c26c926, 0x4d2c6dfc5ac42aed, 0x53380d139d95b3df,
    0x650a73548baf63de, 0x766a0abb3c77b2a8, 0x81c2c92e47edaee6, 0x92722c851482353b,
    0xa2bfe8a14cf10364, 0xa81a664bbc423001, 0xc24b8b70d0f89791, 0xc76c51a30654be30,
    0xd192e819d6ef5218, 0xd69906245565a910, 0xf40e35855771202a, 0x106aa07032bbd1b8,
    0x19a4c116b8d2d0c8, 0x1e376c085141ab53, 0x2748774cdf8eeb99, 0x34b0bcb5e19b48a8,
    0x391c0cb3c5c95a63, 0x4ed8aa4ae3418acb, 0x5b9cca4f7763e373, 0x682e6ff3d6b2b8a3,
    0x748f82ee5defb2fc, 0x78a5636f43172f60, 0x84c87814a1f0ab72, 0x8cc702081a6439ec,
    0x90befffa23631e28, 0xa4506cebde82bde9, 0xbef9a3f7b2c67915, 0xc67178f2e372532b,
    0xca273eceea26619c, 0xd186b8c721c0c207, 0xeada7dd6cde0eb1e, 0xf57d4f7fee6ed178,
    0x06f067aa72176fba, 0x0a637dc5a2c898a6, 0x113f9804bef90dae, 0x1b710b35131c471b,
    0x28db77f523047d84, 0x32caab7b40c72493, 0x3c9ebe0a15c9bebc, 0x431d67c49c100d4c,
    0x4cc5d4becb3e42b6, 0x597f299cfc657e2a, 0x5fcb6fab3ad6faec, 0x6c44198c4a475817]

/-- `K[i]`. -/
def roundConstant (i : ℕ) : UInt64 := roundConstants.getD i 0

/-- The local variables of `sha512_compress`. -/
structure Working where
  (a b c d e f g h : UInt64)

def Working.ofHash (hash : Hash) : Working :=
  ⟨hash 0, hash 1, hash 2, hash 3, hash 4, hash 5, hash 6, hash 7⟩

def Working.toHash (v : Working) : Hash := ![v.a, v.b, v.c, v.d, v.e, v.f, v.g, v.h]

/-- One round, with the constant and the word already added. -/
def Working.round (v : Working) (input : UInt64) : Working :=
  let t₁ := bigSigma1 v.e + ch v.e v.f v.g + v.h + input
  let t₂ := bigSigma0 v.a + maj v.a v.b v.c
  { h := v.g, g := v.f, f := v.e, e := v.d + t₁, d := v.c, c := v.b, b := v.a, a := t₁ + t₂ }

/-- A round from the second sixteen on: the word at `j` is replaced first. -/
def scheduleRound (i16 : ℕ) (s : Words × Working) (j : Fin 16) : Words × Working :=
  let input := Function.update s.1 j (s.1 j + litSigma1 (s.1 (j - 2)))
  let input := Function.update input j (input j + litSigma0 (input (j - 15)))
  let input := Function.update input j (input j + input (j - 7))
  (input, s.2.round (roundConstant (i16 + j) + input j))

/-! ### The context -/

/-- `crypto_sha512_ctx`. -/
structure CryptoSha512Ctx where
  hash : Hash
  input : Words
  /-- In bits, the more significant word first. -/
  inputSize : UInt64 × UInt64
  inputIdx : ℕ

/-- `sha512_compress`. -/
def sha512Compress (ctx : CryptoSha512Ctx) : CryptoSha512Ctx :=
  let v := (List.finRange 16).foldl (fun v j => v.round (roundConstant j + ctx.input j))
    (Working.ofHash ctx.hash)
  let (_, input, v) := (List.range 4).foldl (fun (s : ℕ × Words × Working) _ =>
    let i16 := s.1 + 16
    (i16, (List.finRange 16).foldl (scheduleRound i16) s.2)) (0, ctx.input, v)
  { ctx with input, hash := ctx.hash + v.toHash }

/-- `sha512_set_input`. -/
def sha512SetInput (ctx : CryptoSha512Ctx) (input : UInt8) : Option CryptoSha512Ctx :=
  let word := ctx.inputIdx >>> 3
  let byte := ctx.inputIdx &&& 7
  if h : word < 16 then
    some { ctx with
      input := Function.update ctx.input ⟨word, h⟩
        (ctx.input ⟨word, h⟩ ||| input.toUInt64 <<< UInt64.ofNat (8 * (7 - byte))) }
  else
    none

/-- `sha512_incr`. -/
def sha512Incr (x : UInt64 × UInt64) (y : UInt64) : UInt64 × UInt64 :=
  let low := x.2 + y
  (if low < y then x.1 + 1 else x.1, low)

/-- `crypto_sha512_init`. -/
def cryptoSha512Init : CryptoSha512Ctx where
  hash := ![0x6a09e667f3bcc908, 0xbb67ae8584caa73b, 0x3c6ef372fe94f82b, 0xa54ff53a5f1d36f1,
    0x510e527fade682d1, 0x9b05688c2b3e6c1f, 0x1f83d9abfb41bd6b, 0x5be0cd19137e2179]
  input := 0
  inputSize := (0, 0)
  inputIdx := 0

/-- A block that is complete: the four statements that follow `sha512_incr` twice in
`crypto_sha512_update`. -/
def finishBlock (ctx : CryptoSha512Ctx) : CryptoSha512Ctx :=
  { sha512Compress { ctx with inputSize := sha512Incr ctx.inputSize 1024 } with
    inputIdx := 0
    input := 0 }

/-- The loops that add the first `n` bytes of the message one by one. -/
def setInputs (ctx : CryptoSha512Ctx) (message : List UInt8) : ℕ → Option CryptoSha512Ctx
  | 0 => some ctx
  | i + 1 => do
    let ctx ← setInputs ctx message i
    if h : i < message.length then do
      let ctx ← sha512SetInput ctx message[i]
      some { ctx with inputIdx := ctx.inputIdx + 1 }
    else
      none

/-- Words of the message, loaded from `word` on. -/
def loadWords (ctx : CryptoSha512Ctx) (word : ℕ) (message : List UInt8) (nbWords : ℕ) :
    Option CryptoSha512Ctx := do
  let input ← load64BeBuf ctx.input word message nbWords
  some { ctx with input, inputIdx := ctx.inputIdx + nbWords <<< 3 }

/-- "Process the message block by block": each block is loaded to the start of the words. -/
def processBlocks : ℕ → CryptoSha512Ctx → List UInt8 → Option (CryptoSha512Ctx × List UInt8)
  | 0, ctx, message => some (ctx, message)
  | n + 1, ctx, message => do
    let input ← load64BeBuf ctx.input 0 message 16
    processBlocks n (finishBlock { ctx with input }) (message.drop 128)

/-- What `crypto_sha512_update` works on: the context, the message from the pointer on, and
`message_size`. -/
structure Update where
  ctx : CryptoSha512Ctx
  message : List UInt8
  messageSize : ℕ

/-- "Align ourselves with word boundaries". -/
def alignWord (u : Update) : Option Update :=
  if u.ctx.inputIdx &&& 7 ≠ 0 then do
    let nbBytes := min (align u.ctx.inputIdx 8) u.messageSize
    let ctx ← setInputs u.ctx u.message nbBytes
    some ⟨ctx, u.message.drop nbBytes, u.messageSize - nbBytes⟩
  else
    some u

/-- "Align ourselves with block boundaries". -/
def alignBlock (u : Update) : Option Update :=
  if u.ctx.inputIdx &&& 127 ≠ 0 then do
    let nbWords := min (align u.ctx.inputIdx 128) u.messageSize >>> 3
    let ctx ← loadWords u.ctx (u.ctx.inputIdx >>> 3) u.message nbWords
    some ⟨ctx, u.message.drop (nbWords <<< 3), u.messageSize - nbWords <<< 3⟩
  else
    some u

/-- "Compress block if needed". -/
def compressIfNeeded (ctx : CryptoSha512Ctx) : CryptoSha512Ctx :=
  if ctx.inputIdx = 128 then finishBlock ctx else ctx

/-- "Remaining words" and "Remaining bytes". The words go to the start of the block. -/
def addRemaining (ctx : CryptoSha512Ctx) (message : List UInt8) (messageSize : ℕ) :
    Option CryptoSha512Ctx :=
  if messageSize ≠ 0 then do
    let nbWords := messageSize >>> 3
    let ctx ← loadWords ctx 0 message nbWords
    setInputs ctx (message.drop (nbWords <<< 3)) (messageSize - nbWords <<< 3)
  else
    some ctx

/-- `crypto_sha512_update`. -/
def cryptoSha512Update (ctx : CryptoSha512Ctx) (message : List UInt8) : Option CryptoSha512Ctx :=
  if message.length = 0 then
    some ctx
  else do
    let u ← alignWord ⟨ctx, message, message.length⟩
    let u ← alignBlock u
    let (ctx, message) ← processBlocks (u.messageSize >>> 7) (compressIfNeeded u.ctx) u.message
    addRemaining ctx message (u.messageSize &&& 127)

/-- `crypto_sha512_final`: the digest, and the context that is wiped. -/
def cryptoSha512Final (ctx : CryptoSha512Ctx) : Option (List UInt8 × CryptoSha512Ctx) := do
  let ctx := if ctx.inputIdx = 0 then { ctx with input := 0 } else ctx
  let ctx ← sha512SetInput ctx 128
  let ctx := { ctx with inputSize := sha512Incr ctx.inputSize (UInt64.ofNat (ctx.inputIdx * 8)) }
  let ctx :=
    if 111 < ctx.inputIdx then
      let ctx := sha512Compress ctx
      { ctx with input := fun i => if i < 14 then 0 else ctx.input i }
    else
      ctx
  let input := Function.update ctx.input 14 ctx.inputSize.1
  let ctx := sha512Compress { ctx with input := Function.update input 15 ctx.inputSize.2 }
  some ((List.finRange 8).flatMap fun i => store64Be (ctx.hash i),
    { hash := 0, input := 0, inputSize := (0, 0), inputIdx := 0 })

/-- `crypto_sha512`. -/
def cryptoSha512 (message : List UInt8) : Option (List UInt8) := do
  let ctx ← cryptoSha512Update cryptoSha512Init message
  let (hash, _) ← cryptoSha512Final ctx
  some hash

/-! ### The standard -/

/-- The words of a block, or of the start of one with zeros after it. -/
def wordsOf (block : List UInt8) : Words := fun i => load64Be fun k => byteAt block (8 * i + k)

/-- The word of round `t`. -/
def schedule (block : Words) (t : ℕ) : UInt64 :=
  if h : t < 16 then
    block ⟨t, h⟩
  else
    litSigma1 (schedule block (t - 2)) + schedule block (t - 7) +
      litSigma0 (schedule block (t - 15)) + schedule block (t - 16)

/-- Eighty rounds on one block. -/
def compressBlock (hash : Hash) (block : Words) : Hash :=
  hash + ((List.range 80).foldl (fun v t => v.round (roundConstant t + schedule block t))
    (Working.ofHash hash)).toHash

/-- A one bit, zeros, and the length in bits in sixteen bytes. -/
def padding (length : ℕ) : List UInt8 :=
  0x80 :: List.replicate ((239 - length % 128) % 128) 0 ++
    store64Be (UInt64.ofNat (8 * length / 2 ^ 64)) ++ store64Be (UInt64.ofNat (8 * length))

/-- The digest of a message. -/
def sha512 (message : List UInt8) : List UInt8 :=
  let padded := message ++ padding message.length
  let hash := Blocks.compressAll 128 (fun hash block => compressBlock hash (wordsOf block))
    cryptoSha512Init.hash padded (padded.length / 128)
  (List.finRange 8).flatMap fun i => store64Be (hash i)

end Stm32SecurityLab.Monocypher
