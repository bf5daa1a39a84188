/-
Module: Unshield.Core.Md5
Purpose: The message digest that the files of newer cabinets are checked with: the context, its update
  with a buffer, the finalisation, and the transformation of the state by a block.
Trusted boundary: human-reviewed model of lib/md5/md5c.c and lib/md5/md5.h
Main exports: Words, Mix, MacroCall, transformCalls, md5Transform, encode, decode, Md5Context,
  md5Init, md5Update, md5Final
-/
import Unshield.Core.CabFile
import Unshield.Foundation.Block

namespace Unshield

open Procedure

/-! ### Words and bytes -/

/-- The local variables `a`, `b`, `c` and `d` of `MD5Transform`, or `state` (ABCD). -/
structure Words where
  a : UInt32
  b : UInt32
  c : UInt32
  d : UInt32
deriving Repr, DecidableEq

/-- `Encode` -/
def encode : List UInt32 → Bytes
  | [] => []
  | word :: words =>
      (word &&& 0xff).toUInt8 :: (word >>> 8 &&& 0xff).toUInt8 :: (word >>> 16 &&& 0xff).toUInt8 ::
        (word >>> 24 &&& 0xff).toUInt8 :: encode words

/-- `Decode` -/
def decode : Bytes → List UInt32
  | byte0 :: byte1 :: byte2 :: byte3 :: rest =>
      (byte0.toUInt32 ||| byte1.toUInt32 <<< 8 ||| byte2.toUInt32 <<< 16 ||| byte3.toUInt32 <<< 24) ::
        decode rest
  | _ => []

/-! ### The macros

A call of `FF`, `GG`, `HH` or `II` is kept as what stands between its parentheses.
-/

/-- A local variable of `MD5Transform`. -/
inductive Register where
  | a
  | b
  | c
  | d
deriving Repr, DecidableEq

def Words.get (words : Words) : Register → UInt32
  | .a => words.a
  | .b => words.b
  | .c => words.c
  | .d => words.d

def Words.set (words : Words) (value : UInt32) : Register → Words
  | .a => { words with a := value }
  | .b => { words with b := value }
  | .c => { words with c := value }
  | .d => { words with d := value }

/-- The basic functions. -/
inductive Mix where
  | f
  | g
  | h
  | i
deriving Repr, DecidableEq

/-- `F`, `G`, `H` and `I` -/
def Mix.apply (x y z : UInt32) : Mix → UInt32
  | .f => (x &&& y) ||| (~~~x &&& z)
  | .g => (x &&& z) ||| (y &&& ~~~z)
  | .h => x ^^^ y ^^^ z
  | .i => y ^^^ (x ||| ~~~z)

/-- `ROTATE_LEFT` -/
def rotateLeft (x n : UInt32) : UInt32 := (x <<< n &&& 0xffffffff) ||| x >>> (32 - n)

/-- `FF (a, b, c, d, x[k], s, ac)`, or the same with another basic function. -/
structure MacroCall where
  mix : Mix
  a : Register
  b : Register
  c : Register
  d : Register
  k : Nat
  s : UInt32
  ac : UInt32
deriving Repr, DecidableEq

/-- The three assignments of a macro. -/
def MacroCall.run (x : List UInt32) (words : Words) (call : MacroCall) : Words :=
  let sum := words.get call.a + (call.mix.apply (words.get call.b) (words.get call.c)
    (words.get call.d) + x.getD call.k 0 + call.ac)
  words.set (rotateLeft sum call.s + words.get call.b) call.a

/-! ### MD5Transform -/

/-- Round 1 -/
def round1 : List MacroCall :=
  [⟨.f, .a, .b, .c, .d, 0, 7, 0xd76aa478⟩, ⟨.f, .d, .a, .b, .c, 1, 12, 0xe8c7b756⟩,
    ⟨.f, .c, .d, .a, .b, 2, 17, 0x242070db⟩, ⟨.f, .b, .c, .d, .a, 3, 22, 0xc1bdceee⟩,
    ⟨.f, .a, .b, .c, .d, 4, 7, 0xf57c0faf⟩, ⟨.f, .d, .a, .b, .c, 5, 12, 0x4787c62a⟩,
    ⟨.f, .c, .d, .a, .b, 6, 17, 0xa8304613⟩, ⟨.f, .b, .c, .d, .a, 7, 22, 0xfd469501⟩,
    ⟨.f, .a, .b, .c, .d, 8, 7, 0x698098d8⟩, ⟨.f, .d, .a, .b, .c, 9, 12, 0x8b44f7af⟩,
    ⟨.f, .c, .d, .a, .b, 10, 17, 0xffff5bb1⟩, ⟨.f, .b, .c, .d, .a, 11, 22, 0x895cd7be⟩,
    ⟨.f, .a, .b, .c, .d, 12, 7, 0x6b901122⟩, ⟨.f, .d, .a, .b, .c, 13, 12, 0xfd987193⟩,
    ⟨.f, .c, .d, .a, .b, 14, 17, 0xa679438e⟩, ⟨.f, .b, .c, .d, .a, 15, 22, 0x49b40821⟩]

/-- Round 2 -/
def round2 : List MacroCall :=
  [⟨.g, .a, .b, .c, .d, 1, 5, 0xf61e2562⟩, ⟨.g, .d, .a, .b, .c, 6, 9, 0xc040b340⟩,
    ⟨.g, .c, .d, .a, .b, 11, 14, 0x265e5a51⟩, ⟨.g, .b, .c, .d, .a, 0, 20, 0xe9b6c7aa⟩,
    ⟨.g, .a, .b, .c, .d, 5, 5, 0xd62f105d⟩, ⟨.g, .d, .a, .b, .c, 10, 9, 0x2441453⟩,
    ⟨.g, .c, .d, .a, .b, 15, 14, 0xd8a1e681⟩, ⟨.g, .b, .c, .d, .a, 4, 20, 0xe7d3fbc8⟩,
    ⟨.g, .a, .b, .c, .d, 9, 5, 0x21e1cde6⟩, ⟨.g, .d, .a, .b, .c, 14, 9, 0xc33707d6⟩,
    ⟨.g, .c, .d, .a, .b, 3, 14, 0xf4d50d87⟩, ⟨.g, .b, .c, .d, .a, 8, 20, 0x455a14ed⟩,
    ⟨.g, .a, .b, .c, .d, 13, 5, 0xa9e3e905⟩, ⟨.g, .d, .a, .b, .c, 2, 9, 0xfcefa3f8⟩,
    ⟨.g, .c, .d, .a, .b, 7, 14, 0x676f02d9⟩, ⟨.g, .b, .c, .d, .a, 12, 20, 0x8d2a4c8a⟩]

/-- Round 3 -/
def round3 : List MacroCall :=
  [⟨.h, .a, .b, .c, .d, 5, 4, 0xfffa3942⟩, ⟨.h, .d, .a, .b, .c, 8, 11, 0x8771f681⟩,
    ⟨.h, .c, .d, .a, .b, 11, 16, 0x6d9d6122⟩, ⟨.h, .b, .c, .d, .a, 14, 23, 0xfde5380c⟩,
    ⟨.h, .a, .b, .c, .d, 1, 4, 0xa4beea44⟩, ⟨.h, .d, .a, .b, .c, 4, 11, 0x4bdecfa9⟩,
    ⟨.h, .c, .d, .a, .b, 7, 16, 0xf6bb4b60⟩, ⟨.h, .b, .c, .d, .a, 10, 23, 0xbebfbc70⟩,
    ⟨.h, .a, .b, .c, .d, 13, 4, 0x289b7ec6⟩, ⟨.h, .d, .a, .b, .c, 0, 11, 0xeaa127fa⟩,
    ⟨.h, .c, .d, .a, .b, 3, 16, 0xd4ef3085⟩, ⟨.h, .b, .c, .d, .a, 6, 23, 0x4881d05⟩,
    ⟨.h, .a, .b, .c, .d, 9, 4, 0xd9d4d039⟩, ⟨.h, .d, .a, .b, .c, 12, 11, 0xe6db99e5⟩,
    ⟨.h, .c, .d, .a, .b, 15, 16, 0x1fa27cf8⟩, ⟨.h, .b, .c, .d, .a, 2, 23, 0xc4ac5665⟩]

/-- Round 4 -/
def round4 : List MacroCall :=
  [⟨.i, .a, .b, .c, .d, 0, 6, 0xf4292244⟩, ⟨.i, .d, .a, .b, .c, 7, 10, 0x432aff97⟩,
    ⟨.i, .c, .d, .a, .b, 14, 15, 0xab9423a7⟩, ⟨.i, .b, .c, .d, .a, 5, 21, 0xfc93a039⟩,
    ⟨.i, .a, .b, .c, .d, 12, 6, 0x655b59c3⟩, ⟨.i, .d, .a, .b, .c, 3, 10, 0x8f0ccc92⟩,
    ⟨.i, .c, .d, .a, .b, 10, 15, 0xffeff47d⟩, ⟨.i, .b, .c, .d, .a, 1, 21, 0x85845dd1⟩,
    ⟨.i, .a, .b, .c, .d, 8, 6, 0x6fa87e4f⟩, ⟨.i, .d, .a, .b, .c, 15, 10, 0xfe2ce6e0⟩,
    ⟨.i, .c, .d, .a, .b, 6, 15, 0xa3014314⟩, ⟨.i, .b, .c, .d, .a, 13, 21, 0x4e0811a1⟩,
    ⟨.i, .a, .b, .c, .d, 4, 6, 0xf7537e82⟩, ⟨.i, .d, .a, .b, .c, 11, 10, 0xbd3af235⟩,
    ⟨.i, .c, .d, .a, .b, 2, 15, 0x2ad7d2bb⟩, ⟨.i, .b, .c, .d, .a, 9, 21, 0xeb86d391⟩]

/-- The calls of `MD5Transform` in their order. -/
def transformCalls : List MacroCall := round1 ++ round2 ++ round3 ++ round4

/-- `MD5Transform` -/
def md5Transform (state : Words) (block : Bytes) : Words :=
  let words := transformCalls.foldl (MacroCall.run (decode block)) state
  { a := state.a + words.a, b := state.b + words.b, c := state.c + words.c, d := state.d + words.d }

/-! ### The context -/

def md5BlockSize : Nat := 64

/-- `MD5_CTX`; `count` is the number of bits, modulo 2^64, with the low word first. -/
structure Md5Context where
  state : Words
  count0 : UInt32
  count1 : UInt32
  buffer : Block

/-- `MD5Init`; the buffer stays as it happens to be. -/
def md5Init (context : Md5Context) : Md5Context :=
  { context with
    state := { a := 0x67452301, b := 0xefcdab89, c := 0x98badcfe, d := 0x10325476 }
    count0 := 0
    count1 := 0 }

/-- The number of bytes in the buffer. -/
def Md5Context.index (context : Md5Context) : UInt32 := context.count0 >>> 3 &&& 0x3f

/-- The new number of bits. -/
def Md5Context.addLength (context : Md5Context) (inputLen : UInt32) : Md5Context :=
  let count0 := context.count0 + inputLen <<< 3
  let count1 := if count0 < inputLen <<< 3 then context.count1 + 1 else context.count1
  { context with count0, count1 := count1 + inputLen >>> 29 }

/-- `for (i = partLen; i + 63 < inputLen; i += 64)`, with `i` and the state at its end. -/
def transformBlocks (input : Bytes) (inputLen : UInt32) : Nat → UInt32 → Words → Exit (UInt32 × Words)
  | 0, _, _ => .timeout
  | fuel + 1, i, state =>
      if i + 63 < inputLen then do
        let block ← Exit.ofAccess (copyBytes input i.toNat md5BlockSize)
        transformBlocks input inputLen fuel (i + 64) (md5Transform state block)
      else
        pure (i, state)

/-- `Transform as many times as possible.`  What is given back is the context, `index` and `i`. -/
def transformInput (context : Md5Context) (index : UInt32) (input : Bytes) (inputLen : UInt32) :
    Exit (Md5Context × UInt32 × UInt32) :=
  let partLen := 64 - index
  if inputLen ≥ partLen then do
    let part ← Exit.ofAccess (copyBytes input 0 partLen.toNat)
    let buffer ← Exit.ofAccess (context.buffer.store index.toNat part)
    let block ← Exit.ofAccess (buffer.load 0 md5BlockSize)
    let (i, state) ← transformBlocks input inputLen (inputLen.toNat / md5BlockSize + 1) partLen
      (md5Transform context.state block)
    pure ({ context with state, buffer }, 0, i)
  else
    pure (context, index, 0)

/-- `MD5Update`.  `input` is all the memory there is at the pointer. -/
def md5Update (context : Md5Context) (input : Bytes) (inputLen : UInt32) : Exit Md5Context := do
  let (context, index, i) ← transformInput (context.addLength inputLen) context.index input inputLen
  let remaining ← Exit.ofAccess (copyBytes input i.toNat (inputLen - i).toNat)
  let buffer ← Exit.ofAccess (context.buffer.store index.toNat remaining)
  pure { context with buffer }

/-- `PADDING` -/
def md5Padding : Bytes := 0x80 :: List.replicate 63 0

/-- The context after `MD5_memset`. -/
def zeroContext : Md5Context where
  state := { a := 0, b := 0, c := 0, d := 0 }
  count0 := 0
  count1 := 0
  buffer := { size := md5BlockSize, byte := fun _ => 0 }

/-- `MD5Final`: the digest and what is left of the context. -/
def md5Final (context : Md5Context) : Exit (Bytes × Md5Context) := do
  let bits := encode [context.count0, context.count1]
  let index := context.index
  let padLen := if index < 56 then 56 - index else 120 - index
  let context ← md5Update context md5Padding padLen
  let context ← md5Update context bits 8
  pure (encode [context.state.a, context.state.b, context.state.c, context.state.d], zeroContext)

end Unshield
