import Mathlib.Data.List.GetD
import Mathlib.Algebra.Group.Nat.Defs

/-! SHA-1 and base64 as their standards define them: one register for each letter, one word for
each round, messages and digests as bytes. -/
namespace Library

namespace Sha1

/-- The rotation to the left. -/
def rotate (word bits : UInt32) : UInt32 := word <<< bits ||| word >>> (32 - bits)

def choose (b c d : UInt32) : UInt32 := b &&& c ||| ~~~b &&& d
def parity (b c d : UInt32) : UInt32 := b ^^^ c ^^^ d
def majority (b c d : UInt32) : UInt32 := b &&& c ^^^ b &&& d ^^^ c &&& d

/-- The function of a round. -/
def logic (t : Nat) : UInt32 → UInt32 → UInt32 → UInt32 :=
  if t < 20 then choose else if t < 40 then parity else if t < 60 then majority else parity

def constant (t : Nat) : UInt32 :=
  if t < 20 then 0x5a827999
  else if t < 40 then 0x6ed9eba1
  else if t < 60 then 0x8f1bbcdc
  else 0xca62c1d6

/-- The word of a round: those of the block first. -/
def word (block : Nat → UInt32) (t : Nat) : UInt32 :=
  if t < 16 then block t
  else
    rotate (word block (t - 3) ^^^ word block (t - 8) ^^^ word block (t - 14) ^^^
      word block (t - 16)) 1

theorem word_of_lt (block : Nat → UInt32) {t : Nat} (h : t < 16) : word block t = block t := by
  rw [word, if_pos h]

theorem word_add (block : Nat → UInt32) (t : Nat) :
    word block (t + 16) =
      rotate (word block (t + 13) ^^^ word block (t + 8) ^^^ word block (t + 2) ^^^ word block t)
        1 := by
  rw [word, if_neg (by omega)]
  rfl

structure Registers where
  a : UInt32
  b : UInt32
  c : UInt32
  d : UInt32
  e : UInt32
  deriving DecidableEq

namespace Registers

def initial : Registers := ⟨0x67452301, 0xefcdab89, 0x98badcfe, 0x10325476, 0xc3d2e1f0⟩

def add (r s : Registers) : Registers := ⟨r.a + s.a, r.b + s.b, r.c + s.c, r.d + s.d, r.e + s.e⟩

def words (r : Registers) : List UInt32 := [r.a, r.b, r.c, r.d, r.e]

end Registers

def round (t : Nat) (word : UInt32) (r : Registers) : Registers :=
  ⟨rotate r.a 5 + logic t r.b r.c r.d + r.e + constant t + word, r.a, rotate r.b 30, r.c, r.d⟩

/-- The registers before round `t`. -/
def rounds (block : Nat → UInt32) (r : Registers) : Nat → Registers
  | 0 => r
  | t + 1 => round t (word block t) (rounds block r t)

def compress (r : Registers) (block : Nat → UInt32) : Registers := r.add (rounds block r 80)

/-- Four bytes as a word, the most significant first. -/
def bigEndian (a b c d : UInt8) : UInt32 :=
  a.toUInt32 <<< 24 ||| b.toUInt32 <<< 16 ||| c.toUInt32 <<< 8 ||| d.toUInt32

/-- A word as four bytes, the most significant first. -/
def wordBytes (word : UInt32) : List UInt8 :=
  [(word >>> 24).toUInt8, (word >>> 16).toUInt8, (word >>> 8).toUInt8, word.toUInt8]

/-- Behind a message: one bit, zeros up to the end of a block, and how many bits there are. -/
def padding (length : Nat) : List UInt8 :=
  0x80 :: List.replicate ((119 - length % 64) % 64) 0 ++
    (List.range 8).reverse.map fun i => UInt8.ofNat (8 * length / 256 ^ i)

def blockOf (bytes : List UInt8) (index : Nat) : Nat → UInt32 := fun t =>
  bigEndian (bytes.getD (64 * index + 4 * t) 0) (bytes.getD (64 * index + 4 * t + 1) 0)
    (bytes.getD (64 * index + 4 * t + 2) 0) (bytes.getD (64 * index + 4 * t + 3) 0)

def hash (message : List UInt8) : List UInt8 :=
  let bytes := message ++ padding message.length
  (((List.range (bytes.length / 64)).map (blockOf bytes)).foldl compress .initial).words.flatMap
    wordBytes

end Sha1

namespace Base64

/-- The digits, by their value. -/
def alphabet : List UInt8 :=
  "ABCDEFGHIJKLMNOPQRSTUVWXYZabcdefghijklmnopqrstuvwxyz0123456789+/".toList.map
    fun digit => digit.toUInt8

def digit (value : Nat) : UInt8 := alphabet.getD (value % 64) 0

def equals : UInt8 := 61

/-- Three bytes are four digits, and what is missing of them is filled up. -/
def encode : List UInt8 → List UInt8
  | [] => []
  | [a] => let bits := a.toNat * 16
    [digit (bits / 64), digit bits, equals, equals]
  | [a, b] => let bits := (a.toNat * 256 + b.toNat) * 4
    [digit (bits / 64 ^ 2), digit (bits / 64), digit bits, equals]
  | a :: b :: c :: rest => let bits := (a.toNat * 256 + b.toNat) * 256 + c.toNat
    digit (bits / 64 ^ 3) :: digit (bits / 64 ^ 2) :: digit (bits / 64) :: digit bits :: encode rest

end Base64

end Library
