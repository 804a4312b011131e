import MarketServer.Bytes
import MarketServer.Library.Digest

/-! The answer to the key of a client, as `WebSocketHandshake.h` computes it. Its five and its
sixteen words stay where they are, and the letters of the standard go round among them. -/
namespace MarketServer.UWS
open Library

namespace WebSocketHandshake

/-- `uint32_t a[5]` -/
abbrev Five := Vector UInt32 5

/-- `uint32_t b[16]` -/
abbrev Sixteen := Vector UInt32 16

def slot (i : Nat) : Fin 5 := Fin.ofNat 5 i
def ring (i : Nat) : Fin 16 := Fin.ofNat 16 i

def staticFor {σ : Type} (f : Nat → σ → σ) : Nat → σ → σ
  | 0, state => state
  | n + 1, state => f n (staticFor f n state)

def rol (value bits : UInt32) : UInt32 := value <<< bits ||| value >>> (32 - bits)

def blk (b : Sixteen) (i : Nat) : UInt32 :=
  rol (b[ring (i + 13)] ^^^ b[ring (i + 8)] ^^^ b[ring (i + 2)] ^^^ b[ring i]) 1

/-- `b[i] = blk(b, i)` -/
def blkAt (i : Nat) (b : Sixteen) : Sixteen := b.set (ring i) (blk b i)

/-- `a[i] += value` -/
def addAt (i : Nat) (value : UInt32) (a : Five) : Five := a.set (slot i) (a[slot i] + value)

/-- `a[i] = rol(a[i], 30)` -/
def rolAt (i : Nat) (a : Five) : Five := a.set (slot i) (rol a[slot i] 30)

/-! `Sha1Loop<1>::f` to `Sha1Loop<6>::f`. -/

def f1 (i : Nat) : Five × Sixteen → Five × Sixteen
  | (a, b) =>
    let mixed := (a[slot (3 + i)] &&& (a[slot (2 + i)] ^^^ a[slot (1 + i)])) ^^^ a[slot (1 + i)]
    (rolAt (3 + i) (addAt i (mixed + b[ring i] + 0x5a827999 + rol a[slot (4 + i)] 5) a), b)

def f2 (i : Nat) : Five × Sixteen → Five × Sixteen
  | (a, b) =>
    let b := blkAt i b
    let mixed := (a[slot (4 + i)] &&& (a[slot (3 + i)] ^^^ a[slot (2 + i)])) ^^^ a[slot (2 + i)]
    (rolAt (4 + i) (addAt (1 + i) (mixed + b[ring i] + 0x5a827999 + rol a[slot (5 + i)] 5) a), b)

def f3 (i : Nat) : Five × Sixteen → Five × Sixteen
  | (a, b) =>
    let b := blkAt (i + 4) b
    let mixed := a[slot (3 + i)] ^^^ a[slot (2 + i)] ^^^ a[slot (1 + i)]
    (rolAt (3 + i) (addAt i (mixed + b[ring (i + 4)] + 0x6ed9eba1 + rol a[slot (4 + i)] 5) a), b)

def f4 (i : Nat) : Five × Sixteen → Five × Sixteen
  | (a, b) =>
    let b := blkAt (i + 8) b
    let mixed := ((a[slot (3 + i)] ||| a[slot (2 + i)]) &&& a[slot (1 + i)]) |||
      (a[slot (3 + i)] &&& a[slot (2 + i)])
    (rolAt (3 + i) (addAt i (mixed + b[ring (i + 8)] + 0x8f1bbcdc + rol a[slot (4 + i)] 5) a), b)

def f5 (i : Nat) : Five × Sixteen → Five × Sixteen
  | (a, b) =>
    let b := blkAt (i + 12) b
    let mixed := a[slot (3 + i)] ^^^ a[slot (2 + i)] ^^^ a[slot (1 + i)]
    (rolAt (3 + i) (addAt i (mixed + b[ring (i + 12)] + 0xca62c1d6 + rol a[slot (4 + i)] 5) a), b)

/-- The last loop runs over the hash: `b[i] += a[4 - i]`. -/
def f6 (a : Five) (i : Nat) (hash : Five) : Five := addAt i a[slot (4 - i)] hash

def sha1 (hash : Five) (b : Sixteen) : Five :=
  let a : Five := #v[hash[4], hash[3], hash[2], hash[1], hash[0]]
  let rounds :=
    staticFor f5 20 (staticFor f4 20 (staticFor f3 20 (staticFor f2 4 (staticFor f1 16 (a, b)))))
  staticFor (f6 rounds.1) 5 hash

def b64 : Bytes := .ofLiteral "ABCDEFGHIJKLMNOPQRSTUVWXYZabcdefghijklmnopqrstuvwxyz0123456789+/"

def base64 (src : Bytes) : Bytes :=
  let at_ (i : Nat) : UInt8 := src.getD i 0
  let digit (value : UInt8) : UInt8 := b64.getD value.toNat 0
  ((List.range 6).flatMap fun k => let i := 3 * k
    [digit ((at_ i >>> 2) &&& 63),
      digit (((at_ i &&& 3) <<< 4) ||| ((at_ (i + 1) &&& 240) >>> 4)),
      digit (((at_ (i + 1) &&& 15) <<< 2) ||| ((at_ (i + 2) &&& 192) >>> 6)),
      digit (at_ (i + 2) &&& 63)]) ++
    [digit ((at_ 18 >>> 2) &&& 63), digit (((at_ 18 &&& 3) <<< 4) ||| ((at_ 19 &&& 240) >>> 4)),
      digit ((at_ 19 &&& 15) <<< 2), 61]

def outputWords : Five := #v[0x67452301, 0xefcdab89, 0x98badcfe, 0x10325476, 0xc3d2e1f0]

/-- The words behind the key. -/
def inputWords : Sixteen :=
  #v[0, 0, 0, 0, 0, 0, 0x32353845, 0x41464135, 0x2d453931, 0x342d3437, 0x44412d39, 0x3543412d,
    0x43354142, 0x30444338, 0x35423131, 0x80000000]

def lastWords : Sixteen := #v[0, 0, 0, 0, 0, 0, 0, 0, 0, 0, 0, 0, 0, 0, 0, 480]

def keyWord (input : Bytes) (i : Nat) : UInt32 :=
  (input.getD (4 * i + 3) 0).toUInt32 ||| (input.getD (4 * i + 2) 0).toUInt32 <<< 8 |||
    (input.getD (4 * i + 1) 0).toUInt32 <<< 16 ||| (input.getD (4 * i) 0).toUInt32 <<< 24

def generate (input : Bytes) : Bytes :=
  let words := staticFor (fun i b => b.set (ring i) (keyWord input i)) 6 inputWords
  let output := sha1 (sha1 outputWords words) lastWords
  base64 ((List.range 5).flatMap fun i => let word := output[slot i]
    [(word >>> 24).toUInt8, (word >>> 16).toUInt8, (word >>> 8).toUInt8, word.toUInt8])

theorem slot_congr {i j : Nat} (h : i % 5 = j % 5) : slot i = slot j := Fin.ext h
theorem ring_congr {i j : Nat} (h : i % 16 = j % 16) : ring i = ring j := Fin.ext h

theorem getElem_set_slot (a : Five) (i j : Nat) (value : UInt32) :
    (a.set (slot i) value)[slot j] = if i % 5 = j % 5 then value else a[slot j] := by
  rw [Fin.getElem_fin, Vector.getElem_set]
  rfl

theorem getElem_set_ring (b : Sixteen) (i j : Nat) (value : UInt32) :
    (b.set (ring i) value)[ring j] = if i % 16 = j % 16 then value else b[ring j] := by
  rw [Fin.getElem_fin, Vector.getElem_set]
  rfl

/-- One round, whatever the loop it belongs to. -/
def turn (t : Nat) (mix : UInt32 → UInt32 → UInt32 → UInt32) (constant : UInt32) (a : Five)
    (b : Sixteen) : Five × Sixteen :=
  (rolAt (t + 3) (addAt t (mix a[slot (t + 3)] a[slot (t + 2)] a[slot (t + 1)] + b[ring t] +
    constant + rol a[slot (t + 4)] 5) a), b)

theorem choose_eq (b c d : UInt32) : (b &&& (c ^^^ d)) ^^^ d = Sha1.choose b c d := by
  apply UInt32.toBitVec_inj.mp
  ext i hi
  simp [Sha1.choose]
  cases b.toBitVec[i] <;> cases c.toBitVec[i] <;> cases d.toBitVec[i] <;> rfl

theorem majority_eq (b c d : UInt32) :
    ((b ||| c) &&& d) ||| (b &&& c) = Sha1.majority b c d := by
  apply UInt32.toBitVec_inj.mp
  ext i hi
  simp [Sha1.majority]
  cases b.toBitVec[i] <;> cases c.toBitVec[i] <;> cases d.toBitVec[i] <;> rfl

/-- A round of the loops that make their words: `s` is the first of its slots, `u` its place in
the ring. -/
def pass (s u : Nat) (mix : UInt32 → UInt32 → UInt32 → UInt32) (constant : UInt32) (a : Five)
    (b : Sixteen) : Five × Sixteen :=
  let b := blkAt u b
  (rolAt (3 + s) (addAt s (mix a[slot (3 + s)] a[slot (2 + s)] a[slot (1 + s)] + b[ring u] +
    constant + rol a[slot (4 + s)] 5) a), b)

theorem pass_eq {s t u : Nat} (hs : s % 5 = t % 5) (hu : u % 16 = t % 16)
    (mix : UInt32 → UInt32 → UInt32 → UInt32) (constant : UInt32) (a : Five) (b : Sixteen) :
    pass s u mix constant a b = turn t mix constant a (blkAt t b) := by
  have hslot (k : Nat) : slot (k + s) = slot (t + k) := slot_congr (by omega)
  have hring (k : Nat) : ring (u + k) = ring (t + k) := ring_congr (by omega)
  have hslot0 : slot s = slot t := slot_congr hs
  have hring0 : ring u = ring t := ring_congr hu
  simp only [pass, turn, rolAt, addAt, blkAt, blk, hslot, hring, hslot0, hring0]

theorem f1_eq (i : Nat) (a : Five) (b : Sixteen) :
    f1 i (a, b) = turn i Sha1.choose 0x5a827999 a b := by
  simp only [f1, turn, choose_eq, Nat.add_comm i]

theorem f2_eq (i : Nat) (a : Five) (b : Sixteen) :
    f2 i (a, b) = turn (16 + i) Sha1.choose 0x5a827999 a (blkAt (16 + i) b) := by
  have hslots (k : Nat) : k + (1 + i) = k + 1 + i := by omega
  rw [← pass_eq (by omega : (1 + i) % 5 = (16 + i) % 5) (by omega : i % 16 = (16 + i) % 16)]
  simp only [f2, pass, choose_eq, hslots]

theorem f3_eq (i : Nat) (a : Five) (b : Sixteen) :
    f3 i (a, b) = turn (20 + i) Sha1.parity 0x6ed9eba1 a (blkAt (20 + i) b) :=
  pass_eq (by omega) (by omega) Sha1.parity 0x6ed9eba1 a b

theorem f4_eq (i : Nat) (a : Five) (b : Sixteen) :
    f4 i (a, b) = turn (40 + i) Sha1.majority 0x8f1bbcdc a (blkAt (40 + i) b) := by
  rw [← pass_eq (by omega : i % 5 = (40 + i) % 5) (by omega : (i + 8) % 16 = (40 + i) % 16)]
  simp only [f4, pass, majority_eq]

theorem f5_eq (i : Nat) (a : Five) (b : Sixteen) :
    f5 i (a, b) = turn (60 + i) Sha1.parity 0xca62c1d6 a (blkAt (60 + i) b) :=
  pass_eq (by omega) (by omega) Sha1.parity 0xca62c1d6 a b

/-- The letters before round `t`. -/
def letters (t : Nat) (a : Five) : Sha1.Registers :=
  ⟨a[slot (t + 4)], a[slot (t + 3)], a[slot (t + 2)], a[slot (t + 1)], a[slot t]⟩

theorem letters_turn (t : Nat) (word : UInt32) (a : Five) (b : Sixteen) (hword : b[ring t] = word) :
    letters (t + 1) (turn t (Sha1.logic t) (Sha1.constant t) a b).1 =
      Sha1.round t word (letters t a) := by
  have hslot (k : Nat) : slot (t + 1 + k) = slot (t + (k + 1)) := slot_congr (by omega)
  have hlast : slot (t + 5) = slot t := slot_congr (by omega)
  have h0 {k : Nat} : t % 5 = (t + k) % 5 ↔ k % 5 = 0 := by omega
  have h3 {k : Nat} : (t + 3) % 5 = (t + k) % 5 ↔ k % 5 = 3 := by omega
  have h3' : ¬ (t + 3) % 5 = t % 5 := by omega
  simp only [letters, turn, rolAt, addAt, getElem_set_slot, hslot, hlast, h0, h3, h3', hword]
  simp [Sha1.round, rol, Sha1.rotate]
  ac_rfl

/-- Before round `t` the letters are those of the standard, and the ring has the last sixteen
words. -/
structure Stands (block : Nat → UInt32) (r : Sha1.Registers) (t : Nat) (state : Five × Sixteen) :
    Prop where
  letters : letters t state.1 = Sha1.rounds block r t
  words : ∀ u, u < max t 16 → t ≤ u + 16 → state.2[ring u] = Sha1.word block u

theorem blk_eq {block : Nat → UInt32} {t : Nat} {b : Sixteen} (ht : 16 ≤ t)
    (h : ∀ u, u < max t 16 → t ≤ u + 16 → b[ring u] = Sha1.word block u) :
    blk b t = Sha1.word block t := by
  obtain ⟨s, rfl⟩ := Nat.exists_eq_add_of_le' ht
  have hback {k : Nat} (hk : k < 16) : b[ring (s + 16 + k)] = Sha1.word block (s + k) := by
    rw [← h (s + k) (by omega) (by omega)]
    simp only [ring_congr (by omega : (s + 16 + k) % 16 = (s + k) % 16)]
  have hlast : b[ring (s + 16)] = Sha1.word block s := hback (Nat.succ_pos 15)
  rw [Sha1.word_add, blk, hback (by omega), hback (by omega), hback (by omega), hlast]
  rfl

theorem Stands.turn_low {block : Nat → UInt32} {r : Sha1.Registers} {t : Nat} {a : Five}
    {b : Sixteen} (h : Stands block r t (a, b)) (ht : t < 16) :
    Stands block r (t + 1) (turn t (Sha1.logic t) (Sha1.constant t) a b) where
  letters := by
    rw [letters_turn t _ a b (h.words t (by omega) (by omega)), h.letters]
    rfl
  words u hu hback := h.words u (by omega) (by omega)

theorem Stands.turn_high {block : Nat → UInt32} {r : Sha1.Registers} {t : Nat} {a : Five}
    {b : Sixteen} (h : Stands block r t (a, b)) (ht : 16 ≤ t) :
    Stands block r (t + 1) (turn t (Sha1.logic t) (Sha1.constant t) a (blkAt t b)) where
  letters := by
    have hword : (blkAt t b)[ring t] = Sha1.word block t := by
      rw [blkAt, getElem_set_ring, if_pos rfl]
      exact blk_eq ht h.words
    rw [letters_turn t _ a _ hword, h.letters]
    rfl
  words u hu hback := by
    change (blkAt t b)[ring u] = _
    rw [blkAt, getElem_set_ring]
    by_cases hlast : u = t
    · subst hlast
      rw [if_pos rfl]
      exact blk_eq ht h.words
    · rw [if_neg (by omega)]
      exact h.words u (by omega) (by omega)

theorem first_loop {block : Nat → UInt32} {r : Sha1.Registers} {count : Nat} (hcount : count ≤ 16)
    {state : Five × Sixteen} (h : Stands block r 0 state) :
    Stands block r count (staticFor f1 count state) := by
  induction count with
  | zero => exact h
  | succ i ih =>
    have hlogic : Sha1.logic i = Sha1.choose := if_pos (by omega)
    have hconstant : Sha1.constant i = 0x5a827999 := if_pos (by omega)
    have hnext := (ih (by omega)).turn_low (by omega)
    rw [hlogic, hconstant, ← f1_eq] at hnext
    exact hnext

/-- A later loop, with the rounds from `first` on. -/
theorem later_loop {block : Nat → UInt32} {r : Sha1.Registers} {first : Nat} (hfirst : 16 ≤ first)
    {mix : UInt32 → UInt32 → UInt32 → UInt32} {constant : UInt32} {count : Nat}
    (hmix : ∀ i < count, Sha1.logic (first + i) = mix ∧ Sha1.constant (first + i) = constant)
    {f : Nat → Five × Sixteen → Five × Sixteen}
    (hf : ∀ i a b, f i (a, b) = turn (first + i) mix constant a (blkAt (first + i) b))
    {state : Five × Sixteen} (h : Stands block r first state) :
    Stands block r (first + count) (staticFor f count state) := by
  induction count with
  | zero => exact h
  | succ i ih =>
    obtain ⟨hlogic, hconstant⟩ := hmix i (Nat.lt_succ_self i)
    have hnext := (ih fun j hj => hmix j (Nat.lt_succ_of_lt hj)).turn_high (by omega)
    rw [hlogic, hconstant, ← hf] at hnext
    exact hnext

theorem rounds_stand {block : Nat → UInt32} {r : Sha1.Registers} {state : Five × Sixteen}
    (h : Stands block r 0 state) :
    Stands block r 80 (staticFor f5 20 (staticFor f4 20 (staticFor f3 20 (staticFor f2 4
      (staticFor f1 16 state))))) := by
  have h16 : Stands block r 16 _ := first_loop le_rfl h
  have h20 : Stands block r (16 + 4) _ :=
    later_loop le_rfl (fun i _ => ⟨if_pos (by omega), if_pos (by omega)⟩) f2_eq h16
  have h40 : Stands block r (20 + 20) _ :=
    later_loop (by omega) (fun i _ => ⟨(if_neg (by omega)).trans (if_pos (by omega)),
      (if_neg (by omega)).trans (if_pos (by omega))⟩) f3_eq h20
  have h60 : Stands block r (40 + 20) _ :=
    later_loop (by omega) (fun i _ => ⟨(if_neg (by omega)).trans ((if_neg (by omega)).trans
      (if_pos (by omega))), (if_neg (by omega)).trans ((if_neg (by omega)).trans
      (if_pos (by omega)))⟩) f4_eq h40
  have h80 : Stands block r (60 + 20) _ :=
    later_loop (by omega) (fun i _ => ⟨(if_neg (by omega)).trans ((if_neg (by omega)).trans
      (if_neg (by omega))), (if_neg (by omega)).trans ((if_neg (by omega)).trans
      (if_neg (by omega)))⟩) f5_eq h60
  exact h80

/-- The words of the hash in the order of the letters. -/
def registersOf (hash : Five) : Sha1.Registers :=
  ⟨hash[slot 0], hash[slot 1], hash[slot 2], hash[slot 3], hash[slot 4]⟩

theorem addBack_eq (a hash : Five) :
    registersOf (staticFor (f6 a) 5 hash) = (registersOf hash).add (letters 80 a) := by
  have hslot (k : Nat) : slot (80 + k) = slot k := slot_congr (by omega)
  have hslot0 : slot 80 = slot 0 := hslot 0
  simp only [registersOf, staticFor, f6, addAt, getElem_set_slot, Sha1.Registers.add, letters,
    hslot, hslot0, Nat.reduceMod, Nat.reduceSub, Nat.reduceEqDiff, reduceIte]

theorem sha1_eq (hash : Five) (b : Sixteen) {block : Nat → UInt32}
    (hblock : ∀ t < 16, b[ring t] = block t) :
    registersOf (sha1 hash b) = Sha1.compress (registersOf hash) block := by
  have hstart : Stands block (registersOf hash) 0
      (#v[hash[4], hash[3], hash[2], hash[1], hash[0]], b) := by
    refine ⟨rfl, fun u hu _ => ?_⟩
    have hlow : u < 16 := by omega
    exact (hblock u hlow).trans (Sha1.word_of_lt block hlow).symm
  simp only [sha1]
  rw [addBack_eq, (rounds_stand hstart).letters, Sha1.compress]

theorem toNat_high (byte : UInt8) : ((byte >>> 2) &&& 63).toNat = byte.toNat / 4 := by
  have hbyte := byte.toNat_lt
  have hmask := Nat.and_two_pow_sub_one_eq_mod (byte.toNat / 4) 6
  simp only [UInt8.toNat_and, UInt8.toNat_shiftRight, Nat.shiftRight_eq_div_pow]
  change byte.toNat / 4 &&& 63 = _
  rw [hmask]
  omega

/-- The last `n` bits of one byte before `m` bits of another. -/
theorem join_eq {n m : Nat} (hbits : n + m ≤ 8) (a b k : Nat) :
    (a &&& 2 ^ n - 1) <<< m % 2 ^ 8 ||| (b >>> k &&& 2 ^ m - 1) =
      a % 2 ^ n * 2 ^ m + b / 2 ^ k % 2 ^ m := by
  have hfits : a % 2 ^ n * 2 ^ m < 2 ^ 8 :=
    calc a % 2 ^ n * 2 ^ m
      _ < 2 ^ n * 2 ^ m :=
        Nat.mul_lt_mul_of_pos_right (Nat.mod_lt a (Nat.two_pow_pos n)) (Nat.two_pow_pos m)
      _ = 2 ^ (n + m) := (pow_add 2 n m).symm
      _ ≤ 2 ^ 8 := Nat.pow_le_pow_right (by omega) hbits
  rw [Nat.and_two_pow_sub_one_eq_mod, Nat.and_two_pow_sub_one_eq_mod, Nat.shiftRight_eq_div_pow,
    Nat.shiftLeft_eq, Nat.mod_eq_of_lt hfits, ← Nat.shiftLeft_eq]
  exact (Nat.shiftLeft_add_eq_or_of_lt (Nat.mod_lt _ (Nat.two_pow_pos m)) _).symm

theorem toNat_middle (a b : UInt8) :
    (((a &&& 3) <<< 4) ||| ((b &&& 240) >>> 4)).toNat = a.toNat % 4 * 16 + b.toNat / 16 := by
  have hb := b.toNat_lt
  have hjoin := join_eq (n := 2) (m := 4) (by omega) a.toNat b.toNat 4
  simp only [UInt8.toNat_or, UInt8.toNat_shiftLeft, UInt8.toNat_shiftRight, UInt8.toNat_and]
  change (a.toNat &&& 3) <<< 4 % 2 ^ 8 ||| (b.toNat &&& 240) >>> 4 = _
  rw [Nat.shiftRight_and_distrib]
  refine hjoin.trans ?_
  omega

theorem toNat_lower (b c : UInt8) :
    (((b &&& 15) <<< 2) ||| ((c &&& 192) >>> 6)).toNat = b.toNat % 16 * 4 + c.toNat / 64 := by
  have hc := c.toNat_lt
  have hjoin := join_eq (n := 4) (m := 2) (by omega) b.toNat c.toNat 6
  simp only [UInt8.toNat_or, UInt8.toNat_shiftLeft, UInt8.toNat_shiftRight, UInt8.toNat_and]
  change (b.toNat &&& 15) <<< 2 % 2 ^ 8 ||| (c.toNat &&& 192) >>> 6 = _
  rw [Nat.shiftRight_and_distrib]
  refine hjoin.trans ?_
  omega

theorem toNat_low (byte : UInt8) : (byte &&& 63).toNat = byte.toNat % 64 := by
  rw [UInt8.toNat_and]
  exact Nat.and_two_pow_sub_one_eq_mod byte.toNat 6

theorem b64_eq {value : UInt8} {bits : Nat} (h : value.toNat = bits % 64) :
    b64.getD value.toNat 0 = Base64.digit bits := by
  have halphabet : b64 = Base64.alphabet := by decide +kernel
  rw [Base64.digit, halphabet, h]

/-- The digits of three bytes. -/
def group (a b c : UInt8) : Bytes :=
  [b64.getD ((a >>> 2) &&& 63).toNat 0,
    b64.getD (((a &&& 3) <<< 4) ||| ((b &&& 240) >>> 4)).toNat 0,
    b64.getD (((b &&& 15) <<< 2) ||| ((c &&& 192) >>> 6)).toNat 0, b64.getD (c &&& 63).toNat 0]

theorem group_append (a b c : UInt8) (rest : Bytes) :
    group a b c ++ Base64.encode rest = Base64.encode (a :: b :: c :: rest) := by
  have ha := a.toNat_lt
  have hb := b.toNat_lt
  have hc := c.toNat_lt
  rw [Base64.encode, group]
  rw [b64_eq ((toNat_high a).trans (by omega : _ =
      ((a.toNat * 256 + b.toNat) * 256 + c.toNat) / 64 ^ 3 % 64)),
    b64_eq ((toNat_middle a b).trans (by omega : _ =
      ((a.toNat * 256 + b.toNat) * 256 + c.toNat) / 64 ^ 2 % 64)),
    b64_eq ((toNat_lower b c).trans (by omega : _ =
      ((a.toNat * 256 + b.toNat) * 256 + c.toNat) / 64 % 64)),
    b64_eq ((toNat_low c).trans (by omega : _ =
      ((a.toNat * 256 + b.toNat) * 256 + c.toNat) % 64))]
  rfl

theorem last_eq (a b : UInt8) :
    [b64.getD ((a >>> 2) &&& 63).toNat 0,
      b64.getD (((a &&& 3) <<< 4) ||| ((b &&& 240) >>> 4)).toNat 0,
      b64.getD ((b &&& 15) <<< 2).toNat 0, 61] = Base64.encode [a, b] := by
  have ha := a.toNat_lt
  have hb := b.toNat_lt
  have hzero : (b &&& 15) <<< 2 = ((b &&& 15) <<< 2) ||| (((0 : UInt8) &&& 192) >>> 6) := by simp
  rw [Base64.encode, hzero]
  rw [b64_eq ((toNat_high a).trans (by omega : _ = (a.toNat * 256 + b.toNat) * 4 / 64 ^ 2 % 64)),
    b64_eq ((toNat_middle a b).trans (by omega : _ = (a.toNat * 256 + b.toNat) * 4 / 64 % 64)),
    b64_eq ((toNat_lower b 0).trans (by simp; omega : _ = (a.toNat * 256 + b.toNat) * 4 % 64))]
  rfl

theorem base64_eq {src : Bytes} (h : src.length = 20) : base64 src = Base64.encode src := by
  match src, h with
  | [a0, a1, a2, a3, a4, a5, a6, a7, a8, a9, a10, a11, a12, a13, a14, a15, a16, a17, a18, a19], _ =>
    simp only [← group_append, ← last_eq]
    rfl

/-- What is behind the key: it belongs to the protocol. -/
def guid : Bytes := .ofLiteral "258EAFA5-E914-47DA-95CA-C5AB0DC85B11"

theorem getElem_keyWords (input : Bytes) {count : Nat} (hcount : count ≤ 16) {t : Nat}
    (ht : t < 16) :
    (staticFor (fun i b => b.set (ring i) (keyWord input i)) count inputWords)[ring t] =
      if t < count then keyWord input t else inputWords[ring t] := by
  induction count with
  | zero => rfl
  | succ count ih =>
    rw [staticFor, getElem_set_ring, ih (by omega)]
    by_cases hlast : count = t
    · subst hlast
      rw [if_pos rfl, if_pos (Nat.lt_succ_self count)]
    · have hbefore : t < count + 1 ↔ t < count := by omega
      rw [if_neg (by omega)]
      simp only [hbefore]

theorem or_reverse (a b c d : UInt32) : a ||| b ||| c ||| d = d ||| c ||| b ||| a := by
  ac_rfl

theorem keyWord_eq {key : Bytes} (hkey : key.length = 24) (rest : Bytes) {t : Nat} (ht : t < 6) :
    keyWord key t = Sha1.blockOf (key ++ rest) 0 t := by
  have hget {i : Nat} (hi : i < 24) : (key ++ rest).getD (64 * 0 + i) 0 = key.getD i 0 := by
    rw [Nat.mul_zero, Nat.zero_add]
    exact List.getD_append key rest 0 i (hkey ▸ hi)
  simp only [Sha1.blockOf, Nat.add_assoc]
  rw [hget (by omega), hget (by omega), hget (by omega), hget (by omega)]
  exact or_reverse _ _ _ _

/-- A word behind the key. -/
theorem blockOf_behind {key : Bytes} (hkey : key.length = 24) (rest : Bytes) {index t from_ : Nat}
    (h : 64 * index + 4 * t = 24 + from_) :
    Sha1.blockOf (key ++ rest) index t =
      Sha1.bigEndian (rest.getD from_ 0) (rest.getD (from_ + 1) 0) (rest.getD (from_ + 2) 0)
        (rest.getD (from_ + 3) 0) := by
  have hget (i : Nat) : (key ++ rest).getD (24 + i) 0 = rest.getD i 0 := by
    rw [List.getD_append_right key rest 0 (24 + i) (by omega), hkey, Nat.add_sub_cancel_left]
  simp only [Sha1.blockOf, h, Nat.add_assoc, hget]

/-- What follows the key in the two blocks. -/
def tail : Bytes := guid ++ Sha1.padding 60

theorem inputWords_tail : ∀ s < 10, inputWords[ring (6 + s)] =
    Sha1.bigEndian (tail.getD (4 * s) 0) (tail.getD (4 * s + 1) 0) (tail.getD (4 * s + 2) 0)
      (tail.getD (4 * s + 3) 0) := by
  decide +kernel

theorem lastWords_tail : ∀ t < 16, lastWords[ring t] =
    Sha1.bigEndian (tail.getD (40 + 4 * t) 0) (tail.getD (40 + 4 * t + 1) 0)
      (tail.getD (40 + 4 * t + 2) 0) (tail.getD (40 + 4 * t + 3) 0) := by
  decide +kernel

theorem firstWords_eq {key : Bytes} (hkey : key.length = 24) {t : Nat} (ht : t < 16) :
    (staticFor (fun i b => b.set (ring i) (keyWord key i)) 6 inputWords)[ring t] =
      Sha1.blockOf (key ++ tail) 0 t := by
  rw [getElem_keyWords key (by omega) ht]
  by_cases hlow : t < 6
  · rw [if_pos hlow, keyWord_eq hkey tail hlow]
  · obtain ⟨s, rfl⟩ := Nat.exists_eq_add_of_le (Nat.not_lt.mp hlow)
    rw [if_neg hlow, inputWords_tail s (by omega)]
    exact (blockOf_behind hkey tail (by omega)).symm

theorem lastWords_eq {key : Bytes} (hkey : key.length = 24) {t : Nat} (ht : t < 16) :
    lastWords[ring t] = Sha1.blockOf (key ++ tail) 1 t := by
  rw [lastWords_tail t ht]
  exact (blockOf_behind hkey tail (by omega)).symm

/-- The answer is what the protocol asks for. -/
theorem generate_eq {key : Bytes} (hkey : key.length = 24) :
    generate key = Base64.encode (Sha1.hash (key ++ guid)) := by
  have hlength : (key ++ guid).length = 60 := by
    rw [List.length_append, hkey]
    decide
  have hblocks : (key ++ guid ++ Sha1.padding 60).length / 64 = 2 := by
    rw [List.length_append, hlength]
    decide +kernel
  have hfirst := sha1_eq outputWords
    (staticFor (fun i b => b.set (ring i) (keyWord key i)) 6 inputWords)
    fun t ht => firstWords_eq hkey ht
  have hsecond := sha1_eq (sha1 outputWords
    (staticFor (fun i b => b.set (ring i) (keyWord key i)) 6 inputWords)) lastWords
    fun t ht => lastWords_eq hkey ht
  have hstart : registersOf outputWords = Sha1.Registers.initial := by decide
  rw [hfirst, hstart] at hsecond
  have hhash : Sha1.hash (key ++ guid) = (registersOf (sha1 (sha1 outputWords
      (staticFor (fun i b => b.set (ring i) (keyWord key i)) 6 inputWords))
        lastWords)).words.flatMap Sha1.wordBytes := by
    rw [Sha1.hash, hlength, hblocks, hsecond, List.append_assoc]
    rfl
  rw [hhash, generate, ← base64_eq rfl]
  rfl

theorem generate_eq_sample :
    let key := Bytes.ofLiteral "dGhlIHNhbXBsZSBub25jZQ=="
    generate key = Base64.encode (Sha1.hash (key ++ guid)) ∧
      generate key = .ofLiteral "s3pPLMBiTxaQ9kYGzzhZRbK+xOo=" :=
  ⟨generate_eq (by decide), by decide +kernel⟩

end WebSocketHandshake

end MarketServer.UWS
