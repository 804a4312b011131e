import MarketServer.Bytes

/-! The check of text messages in `WebSocketProtocol.h`, and that it accepts exactly the
encodings of character sequences. -/
namespace MarketServer.UWS

def isAscii (byte : UInt8) : Bool := byte &&& 0x80 = 0

/-- The branches of `isValidUtf8` for a character of several bytes: what stands behind
it, or nothing where the check fails. -/
def dropMultibyte : Bytes → Option Bytes
  | [] => none
  | s0 :: s =>
    if s0 &&& 0x60 = 0x40 then
      match s with
      | s1 :: rest => if s1 &&& 0xc0 ≠ 0x80 ∨ s0 &&& 0xfe = 0xc0 then none else some rest
      | _ => none
    else if s0 &&& 0xf0 = 0xe0 then
      match s with
      | s1 :: s2 :: rest =>
        if s1 &&& 0xc0 ≠ 0x80 ∨ s2 &&& 0xc0 ≠ 0x80 ∨ (s0 = 0xe0 ∧ s1 &&& 0xe0 = 0x80) ∨
            (s0 = 0xed ∧ s1 &&& 0xe0 = 0xa0) then none
        else some rest
      | _ => none
    else if s0 &&& 0xf8 = 0xf0 then
      match s with
      | s1 :: s2 :: s3 :: rest =>
        if s1 &&& 0xc0 ≠ 0x80 ∨ s2 &&& 0xc0 ≠ 0x80 ∨ s3 &&& 0xc0 ≠ 0x80 ∨
            (s0 = 0xf0 ∧ s1 &&& 0xf0 = 0x80) ∨ (s0 = 0xf4 ∧ s1 > 0x8f) ∨ s0 > 0xf4 then none
        else some rest
      | _ => none
    else none

/-- The loop of `isValidUtf8`. A pass takes a byte at least, so there are never more
passes than bytes. -/
def isValidUtf8From : Nat → Bytes → Bool
  | 0, s => s.isEmpty
  | passes + 1, s =>
    if s.isEmpty then true
    else if 4 ≤ s.length ∧ (s.take 4).all isAscii then isValidUtf8From passes (s.drop 4)
    else
      let rest := s.dropWhile isAscii
      if rest.isEmpty then true
      else
        match dropMultibyte rest with
        | some rest => isValidUtf8From passes rest
        | none => false

def isValidUtf8 (s : Bytes) : Bool := isValidUtf8From s.length s

/-! The masks, as ranges of numbers. -/

theorem forall_byte {P : UInt8 → Prop} (h : ∀ i : Fin 256, P (UInt8.ofFin i)) (byte : UInt8) :
    P byte := by
  simpa using h byte.toFin

theorem isAscii_iff (byte : UInt8) : isAscii byte = true ↔ byte.toNat < 128 := by
  revert byte
  exact forall_byte (by decide +kernel)

theorem isTail_iff (byte : UInt8) : byte &&& 0xc0 = 0x80 ↔ 128 ≤ byte.toNat ∧ byte.toNat < 192 := by
  revert byte
  exact forall_byte (by decide +kernel)

theorem leadsTwo_iff (byte : UInt8) :
    byte &&& 0x60 = 0x40 ↔ 64 ≤ byte.toNat % 128 ∧ byte.toNat % 128 < 96 := by
  revert byte
  exact forall_byte (by decide +kernel)

theorem overlongTwo_iff (byte : UInt8) : byte &&& 0xfe = 0xc0 ↔ byte.toNat / 2 = 96 := by
  revert byte
  exact forall_byte (by decide +kernel)

theorem leadsThree_iff (byte : UInt8) : byte &&& 0xf0 = 0xe0 ↔ byte.toNat / 16 = 14 := by
  revert byte
  exact forall_byte (by decide +kernel)

theorem leadsFour_iff (byte : UInt8) : byte &&& 0xf8 = 0xf0 ↔ byte.toNat / 8 = 30 := by
  revert byte
  exact forall_byte (by decide +kernel)

theorem upperEight_iff (byte : UInt8) : byte &&& 0xe0 = 0x80 ↔ byte.toNat / 32 = 4 := by
  revert byte
  exact forall_byte (by decide +kernel)

theorem upperTen_iff (byte : UInt8) : byte &&& 0xe0 = 0xa0 ↔ byte.toNat / 32 = 5 := by
  revert byte
  exact forall_byte (by decide +kernel)

theorem upperNine_iff (byte : UInt8) : byte &&& 0xf0 = 0x80 ↔ byte.toNat / 16 = 8 := by
  revert byte
  exact forall_byte (by decide +kernel)

/-! Encoded characters. -/

theorem validUtf8_iff (s : Bytes) :
    s.ValidUtf8 ↔ ∃ characters : List Char, s = characters.flatMap String.utf8EncodeChar := by
  have hdata : ∀ list : Bytes, ByteArray.mk s.toArray = list.toByteArray ↔ s = list := by
    intro list
    rw [ByteArray.ext_iff]
    simp
  constructor
  · rintro ⟨characters, h⟩
    exact ⟨characters, (hdata _).mp h⟩
  · rintro ⟨characters, h⟩
    exact ⟨characters, (hdata _).mpr h⟩

theorem encodeChar_inj {c d : Char} {rest other : Bytes}
    (h : String.utf8EncodeChar c ++ rest = String.utf8EncodeChar d ++ other) :
    c = d ∧ rest = other := by
  have hc := ByteArray.utf8DecodeChar?_utf8EncodeChar_append (b := rest.toByteArray) (c := c)
  have hd := ByteArray.utf8DecodeChar?_utf8EncodeChar_append (b := other.toByteArray) (c := d)
  rw [← List.toByteArray_append] at hc hd
  rw [h, hd] at hc
  cases hc
  exact ⟨rfl, List.append_cancel_left h⟩

theorem validUtf8_nil : Bytes.ValidUtf8 [] := (validUtf8_iff []).mpr ⟨[], rfl⟩

theorem validUtf8_encodeChar_append (c : Char) (rest : Bytes) :
    Bytes.ValidUtf8 (String.utf8EncodeChar c ++ rest) ↔ rest.ValidUtf8 := by
  rw [validUtf8_iff, validUtf8_iff]
  constructor
  · rintro ⟨_ | ⟨d, characters⟩, h⟩
    · simp at h
    · exact ⟨characters, (encodeChar_inj h).2⟩
  · rintro ⟨characters, rfl⟩
    exact ⟨c :: characters, rfl⟩

/-- A sequence that is valid and not empty starts with a character. -/
theorem exists_char_of_valid {s : Bytes} (h : s.ValidUtf8) (hs : s ≠ []) :
    ∃ c rest, s = String.utf8EncodeChar c ++ rest := by
  obtain ⟨_ | ⟨c, characters⟩, rfl⟩ := (validUtf8_iff s).mp h
  · exact absurd rfl hs
  · exact ⟨c, _, rfl⟩

theorem encode_ofNat {number : Nat} (h : number.isValidChar) :
    String.utf8EncodeChar (Char.ofNat number) =
      if number ≤ 0x7f then [UInt8.ofNat number]
      else if number ≤ 0x7ff then
        [UInt8.ofNat (number / 64 % 32 + 192), UInt8.ofNat (number % 64 + 128)]
      else if number ≤ 0xffff then
        [UInt8.ofNat (number / 4096 % 16 + 224), UInt8.ofNat (number / 64 % 64 + 128),
          UInt8.ofNat (number % 64 + 128)]
      else
        [UInt8.ofNat (number / 262144 % 8 + 240), UInt8.ofNat (number / 4096 % 64 + 128),
          UInt8.ofNat (number / 64 % 64 + 128), UInt8.ofNat (number % 64 + 128)] := by
  have hnumber : (Char.ofNat number).val.toNat = number := by
    rw [Char.ofNat, dif_pos h]
    rfl
  simp only [String.utf8EncodeChar, hnumber]

theorem validUtf8_ascii_cons {byte : UInt8} (h : isAscii byte = true) (rest : Bytes) :
    Bytes.ValidUtf8 (byte :: rest) ↔ rest.ValidUtf8 := by
  have hbyte : byte.toNat < 128 := (isAscii_iff byte).mp h
  have hencode := encode_ofNat (.inl (show byte.toNat < 0xd800 by omega))
  rw [if_pos (by omega), UInt8.ofNat_toNat] at hencode
  have hcons : byte :: rest = String.utf8EncodeChar (Char.ofNat byte.toNat) ++ rest := by
    rw [hencode]
    rfl
  rw [hcons, validUtf8_encodeChar_append]

/-- The bytes that may follow the first one. -/
def Tail (byte : UInt8) : Prop := 128 ≤ byte.toNat ∧ byte.toNat < 192

/-- The encodings of several bytes: nothing that fewer bytes could encode, no surrogate
and nothing above the last character. -/
inductive Multibyte : Bytes → Prop where
  | two {s0 s1 : UInt8} : 194 ≤ s0.toNat → s0.toNat < 224 → Tail s1 → Multibyte [s0, s1]
  | three {s0 s1 s2 : UInt8} : 224 ≤ s0.toNat → s0.toNat < 240 → Tail s1 → Tail s2 →
      (s0.toNat = 224 → 160 ≤ s1.toNat) → (s0.toNat = 237 → s1.toNat < 160) →
      Multibyte [s0, s1, s2]
  | four {s0 s1 s2 s3 : UInt8} : 240 ≤ s0.toNat → s0.toNat < 245 → Tail s1 → Tail s2 →
      Tail s3 → (s0.toNat = 240 → 144 ≤ s1.toNat) → (s0.toNat = 244 → s1.toNat < 144) →
      Multibyte [s0, s1, s2, s3]

theorem multibyte_encode {number : Nat} (hnumber : number.isValidChar) (hlarge : 128 ≤ number) :
    Multibyte (String.utf8EncodeChar (Char.ofNat number)) := by
  rw [encode_ofNat hnumber]
  unfold Nat.isValidChar at hnumber
  split
  · omega
  · split
    · apply Multibyte.two <;> simp [Tail] <;> omega
    · split
      · apply Multibyte.three <;> simp [Tail] <;> omega
      · apply Multibyte.four <;> simp [Tail] <;> omega

theorem ofNat_eq_iff {number : Nat} {byte : UInt8} :
    byte = UInt8.ofNat number ↔ byte.toNat = number % 256 := by
  rw [← UInt8.toNat_inj, UInt8.toNat_ofNat']

theorem Multibyte.exists_char {character : Bytes} (h : Multibyte character) :
    ∃ c, character = String.utf8EncodeChar c := by
  cases h with
  | @two s0 s1 h0 h0' h1 =>
    obtain ⟨h1, h1'⟩ := h1
    have hnumber : ((s0.toNat - 192) * 64 + (s1.toNat - 128)).isValidChar := .inl (by omega)
    refine ⟨Char.ofNat ((s0.toNat - 192) * 64 + (s1.toNat - 128)), ?_⟩
    rw [encode_ofNat hnumber, if_neg (by omega), if_pos (by omega)]
    simp only [List.cons.injEq, ofNat_eq_iff, and_true]
    omega
  | @three s0 s1 s2 h0 h0' h1 h2 hlow hhigh =>
    obtain ⟨⟨h1, h1'⟩, h2, h2'⟩ := And.intro h1 h2
    have hnumber : ((s0.toNat - 224) * 4096 + (s1.toNat - 128) * 64 +
        (s2.toNat - 128)).isValidChar := by
      unfold Nat.isValidChar
      omega
    refine ⟨Char.ofNat ((s0.toNat - 224) * 4096 + (s1.toNat - 128) * 64 + (s2.toNat - 128)), ?_⟩
    rw [encode_ofNat hnumber, if_neg (by omega), if_neg (by omega), if_pos (by omega)]
    simp only [List.cons.injEq, ofNat_eq_iff, and_true]
    omega
  | @four s0 s1 s2 s3 h0 h0' h1 h2 h3 hlow hhigh =>
    obtain ⟨⟨h1, h1'⟩, ⟨h2, h2'⟩, h3, h3'⟩ := And.intro h1 (And.intro h2 h3)
    have hnumber : ((s0.toNat - 240) * 262144 + (s1.toNat - 128) * 4096 + (s2.toNat - 128) * 64 +
        (s3.toNat - 128)).isValidChar := .inr (by omega)
    refine ⟨Char.ofNat ((s0.toNat - 240) * 262144 + (s1.toNat - 128) * 4096 +
      (s2.toNat - 128) * 64 + (s3.toNat - 128)), ?_⟩
    rw [encode_ofNat hnumber, if_neg (by omega), if_neg (by omega), if_neg (by omega)]
    simp only [List.cons.injEq, ofNat_eq_iff, and_true]
    omega

theorem dropMultibyte_append {character : Bytes} (h : Multibyte character) (rest : Bytes) :
    dropMultibyte (character ++ rest) = some rest := by
  cases h with
  | @two s0 s1 h0 h0' h1 =>
    simp only [List.cons_append, List.nil_append, dropMultibyte]
    simp only [leadsTwo_iff, isTail_iff, overlongTwo_iff, ne_eq]
    unfold Tail at h1
    rw [if_pos (by omega), if_neg (by omega)]
  | @three s0 s1 s2 h0 h0' h1 h2 hlow hhigh =>
    simp only [List.cons_append, List.nil_append, dropMultibyte]
    simp only [leadsTwo_iff, leadsThree_iff, isTail_iff, upperEight_iff, upperTen_iff, ne_eq]
    simp only [← UInt8.toNat_inj, UInt8.reduceToNat]
    unfold Tail at h1 h2
    rw [if_neg (by omega), if_pos (by omega), if_neg (by omega)]
  | @four s0 s1 s2 s3 h0 h0' h1 h2 h3 hlow hhigh =>
    simp only [List.cons_append, List.nil_append, dropMultibyte]
    simp only [leadsTwo_iff, leadsThree_iff, leadsFour_iff, isTail_iff, upperNine_iff, ne_eq]
    simp only [← UInt8.toNat_inj, gt_iff_lt, UInt8.lt_iff_toNat_lt, UInt8.reduceToNat]
    unfold Tail at h1 h2 h3
    rw [if_neg (by omega), if_neg (by omega), if_pos (by omega), if_neg (by omega)]

/-- The tests of the branches are those of the table. -/
theorem dropMultibyte_eq_some_iff {s0 : UInt8} {s rest : Bytes} (h0 : ¬ isAscii s0 = true) :
    dropMultibyte (s0 :: s) = some rest ↔ ∃ character, Multibyte character ∧
      s0 :: s = character ++ rest := by
  have h128 : 128 ≤ s0.toNat := by
    rw [isAscii_iff] at h0
    omega
  have hlt := s0.toNat_lt
  constructor
  · intro h
    unfold dropMultibyte at h
    simp only [leadsTwo_iff, leadsThree_iff, leadsFour_iff] at h
    split at h
    · rename_i htwo
      split at h
      · rename_i s1 rest
        simp only [isTail_iff, overlongTwo_iff, ne_eq] at h
        split at h
        · cases h
        · cases h
          exact ⟨[s0, s1], .two (by omega) (by omega) ⟨by omega, by omega⟩, rfl⟩
      · cases h
    · split at h
      · rename_i hthree
        split at h
        · rename_i s1 s2 rest
          simp only [isTail_iff, upperEight_iff, upperTen_iff, ne_eq] at h
          simp only [← UInt8.toNat_inj] at h
          split at h
          · cases h
          · rename_i hvalid
            cases h
            simp only [UInt8.reduceToNat, not_or] at hvalid
            exact ⟨[s0, s1, s2], .three (by omega) (by omega) ⟨by omega, by omega⟩
              ⟨by omega, by omega⟩ (by omega) (by omega), rfl⟩
        · cases h
      · split at h
        · rename_i hfour
          split at h
          · rename_i s1 s2 s3 rest
            simp only [isTail_iff, upperNine_iff, ne_eq] at h
            simp only [← UInt8.toNat_inj, gt_iff_lt, UInt8.lt_iff_toNat_lt] at h
            split at h
            · cases h
            · rename_i hvalid
              cases h
              simp only [UInt8.reduceToNat, not_or] at hvalid
              exact ⟨[s0, s1, s2, s3], .four (by omega) (by omega) ⟨by omega, by omega⟩
                ⟨by omega, by omega⟩ ⟨by omega, by omega⟩ (by omega) (by omega), rfl⟩
          · cases h
        · cases h
  · rintro ⟨character, hcharacter, heq⟩
    rw [heq]
    exact dropMultibyte_append hcharacter rest

theorem validUtf8_multibyte_iff {s0 : UInt8} {s : Bytes} (h0 : ¬ isAscii s0 = true) :
    Bytes.ValidUtf8 (s0 :: s) ↔
      ∃ rest, dropMultibyte (s0 :: s) = some rest ∧ rest.ValidUtf8 := by
  constructor
  · intro h
    obtain ⟨c, rest, heq⟩ := exists_char_of_valid h (List.cons_ne_nil _ _)
    have hrest : rest.ValidUtf8 := by
      rwa [heq, validUtf8_encodeChar_append] at h
    have hchar : Multibyte (String.utf8EncodeChar c) := by
      have hvalid : c.toNat.isValidChar := c.valid
      rw [← Char.ofNat_toNat c] at heq ⊢
      apply multibyte_encode hvalid
      by_contra hsmall
      rw [encode_ofNat hvalid, if_pos (by omega)] at heq
      cases heq
      rw [isAscii_iff, UInt8.toNat_ofNat'] at h0
      omega
    refine ⟨rest, ?_, hrest⟩
    rw [heq]
    exact dropMultibyte_append hchar rest
  · rintro ⟨rest, hdrop, hrest⟩
    obtain ⟨character, hcharacter, heq⟩ := (dropMultibyte_eq_some_iff h0).mp hdrop
    obtain ⟨c, rfl⟩ := hcharacter.exists_char
    rw [heq, validUtf8_encodeChar_append]
    exact hrest

theorem validUtf8_ascii_append {ascii : Bytes} (h : ∀ byte ∈ ascii, isAscii byte = true)
    (rest : Bytes) : Bytes.ValidUtf8 (ascii ++ rest) ↔ rest.ValidUtf8 := by
  induction ascii with
  | nil => exact Iff.rfl
  | cons byte ascii ih =>
    rw [List.cons_append, validUtf8_ascii_cons (h byte List.mem_cons_self)]
    exact ih fun other hother => h other (List.mem_cons_of_mem byte hother)

theorem length_dropMultibyte {s0 : UInt8} {s rest : Bytes} (h0 : ¬ isAscii s0 = true)
    (h : dropMultibyte (s0 :: s) = some rest) : rest.length ≤ s.length := by
  obtain ⟨character, hcharacter, heq⟩ := (dropMultibyte_eq_some_iff h0).mp h
  have hlength := congrArg List.length heq
  cases hcharacter <;> simp at hlength <;> omega

theorem isValidUtf8From_iff {passes : Nat} {s : Bytes} (hpasses : s.length ≤ passes) :
    isValidUtf8From passes s = true ↔ s.ValidUtf8 := by
  induction passes generalizing s with
  | zero =>
    have hnil : s = [] := List.eq_nil_of_length_eq_zero (Nat.le_zero.mp hpasses)
    rw [hnil]
    exact ⟨fun _ => validUtf8_nil, fun _ => rfl⟩
  | succ passes ih =>
    unfold isValidUtf8From
    split
    · rename_i hempty
      rw [List.isEmpty_iff.mp hempty]
      exact ⟨fun _ => validUtf8_nil, fun _ => rfl⟩
    · split
      · rename_i hfast
        obtain ⟨hlength, hascii⟩ := hfast
        rw [ih (by rw [List.length_drop]; omega)]
        conv_rhs => rw [← List.take_append_drop 4 s]
        exact (validUtf8_ascii_append (List.all_eq_true.mp hascii) _).symm
      · have hsplit : s.ValidUtf8 ↔ Bytes.ValidUtf8 (s.dropWhile isAscii) := by
          conv_lhs => rw [← List.takeWhile_append_dropWhile (p := isAscii) (l := s)]
          exact validUtf8_ascii_append (List.all_eq_true.mp List.all_takeWhile) _
        have hle : (s.dropWhile isAscii).length ≤ s.length := (List.dropWhile_suffix _).length_le
        simp only
        rw [hsplit]
        cases hrest : s.dropWhile isAscii with
        | nil => exact ⟨fun _ => validUtf8_nil, fun _ => rfl⟩
        | cons s0 rest =>
          have h0 : ¬ isAscii s0 = true := by
            have hhead := List.head?_dropWhile_not isAscii s
            rw [hrest] at hhead
            simpa using hhead
          rw [validUtf8_multibyte_iff h0]
          cases hdrop : dropMultibyte (s0 :: rest) with
          | none => simp
          | some remaining =>
            have hlength := length_dropMultibyte h0 hdrop
            rw [hrest, List.length_cons] at hle
            simp [ih (s := remaining) (by omega)]

/-- The check accepts exactly the sequences that are encodings of characters. -/
theorem isValidUtf8_iff (s : Bytes) : isValidUtf8 s = true ↔ s.ValidUtf8 :=
  isValidUtf8From_iff le_rfl

end MarketServer.UWS
