import RestClient.Url.Parser
import Mathlib.Data.List.Basic

/-!
# Encoded text

Text that is written in UTF-8 and in percent encoding is read back as it was, and percent encoding
neither leaves anything but unreserved characters and percent signs nor brings in a dot.
-/

namespace RestClient

/-!
## UTF-8
-/

namespace Utf8

variable {a b c d : Nat}

theorem toNat_ofNat (h : a < 256) : (UInt8.ofNat a).toNat = a :=
  UInt8.toNat_ofNat_of_lt' h

theorem isContinuation_ofNat (hb : 0x80 ≤ b) (hb' : b ≤ 0xBF) :
    isContinuation (UInt8.ofNat b) = true := by
  have hbyte := toNat_ofNat (show b < 256 by omega)
  unfold isContinuation
  simp only [Bool.and_eq_true, decide_eq_true_eq, UInt8.le_iff_toNat_le, hbyte]
  exact ⟨hb, hb'⟩

theorem payload_ofNat (hb : b < 256) : payload (UInt8.ofNat b) = b % 64 := by
  unfold payload
  rw [toNat_ofNat hb]

theorem pieces_one (ha : a < 0x80) (rest : List UInt8) :
    pieces (UInt8.ofNat a :: rest) = some (Char.ofNat a) :: pieces rest := by
  have hbyte := toNat_ofNat (show a < 256 by omega)
  have hsmall : UInt8.ofNat a < 0x80 := by
    rw [UInt8.lt_iff_toNat_lt, hbyte]
    exact ha
  rw [pieces.eq_def]
  dsimp only
  rw [if_pos hsmall, hbyte]

theorem pieces_two (ha : 0xC2 ≤ a) (ha' : a ≤ 0xDF) (hb : 0x80 ≤ b) (hb' : b ≤ 0xBF)
    (rest : List UInt8) :
    pieces (UInt8.ofNat a :: UInt8.ofNat b :: rest) =
      some (Char.ofNat (a % 32 * 64 + b % 64)) :: pieces rest := by
  have hbyte := toNat_ofNat (show a < 256 by omega)
  have hlead : ¬ UInt8.ofNat a < 0x80 ∧
      (0xC2 ≤ UInt8.ofNat a && UInt8.ofNat a ≤ 0xDF) = true := by
    simp only [Bool.and_eq_true, decide_eq_true_eq, UInt8.lt_iff_toNat_lt,
      UInt8.le_iff_toNat_le, hbyte]
    exact ⟨Nat.not_lt.mpr (Nat.le_trans (by decide) ha), ha, ha'⟩
  rw [pieces.eq_def]
  dsimp only
  rw [if_neg hlead.1, if_pos hlead.2]
  rw [if_pos (isContinuation_ofNat hb hb'), hbyte, payload_ofNat (by omega)]

theorem pieces_three (ha : 0xE0 ≤ a) (ha' : a ≤ 0xEF)
    (hb : isSecondOfThree (UInt8.ofNat a) (UInt8.ofNat b) = true) (hb' : b < 256)
    (hc : 0x80 ≤ c) (hc' : c ≤ 0xBF) (rest : List UInt8) :
    pieces (UInt8.ofNat a :: UInt8.ofNat b :: UInt8.ofNat c :: rest) =
      some (Char.ofNat ((a % 16 * 64 + b % 64) * 64 + c % 64)) :: pieces rest := by
  have hbyte := toNat_ofNat (show a < 256 by omega)
  have hlead : ¬ UInt8.ofNat a < 0x80 ∧
      ¬ (0xC2 ≤ UInt8.ofNat a && UInt8.ofNat a ≤ 0xDF) = true ∧
      (0xE0 ≤ UInt8.ofNat a && UInt8.ofNat a ≤ 0xEF) = true := by
    simp only [Bool.and_eq_true, decide_eq_true_eq, UInt8.lt_iff_toNat_lt,
      UInt8.le_iff_toNat_le, hbyte]
    refine ⟨Nat.not_lt.mpr (Nat.le_trans (by decide) ha), ?_, ha, ha'⟩
    rintro ⟨_, hle⟩
    exact absurd (Nat.le_trans ha hle) (by decide)
  rw [pieces.eq_def]
  dsimp only
  rw [if_neg hlead.1, if_neg hlead.2.1, if_pos hlead.2.2, if_pos hb,
    if_pos (isContinuation_ofNat hc hc'), hbyte, payload_ofNat hb', payload_ofNat (by omega)]

theorem pieces_four (ha : 0xF0 ≤ a) (ha' : a ≤ 0xF4)
    (hb : isSecondOfFour (UInt8.ofNat a) (UInt8.ofNat b) = true) (hb' : b < 256)
    (hc : 0x80 ≤ c) (hc' : c ≤ 0xBF) (hd : 0x80 ≤ d) (hd' : d ≤ 0xBF) (rest : List UInt8) :
    pieces (UInt8.ofNat a :: UInt8.ofNat b :: UInt8.ofNat c :: UInt8.ofNat d :: rest) =
      some (Char.ofNat (((a % 8 * 64 + b % 64) * 64 + c % 64) * 64 + d % 64)) :: pieces rest := by
  have hbyte := toNat_ofNat (show a < 256 by omega)
  have hlead : ¬ UInt8.ofNat a < 0x80 ∧
      ¬ (0xC2 ≤ UInt8.ofNat a && UInt8.ofNat a ≤ 0xDF) = true ∧
      ¬ (0xE0 ≤ UInt8.ofNat a && UInt8.ofNat a ≤ 0xEF) = true ∧
      (0xF0 ≤ UInt8.ofNat a && UInt8.ofNat a ≤ 0xF4) = true := by
    simp only [Bool.and_eq_true, decide_eq_true_eq, UInt8.lt_iff_toNat_lt,
      UInt8.le_iff_toNat_le, hbyte]
    refine ⟨Nat.not_lt.mpr (Nat.le_trans (by decide) ha), ?_, ?_, ha, ha'⟩
    · rintro ⟨_, hle⟩
      exact absurd (Nat.le_trans ha hle) (by decide)
    · rintro ⟨_, hle⟩
      exact absurd (Nat.le_trans ha hle) (by decide)
  rw [pieces.eq_def]
  dsimp only
  rw [if_neg hlead.1, if_neg hlead.2.1, if_neg hlead.2.2.1, if_pos hlead.2.2.2, if_pos hb,
    if_pos (isContinuation_ofNat hc hc'), if_pos (isContinuation_ofNat hd hd'), hbyte,
    payload_ofNat hb', payload_ofNat (by omega), payload_ofNat (by omega)]

/-- The second byte of a character keeps clear of overlong forms and of surrogates. -/
theorem isSecondOfThree_ofNat {v : Nat} (hv : 0x800 ≤ v) (hv' : v ≤ 0xFFFF)
    (hvalid : v < 0xD800 ∨ 0xDFFF < v) :
    isSecondOfThree (UInt8.ofNat (v / 4096 % 16 + 224)) (UInt8.ofNat (v / 64 % 64 + 128)) =
      true := by
  have hlead := toNat_ofNat (show v / 4096 % 16 + 224 < 256 by omega)
  have hbyte := toNat_ofNat (show v / 64 % 64 + 128 < 256 by omega)
  unfold isSecondOfThree isContinuation
  simp only [beq_iff_eq, ← UInt8.toNat_inj, hlead, UInt8.le_iff_toNat_le, hbyte,
    UInt8.reduceToNat]
  split_ifs
  all_goals simp only [Bool.and_eq_true, decide_eq_true_eq]
  all_goals omega

theorem isSecondOfFour_ofNat {v : Nat} (hv : 0x10000 ≤ v) (hv' : v ≤ 0x10FFFF) :
    isSecondOfFour (UInt8.ofNat (v / 262144 % 8 + 240)) (UInt8.ofNat (v / 4096 % 64 + 128)) =
      true := by
  have hlead := toNat_ofNat (show v / 262144 % 8 + 240 < 256 by omega)
  have hbyte := toNat_ofNat (show v / 4096 % 64 + 128 < 256 by omega)
  unfold isSecondOfFour isContinuation
  simp only [beq_iff_eq, ← UInt8.toNat_inj, hlead, UInt8.le_iff_toNat_le, hbyte,
    UInt8.reduceToNat]
  split_ifs
  all_goals simp only [Bool.and_eq_true, decide_eq_true_eq]
  all_goals omega

theorem pieces_utf8EncodeChar (c : Char) (rest : List UInt8) :
    pieces (String.utf8EncodeChar c ++ rest) = some c :: pieces rest := by
  have hvalid : c.toNat < 0xD800 ∨ 0xDFFF < c.toNat ∧ c.toNat < 0x110000 := c.valid
  have hchar : forall {n : Nat}, n = c.toNat -> some (Char.ofNat n) = some c := by
    rintro n rfl
    rw [Char.ofNat_toNat]
  have hval : c.val.toNat = c.toNat := rfl
  unfold String.utf8EncodeChar
  dsimp only
  rw [hval]
  by_cases h1 : c.toNat ≤ 127
  · rw [if_pos h1]
    show pieces (UInt8.ofNat c.toNat :: rest) = _
    rw [pieces_one (by omega), hchar rfl]
  rw [if_neg h1]
  by_cases h2 : c.toNat ≤ 2047
  · rw [if_pos h2]
    show pieces (UInt8.ofNat (c.toNat / 64 % 32 + 192) :: UInt8.ofNat (c.toNat % 64 + 128) ::
      rest) = _
    rw [pieces_two (by omega) (by omega) (by omega) (by omega), hchar (by omega)]
  rw [if_neg h2]
  by_cases h3 : c.toNat ≤ 65535
  · have hsecond := isSecondOfThree_ofNat (show 0x800 ≤ c.toNat by omega) h3 (by omega)
    rw [if_pos h3]
    show pieces (UInt8.ofNat (c.toNat / 4096 % 16 + 224) ::
      UInt8.ofNat (c.toNat / 64 % 64 + 128) :: UInt8.ofNat (c.toNat % 64 + 128) :: rest) = _
    rw [pieces_three (by omega) (by omega) hsecond (by omega) (by omega) (by omega),
      hchar (by omega)]
  · have hsecond := isSecondOfFour_ofNat (show 0x10000 ≤ c.toNat by omega) (by omega)
    rw [if_neg h3]
    show pieces (UInt8.ofNat (c.toNat / 262144 % 8 + 240) ::
      UInt8.ofNat (c.toNat / 4096 % 64 + 128) :: UInt8.ofNat (c.toNat / 64 % 64 + 128) ::
        UInt8.ofNat (c.toNat % 64 + 128) :: rest) = _
    rw [pieces_four (by omega) (by omega) hsecond (by omega) (by omega) (by omega) (by omega)
      (by omega), hchar (by omega)]

theorem utf8EncodeChar_ne_nil (c : Char) : String.utf8EncodeChar c ≠ [] := by
  intro hnil
  have hpieces := pieces_utf8EncodeChar c []
  rw [hnil] at hpieces
  cases hpieces

theorem utf8EncodeChar_of_lt {c : Char} (h : c.toNat < 128) :
    String.utf8EncodeChar c = [UInt8.ofNat c.toNat] := by
  have hval : c.val.toNat = c.toNat := rfl
  unfold String.utf8EncodeChar
  dsimp only
  rw [hval, if_pos (Nat.le_of_lt_succ h)]

theorem pieces_encode (text : List Char) : pieces (encode text) = text.map some := by
  induction text with
  | nil => rfl
  | cons c rest ih =>
    show pieces (String.utf8EncodeChar c ++ encode rest) = _
    rw [pieces_utf8EncodeChar, ih]
    rfl

theorem decode_encode (text : List Char) : decode (encode text) = some text := by
  have hall : forall chars : List Char, (chars.map some).mapM id = some chars := by
    intro chars
    induction chars with
    | nil => rfl
    | cons c rest ih => simp [ih]
  unfold decode
  rw [pieces_encode, hall]

theorem decodeLossy_encode (text : List Char) : decodeLossy (encode text) = text := by
  have hkept : (fun piece : Option Char => piece.getD replacement) ∘ some = id := rfl
  unfold decodeLossy
  rw [pieces_encode, List.map_map, hkept, List.map_id]

theorem mem_utf8EncodeChar {c : Char} {b : UInt8} (hb : b ∈ String.utf8EncodeChar c) :
    c.toNat < 128 ∧ b = UInt8.ofNat c.toNat ∨ 128 ≤ c.toNat ∧ 128 ≤ b.toNat := by
  have hval : c.val.toNat = c.toNat := rfl
  have hbound : c.toNat < 0x110000 := by
    have hvalid : c.toNat < 0xD800 ∨ 0xDFFF < c.toNat ∧ c.toNat < 0x110000 := c.valid
    omega
  unfold String.utf8EncodeChar at hb
  dsimp only at hb
  rw [hval] at hb
  by_cases hascii : c.toNat ≤ 127
  · rw [if_pos hascii, List.mem_singleton] at hb
    exact Or.inl ⟨Nat.lt_succ_of_le hascii, hb⟩
  · rw [if_neg hascii] at hb
    have hbyte : exists n, 128 ≤ n ∧ n < 256 ∧ b = UInt8.ofNat n := by
      split_ifs at hb
      · rcases List.mem_pair.mp hb with rfl | rfl
        · exact ⟨_, by omega, by omega, rfl⟩
        · exact ⟨_, by omega, by omega, rfl⟩
      · simp only [List.mem_cons, List.not_mem_nil, or_false] at hb
        rcases hb with rfl | rfl | rfl
        · exact ⟨_, by omega, by omega, rfl⟩
        · exact ⟨_, by omega, by omega, rfl⟩
        · exact ⟨_, by omega, by omega, rfl⟩
      · simp only [List.mem_cons, List.not_mem_nil, or_false] at hb
        rcases hb with rfl | rfl | rfl | rfl
        · exact ⟨_, by omega, by omega, rfl⟩
        · exact ⟨_, by omega, by omega, rfl⟩
        · exact ⟨_, by omega, by omega, rfl⟩
        · exact ⟨_, by omega, by omega, rfl⟩
    rcases hbyte with ⟨n, hn, hn', rfl⟩
    rw [toNat_ofNat hn']
    exact Or.inr ⟨Nat.lt_of_not_le hascii, hn⟩

end Utf8

/-!
## Percent encoding
-/

namespace Percent

variable {c : Char} {text : List Char}

theorem hexValue?_hexDigit : forall n, n < 16 -> hexValue? (hexDigit n) = some n := by decide

theorem byte?_encodeByte (b : UInt8) :
    byte? (hexDigit (b.toNat / 16)) (hexDigit (b.toNat % 16)) = some b := by
  have hbound : b.toNat < 256 := b.toNat_lt
  unfold byte?
  rw [hexValue?_hexDigit _ (by omega), hexValue?_hexDigit _ (by omega)]
  dsimp only
  rw [Nat.div_add_mod', UInt8.ofNat_toNat]

theorem decode_encodeByte (b : UInt8) (rest : List Char) :
    decode (encodeByte b ++ rest) = b :: decode rest := by
  show decode ('%' :: hexDigit (b.toNat / 16) :: hexDigit (b.toNat % 16) :: rest) = _
  rw [decode.eq_def]
  dsimp only
  rw [if_pos (beq_self_eq_true '%'), byte?_encodeByte]

theorem decode_encodeBytes (bytes : List UInt8) (rest : List Char) :
    decode (bytes.flatMap encodeByte ++ rest) = bytes ++ decode rest := by
  induction bytes with
  | nil => rfl
  | cons b bytes ih => rw [List.flatMap_cons, List.append_assoc, decode_encodeByte, ih,
      List.cons_append]

theorem decode_cons_of_ne (hc : c ≠ '%') (rest : List Char) :
    decode (c :: rest) = String.utf8EncodeChar c ++ decode rest := by
  rw [decode.eq_def]
  dsimp only
  rw [if_neg (by simpa using hc)]

theorem ne_percent_of_isUnreserved (hc : isUnreserved c = true) : c ≠ '%' := by
  rintro rfl
  revert hc
  decide

/-- What is left of a text behind percent encoding spells its UTF-8 form, unless percent signs stand
for themselves. -/
theorem decode_encode_of_percent {stands : Char -> Bool} (h : stands '%' = false)
    (text : List Char) : decode (encode stands text) = Utf8.encode text := by
  induction text with
  | nil => rfl
  | cons c rest ih =>
    show decode (encodeChar stands c ++ encode stands rest) =
      String.utf8EncodeChar c ++ Utf8.encode rest
    unfold encodeChar
    by_cases hc : stands c = true
    · have hne : c ≠ '%' := by
        rintro rfl
        rw [h] at hc
        cases hc
      rw [if_pos hc, List.singleton_append, decode_cons_of_ne hne, ih]
    · rw [if_neg hc, decode_encodeBytes, ih]

theorem decode_encode (text : List Char) :
    decode (encode isUnreserved text) = Utf8.encode text :=
  decode_encode_of_percent (by decide) text

theorem encode_injective {text other : List Char}
    (h : encode isUnreserved text = encode isUnreserved other) : text = other := by
  have hbytes := congrArg decode h
  rw [decode_encode, decode_encode] at hbytes
  have htexts := congrArg Utf8.decode hbytes
  rw [Utf8.decode_encode, Utf8.decode_encode] at htexts
  exact Option.some.inj htexts

/-!
## Characters of encoded text
-/

def isEncoded (c : Char) : Bool := isUnreserved c || c == '%'

theorem isEncoded_hexDigit : forall n, n < 16 -> isEncoded (hexDigit n) = true := by decide

theorem isEncoded_of_mem_encode (h : c ∈ encode isUnreserved text) : isEncoded c = true := by
  rcases List.mem_flatMap.mp h with ⟨d, _, hc⟩
  unfold encodeChar at hc
  by_cases hd : isUnreserved d = true
  · rw [if_pos hd, List.mem_singleton] at hc
    rw [hc]
    exact Bool.or_eq_true_iff.mpr (Or.inl hd)
  · rw [if_neg hd] at hc
    rcases List.mem_flatMap.mp hc with ⟨b, _, hbyte⟩
    have hbound : b.toNat < 256 := b.toNat_lt
    simp only [encodeByte, List.mem_cons, List.not_mem_nil, or_false] at hbyte
    rcases hbyte with rfl | rfl | rfl
    · rfl
    · exact isEncoded_hexDigit _ (by omega)
    · exact isEncoded_hexDigit _ (by omega)

theorem encode_eq_self {stands : Char -> Bool} (h : forall c, c ∈ text -> stands c = true) :
    encode stands text = text := by
  induction text with
  | nil => rfl
  | cons c rest ih =>
    show encodeChar stands c ++ encode stands rest = c :: rest
    unfold encodeChar
    rw [if_pos (h c List.mem_cons_self), ih fun d hd => h d (List.mem_cons_of_mem c hd)]
    rfl

end Percent

/-!
## Dots
-/

namespace Url

open Percent

variable {c : Char} {rest : List Char}

theorem ne_dot_of_mem_utf8EncodeChar (hc : c ≠ '.') {b : UInt8}
    (hb : b ∈ String.utf8EncodeChar c) : b.toNat ≠ 46 := by
  rcases Utf8.mem_utf8EncodeChar hb with ⟨hascii, rfl⟩ | ⟨_, hb⟩
  · rw [Utf8.toNat_ofNat (by omega)]
    intro hdot
    exact hc (Char.toNat_inj.mp hdot)
  · omega

theorem dotText_cons_of_ne (hc : c ≠ '%') (rest : List Char) :
    dotText (c :: rest) = c :: dotText rest := by
  rw [dotText.eq_def]
  split
  · rename_i heq
    exact absurd (List.cons.inj heq).1 hc
  · rename_i heq
    exact absurd (List.cons.inj heq).1 hc
  · rename_i heq
    cases heq
    rfl
  · rename_i heq
    cases heq

theorem dotText_percent {high low : Char} (hhigh : high ≠ '%') (hlow : low ≠ '%')
    (hdot : ¬ (high = '2' ∧ (low = 'e' ∨ low = 'E'))) (rest : List Char) :
    dotText ('%' :: high :: low :: rest) = '%' :: high :: low :: dotText rest := by
  rw [dotText.eq_def]
  split
  · rename_i heq
    cases heq
    exact absurd ⟨rfl, Or.inl rfl⟩ hdot
  · rename_i heq
    cases heq
    exact absurd ⟨rfl, Or.inr rfl⟩ hdot
  · rename_i heq
    cases heq
    rw [dotText_cons_of_ne hhigh, dotText_cons_of_ne hlow]
  · rename_i heq
    cases heq

theorem hexDigit_cases : forall n, n < 16 -> hexDigit n ≠ '%' ∧ hexDigit n ≠ 'e' ∧
    (hexDigit n = '2' -> n = 2) ∧ (hexDigit n = 'E' -> n = 14) := by
  decide

theorem dotText_encodeByte {b : UInt8} (hb : b.toNat ≠ 46) (rest : List Char) :
    dotText (encodeByte b ++ rest) = encodeByte b ++ dotText rest := by
  have hbound : b.toNat < 256 := b.toNat_lt
  rcases hexDigit_cases (b.toNat / 16) (by omega) with ⟨hhigh, _, htwo, _⟩
  rcases hexDigit_cases (b.toNat % 16) (by omega) with ⟨hlow, hlower, _, hupper⟩
  apply dotText_percent hhigh hlow
  rintro ⟨hfirst, hsecond | hsecond⟩
  · exact hlower hsecond
  · have hdiv := htwo hfirst
    have hmod := hupper hsecond
    omega

theorem dotText_encodeBytes {bytes : List UInt8} (h : forall b, b ∈ bytes -> b.toNat ≠ 46)
    (rest : List Char) :
    dotText (bytes.flatMap encodeByte ++ rest) = bytes.flatMap encodeByte ++ dotText rest := by
  induction bytes with
  | nil => rfl
  | cons b bytes ih =>
    rw [List.flatMap_cons, List.append_assoc, dotText_encodeByte (h b List.mem_cons_self),
      ih fun d hd => h d (List.mem_cons_of_mem b hd), List.append_assoc]

theorem dotText_encode (text : List Char) :
    dotText (encode isUnreserved text) = encode isUnreserved text := by
  induction text with
  | nil => rfl
  | cons c rest ih =>
    show dotText (encodeChar isUnreserved c ++ encode isUnreserved rest) =
      encodeChar isUnreserved c ++ encode isUnreserved rest
    unfold encodeChar
    by_cases hc : isUnreserved c = true
    · rw [if_pos hc, List.singleton_append, dotText_cons_of_ne (ne_percent_of_isUnreserved hc), ih]
    · rw [if_neg hc]
      have hdot : c ≠ '.' := by
        rintro rfl
        exact hc (by decide)
      rw [dotText_encodeBytes fun b hb => ne_dot_of_mem_utf8EncodeChar hdot hb, ih]

end Url
end RestClient
