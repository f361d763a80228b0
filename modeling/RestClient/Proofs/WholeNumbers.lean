import RestClient.Proofs.ReadingBack

/-!
# Whole numbers read back

A whole number of 64 bits, with a sign or without one, is written in decimal digits and read back
from them: the digits are gathered into one significand, which never reaches the limit at which
reading would turn to floating point.
-/

namespace RestClient
namespace Json

open Reader

/-!
## Digits
-/

def decimal (n : Nat) : List UInt8 := (Nat.toDigits 10 n).map byte

theorem isDigit_toDigits (n : Nat) : forall c, c ∈ Nat.toDigits 10 n -> c.isDigit = true :=
  fun _ => Nat.isDigit_of_mem_toDigits (by decide) (by decide)

section Digit

variable {c : Char} (h : c.isDigit = true)
include h

theorem toNat_range_of_isDigit : 48 ≤ c.toNat ∧ c.toNat ≤ 57 :=
  Char.isDigit_iff_toNat.mp h

theorem toNat_byte : (byte c).toNat = c.toNat := by
  have hrange := toNat_range_of_isDigit h
  exact Utf8.toNat_ofNat (show c.toNat < 256 by omega)

theorem isDigit_byte : isDigit (byte c) = true := by
  unfold isDigit
  rw [Bool.and_eq_true, decide_eq_true_eq, decide_eq_true_eq, UInt8.le_iff_toNat_le,
    UInt8.le_iff_toNat_le, toNat_byte h]
  exact toNat_range_of_isDigit h

theorem digitValue_byte : digitValue (byte c) = c.toNat - 48 := by
  unfold digitValue
  rw [toNat_byte h]

theorem byte_ne_zero (hne : c ≠ '0') : byte c ≠ byte '0' := by
  intro heq
  have hnat := congrArg UInt8.toNat heq
  rw [toNat_byte h] at hnat
  exact hne (Char.toNat_inj.mp hnat)

end Digit

theorem encode_toDigits (n : Nat) : Utf8.encode (Nat.toDigits 10 n) = decimal n := by
  have hall : forall text : List Char, (forall c, c ∈ text -> c.isDigit = true) ->
      Utf8.encode text = text.map byte := by
    intro text h
    induction text with
    | nil => rfl
    | cons c rest ih =>
      have hrange := toNat_range_of_isDigit (h c List.mem_cons_self)
      have hrest := ih fun d hd => h d (List.mem_cons_of_mem c hd)
      show String.utf8EncodeChar c ++ Utf8.encode rest = _
      rw [Utf8.utf8EncodeChar_of_lt (by omega), hrest]
      rfl
  exact hall _ (isDigit_toDigits n)

theorem digits_map_byte {text : List Char} (h : forall c, c ∈ text -> c.isDigit = true) :
    Digits (text.map byte) := by
  intro b hb
  rcases List.mem_map.mp hb with ⟨c, hc, rfl⟩
  exact isDigit_byte (h c hc)

theorem exists_cons_toDigits {n : Nat} (h : n ≠ 0) :
    exists c rest, Nat.toDigits 10 n = c :: rest ∧ c ≠ '0' := by
  have hdigit : forall d, d < 10 -> d ≠ 0 -> Nat.digitChar d ≠ '0' := by decide
  induction n using Nat.strongRecOn with
  | ind n ih =>
    by_cases hsmall : n < 10
    · exact ⟨_, [], Nat.toDigits_of_lt_base hsmall, hdigit n hsmall h⟩
    · rcases ih (n / 10) (by omega) (by omega) with ⟨c, rest, hrest, hne⟩
      have hdigits := Nat.toDigits_of_base_le (b := 10) (by decide) (Nat.le_of_not_lt hsmall)
      rw [hrest] at hdigits
      exact ⟨c, _, hdigits, hne⟩

theorem isNumber_decimal (n : Nat) : IsNumber (decimal n) := by
  have hnumber : forall {whole}, IsWhole whole -> IsNumber whole := by
    intro whole hwhole
    have hparts := IsNumber.parts hwhole .none .none
    rw [List.append_nil, List.append_nil] at hparts
    exact hparts
  apply hnumber
  by_cases h : n = 0
  · rw [h]
    exact .zero
  · rcases exists_cons_toDigits h with ⟨c, rest, hdigits, hne⟩
    rcases List.forall_mem_cons.mp (hdigits ▸ isDigit_toDigits n) with ⟨hc, hrest⟩
    unfold decimal
    rw [hdigits]
    exact .digits (isDigit_byte hc) (byte_ne_zero hc hne) (digits_map_byte hrest)

/-!
## Reading
-/

theorem le_ofDigitChars (digits : List Char) (significand : Nat) :
    significand ≤ Nat.ofDigitChars 10 digits significand := by
  induction digits generalizing significand with
  | nil => exact Nat.le_refl significand
  | cons c rest ih =>
    rw [Nat.ofDigitChars_cons]
    have hrest := ih (10 * significand + (c.toNat - '0'.toNat))
    omega

/-- All digits are gathered if the number stays below the limit, since no part of it is greater. -/
theorem gather_map_byte {limit significand : Nat} {digits : List Char}
    (h : forall c, c ∈ digits -> c.isDigit = true)
    (hlimit : Nat.ofDigitChars 10 digits significand < limit) :
    gather limit significand (digits.map byte) =
      (Nat.ofDigitChars 10 digits significand, []) := by
  induction digits generalizing significand with
  | nil => rfl
  | cons c rest ih =>
    have hvalue : significand * 10 + digitValue (byte c) =
        10 * significand + (c.toNat - '0'.toNat) := by
      rw [digitValue_byte (h c List.mem_cons_self), Nat.mul_comm]
      rfl
    rw [Nat.ofDigitChars_cons] at hlimit ⊢
    rw [List.map_cons, gather, hvalue,
      if_pos (Nat.lt_of_le_of_lt (le_ofDigitChars rest _) hlimit)]
    exact ih (fun d hd => h d (List.mem_cons_of_mem c hd)) hlimit

theorem number_decimal {n : Nat} (hn : n < UInt64.size) (negative : Bool) :
    Reader.number negative (decimal n) = wholeNumber negative n [] := by
  by_cases h : n = 0
  · rw [h]
    rfl
  · rcases exists_cons_toDigits h with ⟨c, rest, hdigits, hne⟩
    rcases List.forall_mem_cons.mp (hdigits ▸ isDigit_toDigits n) with ⟨hc, hrest⟩
    have hvalue : Nat.ofDigitChars 10 rest (digitValue (byte c)) = n := by
      have hread := Nat.ofDigitChars_toDigits (b := 10) (n := n) (by decide) (by decide)
      rw [hdigits, Nat.ofDigitChars_cons, Nat.mul_zero, Nat.zero_add] at hread
      rw [digitValue_byte hc]
      exact hread
    have hgather : gather UInt64.size (digitValue (byte c)) (rest.map byte) = _ :=
      gather_map_byte hrest (hvalue.symm ▸ hn)
    have htake := (digits_map_byte hrest).takeWhile Delimits.nil.noDigit
    have hdrop := (digits_map_byte hrest).dropWhile Delimits.nil.noDigit
    rw [List.append_nil] at htake hdrop
    rw [hvalue] at hgather
    unfold decimal
    rw [hdigits, List.map_cons]
    simp only [Reader.number, beq_iff_eq, byte_ne_zero hc hne, isDigit_byte hc, if_true, if_false,
      htake, hdrop, hgather]
    rfl

/-!
## Whole numbers of 64 bits
-/

def IsWord (n : Int) : Prop := -(1 <<< 63 : Nat) ≤ n ∧ n < (UInt64.size : Nat)

instance (n : Int) : Decidable (IsWord n) := inferInstanceAs (Decidable (_ ∧ _))

def writtenInteger (n : Int) : Form :=
  if n < 0 then .scalar ⟨_, .negative (isNumber_decimal n.natAbs)⟩
  else .scalar ⟨_, .number (isNumber_decimal n.natAbs)⟩

theorem text_writtenInteger (n : Int) :
    (writtenInteger n).text = (number (.integer n)).toBytes := by
  have hbytes : (number (.integer n)).toBytes = Utf8.encode
      (if n < 0 then '-' :: Nat.toDigits 10 n.natAbs else Nat.toDigits 10 n.natAbs) := rfl
  unfold writtenInteger
  by_cases h : n < 0
  · rw [hbytes, if_pos h, if_pos h, Form.text]
    exact congrArg (byte '-' :: ·) (encode_toDigits n.natAbs).symm
  · rw [hbytes, if_neg h, if_neg h, Form.text, encode_toDigits]

theorem wholeNumber_natAbs {n : Int} (h : -(1 <<< 63 : Nat) ≤ n) :
    wholeNumber (decide (n < 0)) n.natAbs [] = .ok (.integer n, []) := by
  unfold wholeNumber
  by_cases hn : n < 0
  · have hinteger : (n.natAbs == 0 || decide (1 <<< 63 < n.natAbs)) = false := by
      rw [Bool.or_eq_false_iff, beq_eq_false_iff_ne, decide_eq_false_iff_not]
      omega
    have hvalue : -(n.natAbs : Int) = n := by omega
    rw [decide_eq_true hn, hinteger, hvalue]
    rfl
  · have hvalue : (n.natAbs : Int) = n := by omega
    rw [decide_eq_false hn, hvalue]
    rfl

theorem token_writtenInteger {n : Int} (h : IsWord n) :
    token (writtenInteger n).text = .ok (.number (.integer n), []) := by
  have hsize : n.natAbs < UInt64.size := by
    have heq : UInt64.size = 2 ^ 64 := rfl
    unfold IsWord at h
    omega
  have hwhole := wholeNumber_natAbs h.1
  unfold writtenInteger
  by_cases hn : n < 0
  · rw [if_pos hn, Form.text]
    show mapRead Token.number (Reader.number true (decimal n.natAbs)) = _
    rw [decide_eq_true hn] at hwhole
    rw [number_decimal hsize, hwhole]
    rfl
  · have htoken : token (decimal n.natAbs ++ []) = _ :=
      token_of_isNumber (isNumber_decimal n.natAbs)
    rw [List.append_nil] at htoken
    rw [decide_eq_false hn] at hwhole
    rw [if_neg hn, Form.text, htoken, number_decimal hsize, hwhole]
    rfl

theorem carries_any_integer {n : Int} (h : IsWord n) :
    Carries any 0 (number (.integer n)) (number (.integer n)) (writtenInteger n) where
  text_eq := text_writtenInteger n
  valueOf_eq {allowance} _ := valueOf_any (token_writtenInteger h) rfl allowance

theorem carries_natBelow {n limit : Nat} (hn : n < limit) (hlimit : limit ≤ UInt64.size)
    (wanted : String) : Carries (natBelow limit wanted) 0 (ofNat n) n (writtenInteger n) where
  text_eq := text_writtenInteger n
  valueOf_eq {allowance} _ := by
    have hword : IsWord n := by
      unfold IsWord
      omega
    rw [(accepts_natBelow limit wanted).valueOf_eq (token_writtenInteger hword)]
    exact if_pos ⟨Int.natCast_nonneg n, Int.ofNat_lt.mpr hn⟩

theorem carries_uint32 (n : UInt32) : Carries decoder 0 (encode n) n (writtenInteger n.toNat) := by
  have hcarries := (carries_natBelow n.toNat_lt (by decide) "u32").mapRead UInt32.ofNat
  rw [UInt32.ofNat_toNat] at hcarries
  exact hcarries

theorem carries_uint64 (n : UInt64) : Carries decoder 0 (encode n) n (writtenInteger n.toNat) := by
  have hcarries := (carries_natBelow n.toNat_lt (by decide) "u64").mapRead UInt64.ofNat
  rw [UInt64.ofNat_toNat] at hcarries
  exact hcarries

end Json
end RestClient
