import RestClient.Text.Utf8

/-!
# Percent encoding

A character that may not stand for itself is written as the bytes of its UTF-8 form, each as a
percent sign and two upper case hexadecimal digits.  Decoding leaves a percent sign that no two
digits follow as it is.
-/

namespace RestClient
namespace Percent

def hexDigit (n : Nat) : Char := (Nat.digitChar n).toUpper

def encodeByte (b : UInt8) : List Char :=
  ['%', hexDigit (b.toNat / 16), hexDigit (b.toNat % 16)]

def encodeChar (stands : Char -> Bool) (c : Char) : List Char :=
  if stands c then [c] else (String.utf8EncodeChar c).flatMap encodeByte

def encode (stands : Char -> Bool) (text : List Char) : List Char :=
  text.flatMap (encodeChar stands)

def hexValue? (c : Char) : Option Nat :=
  if '0' ≤ c ∧ c ≤ '9' then some (c.toNat - 48)
  else if 'A' ≤ c ∧ c ≤ 'F' then some (c.toNat - 55)
  else if 'a' ≤ c ∧ c ≤ 'f' then some (c.toNat - 87)
  else none

def byte? (high low : Char) : Option UInt8 :=
  match hexValue? high, hexValue? low with
  | some h, some l => some (UInt8.ofNat (h * 16 + l))
  | _, _ => none

def decode : List Char -> List UInt8
  | [] => []
  | c :: rest =>
    if c == '%' then
      match rest with
      | h :: l :: after =>
        match byte? h l with
        | some b => b :: decode after
        | none => String.utf8EncodeChar c ++ decode (h :: l :: after)
      | [h] => String.utf8EncodeChar c ++ decode [h]
      | [] => String.utf8EncodeChar c
    else String.utf8EncodeChar c ++ decode rest

def isUnreserved (c : Char) : Bool :=
  c.isAlphanum || c == '-' || c == '_' || c == '.' || c == '~'

/-!
## Forms

Names and values of a form: a space is written as a plus sign.
-/

def isFormChar (c : Char) : Bool :=
  c.isAlphanum || c == '*' || c == '-' || c == '.' || c == '_'

def encodeFormChar (c : Char) : List Char :=
  if c == ' ' then ['+'] else encodeChar isFormChar c

def encodeForm (text : List Char) : List Char := text.flatMap encodeFormChar

end Percent
end RestClient
