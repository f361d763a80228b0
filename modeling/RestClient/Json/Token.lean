import RestClient.Json.Failure

/-!
# Tokens

The first layer of reading: words, numbers, strings, and what a value begins with.  Every reader
takes the unread bytes and returns what it read with the bytes that are left.
-/

namespace RestClient
namespace Json

abbrev Reader (α : Type) := List UInt8 -> Except Failure (α × List UInt8)

namespace Reader

/-- A failure at the front of `rest`. -/
def failAt {α : Type} (fault : Fault) (rest : List UInt8) : Except Failure α :=
  .error ⟨fault, rest.length⟩

/-- A failure just behind the first byte of `rest`, the byte that was not expected. -/
def failPast {α : Type} (fault : Fault) (rest : List UInt8) : Except Failure α :=
  .error ⟨fault, rest.tail.length⟩

def isSpace (b : UInt8) : Bool := b == 0x20 || b == 0x0A || b == 0x09 || b == 0x0D

def skipSpace (s : List UInt8) : List UInt8 := s.dropWhile isSpace

abbrev byte (c : Char) : UInt8 := c.toUInt8

def word : List UInt8 -> Reader Unit
  | [], s => .ok ((), s)
  | _ :: _, [] => failAt .endInValue []
  | w :: rest, b :: s => if b == w then word rest s else failAt .expectedWord s

/-!
## Numbers

The digits of a number are gathered into one significand as long as it stays below `2^64`; of the
digits that no longer fit, those before the point are counted as powers of ten and those behind it
are ignored.  A number with a point, an exponent or too many digits is floating point, the
significand scaled by its power of ten with one rounding each.
-/

def isDigit (b : UInt8) : Bool := 0x30 ≤ b && b ≤ 0x39

def digitValue (b : UInt8) : Nat := b.toNat - 48

/-- Appends digits to a significand while it stays below `limit`; the digits from the first one on
that does not fit are returned. -/
def gather (limit significand : Nat) : List UInt8 -> Nat × List UInt8
  | [] => (significand, [])
  | d :: digits =>
    let next := significand * 10 + digitValue d
    if next < limit then gather limit next digits else (significand, d :: digits)

def powerOfTen (n : Nat) : Binary64 := (Binary64.ofNat (Nat.pow 10 n)).getD .zero

/-- The number `significand * 10 ^ exponent`, with one rounding for the significand and one for each
scaling by at most 308 powers of ten.  Too great a number has no value. -/
def scaled (significand : Nat) (exponent : Int) : Option Binary64 :=
  if significand == 0 then some .zero
  else
    match Binary64.ofNat significand with
    | none => none
    | some x =>
      if 308 < exponent then none
      else if 0 ≤ exponent then x.mul (powerOfTen exponent.toNat)
      else if -308 ≤ exponent then x.div (powerOfTen (-exponent).toNat)
      else if -616 ≤ exponent then
        match x.div (powerOfTen 308) with
        | some y => y.div (powerOfTen (-exponent - 308).toNat)
        | none => none
      else some .zero

def withSign (negative : Bool) (x : Binary64) : Number :=
  .float (if negative then x.neg else x)

def scaledNumber (negative : Bool) (significand : Nat) (exponent : Int) : Reader Number := fun s =>
  match scaled significand exponent with
  | some x => .ok (withSign negative x, s)
  | none => failAt .numberOutOfRange s

def exponentPart (negative : Bool) (significand : Nat) (power : Int) : Reader Number := fun s =>
  let (down, s) := match s with
    | b :: rest =>
      if b == byte '+' then (false, rest)
      else if b == byte '-' then (true, rest)
      else (false, s)
    | [] => (false, [])
  match s with
  | [] => failAt .endInValue []
  | b :: rest =>
    if isDigit b then
      let digits := rest.takeWhile isDigit
      let rest := rest.dropWhile isDigit
      match gather (1 <<< 31) (digitValue b) digits with
      | (e, []) => scaledNumber negative significand (if down then power - e else power + e) rest
      | (_, _ :: ignored) =>
        if significand != 0 && !down then failAt .numberOutOfRange (ignored ++ rest)
        else .ok (withSign negative .zero, rest)
    else failAt .invalidNumber rest

def exponentPart? (negative : Bool) (significand : Nat) (power : Int) : Reader Number := fun s =>
  match s with
  | b :: rest =>
    if b == byte 'e' || b == byte 'E' then exponentPart negative significand power rest
    else scaledNumber negative significand power s
  | [] => scaledNumber negative significand power []

def fractionPart (negative : Bool) (significand : Nat) (power : Int) : Reader Number := fun s =>
  let digits := s.takeWhile isDigit
  let rest := s.dropWhile isDigit
  if digits.isEmpty then
    match rest with
    | [] => failPast .endInValue []
    | _ :: _ => failPast .invalidNumber rest
  else
    let (significand, ignored) := gather UInt64.size significand digits
    exponentPart? negative significand (power - (digits.length - ignored.length : Nat)) rest

/-- A whole number, which is floating point if its sign stands before zero or its magnitude does
not fit 64 bits. -/
def wholeNumber (negative : Bool) (significand : Nat) : Reader Number := fun s =>
  if !negative then .ok (.integer significand, s)
  else if significand == 0 || 1 <<< 63 < significand then scaledNumber true significand 0 s
  else .ok (.integer (-significand), s)

/-- Reads what may follow the digits before the point, of which `excess` did not fit. -/
def afterDigits (negative : Bool) (significand excess : Nat) : Reader Number := fun s =>
  match s with
  | b :: rest =>
    if b == byte '.' then fractionPart negative significand excess rest
    else if b == byte 'e' || b == byte 'E' then exponentPart negative significand excess rest
    else if excess == 0 then wholeNumber negative significand s
    else scaledNumber negative significand excess s
  | [] =>
    if excess == 0 then wholeNumber negative significand []
    else scaledNumber negative significand excess []

/-- Reads a number without its sign.  A leading zero stands alone. -/
def number (negative : Bool) : Reader Number
  | [] => failAt .endInValue []
  | b :: rest =>
    if b == byte '0' then
      match rest with
      | d :: _ => if isDigit d then failPast .invalidNumber rest else afterDigits negative 0 0 rest
      | [] => afterDigits negative 0 0 []
    else if isDigit b then
      let (significand, ignored) := gather UInt64.size (digitValue b) (rest.takeWhile isDigit)
      afterDigits negative significand ignored.length (rest.dropWhile isDigit)
    else failAt .invalidNumber rest

/-!
## Strings
-/

def hexDigit? (b : UInt8) : Option Nat :=
  if 0x30 ≤ b && b ≤ 0x39 then some (b.toNat - 48)
  else if 0x41 ≤ b && b ≤ 0x46 then some (b.toNat - 55)
  else if 0x61 ≤ b && b ≤ 0x66 then some (b.toNat - 87)
  else none

def hexUnit? (a b c d : UInt8) : Option Nat :=
  match hexDigit? a, hexDigit? b, hexDigit? c, hexDigit? d with
  | some a, some b, some c, some d => some (((a * 16 + b) * 16 + c) * 16 + d)
  | _, _, _, _ => none

def shortEscape? (b : UInt8) : Option UInt8 :=
  if b == byte '"' || b == byte '\\' || b == byte '/' then some b
  else if b == byte 'b' then some 0x08
  else if b == byte 'f' then some 0x0C
  else if b == byte 'n' then some 0x0A
  else if b == byte 'r' then some 0x0D
  else if b == byte 't' then some 0x09
  else none

def isHighSurrogate (n : Nat) : Bool := 0xD800 ≤ n && n ≤ 0xDBFF

def isLowSurrogate (n : Nat) : Bool := 0xDC00 ≤ n && n ≤ 0xDFFF

def codePoint (n : Nat) : List UInt8 := String.utf8EncodeChar (Char.ofNat n)

def pairValue (high low : Nat) : Nat := (high - 0xD800) * 0x400 + (low - 0xDC00) + 0x10000

def prepend (bytes : List UInt8) :
    Except Failure (List UInt8 × List UInt8) -> Except Failure (List UInt8 × List UInt8)
  | .ok (read, rest) => .ok (bytes ++ read, rest)
  | .error f => .error f

/-- Reads the content of a string up to its closing quote, escapes resolved.  A surrogate is read
only as half of a pair. -/
def content : Reader (List UInt8)
  | [] => failAt .endInString []
  | b :: s =>
    if b == byte '"' then .ok ([], s)
    else if b == byte '\\' then
      match s with
      | [] => failAt .endInString []
      | e :: s =>
        if e == byte 'u' then
          match s with
          | h₁ :: h₂ :: h₃ :: h₄ :: s =>
            match hexUnit? h₁ h₂ h₃ h₄ with
            | none => failAt .invalidEscape s
            | some n =>
              if isLowSurrogate n then failAt .loneSurrogate s
              else if isHighSurrogate n then
                match s with
                | [] => failAt .endInString []
                | b :: s =>
                  if b == byte '\\' then
                    match s with
                    | [] => failAt .endInString []
                    | e :: s =>
                      if e == byte 'u' then
                        match s with
                        | l₁ :: l₂ :: l₃ :: l₄ :: s =>
                          match hexUnit? l₁ l₂ l₃ l₄ with
                          | none => failAt .invalidEscape s
                          | some m =>
                            if isLowSurrogate m then
                              prepend (codePoint (pairValue n m)) (content s)
                            else failAt .loneSurrogate s
                        | _ => failAt .endInString []
                      else failAt .endInEscape s
                  else failAt .endInEscape s
              else prepend (codePoint n) (content s)
          | _ => failAt .endInString []
        else
          match shortEscape? e with
          | some c => prepend [c] (content s)
          | none => failAt .invalidEscape s
    else if b < 0x20 then failAt .controlCharacter s
    else prepend [b] (content s)

/-- Reads a string behind its opening quote.  Its content has to be UTF-8; if it is not, the failure
lies as many bytes in front of the string's end as the content has from its first ill-formed piece
on. -/
def stringBody : Reader String := fun s =>
  match content s with
  | .error f => .error f
  | .ok (bytes, rest) =>
    match Utf8.decode bytes with
    | some text => .ok (String.ofList text, rest)
    | none => .error ⟨.invalidCodePoint, rest.length + Utf8.brokenLength bytes⟩

/-!
## What a value begins with
-/

def mapRead {α β : Type} (f : α -> β) :
    Except Failure (α × List UInt8) -> Except Failure (β × List UInt8)
  | .ok (a, rest) => .ok (f a, rest)
  | .error e => .error e

/-- Reads a scalar, or finds an opening bracket and leaves it unread. -/
def token : Reader Token := fun s =>
  match skipSpace s with
  | [] => failPast .endInValue []
  | b :: rest =>
    if b == byte 'n' then mapRead (fun _ => .null) (word [byte 'u', byte 'l', byte 'l'] rest)
    else if b == byte 't' then
      mapRead (fun _ => .bool true) (word [byte 'r', byte 'u', byte 'e'] rest)
    else if b == byte 'f' then
      mapRead (fun _ => .bool false) (word [byte 'a', byte 'l', byte 's', byte 'e'] rest)
    else if b == byte '-' then mapRead .number (number true rest)
    else if isDigit b then mapRead .number (number false (b :: rest))
    else if b == byte '"' then mapRead .string (stringBody rest)
    else if b == byte '[' then .ok (.list, b :: rest)
    else if b == byte '\x7b' then .ok (.object, b :: rest)
    else failPast .expectedValue (b :: rest)

end Reader
end Json
end RestClient
