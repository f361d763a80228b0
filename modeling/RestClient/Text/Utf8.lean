/-!
# UTF-8

Text as bytes.  `encode` writes characters; `pieces` reads any bytes as characters and ill-formed
pieces, where an ill-formed piece is the longest run of bytes that begins a well-formed sequence,
or else a single byte.  Strict and forgiving reading are two views of the same pieces.
-/

namespace RestClient
namespace Utf8

def encode (text : List Char) : List UInt8 := text.flatMap String.utf8EncodeChar

theorem encode_append (a b : List Char) : encode (a ++ b) = encode a ++ encode b := by
  unfold encode
  rw [List.flatMap_append]

def bytes (text : String) : List UInt8 := encode text.toList

def isContinuation (b : UInt8) : Bool := 0x80 ≤ b && b ≤ 0xBF

/-- Which second bytes may follow the lead byte of a three byte sequence: those that give neither
an overlong form nor a surrogate. -/
def isSecondOfThree (lead b : UInt8) : Bool :=
  if lead == 0xE0 then 0xA0 ≤ b && b ≤ 0xBF
  else if lead == 0xED then 0x80 ≤ b && b ≤ 0x9F
  else isContinuation b

/-- Which second bytes may follow the lead byte of a four byte sequence: those that give neither
an overlong form nor a code point beyond the last one. -/
def isSecondOfFour (lead b : UInt8) : Bool :=
  if lead == 0xF0 then 0x90 ≤ b && b ≤ 0xBF
  else if lead == 0xF4 then 0x80 ≤ b && b ≤ 0x8F
  else isContinuation b

def payload (b : UInt8) : Nat := b.toNat % 64

/-- Characters, and `none` for each ill-formed piece. -/
def pieces : List UInt8 -> List (Option Char)
  | [] => []
  | a :: rest =>
    if a < 0x80 then some (Char.ofNat a.toNat) :: pieces rest
    else if 0xC2 ≤ a && a ≤ 0xDF then
      match rest with
      | [] => [none]
      | b :: rest =>
        if isContinuation b then
          some (Char.ofNat (a.toNat % 32 * 64 + payload b)) :: pieces rest
        else none :: pieces (b :: rest)
    else if 0xE0 ≤ a && a ≤ 0xEF then
      match rest with
      | [] => [none]
      | b :: rest =>
        if isSecondOfThree a b then
          match rest with
          | [] => [none]
          | c :: rest =>
            if isContinuation c then
              some (Char.ofNat ((a.toNat % 16 * 64 + payload b) * 64 + payload c)) :: pieces rest
            else none :: pieces (c :: rest)
        else none :: pieces (b :: rest)
    else if 0xF0 ≤ a && a ≤ 0xF4 then
      match rest with
      | [] => [none]
      | b :: rest =>
        if isSecondOfFour a b then
          match rest with
          | [] => [none]
          | c :: rest =>
            if isContinuation c then
              match rest with
              | [] => [none]
              | d :: rest =>
                if isContinuation d then
                  some (Char.ofNat
                    (((a.toNat % 8 * 64 + payload b) * 64 + payload c) * 64 + payload d)) ::
                      pieces rest
                else none :: pieces (d :: rest)
            else none :: pieces (c :: rest)
        else none :: pieces (b :: rest)
    else none :: pieces rest

def decode (bytes : List UInt8) : Option (List Char) := (pieces bytes).mapM id

def leading (bytes : List UInt8) : List Char :=
  ((pieces bytes).takeWhile Option.isSome).filterMap id

def brokenLength (bytes : List UInt8) : Nat := bytes.length - (encode (leading bytes)).length

def replacement : Char := '\uFFFD'

def decodeLossy (bytes : List UInt8) : List Char := (pieces bytes).map (·.getD replacement)

end Utf8
end RestClient
