import RestClient.Text.Folding
import RestClient.Text.Percent
import RestClient.Text.Punycode
import RestClient.Url.Basic

/-!
# Hosts

Reading the host of an address.  In a special scheme it is a domain name in ASCII, or an address of
version 4 if it ends in a number; in any other scheme it is kept as it is written.  An address of
version 6 stands between brackets.
-/

namespace RestClient

namespace Host

/-!
## Version 4
-/

def digitValue? (base : Nat) (c : Char) : Option Nat :=
  (Percent.hexValue? c).bind fun d => if d < base then some d else none

/-- The value of digits in a base; no digits have the value zero. -/
def numeral? (base : Nat) (digits : List Char) : Option Nat :=
  digits.foldlM (fun value c => (digitValue? base c).map (value * base + ·)) 0

/-- A part of a version 4 address: hexadecimal behind `0x`, octal behind another leading zero, and
decimal otherwise. -/
def ipv4Part? : List Char -> Option Nat
  | [] => none
  | '0' :: 'x' :: digits => numeral? 16 digits
  | '0' :: 'X' :: digits => numeral? 16 digits
  | '0' :: d :: digits => numeral? 8 (d :: digits)
  | digits => numeral? 10 digits

/-- The parts of a dotted name, without an empty one at its end. -/
def dotted (name : List Char) : List (List Char) :=
  let parts := splitBy (· == '.') name
  if 1 < parts.length && parts.getLast? == some [] then parts.dropLast else parts

/-- Whether the last part of a name is a number, so that the name has to be an address. -/
def endsInNumber (name : List Char) : Bool :=
  match (dotted name).getLast? with
  | none => false
  | some [] => false
  | some last => last.all Char.isDigit || (ipv4Part? last).isSome

/-- The address whose parts are given, the last of which fills all remaining bytes. -/
def ipv4OfParts (parts : List Nat) : Except UrlFault Host :=
  match parts.getLast? with
  | none => .error .invalidIpv4
  | some last =>
    let front := parts.dropLast
    if 4 < parts.length || front.any (255 < ·) || 1 <<< (8 * (4 - front.length)) ≤ last then
      .error .invalidIpv4
    else
      .ok (.ipv4 (front.zipIdx.foldl (fun sum part => sum + part.1 <<< (8 * (3 - part.2))) last))

def ofNumbers (name : List Char) : Except UrlFault Host :=
  match (dotted name).mapM ipv4Part? with
  | none => .error .invalidIpv4
  | some parts => ipv4OfParts parts

/-!
## Version 6

Pieces of up to four hexadecimal digits with colons between them; two colons stand for the run of
zeros that fills the address up to eight pieces, and the last two pieces may be written as an
address of version 4.
-/

def octet? (text : List Char) : Option Nat :=
  match text with
  | [] => none
  | '0' :: _ :: _ => none
  | _ =>
    if text.all Char.isDigit then (numeral? 10 text).filter (· < 256) else none

def ipv4Pieces? (text : List Char) : Option (List Nat) :=
  match (splitBy (· == '.') text).mapM octet? with
  | some [a, b, c, d] => some [a * 256 + b, c * 256 + d]
  | _ => none

def piece? (text : List Char) : Option Nat :=
  if text.isEmpty || 4 < text.length then none else numeral? 16 text

/-- The pieces of a text without a double colon, of which the last may be of version 4. -/
def pieces? : List (List Char) -> Option (List Nat)
  | [] => some []
  | [last] =>
    if last.contains '.' then ipv4Pieces? last else (piece? last).map ([·])
  | part :: rest => do
    let value ← piece? part
    let values ← pieces? rest
    return value :: values

def splitDouble : List Char -> Option (List Char × List Char)
  | [] => none
  | ':' :: ':' :: rest => some ([], rest)
  | c :: rest => (splitDouble rest).map fun found => (c :: found.1, found.2)

def side? (text : List Char) : Option (List Nat) :=
  if text.isEmpty then some [] else pieces? (splitBy (· == ':') text)

def ofPieces (text : List Char) : Except UrlFault Host :=
  match splitDouble text with
  | none =>
    match side? text with
    | some pieces => if pieces.length == 8 then .ok (.ipv6 pieces) else .error .invalidIpv6
    | none => .error .invalidIpv6
  | some (before, after) =>
    match side? before, side? after with
    | some front, some back =>
      if front.length + back.length < 8 && !before.contains '.' then
        .ok (.ipv6 (front ++ List.replicate (8 - front.length - back.length) 0 ++ back))
      else .error .invalidIpv6
    | _, _ => .error .invalidIpv6

def bracketed (text : List Char) : Except UrlFault Host :=
  if text.getLast? == some ']' then ofPieces text.dropLast else .error .invalidIpv6

/-!
## Names
-/

def isForbidden (c : Char) : Bool :=
  c.toNat ≤ 0x20 || c.toNat == 0x7F || c == '%' || c == '#' || c == '/' || c == ':' || c == '<' ||
    c == '>' || c == '?' || c == '@' || c == '[' || c == '\\' || c == ']' || c == '^' || c == '|'

/-- A name that a label in Punycode may stand for: it is not all ASCII, its characters are folded,
and it begins neither with a mark nor as a label in Punycode does. -/
def standsForLabel (name : List Char) : Bool :=
  name.any (fun c => 0x80 ≤ c.toNat) &&
    name.all (fun c => c.toNat < 0x80 || Folding.isFolded c) &&
    !(name.head?.any Folding.isMark) && !("xn--".toList.isPrefixOf name)

def longestLabel : Nat := 2000

def isLabel : List Char -> Bool
  | 'x' :: 'n' :: '-' :: '-' :: text =>
    text.length ≤ longestLabel && (Punycode.decode? text).any standsForLabel
  | _ => true

/-- The domain name that a host's text stands for.  Names in other scripts are known in Punycode
only, and there without joiners. -/
def domain? (text : List Char) : Option (List Char) :=
  match Utf8.decode (Percent.decode text) with
  | none => none
  | some name =>
    let lower := name.map Char.toLower
    if name.all (fun c => c.toNat < 0x80 && !isForbidden c) &&
        (splitBy (· == '.') lower).all isLabel then
      some lower
    else none

def special (text : List Char) : Except UrlFault Host :=
  match text with
  | '[' :: rest => bracketed rest
  | _ =>
    match domain? text with
    | none => .error .invalidDomain
    | some [] => .error .emptyHost
    | some name => if endsInNumber name then ofNumbers name else .ok (.domain name)

def isHostSyntax (c : Char) : Bool :=
  c == '\x00' || c == '\t' || c == '\n' || c == '\r' || c == ' ' || c == '#' || c == '/' ||
    c == ':' || c == '<' || c == '>' || c == '?' || c == '@' || c == '[' || c == '\\' ||
    c == ']' || c == '^' || c == '|'

def isGraphic (c : Char) : Bool := 0x20 ≤ c.toNat && c.toNat < 0x7F

def verbatim (text : List Char) : Except UrlFault Host :=
  match text with
  | '[' :: rest => bracketed rest
  | _ =>
    if text.any isHostSyntax then .error .invalidHostCharacter
    else .ok (.domain (Percent.encode isGraphic text))

end Host
end RestClient
