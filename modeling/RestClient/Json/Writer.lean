import RestClient.Json.Basic
import RestClient.Binary64.Shortest
import RestClient.Text.Utf8

/-!
# Writing JSON

The compact text of a JSON value: no space anywhere, and escapes in strings only for the quote,
the backslash and the control characters below U+0020.
-/

namespace RestClient
namespace Json

def escapeChar (c : Char) : List Char :=
  if c == '"' then ['\\', '"']
  else if c == '\\' then ['\\', '\\']
  else if c == '\x08' then ['\\', 'b']
  else if c == '\t' then ['\\', 't']
  else if c == '\n' then ['\\', 'n']
  else if c == '\x0c' then ['\\', 'f']
  else if c == '\r' then ['\\', 'r']
  else if c.toNat < 0x20 then
    ['\\', 'u', '0', '0', Nat.digitChar (c.toNat / 16), Nat.digitChar (c.toNat % 16)]
  else [c]

def renderString (text : String) : List Char :=
  '"' :: text.toList.flatMap escapeChar ++ ['"']

def Number.render : Number -> List Char
  | .integer n => if n < 0 then '-' :: Nat.toDigits 10 n.natAbs else Nat.toDigits 10 n.natAbs
  | .float x => x.text

def separated : List (List Char) -> List Char
  | [] => []
  | [part] => part
  | part :: rest => part ++ ',' :: separated rest

mutual

def render : Json -> List Char
  | .null => ['n', 'u', 'l', 'l']
  | .bool true => ['t', 'r', 'u', 'e']
  | .bool false => ['f', 'a', 'l', 's', 'e']
  | .number n => n.render
  | .string text => renderString text
  | .array items => '[' :: separated (renderItems items) ++ [']']
  | .object members => '\x7b' :: separated (renderMembers members) ++ ['\x7d']

def renderItems : List Json -> List (List Char)
  | [] => []
  | item :: rest => render item :: renderItems rest

def renderMembers : List (String × Json) -> List (List Char)
  | [] => []
  | (key, value) :: rest => (renderString key ++ ':' :: render value) :: renderMembers rest

end

def text (value : Json) : String := String.ofList value.render

def toBytes (value : Json) : List UInt8 := Utf8.encode value.render

end Json
end RestClient
