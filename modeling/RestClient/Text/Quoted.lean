import RestClient.Text.Printable

/-!
# Quoted text

How messages show text that came from outside: between double quotes, with a backslash before
quotes and backslashes, short escapes for the usual control characters, and the code point in
braces for every other character without a visible form.
-/

namespace RestClient
namespace Quoted

def hex (n : Nat) : List Char := Nat.toDigits 16 n

def quoteChar (c : Char) : List Char :=
  if c == '"' then ['\\', '"']
  else if c == '\\' then ['\\', '\\']
  else if c == '\n' then ['\\', 'n']
  else if c == '\r' then ['\\', 'r']
  else if c == '\t' then ['\\', 't']
  else if c == '\x00' then ['\\', '0']
  else if Printable.isPrintable c then [c]
  else ['\\', 'u', '\x7b'] ++ hex c.toNat ++ ['\x7d']

def quote (text : String) : String :=
  String.ofList ('"' :: text.toList.flatMap quoteChar ++ ['"'])

end Quoted
end RestClient
