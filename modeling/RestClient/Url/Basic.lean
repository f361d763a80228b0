/-!
# Addresses

An absolute address as its parts.  A path is a list of segments, each behind a slash; only an
address without a host may have a path that is plain text instead, and such an address is no base
for relative references.
-/

namespace RestClient

inductive Host where
  | domain (name : List Char)
  | ipv4 (address : Nat)
  | ipv6 (pieces : List Nat)
deriving DecidableEq

inductive UrlPath where
  | plain (text : List Char)
  | segments (list : List (List Char))
deriving DecidableEq

structure Url where
  scheme : List Char
  username : List Char
  password : List Char
  host : Option Host
  port : Option Nat
  path : UrlPath
  query : Option (List Char)
  fragment : Option (List Char)
deriving DecidableEq

inductive UrlFault where
  | emptyHost
  | invalidDomain
  | invalidPort
  | invalidIpv4
  | invalidIpv6
  | invalidHostCharacter
  | noBase
  | baseWithoutSegments
deriving DecidableEq

def UrlFault.text : UrlFault -> String
  | .emptyHost => "empty host"
  | .invalidDomain => "invalid international domain name"
  | .invalidPort => "invalid port number"
  | .invalidIpv4 => "invalid IPv4 address"
  | .invalidIpv6 => "invalid IPv6 address"
  | .invalidHostCharacter => "invalid domain character"
  | .noBase => "relative URL without a base"
  | .baseWithoutSegments => "relative URL with a cannot-be-a-base base"

namespace Host

/-- A longest run of two or more zero pieces, the first of several, as start and length. -/
def longestZeros (pieces : List Nat) : Nat × Nat :=
  let runs := (List.range pieces.length).map fun i =>
    (i, ((pieces.drop i).takeWhile (· == 0)).length)
  let best := runs.foldl (fun best run => if best.2 < run.2 then run else best) (0, 1)
  if best.2 < 2 then (pieces.length, 0) else best

def joined (pieces : List Nat) : List Char :=
  List.intercalate [':'] (pieces.map (Nat.toDigits 16))

def ipv6Text (pieces : List Nat) : List Char :=
  let (start, length) := longestZeros pieces
  if length == 0 then joined pieces
  else joined (pieces.take start) ++ [':', ':'] ++ joined (pieces.drop (start + length))

def text : Host -> List Char
  | .domain name => name
  | .ipv4 a =>
    List.intercalate ['.']
      ([a >>> 24 % 256, a >>> 16 % 256, a >>> 8 % 256, a % 256].map (Nat.toDigits 10))
  | .ipv6 pieces => '[' :: ipv6Text pieces ++ [']']

end Host

namespace UrlPath

def text : UrlPath -> List Char
  | .plain text => text
  | .segments list => list.flatMap ('/' :: ·)

end UrlPath

namespace Url

def userinfoText (url : Url) : List Char :=
  if url.username.isEmpty && url.password.isEmpty then []
  else
    url.username ++ (if url.password.isEmpty then [] else ':' :: url.password) ++ ['@']

def portText (url : Url) : List Char :=
  match url.port with
  | some port => ':' :: Nat.toDigits 10 port
  | none => []

/-- The authority with its slashes.  Without an authority, a path whose first segment is empty
is kept apart from one by a dot segment. -/
def authorityText (url : Url) : List Char :=
  match url.host with
  | some host => '/' :: '/' :: url.userinfoText ++ host.text ++ url.portText
  | none =>
    match url.path with
    | .segments ([] :: _ :: _) => ['/', '.']
    | _ => []

def queryText (url : Url) : List Char :=
  match url.query with
  | some query => '?' :: query
  | none => []

def fragmentText (url : Url) : List Char :=
  match url.fragment with
  | some fragment => '#' :: fragment
  | none => []

def chars (url : Url) : List Char :=
  url.scheme ++ ':' :: url.authorityText ++ url.path.text ++ url.queryText ++ url.fragmentText

def text (url : Url) : String := String.ofList url.chars

end Url
end RestClient
