import RestClient.Assoc

/-!
# Header fields

Names are tokens without regard to case and are kept in lower case.  A list of header fields may
hold several values under one name; a look-up sees the first of them.
-/

namespace RestClient
namespace Header

structure Name where
  text : String
deriving DecidableEq

def isTokenChar (c : Char) : Bool :=
  c.isAlphanum || c == '!' || c == '#' || c == '$' || c == '%' || c == '&' || c == '\'' ||
    c == '*' || c == '+' || c == '-' || c == '.' || c == '^' || c == '_' || c == '\x60' ||
    c == '|' || c == '~'

/-- A name is a token of at most 65535 characters. -/
def Name.ofString? (text : String) : Option Name :=
  let chars := text.toList
  if chars.isEmpty || 65535 < chars.length || !chars.all isTokenChar then none
  else some ⟨String.ofList (chars.map Char.toLower)⟩

structure Value where
  text : String
deriving DecidableEq

/-- Values hold no control character except the tab. -/
def isValueChar (c : Char) : Bool := c == '\t' || (0x20 ≤ c.toNat && c.toNat != 0x7F)

def Value.ofString? (text : String) : Option Value :=
  if text.toList.all isValueChar then some ⟨text⟩ else none

/-- The characters that a value is read by: visible ASCII, space and tab. -/
def isReadable (c : Char) : Bool := c == '\t' || (0x20 ≤ c.toNat && c.toNat < 0x7F)

def Value.read? (value : Value) : Option (List Char) :=
  let chars := value.text.toList
  if chars.all isReadable then some chars else none

end Header

structure Headers where
  fields : List (Header.Name × Header.Value)
deriving DecidableEq

namespace Headers

def empty : Headers := ⟨[]⟩

/-- Adds a value behind those that the name has already. -/
def append (headers : Headers) (name : Header.Name) (value : Header.Value) : Headers :=
  ⟨headers.fields ++ [(name, value)]⟩

/-- Gives the name this value alone. -/
def insert (headers : Headers) (name : Header.Name) (value : Header.Value) : Headers :=
  ⟨Assoc.set headers.fields name value⟩

def overlay (headers newer : Headers) : Headers :=
  newer.fields.foldl (fun headers field => headers.insert field.1 field.2) headers

def get? (headers : Headers) (name : Header.Name) : Option Header.Value :=
  Assoc.get? headers.fields name

theorem get?_insert_self (headers : Headers) (name : Header.Name) (value : Header.Value) :
    (headers.insert name value).get? name = some value :=
  Assoc.get?_set_self headers.fields name value

theorem get?_insert_of_ne (headers : Headers) {name other : Header.Name} (value : Header.Value)
    (h : other ≠ name) : (headers.insert name value).get? other = headers.get? other :=
  Assoc.get?_set_of_ne headers.fields value h

def read? (headers : Headers) (name : Header.Name) : Option (List Char) :=
  headers.get? name >>= Header.Value.read?

/-- The fields in the order of their names; values of one name keep their order. -/
def sorted (headers : Headers) : List (Header.Name × Header.Value) :=
  headers.fields.mergeSort fun a b => a.1.text ≤ b.1.text

end Headers

namespace Header

def accept : Name := ⟨"accept"⟩
def authorization : Name := ⟨"authorization"⟩
def contentType : Name := ⟨"content-type"⟩
def userAgent : Name := ⟨"user-agent"⟩
def filter : Name := ⟨"x-filter"⟩
def retryAfter : Name := ⟨"retry-after"⟩

/-- The names under which the end of a rate limit window is announced, the first one counting
more. -/
def resets : List Name := [⟨"x-ratelimit-reset"⟩, ⟨"ratelimit-reset"⟩]

def remaining : Name := ⟨"x-ratelimit-remaining"⟩

def json : Value := ⟨"application/json"⟩

end Header
end RestClient
