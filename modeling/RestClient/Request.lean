import RestClient.Assoc
import RestClient.Error
import RestClient.Url.Parser

/-!
# Requests

The description of one logical call: a path template with its parameters, query parameters and
header fields, and whether the call may be repeated.  Parameters behave like a map that is ordered
by the time of the last setting of each name.
-/

namespace RestClient

/-!
## Templates
-/

/-- A path template as its parts: literal texts, each followed by a placeholder's name, then the
last literal text.  An opening brace that is never closed ends the template. -/
structure Template where
  placeholders : List (List Char × List Char)
  last : List Char
  unterminated : Bool
deriving DecidableEq

namespace Template

def push (c : Char) (template : Template) : Template :=
  match template.placeholders with
  | [] => { template with last := c :: template.last }
  | (literal, name) :: rest => { template with placeholders := (c :: literal, name) :: rest }

def hold (name : List Char) (template : Template) : Template :=
  { template with placeholders := ([], name) :: template.placeholders }

mutual

def ofChars : List Char -> Template
  | [] => ⟨[], [], false⟩
  | c :: rest =>
    if c == '\x7b' then
      match closing rest with
      | some (name, template) => template.hold name
      | none => ⟨[], [], true⟩
    else (ofChars rest).push c

/-- The text up to the first closing brace, and the template behind it. -/
def closing : List Char -> Option (List Char × Template)
  | [] => none
  | c :: rest =>
    if c == '\x7d' then some ([], ofChars rest)
    else (closing rest).map fun found => (c :: found.1, found.2)

end

def parse (text : String) : Template := ofChars text.toList

end Template

/-!
## Descriptions
-/

structure Request where
  method : Method
  /-- The path template, relative to the root of the interface. -/
  path : String
  pathParams : List (String × String)
  queryParams : List (String × String)
  headers : Headers
  /-- The call may be repeated after a transient failure. -/
  idempotent : Bool
deriving DecidableEq

namespace Request

/-- A request without parameters.  Only what is posted must not be repeated. -/
def new (method : Method) (path : String) : Request :=
  { method, path, pathParams := [], queryParams := [], headers := .empty,
    idempotent := method ≠ .post }

def withPathParam (request : Request) (name value : String) : Request :=
  { request with pathParams := Assoc.set request.pathParams name value }

def withQueryParam (request : Request) (name value : String) : Request :=
  { request with queryParams := Assoc.set request.queryParams name value }

def withIdempotent (request : Request) (idempotent : Bool) : Request :=
  { request with idempotent }

end Request

def Header.field? (name value : String) : Except Error (Header.Name × Header.Value) :=
  match Header.Name.ofString? name with
  | none => .error (.configuration .headerName)
  | some name =>
    match Header.Value.ofString? value with
    | none => .error (.configuration .headerValue)
    | some value => .ok (name, value)

namespace Request

def withHeader (request : Request) (name value : String) : Except Error Request :=
  match Header.field? name value with
  | .error e => .error e
  | .ok (name, value) => .ok { request with headers := request.headers.insert name value }

/-!
## Rendering
-/

/-- The encoded value of a placeholder.  Values that would not be a segment of their own are
rejected. -/
def renderValue (params : List (String × String)) (name : List Char) : Except Error (List Char) :=
  let name := String.ofList name
  match Assoc.get? params name with
  | none => .error (.invalidArgument (.missingParameter name))
  | some value =>
    if value = "" then .error (.invalidArgument (.emptyParameter name))
    else if value = "." ∨ value = ".." then .error (.invalidArgument (.dotSegment name value))
    else .ok (Percent.encode Percent.isUnreserved value.toList)

def renderParts (params : List (String × String)) :
    List (List Char × List Char) -> Except Error (List Char)
  | [] => .ok []
  | (literal, name) :: rest =>
    match renderValue params name with
    | .error e => .error e
    | .ok value =>
      match renderParts params rest with
      | .error e => .error e
      | .ok text => .ok (literal ++ value ++ text)

def renderPath (request : Request) : Except Error (List Char) :=
  let template := Template.parse request.path
  match renderParts request.pathParams template.placeholders with
  | .error e => .error e
  | .ok text =>
    if template.unterminated then .error (.configuration (.unterminatedPlaceholder request.path))
    else .ok (text ++ template.last)

/-- The address of the request at a root.  Slashes in front of the path do not count. -/
def url (request : Request) (root : Url) : Except Error Url :=
  match request.renderPath with
  | .error e => .error e
  | .ok path =>
    match root.join (path.dropWhile (· == '/')) with
    | .error fault => .error (.invalidUrl fault)
    | .ok url =>
      .ok (if request.queryParams.isEmpty then url else url.addPairs request.queryParams)

end Request
end RestClient
