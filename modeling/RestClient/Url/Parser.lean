import RestClient.Url.Host

/-!
# Reading addresses

A text is read as an absolute address, or as a reference relative to a base.  Special schemes have
a host, treat backslashes as slashes, and know a default port; the scheme `file` has rules of its
own for hosts and drive letters.
-/

namespace RestClient
namespace Url

inductive Kind where
  | special
  | file
  | other
deriving DecidableEq

def kindOf (scheme : List Char) : Kind :=
  match String.ofList scheme with
  | "http" | "https" | "ws" | "wss" | "ftp" => .special
  | "file" => .file
  | _ => .other

def defaultPort? (scheme : List Char) : Option Nat :=
  match String.ofList scheme with
  | "http" | "ws" => some 80
  | "https" | "wss" => some 443
  | "ftp" => some 21
  | _ => none

def Kind.isSpecial (kind : Kind) : Bool := kind != .other

/-!
## Characters
-/

/-- Blanks and controls around an address do not count. -/
def trim (text : List Char) : List Char :=
  let outer (c : Char) : Bool := c.toNat ≤ 0x20
  ((text.dropWhile outer).reverse.dropWhile outer).reverse

def isBreak (c : Char) : Bool := c == '\t' || c == '\n' || c == '\r'

def clean (text : List Char) : List Char := (trim text).filter fun c => !isBreak c

/-- Where tabs and line ends stand: for each, the number of other characters behind it. -/
def breaks (text : List Char) : List Nat :=
  let add (c : Char) (behind : Nat × List Nat) : Nat × List Nat :=
    if isBreak c then (behind.1, behind.1 :: behind.2) else (behind.1 + 1, behind.2)
  (text.foldr add (0, [])).2

def isSlash (c : Char) : Bool := c == '/' || c == '\\'

def Kind.separates (kind : Kind) (c : Char) : Bool :=
  c == '/' || (kind.isSpecial && c == '\\')

def endsPath (c : Char) : Bool := c == '?' || c == '#'

def standsInFragment (c : Char) : Bool :=
  Host.isGraphic c && c != ' ' && c != '"' && c != '<' && c != '>' && c != '\x60'

def standsInPath (c : Char) : Bool :=
  standsInFragment c && c != '#' && c != '?' && c != '\x7b' && c != '\x7d'

def standsInUserinfo (c : Char) : Bool :=
  standsInPath c && c != '/' && c != ':' && c != ';' && c != '=' && c != '@' && c != '[' &&
    c != '\\' && c != ']' && c != '^' && c != '|'

def Kind.standsInQuery (kind : Kind) (c : Char) : Bool :=
  Host.isGraphic c && c != ' ' && c != '"' && c != '#' && c != '<' && c != '>' &&
    !(kind.isSpecial && c == '\'')

/-!
## Paths

A path grows segment by segment.  A segment of one dot adds nothing, one of two dots takes the
last segment away, and either leaves an empty segment behind at the end of the path.  A segment
that begins as a drive letter does is never taken away.
-/

/-- A dot, also when it is encoded. -/
def dotText (segment : List Char) : List Char :=
  match segment with
  | '%' :: '2' :: 'e' :: rest => '.' :: dotText rest
  | '%' :: '2' :: 'E' :: rest => '.' :: dotText rest
  | c :: rest => c :: dotText rest
  | [] => []

def isSingleDot (segment : List Char) : Bool := dotText segment == ['.']

def isDoubleDot (segment : List Char) : Bool := dotText segment == ['.', '.']

def isDrive : List Char -> Bool
  | [letter, mark] => letter.isAlpha && (mark == ':' || mark == '|')
  | _ => false

def isColonDrive : List Char -> Bool
  | [letter, mark] => letter.isAlpha && mark == ':'
  | _ => false

/-- A text that is a drive letter or goes on behind one as another segment would. -/
def startsWithDrive : List Char -> Bool
  | letter :: mark :: rest =>
    isDrive [letter, mark] &&
      (match rest with
       | [] => true
       | c :: _ => isSlash c || endsPath c)
  | _ => false

def shorten (done : List (List Char)) : List (List Char) :=
  match done.getLast? with
  | some last => if startsWithDrive last then done else done.dropLast
  | none => []

/-- The text of a segment, and whether a tab or a line end stands behind its second character. -/
structure Piece where
  text : List Char
  parted : Bool

/-- The segments that a piece comes to.  At the root of a file's path a drive letter gets its
colon, and a tab or a line end behind the colon parts it from what follows. -/
def kept (kind : Kind) (done : List (List Char)) (piece : Piece) : List (List Char) :=
  match kind, done, piece.text with
  | .file, [], [letter, mark] =>
    if isDrive [letter, mark] then [[letter, ':']] else [[letter, mark]]
  | .file, [], letter :: mark :: rest =>
    if piece.parted && isColonDrive [letter, mark] then [[letter, mark], rest]
    else [letter :: mark :: rest]
  | _, _, text => [text]

def pushInner (kind : Kind) (done : List (List Char)) (piece : Piece) : List (List Char) :=
  if isDoubleDot piece.text then shorten done
  else if isSingleDot piece.text then done
  else done ++ kept kind done piece

def pushLast (kind : Kind) (done : List (List Char)) (piece : Piece) : List (List Char) :=
  if isDoubleDot piece.text then shorten done ++ [[]]
  else if isSingleDot piece.text then done ++ [[]]
  else done ++ kept kind done piece

def pushAll (kind : Kind) (done : List (List Char)) : List Piece -> List (List Char)
  | [] => done
  | [last] => pushLast kind done last
  | piece :: rest => pushAll kind (pushInner kind done piece) rest

def meetsDrive (kind : Kind) (done : List (List Char)) : List Piece -> Bool
  | [] => false
  | piece :: rest =>
    (done.isEmpty && isDrive piece.text) || meetsDrive kind (pushInner kind done piece) rest

/-- Empty segments at the front of a file's path do not count. -/
def settle (kind : Kind) (segments : List (List Char)) : List (List Char) :=
  match kind with
  | .file =>
    match segments.dropWhile List.isEmpty with
    | [] => [[]]
    | rest => rest
  | _ => segments

def piecesFrom (gaps : List Nat) (behind : Nat) : List (List Char) -> List Piece
  | [] => []
  | segment :: rest =>
    ⟨Percent.encode standsInPath segment, gaps.contains (behind - 2)⟩ ::
      piecesFrom gaps (behind - segment.length - 1) rest

def pieces (kind : Kind) (gaps : List Nat) (input : List Char) : List Piece :=
  piecesFrom gaps input.length (splitBy kind.separates (input.takeWhile fun c => !endsPath c))

def readPath (kind : Kind) (gaps : List Nat) (done : List (List Char)) (input : List Char) :
    UrlPath :=
  .segments (settle kind (pushAll kind done (pieces kind gaps input)))

/-- The path behind an authority.  In a special scheme there always is one. -/
def readPathStart (kind : Kind) (input : List Char) : UrlPath :=
  match input with
  | [] => if kind.isSpecial then .segments [[]] else .segments []
  | c :: rest =>
    if kind.separates c then readPath kind [] [] rest
    else if endsPath c && !kind.isSpecial then .segments []
    else readPath kind [] [] input

def reread (kind : Kind) (segments : List (List Char)) : UrlPath :=
  .segments (settle kind (pushAll kind [] (segments.map fun segment => ⟨segment, false⟩)))

/-- The address with a slash at the end of its path, which is read again if it gets one.  A plain
text that would begin with its slash gets it encoded. -/
def closed (url : Url) : Url :=
  match url.path with
  | .plain text =>
    if text.getLast? == some '/' then url
    else if text.isEmpty then { url with path := .plain ['%', '2', 'F'] }
    else { url with path := .plain (text ++ ['/']) }
  | .segments list =>
    if list.getLast? == some [] then url
    else { url with path := reread (kindOf url.scheme) (list ++ [[]]) }

def withTail (kind : Kind) (url : Url) (input : List Char) : Url :=
  match input.dropWhile (fun c => !endsPath c) with
  | '?' :: rest =>
    let query := rest.takeWhile (· != '#')
    let url := { url with query := some (Percent.encode kind.standsInQuery query) }
    match rest.dropWhile (· != '#') with
    | _ :: fragment => { url with fragment := some (Percent.encode standsInFragment fragment) }
    | [] => { url with fragment := none }
  | _ :: fragment =>
    { url with query := none, fragment := some (Percent.encode standsInFragment fragment) }
  | [] => { url with query := none, fragment := none }

/-!
## Authorities
-/

structure Userinfo where
  username : List Char
  password : List Char
  rest : List Char

def Kind.endsAuthority (kind : Kind) (c : Char) : Bool := kind.separates c || endsPath c

def readUserinfo (kind : Kind) (input : List Char) : Except UrlFault Userinfo :=
  let authority := input.takeWhile fun c => !kind.endsAuthority c
  let behind := input.dropWhile fun c => !kind.endsAuthority c
  match splitLastAt '@' authority with
  | none => .ok ⟨[], [], input⟩
  | some ([], host) =>
    if host.isEmpty && !behind.isEmpty then .error .emptyHost else .ok ⟨[], [], host ++ behind⟩
  | some (info, host) =>
    let username := info.takeWhile (· != ':')
    let password := (info.dropWhile (· != ':')).drop 1
    .ok ⟨Percent.encode standsInUserinfo username, Percent.encode standsInUserinfo password,
      host ++ behind⟩

/-- The text of the host, which a colon outside brackets ends, and what stands behind it. -/
def splitHost (kind : Kind) (inside : Bool) : List Char -> List Char × List Char
  | [] => ([], [])
  | c :: rest =>
    if (c == ':' && !inside) || kind.endsAuthority c then ([], c :: rest)
    else
      let inside := if c == '[' then true else if c == ']' then false else inside
      let (host, behind) := splitHost kind inside rest
      (c :: host, behind)

/-- Reads the port behind its colon.  It is left out if the scheme implies it. -/
def readPort (scheme : List Char) (input : List Char) : Except UrlFault (Option Nat × List Char) :=
  let digits := input.takeWhile Char.isDigit
  let rest := input.dropWhile Char.isDigit
  match Host.numeral? 10 digits with
  | none => .error .invalidPort
  | some port =>
    if UInt16.size ≤ port then .error .invalidPort
    else
      match rest with
      | c :: _ =>
        if isSlash c || endsPath c then
          .ok (if digits.isEmpty || some port = defaultPort? scheme then none else some port, rest)
        else .error .invalidPort
      | [] =>
        .ok (if digits.isEmpty || some port = defaultPort? scheme then none else some port, [])

def readAuthority (kind : Kind) (scheme : List Char) (input : List Char) :
    Except UrlFault Url := do
  let info ← readUserinfo kind input
  let (hostText, rest) := splitHost kind false info.rest
  if kind == .special && hostText.isEmpty then throw .emptyHost
  let host ← if kind.isSpecial then Host.special hostText else Host.verbatim hostText
  let nameless := host == .domain []
  if nameless && (rest.head? == some ':' || !info.username.isEmpty || !info.password.isEmpty) then
    throw .emptyHost
  let (port, rest) ← match rest with
    | ':' :: portText => readPort scheme portText
    | _ => pure (none, rest)
  return withTail kind
    { scheme, username := info.username, password := info.password, host := some host, port,
      path := readPathStart kind rest, query := none, fragment := none } rest

/-!
## Files
-/

def fileScheme : List Char := "file".toList

def fileUrl (host : Host) (path : UrlPath) : Url :=
  { scheme := fileScheme, username := [], password := [], host := some host, port := none, path,
    query := none, fragment := none }

/-- Reads a file's address behind its two slashes.  A drive letter at the root of the path takes the
host away. -/
def readFileHost (gaps : List Nat) (input : List Char) : Except UrlFault Url :=
  let text := input.takeWhile fun c => !(isSlash c || endsPath c)
  let rest := input.dropWhile fun c => !(isSlash c || endsPath c)
  let bare (start behind : List Char) : Url :=
    withTail .file (fileUrl (.domain []) (readPath .file gaps [] start)) behind
  if isDrive text then .ok (bare input input)
  else if text.isEmpty then .ok (bare rest rest)
  else
    match Host.special text with
    | .error fault => .error fault
    | .ok host =>
      if host == .domain "localhost".toList then .ok (bare rest rest)
      else
        let start := match rest with
          | c :: behind => if isSlash c then behind else rest
          | [] => []
        if meetsDrive .file [] (pieces .file gaps start) then .ok (bare start rest)
        else .ok (withTail .file (fileUrl host (readPath .file gaps [] start)) rest)

def baseSegments (base : Url) : List (List Char) :=
  match base.path with
  | .segments list => list
  | .plain _ => []

def openSegments (kind : Kind) (base : Url) : List (List Char) :=
  match kind, baseSegments base with
  | .file, [first] => if isColonDrive first then [first] else []
  | _, segments => segments.dropLast

/-- Reads a file's address that begins with a single slash, from behind that slash.  Unless it names
a drive of its own, it stays on the drive or at the host of the base. -/
def readFileRoot (gaps : List Nat) (base : Option Url) (input : List Char) : Url :=
  let read (host : Host) (done : List (List Char)) : Url :=
    withTail .file (fileUrl host (readPath .file gaps done input)) input
  match base with
  | none => read (.domain []) []
  | some base =>
    if startsWithDrive input then read (.domain []) []
    else
      match baseSegments base with
      | first :: _ =>
        if isColonDrive first then read (.domain []) [first]
        else read (base.host.getD (.domain [])) []
      | [] => read (base.host.getD (.domain [])) []

def readFileReference (gaps : List Nat) (base : Option Url) (input : List Char) : Url :=
  let bare := withTail .file (fileUrl (.domain []) (readPath .file gaps [] input)) input
  match input, base with
  | [], none => bare
  | [], some base => { base with fragment := none }
  | c :: rest, base =>
    if isSlash c then readFileRoot gaps base rest
    else
      match base with
      | none => bare
      | some base =>
        if c == '?' then withTail .file base input
        else if c == '#' then { withTail .file base input with query := base.query }
        else if startsWithDrive input then bare
        else
          withTail .file
            { base with path := readPath .file gaps (openSegments .file base) input } input

def readFile (gaps : List Nat) (base : Option Url) (input : List Char) : Except UrlFault Url :=
  match input with
  | a :: b :: rest =>
    if isSlash a && isSlash b then readFileHost gaps rest
    else .ok (readFileReference gaps base input)
  | _ => .ok (readFileReference gaps base input)

/-!
## References
-/

def readRelative (base : Url) (input : List Char) : Except UrlFault Url :=
  let kind := kindOf base.scheme
  match input with
  | [] => .ok { base with fragment := none }
  | c :: rest =>
    if c == '?' then .ok (withTail kind base input)
    else if c == '#' then .ok { withTail kind base input with query := base.query }
    else if isSlash c then
      match rest with
      | d :: behind =>
        if isSlash d then
          let behind := if c == '/' && d == '/' then behind else behind.dropWhile isSlash
          readAuthority kind base.scheme behind
        else .ok (withTail kind { base with path := readPath kind [] [] rest } rest)
      | [] => .ok (withTail kind { base with path := readPath kind [] [] [] } [])
    else
      let path := readPath kind [] (openSegments kind base) input
      .ok (withTail kind { base with path } input)

def readOther (scheme : List Char) (input : List Char) : Except UrlFault Url :=
  let bare (path : UrlPath) : Url :=
    { scheme, username := [], password := [], host := none, port := none, path, query := none,
      fragment := none }
  match input with
  | '/' :: '/' :: rest => readAuthority .other scheme rest
  | '/' :: rest => .ok (withTail .other (bare (readPath .other [] [] rest)) rest)
  | _ =>
    let text := input.takeWhile fun c => !endsPath c
    .ok (withTail .other (bare (.plain (Percent.encode Host.isGraphic text))) input)

def isSchemeChar (c : Char) : Bool := c.isAlphanum || c == '+' || c == '-' || c == '.'

/-- The scheme in front of a text, in lower case, and what stands behind its colon. -/
def splitScheme (input : List Char) : Option (List Char × List Char) :=
  match input with
  | first :: _ =>
    if first.isAlpha then
      match input.dropWhile isSchemeChar with
      | ':' :: rest => some ((input.takeWhile isSchemeChar).map Char.toLower, rest)
      | _ => none
    else none
  | [] => none

def readWithScheme (gaps : List Nat) (base : Option Url) (scheme input : List Char) :
    Except UrlFault Url :=
  match kindOf scheme with
  | .file => readFile gaps (base.filter fun base => base.scheme = scheme) input
  | .other => readOther scheme input
  | .special =>
    match base with
    | some base =>
      if (input.takeWhile isSlash).length < 2 && base.scheme == scheme then
        readRelative base input
      else readAuthority .special scheme (input.dropWhile isSlash)
    | none => readAuthority .special scheme (input.dropWhile isSlash)

def readReference (gaps : List Nat) (base : Option Url) (input : List Char) :
    Except UrlFault Url :=
  match base with
  | none => .error .noBase
  | some base =>
    match input with
    | '#' :: _ =>
      .ok { withTail (kindOf base.scheme) base input with query := base.query }
    | _ =>
      match base.path with
      | .plain _ => .error .baseWithoutSegments
      | .segments _ =>
        if kindOf base.scheme == .file then readFile gaps (some base) input
        else readRelative base input

def read (base : Option Url) (text : List Char) : Except UrlFault Url :=
  let input := clean text
  let gaps := breaks (trim text)
  match splitScheme input with
  | some (scheme, rest) => readWithScheme gaps base scheme rest
  | none => readReference gaps base input

def parse (text : String) : Except UrlFault Url := read none text.toList

def join (base : Url) (reference : List Char) : Except UrlFault Url := read (some base) reference

/-!
## Query pairs
-/

def pairText (pair : String × String) : List Char :=
  Percent.encodeForm pair.1.toList ++ '=' :: Percent.encodeForm pair.2.toList

def addPairs (url : Url) (pairs : List (String × String)) : Url :=
  let written := pairs.map pairText
  let before := match url.query with
    | none | some [] => []
    | some query => [query]
  { url with query := some (List.intercalate ['&'] (before ++ written)) }

end Url
end RestClient
