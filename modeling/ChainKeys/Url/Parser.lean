import ChainKeys.Url.Basic
import ChainKeys.Url.Domain

/-!
URLs read. Some schemes are special: their hosts are domain names or addresses and never
empty, their paths start with a slash, and a backslash is one too.
-/

namespace ChainKeys.Url

inductive SchemeKind
  | special
  | file
  | other
  deriving DecidableEq, Repr

def schemeKind (scheme : String) : SchemeKind :=
  if scheme = "file" then .file
  else if ["http", "https", "ws", "wss", "ftp"].contains scheme then .special
  else .other

def defaultPortNumber? (scheme : String) : Option Nat :=
  [("http", 80), ("ws", 80), ("https", 443), ("wss", 443), ("ftp", 21)].lookup scheme

def SchemeKind.isSlash (k : SchemeKind) (c : Char) : Bool := c = '/' || (k ≠ .other && c = '\\')

/-- Whether `c` ends an authority. -/
def SchemeKind.endsAuthority (k : SchemeKind) (c : Char) : Bool := k.isSlash c || c = '?' || c = '#'

/-- Drops controls and blanks at both ends, and tabs and line ends everywhere. -/
def clean (s : String) : List Char :=
  let isEdge := fun c : Char => c.toNat ≤ 32
  let cs := s.toList.dropWhile isEdge
  ((cs.reverse.dropWhile isEdge).reverse).filter fun c => c ≠ '\t' && c ≠ '\n' && c ≠ '\r'

/-- A letter, more letters, digits, `+`, `-` and `.`, and a colon. -/
def scheme? (cs : List Char) : Option (String × List Char) :=
  let isSchemeChar := fun c : Char => c.isAlphanum || c = '+' || c = '-' || c = '.'
  match cs.head?, cs.dropWhile isSchemeChar with
  | some c, ':' :: rest =>
    if c.isAlpha then some (String.ofList ((cs.takeWhile isSchemeChar).map Char.toLower), rest)
    else none
  | _, _ => none

/-! ### Authorities -/

/-- Splits at the last `@`. -/
def splitUser (cs : List Char) : Option (List Char) × List Char :=
  let host := (cs.reverse.takeWhile (· ≠ '@')).reverse
  if host.length = cs.length then (none, cs)
  else (some (cs.take (cs.length - host.length - 1)), host)

/-- The characters of the host, up to a colon that stands in no brackets. -/
def splitHost (inBrackets : Bool) : List Char → List Char × List Char
  | [] => ([], [])
  | c :: cs =>
    if c = ':' && !inBrackets then ([], c :: cs)
    else
      let inside := if c = '[' then true else if c = ']' then false else inBrackets
      let (host, rest) := splitHost inside cs
      (c :: host, rest)

def bracketed? (cs : List Char) : Option Host :=
  match cs.getLast? with
  | some ']' => (ipv6? cs.dropLast).map .ipv6
  | _ => none

def specialHost? (cs : List Char) : Option Host :=
  match cs with
  | '[' :: rest => bracketed? rest
  | cs => do
    let name ← domain? cs
    if name = [] then none
    else if endsInNumber name then (ipv4? name).map .ipv4
    else pure (.domain (String.ofList name))

def isHostBreaker (c : Char) : Bool := c.toNat = 0 || " #/:<>?@[\\]^|".toList.contains c

def otherHost? (cs : List Char) : Option Host :=
  match cs with
  | '[' :: rest => bracketed? rest
  | cs =>
    if cs.any isHostBreaker then none
    else some (.domain (String.ofList (percentEncode isControl cs)))

/-- The number after a colon, if it is not the scheme's own, and what follows its digits. -/
def portNumber? (scheme : String) (cs : List Char) : Option (Option Nat × List Char) :=
  let digits := cs.takeWhile Decimal.isDigit
  let rest := cs.dropWhile Decimal.isDigit
  let n := Decimal.ofDigits digits
  if 65535 < n || (rest ≠ [] && rest.head? ≠ some '\\') then none
  else some (if digits = [] || defaultPortNumber? scheme = some n then none else some n, rest)

/-- Reads the user, and the password after the first colon. -/
def user (cs : List Char) : String × String :=
  let text := fun part => String.ofList (percentEncode inUserSet part)
  (text (cs.takeWhile (· ≠ ':')), text ((cs.dropWhile (· ≠ ':')).drop 1))

/-- Reads an authority, and what follows: a backslash after a number may be left over. -/
def authority? (scheme : String) (kind : SchemeKind) (cs : List Char) :
    Option (Authority × List Char) := do
  let inside := cs.takeWhile fun c => !kind.endsAuthority c
  let after := cs.drop inside.length
  let (userPart, hostPart) := splitUser inside
  let (hostText, rest) := splitHost false hostPart
  let host ← if kind = .other then otherHost? hostText else specialHost? hostText
  let (name, password) := user (userPart.getD [])
  -- nothing but a bare host may be empty
  if host = .domain "" && (rest ≠ [] || name ≠ "" || password ≠ ""
      || (userPart = some [] && after ≠ [])) then none
  else
    match rest with
    | ':' :: rest => do
      let (number, rest) ← portNumber? scheme rest
      pure (⟨name, password, host, number⟩, rest ++ after)
    | _ => pure (⟨name, password, host, none⟩, after)

/-! ### Paths -/

/-- Whether a segment stands for one or two dots, each perhaps percent-encoded. -/
def dots (segment : List Char) : Nat :=
  let rec count : List Char → Option Nat
    | [] => some 0
    | '.' :: cs => (count cs).map (· + 1)
    | '%' :: '2' :: 'e' :: cs | '%' :: '2' :: 'E' :: cs => (count cs).map (· + 1)
    | _ => none
  (count segment).getD 0

def isDriveLetter (separators : List Char) (segment : List Char) : Bool :=
  match segment with
  | [a, b] => a.isAlpha && separators.contains b
  | _ => false

/-- Leaves the last segment, but not a drive. -/
def shorten (kind : SchemeKind) (parts : List (List Char)) : List (List Char) :=
  match parts with
  | [drive] => if kind = .file && isDriveLetter [':'] drive then parts else []
  | parts => parts.dropLast

/-- Adds a segment to the ones before; `last` when no slash follows it. -/
def addSegment (kind : SchemeKind) (parts : List (List Char)) (segment : List Char) (last : Bool) :
    List (List Char) :=
  match dots segment with
  | 1 => if last then parts ++ [[]] else parts
  | 2 => if last then shorten kind parts ++ [[]] else shorten kind parts
  | _ =>
    if kind = .file && parts = [] && isDriveLetter [':', '|'] segment then
      [segment.take 1 ++ [':']]
    else parts ++ [percentEncode inPathSet segment]

/-- Splits at slashes. -/
def splitSegments (kind : SchemeKind) : List Char → List (List Char)
  | [] => [[]]
  | c :: cs =>
    if kind.isSlash c then [] :: splitSegments kind cs
    else
      match splitSegments kind cs with
      | part :: parts => (c :: part) :: parts
      | [] => [[c]]

def addAll (kind : SchemeKind) : List (List Char) → List (List Char) → List (List Char)
  | parts, [] => parts
  | parts, [segment] => addSegment kind parts segment true
  | parts, segment :: more => addAll kind (addSegment kind parts segment false) more

/-- The path that follows its first slash. -/
def readPath (kind : SchemeKind) (cs : List Char) : Path :=
  let parts := addAll kind [] (splitSegments kind cs)
  let parts :=
    if kind = .file then
      match parts.dropWhile (· = []) with
      | [] => [[]]
      | parts => parts
    else parts
  .segments (parts.map String.ofList)

/-- The path after an authority. -/
def pathAfter (kind : SchemeKind) (cs : List Char) : Path :=
  match cs with
  | [] => if kind = .other then .segments [] else .segments [""]
  | c :: rest => if kind.isSlash c then readPath kind rest else readPath kind cs

/-! ### The whole -/

structure Parts where
  path : List Char
  query : Option (List Char)
  fragment : Option (List Char)

def splitParts (cs : List Char) : Parts :=
  let front := cs.takeWhile (· ≠ '#')
  let fragment := if front.length = cs.length then none else some (cs.drop (front.length + 1))
  let path := front.takeWhile (· ≠ '?')
  let query := if path.length = front.length then none else some (front.drop (path.length + 1))
  ⟨path, query, fragment⟩

def finish (scheme : String) (authority : Option Authority) (path : Path) (parts : Parts) :
    Url where
  scheme := scheme
  authority := authority
  path := path
  query := parts.query.map fun q =>
    String.ofList (percentEncode (inQuerySet (schemeKind scheme ≠ .other)) q)
  fragment := parts.fragment.map fun f => String.ofList (percentEncode inFragmentSet f)

def emptyAuthority : Authority := ⟨"", "", .domain "", none⟩

/-- A file's host is left out where it is this very machine, or where a drive follows. -/
def file? (cs : List Char) : Option (Authority × Path) :=
  let isSlash := SchemeKind.isSlash .file
  match cs.splitAt 2 with
  | ([a, b], rest) =>
    if isSlash a && isSlash b then
      let hostText := rest.takeWhile fun c => !isSlash c
      let after := pathAfter .file (rest.drop hostText.length)
      if isDriveLetter [':', '|'] hostText then some (emptyAuthority, readPath .file rest)
      else if hostText = [] then some (emptyAuthority, after)
      else do
        let host ← specialHost? hostText
        let isDrive := match after with
          | .segments (drive :: _) => isDriveLetter [':'] drive.toList
          | _ => false
        if host = .domain "localhost" || isDrive then pure (emptyAuthority, after)
        else pure ({ emptyAuthority with host := host }, after)
    else some (emptyAuthority, pathAfter .file cs)
  | _ => some (emptyAuthority, pathAfter .file cs)

def parse (s : String) : Option Url := do
  let (scheme, cs) ← scheme? (clean s)
  match schemeKind scheme with
  | .file =>
    let parts := splitParts cs
    let (authority, path) ← file? parts.path
    pure (finish scheme (some authority) path parts)
  | .special =>
    let (authority, rest) ← authority? scheme .special (cs.dropWhile (SchemeKind.isSlash .special))
    let parts := splitParts rest
    pure (finish scheme (some authority) (pathAfter .special parts.path) parts)
  | .other =>
    match cs with
    | '/' :: '/' :: rest =>
      let (authority, rest) ← authority? scheme .other rest
      let parts := splitParts rest
      pure (finish scheme (some authority) (pathAfter .other parts.path) parts)
    | cs =>
      let parts := splitParts cs
      let path := match parts.path with
        | '/' :: rest => readPath .other rest
        | rest => .opaqueText (String.ofList (percentEncode isControl rest))
      pure (finish scheme none path parts)

end ChainKeys.Url
