/-!
Texts in TOML notation. The plainest way that needs no escape is taken: quotes, apostrophes,
three quotes, three apostrophes; failing all four, quotes with escapes.
-/

namespace ChainKeys.Toml

/-- What has to be known of a text to choose its notation. -/
structure Traits where
  backslash : Bool
  newline : Bool
  /-- A control character that only an escape can write. -/
  control : Bool
  quotes : Nat
  apostrophes : Nat
  deriving DecidableEq, Repr

def isControl (c : Char) : Bool :=
  (c.toNat < 32 || c.toNat = 127) && c ≠ '\t' && c ≠ '\n'

/-- The longest run of `x`, given the length of the run being read. -/
def longestRun (x : Char) (current : Nat) : List Char → Nat
  | [] => current
  | c :: cs => if c = x then longestRun x (current + 1) cs else max current (longestRun x 0 cs)

def traits (cs : List Char) : Traits where
  backslash := cs.contains '\\'
  newline := cs.contains '\n'
  control := cs.any isControl
  quotes := longestRun '"' 0 cs
  apostrophes := longestRun '\'' 0 cs

inductive Notation
  | basic
  | literal
  | multilineBasic
  | multilineLiteral
  deriving DecidableEq, Repr

def chooseNotation (t : Traits) : Notation :=
  if !t.control && !t.backslash && t.quotes = 0 && !t.newline then .basic
  else if !t.control && t.apostrophes = 0 && !t.newline then .literal
  else if !t.control && !t.backslash && t.quotes ≤ 2 then .multilineBasic
  else if !t.control && t.apostrophes ≤ 2 then .multilineLiteral
  else if t.newline then .multilineBasic
  else .basic

def upperHex4 (n : Nat) : List Char :=
  let digit := fun d : Nat => if d < 10 then Char.ofNat (48 + d) else Char.ofNat (55 + d)
  [digit (n / 4096 % 16), digit (n / 256 % 16), digit (n / 16 % 16), digit (n % 16)]

/-- One character between quotes; `multiline` says whether a line may end. -/
def escape (multiline : Bool) (c : Char) : List Char :=
  if c.toNat = 8 then ['\\', 'b']
  else if c = '\t' then ['\\', 't']
  else if c = '\n' then (if multiline then ['\n'] else ['\\', 'n'])
  else if c.toNat = 12 then ['\\', 'f']
  else if c = '\r' then ['\\', 'r']
  else if c = '\\' then ['\\', '\\']
  else if c.toNat < 32 || c.toNat = 127 then '\\' :: 'u' :: upperHex4 c.toNat
  else [c]

/-- Writes characters between quotes, where a run of at most `room` quotes needs no escape;
`seen` quotes stand right before. -/
def escapeAll (multiline : Bool) (room : Nat) (seen : Nat) : List Char → List Char
  | [] => []
  | c :: cs =>
    if c = '"' then
      if room ≤ seen then '\\' :: '"' :: escapeAll multiline room 0 cs
      else '"' :: escapeAll multiline room (seen + 1) cs
    else escape multiline c ++ escapeAll multiline room 0 cs

def quoteChars (cs : List Char) : List Char :=
  let t := traits cs
  -- a line end right after the opening is not part of the text
  let opening := if t.newline then ['\n'] else []
  match chooseNotation t with
  | .basic => '"' :: (escapeAll false 0 0 cs ++ ['"'])
  | .literal => '\'' :: (cs ++ ['\''])
  | .multilineBasic => ['"', '"', '"'] ++ opening ++ escapeAll true 2 0 cs ++ ['"', '"', '"']
  | .multilineLiteral => ['\'', '\'', '\''] ++ opening ++ cs ++ ['\'', '\'', '\'']

def quote (s : String) : String := String.ofList (quoteChars s.toList)

end ChainKeys.Toml
