import ChainKeys.Json.Basic

/-!
JSON values written out, on one line or indented by two blanks a level.
-/

namespace ChainKeys.Json

def hex4 (n : Nat) : List Char :=
  [Nat.digitChar (n / 4096 % 16), Nat.digitChar (n / 256 % 16), Nat.digitChar (n / 16 % 16),
    Nat.digitChar (n % 16)]

def escape (c : Char) : List Char :=
  if c = '"' then ['\\', '"']
  else if c = '\\' then ['\\', '\\']
  else if c = '\n' then ['\\', 'n']
  else if c = '\r' then ['\\', 'r']
  else if c = '\t' then ['\\', 't']
  else if c.toNat = 8 then ['\\', 'b']
  else if c.toNat = 12 then ['\\', 'f']
  else if c.toNat < 32 then '\\' :: 'u' :: hex4 c.toNat
  else [c]

def quoted (cs : List Char) : List Char := '"' :: (cs.flatMap escape ++ ['"'])

/-- A text that is not whole has no written form of its own and is written empty. -/
def quotedText (s : Option String) : List Char := quoted ((s.map String.toList).getD [])

/-- Integers stand alone; any other number is written as digits and exponent. -/
def Number.render (n : Number) : List Char :=
  (if n.negative then ['-'] else []) ++ Nat.toDigits 10 n.digits
    ++ (if n.plain then [] else 'e' :: (toString n.exponent).toList)

mutual

def chars : Json → List Char
  | null => "null".toList
  | bool b => (if b then "true" else "false").toList
  | number n => n.render
  | text s => quotedText s
  | array items => '[' :: (itemChars items ++ [']'])
  | object fields => '\x7b' :: (fieldChars fields ++ ['\x7d'])

def itemChars : List Json → List Char
  | [] => []
  | [j] => chars j
  | j :: rest => chars j ++ ',' :: itemChars rest

def fieldChars : List (Option String × Json) → List Char
  | [] => []
  | [(name, j)] => quotedText name ++ ':' :: chars j
  | (name, j) :: rest => quotedText name ++ ':' :: chars j ++ ',' :: fieldChars rest

end

def render (j : Json) : String := String.ofList (chars j)

def newline (level : Nat) : List Char := '\n' :: List.replicate (2 * level) ' '

mutual

def prettyChars (level : Nat) : Json → List Char
  | array (j :: items) =>
    '[' :: (newline (level + 1) ++ prettyItems (level + 1) (j :: items) ++ newline level ++ [']'])
  | object (f :: fields) =>
    '\x7b' :: (newline (level + 1) ++ prettyFields (level + 1) (f :: fields) ++ newline level
      ++ ['\x7d'])
  | array [] => ['[', ']']
  | object [] => ['\x7b', '\x7d']
  | null => "null".toList
  | bool b => (if b then "true" else "false").toList
  | number n => n.render
  | text s => quotedText s

def prettyItems (level : Nat) : List Json → List Char
  | [] => []
  | [j] => prettyChars level j
  | j :: rest => prettyChars level j ++ ',' :: newline level ++ prettyItems level rest

def prettyFields (level : Nat) : List (Option String × Json) → List Char
  | [] => []
  | [(name, j)] => quotedText name ++ ':' :: ' ' :: prettyChars level j
  | (name, j) :: rest =>
    quotedText name ++ ':' :: ' ' :: prettyChars level j ++ ',' :: newline level
      ++ prettyFields level rest

end

def pretty (j : Json) : String := String.ofList (prettyChars 0 j)

end ChainKeys.Json
