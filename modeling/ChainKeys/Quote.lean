import ChainKeys.Quote.Unseen

/-!
Text shown inside a message: between quotes, with what cannot be seen written as an escape.
-/

namespace ChainKeys.Quote

/-- Characters written as they are: the blank, and every other character that has a glyph of
its own. -/
def isVisible (c : Char) : Bool := !isUnseen c.toNat

def escape (c : Char) : String :=
  if c = '\x00' then "\\0"
  else if c = '\t' then "\\t"
  else if c = '\n' then "\\n"
  else if c = '\r' then "\\r"
  else if c = '\\' then "\\\\"
  else if isVisible c then String.singleton c
  else "\\u\x7b" ++ String.ofList (Nat.toDigits 16 c.toNat) ++ "\x7d"

/-- In double quotes; an apostrophe stays as it is. -/
def text (s : String) : String :=
  "\"" ++ String.join (s.toList.map fun c => if c = '"' then "\\\"" else escape c) ++ "\""

/-- In apostrophes; a double quote stays as it is. -/
def char (c : Char) : String :=
  "'" ++ (if c = '\'' then "\\'" else escape c) ++ "'"

end ChainKeys.Quote
