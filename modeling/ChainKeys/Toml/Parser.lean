import ChainKeys.Decimal
import ChainKeys.Toml.Basic

/-!
TOML documents read: lines of comments, table headers and keys with values, into the entries
of the root table.
-/

namespace ChainKeys.Toml

abbrev Rest := List Char

/-! ### Blanks, comments and line ends -/

def isBlank (c : Char) : Bool := c = ' ' || c = '\t'

def skipBlank (cs : Rest) : Rest := cs.dropWhile isBlank

def isCommentChar (c : Char) : Bool := c = '\t' || (32 ≤ c.toNat && c.toNat ≠ 127)

def skipComment (cs : Rest) : Rest :=
  match cs with
  | '#' :: rest => rest.dropWhile isCommentChar
  | _ => cs

def newline? (cs : Rest) : Option Rest :=
  match cs with
  | '\n' :: rest | '\r' :: '\n' :: rest => some rest
  | _ => none

/-- The end of a line, after blanks and a comment. -/
def lineEnd? (cs : Rest) : Option Rest :=
  match skipComment (skipBlank cs) with
  | [] => some []
  | cs => newline? cs

/-- Skips blanks, comments and line ends; a comment must be followed by a line end. -/
def skipLines : (rounds : Nat) → Rest → Option Rest
  | 0, cs => some cs
  | n + 1, cs =>
    match skipBlank cs with
    | '#' :: rest => do skipLines n (← newline? (skipComment ('#' :: rest)))
    | cs =>
      match newline? cs with
      | some rest => skipLines n rest
      | none => some cs

/-! ### Texts -/

def hexDigit? (c : Char) : Option Nat :=
  if '0' ≤ c ∧ c ≤ '9' then some (c.toNat - 48)
  else if 'a' ≤ c ∧ c ≤ 'f' then some (c.toNat - 87)
  else if 'A' ≤ c ∧ c ≤ 'F' then some (c.toNat - 55)
  else none

/-- The code point of `count` hexadecimal digits. -/
def scalar? (count : Nat) (cs : Rest) : Option (Char × Rest) := do
  let digits ← (cs.take count).mapM hexDigit?
  let n := digits.foldl (fun n d => n * 16 + d) 0
  if digits.length = count ∧ n.isValidChar then pure (Char.ofNat n, cs.drop count) else none

/-- The character that an escape stands for, read after the backslash. -/
def escaped? (cs : Rest) : Option (Char × Rest) :=
  match cs with
  | 'b' :: rest => some ('\x08', rest)
  | 't' :: rest => some ('\t', rest)
  | 'n' :: rest => some ('\n', rest)
  | 'f' :: rest => some ('\x0c', rest)
  | 'r' :: rest => some ('\r', rest)
  | '"' :: rest => some ('"', rest)
  | '\\' :: rest => some ('\\', rest)
  | 'u' :: rest => scalar? 4 rest
  | 'U' :: rest => scalar? 8 rest
  | _ => none

def isTextChar (c : Char) : Bool := c = '\t' || (32 ≤ c.toNat && c.toNat ≠ 127)

/-- A text up to its closing quote. -/
def basicTail : (rounds : Nat) → Rest → Option (List Char × Rest)
  | 0, _ => none
  | n + 1, cs =>
    match cs with
    | '"' :: rest => some ([], rest)
    | '\\' :: rest => do
      let (c, rest) ← escaped? rest
      let (text, after) ← basicTail n rest
      pure (c :: text, after)
    | c :: rest =>
      if isTextChar c then do
        let (text, after) ← basicTail n rest
        pure (c :: text, after)
      else none
    | [] => none

def literalTail (cs : Rest) : Option (List Char × Rest) :=
  match cs.dropWhile fun c => isTextChar c && c ≠ '\'' with
  | '\'' :: after => some (cs.takeWhile fun c => isTextChar c && c ≠ '\'', after)
  | _ => none

/-- Three quotes, after up to two more that belong to the text. -/
def closing? (quote : Char) (cs : Rest) : Option (List Char × Rest) :=
  let run := (cs.takeWhile (· = quote)).length
  if 3 ≤ run then
    let extra := min (run - 3) 2
    some (List.replicate extra quote, cs.drop (extra + 3))
  else none

/-- After a backslash at the end of a line: the next character that is neither blank nor line
end. -/
def continued? (rounds : Nat) (cs : Rest) : Option Rest := do
  let rest ← newline? (skipBlank cs)
  let rec skip : Nat → Rest → Rest
    | 0, cs => cs
    | n + 1, cs =>
      match newline? (skipBlank cs) with
      | some rest => skip n rest
      | none => skipBlank cs
  pure (skip rounds rest)

/-- A text of several lines up to its closing quotes. -/
def multilineTail (quote : Char) : (rounds : Nat) → Rest → Option (List Char × Rest)
  | 0, _ => none
  | n + 1, cs =>
    match closing? quote cs with
    | some closed => some closed
    | none =>
      match newline? cs with
      | some rest => do
        let (text, after) ← multilineTail quote n rest
        pure ('\n' :: text, after)
      | none =>
        match cs with
        | '\\' :: rest =>
          if quote = '"' then
            match continued? n rest with
            | some rest => multilineTail quote n rest
            | none => do
              let (c, rest) ← escaped? rest
              let (text, after) ← multilineTail quote n rest
              pure (c :: text, after)
          else do
            let (text, after) ← multilineTail quote n rest
            pure ('\\' :: text, after)
        | c :: rest =>
          if isTextChar c then do
            let (text, after) ← multilineTail quote n rest
            pure (c :: text, after)
          else none
        | [] => none

/-- A line end right after the opening quotes is not part of the text. -/
def multiline? (quote : Char) (cs : Rest) : Option (List Char × Rest) :=
  let cs := (newline? cs).getD cs
  multilineTail quote (cs.length + 1) cs

/-- A text on one line, in quotes or apostrophes. -/
def simpleText? (cs : Rest) : Option (String × Rest) := do
  let (text, rest) ← match cs with
    | '"' :: rest => basicTail (rest.length + 1) rest
    | '\'' :: rest => literalTail rest
    | _ => none
  pure (String.ofList text, rest)

def text? (cs : Rest) : Option (String × Rest) :=
  match cs with
  | '"' :: '"' :: '"' :: rest => do
    let (text, rest) ← multiline? '"' rest
    pure (String.ofList text, rest)
  | '\'' :: '\'' :: '\'' :: rest => do
    let (text, rest) ← multiline? '\'' rest
    pure (String.ofList text, rest)
  | cs => simpleText? cs

/-! ### Numbers -/

open Decimal (isDigit ofDigits isFinite)

/-- Further digits, single underscores between them dropped. -/
def moreDigits (ok : Char → Bool) : Rest → List Char × Rest
  | '_' :: d :: rest =>
    if ok d then
      let (ds, after) := moreDigits ok rest
      (d :: ds, after)
    else ([], '_' :: d :: rest)
  | d :: rest =>
    if ok d then
      let (ds, after) := moreDigits ok rest
      (d :: ds, after)
    else ([], d :: rest)
  | [] => ([], [])

/-- At least one digit. -/
def digits? (ok : Char → Bool) (cs : Rest) : Option (List Char × Rest) :=
  match cs with
  | d :: rest =>
    if ok d then
      let (ds, after) := moreDigits ok rest
      some (d :: ds, after)
    else none
  | [] => none

def sign (cs : Rest) : Bool × Rest :=
  match cs with
  | '-' :: rest => (true, rest)
  | '+' :: rest => (false, rest)
  | _ => (false, cs)

/-- Decimal digits of which a leading zero stands alone. -/
def whole? (cs : Rest) : Option (List Char × Rest) :=
  match cs with
  | '0' :: rest => some (['0'], rest)
  | _ => digits? isDigit cs

/-- Numbers that fit in a signed 64-bit word. -/
def inWord (i : Int) : Option Int :=
  if -0x8000000000000000 ≤ i ∧ i < 0x8000000000000000 then some i else none

def radix? (base : Nat) (ok : Char → Bool) (cs : Rest) : Option (Value × Rest) := do
  let (ds, rest) ← digits? ok cs
  let n := (ds.filterMap hexDigit?).foldl (fun n d => n * base + d) 0
  pure (.integer (← inWord n), rest)

def integer? (cs : Rest) : Option (Value × Rest) :=
  match cs with
  | '0' :: 'x' :: rest => radix? 16 (fun c => (hexDigit? c).isSome) rest
  | '0' :: 'o' :: rest => radix? 8 (fun c => '0' ≤ c && c ≤ '7') rest
  | '0' :: 'b' :: rest => radix? 2 (fun c => c = '0' || c = '1') rest
  | cs => do
    let (negative, cs) := sign cs
    let (ds, rest) ← whole? cs
    let n : Int := ofDigits ds
    pure (.integer (← inWord (if negative then -n else n)), rest)

def fraction? (cs : Rest) : Option (List Char × Rest) :=
  match cs with
  | '.' :: rest => digits? isDigit rest
  | _ => none

def exponent? (cs : Rest) : Option (Int × Rest) :=
  match cs with
  | 'e' :: rest | 'E' :: rest => do
    let (negative, rest) := sign rest
    let (ds, rest) ← digits? isDigit rest
    let n : Int := ofDigits ds
    pure (if negative then -n else n, rest)
  | _ => none

/-- The characters that were read between two places in the input. -/
def spelling (cs rest : Rest) : String := String.ofList (cs.take (cs.length - rest.length))

/-- A number with a fraction or an exponent, or one of the special names. A number that is too
large is refused unless it is negative. -/
def float? (cs : Rest) : Option (Value × Rest) := do
  let (negative, body) := sign cs
  match body with
  | 'i' :: 'n' :: 'f' :: rest | 'n' :: 'a' :: 'n' :: rest => pure (.float (spelling cs rest), rest)
  | _ => do
    let (ds, rest) ← whole? body
    match fraction? rest with
    | some (fs, rest) =>
      let (e, rest) := (exponent? rest).getD (0, rest)
      if negative || isFinite (ofDigits (ds ++ fs)) (e - fs.length) then
        pure (.float (spelling cs rest), rest)
      else none
    | none => do
      let (e, rest) ← exponent? rest
      if negative || isFinite (ofDigits ds) e then pure (.float (spelling cs rest), rest) else none

/-! ### Dates and times -/

/-- A number of exactly `count` digits within bounds. -/
def field? (count low high : Nat) (cs : Rest) : Option (Nat × Rest) :=
  let ds := cs.take count
  let n := ofDigits ds
  if ds.length = count ∧ ds.all isDigit ∧ low ≤ n ∧ n ≤ high then some (n, cs.drop count) else none

def char? (c : Char) (cs : Rest) : Option Rest :=
  match cs with
  | d :: rest => if c = d then some rest else none
  | [] => none

def daysIn (year month : Nat) : Nat :=
  let leap := year % 4 = 0 && (year % 100 ≠ 0 || year % 400 = 0)
  match month with
  | 2 => if leap then 29 else 28
  | 4 | 6 | 9 | 11 => 30
  | _ => 31

def date? (cs : Rest) : Option Rest := do
  let (year, rest) ← field? 4 0 9999 cs
  let (month, rest) ← field? 2 1 12 (← char? '-' rest)
  let (_, rest) ← field? 2 1 (daysIn year month) (← char? '-' rest)
  pure rest

def time? (cs : Rest) : Option Rest := do
  let (_, rest) ← field? 2 0 23 cs
  let (_, rest) ← field? 2 0 59 (← char? ':' rest)
  let (_, rest) ← field? 2 0 60 (← char? ':' rest)
  match rest with
  | '.' :: d :: more => if isDigit d then pure (more.dropWhile isDigit) else none
  | '.' :: [] => none
  | rest => pure rest

def offset? (cs : Rest) : Option Rest :=
  match cs with
  | 'Z' :: rest | 'z' :: rest => some rest
  | '+' :: rest | '-' :: rest => do
    let (_, rest) ← field? 2 0 23 rest
    let (_, rest) ← field? 2 0 59 (← char? ':' rest)
    pure rest
  | _ => none

/-- A date, a time, or both with or without an offset. -/
def dateTime? (cs : Rest) : Option (Value × Rest) := do
  let rest ← match date? cs with
    | some rest =>
      match rest with
      | c :: more =>
        if c = 'T' ∨ c = 't' ∨ c = ' ' then
          match time? more with
          | some rest => pure ((offset? rest).getD rest)
          | none => pure rest
        else pure rest
      | [] => pure rest
    | none => time? cs
  pure (.dateTime (spelling cs rest), rest)

/-! ### Keys and values -/

def isBareKey (c : Char) : Bool := c.isAlphanum || c = '_' || c = '-'

def simpleKey? (cs : Rest) : Option (String × Rest) :=
  match cs with
  | '"' :: _ | '\'' :: _ => simpleText? cs
  | _ =>
    match cs.takeWhile isBareKey with
    | [] => none
    | key => some (String.ofList key, cs.dropWhile isBareKey)

def keyParts? : (rounds : Nat) → Rest → Option (List String × Rest)
  | 0, _ => none
  | n + 1, cs => do
    let (key, rest) ← simpleKey? (skipBlank cs)
    match skipBlank rest with
    | '.' :: rest => do
      let (keys, rest) ← keyParts? n rest
      pure (key :: keys, rest)
    | rest => pure ([key], rest)

/-- How deep values may nest, and how many parts a key may have. -/
def nestingLimit : Nat := 79

/-- A key, split into the parts before its last dot and the last one. -/
def key? (cs : Rest) : Option (List String × String × Rest) := do
  let (parts, rest) ← keyParts? (cs.length + 1) cs
  if nestingLimit < parts.length then none
  else pure (parts.dropLast, ← parts.getLast?, rest)

def word? (word : String) (v : Value) (cs : Rest) : Option (Value × Rest) :=
  if word.toList.isPrefixOf cs then some (v, cs.drop word.length) else none

/-- Items separated by commas up to the closing bracket; a comma may follow the last. -/
def items? (value : Rest → Option (Value × Rest)) : (rounds : Nat) → Rest →
    Option (List Value × Rest)
  | 0, _ => none
  | n + 1, cs => do
    match ← skipLines cs.length cs with
    | ']' :: rest => pure ([], rest)
    | cs => do
      let (v, rest) ← value cs
      match ← skipLines rest.length rest with
      | ',' :: rest => do
        let (vs, after) ← items? value n rest
        pure (v :: vs, after)
      | ']' :: rest => pure ([v], rest)
      | _ => none

/-- Keys with values up to the closing brace, at least one, all on one line. -/
def pairs? (value : Rest → Option (Value × Rest)) : (rounds : Nat) → Entries → Rest →
    Option (Entries × Rest)
  | 0, _, _ => none
  | n + 1, es, cs => do
    let (path, key, rest) ← key? cs
    let (v, rest) ← value (skipBlank (← char? '=' rest))
    let es ← es.insertDotted path key v
    match skipBlank rest with
    | ',' :: rest => pairs? value n es rest
    | '\x7d' :: rest => pure (es, rest)
    | _ => none

def scalarValue? (cs : Rest) : Option (Value × Rest) :=
  match cs with
  | '"' :: _ | '\'' :: _ => (text? cs).map fun (s, rest) => (.text s, rest)
  | 't' :: _ => word? "true" (.bool true) cs
  | 'f' :: _ => word? "false" (.bool false) cs
  | _ => (dateTime? cs <|> float? cs) <|> integer? cs

/-- Reads a value that is at most `depth` arrays and tables deep. -/
def value? : (depth : Nat) → Rest → Option (Value × Rest)
  | 0, cs => scalarValue? cs
  | depth + 1, cs =>
    match cs with
    | '[' :: rest =>
      (items? (value? depth) (rest.length + 1) rest).map fun (vs, rest) => (.array vs, rest)
    | '\x7b' :: rest =>
      match skipBlank rest with
      | '\x7d' :: rest => some (.table [], rest)
      | rest =>
        (pairs? (value? depth) (rest.length + 1) [] rest).map fun (es, rest) =>
          (.table es.toValues, rest)
    | cs => scalarValue? cs

/-! ### Documents -/

/-- The root's entries, and the path of the table that keys go to. -/
structure Document where
  root : Entries
  current : List String

def Document.empty : Document := ⟨[], []⟩

def Document.add (d : Document) (path : List String) (key : String) (v : Value) :
    Option Document := do
  pure { d with root := ← d.root.alter d.current fun es => es.insertDotted path key v }

/-- Reads a header, of single or double brackets, and makes its table the current one. -/
def Document.header? (d : Document) (cs : Rest) : Option (Document × Rest) :=
  match cs with
  | '[' :: '[' :: rest => do
    let (path, key, rest) ← key? rest
    let rest ← char? ']' (← char? ']' rest)
    let root ← d.root.alter path (Entries.push? key)
    pure (⟨root, path ++ [key]⟩, ← lineEnd? rest)
  | '[' :: rest => do
    let (path, key, rest) ← key? rest
    let rest ← char? ']' rest
    let root ← d.root.alter path (Entries.open? key)
    pure (⟨root, path ++ [key]⟩, ← lineEnd? rest)
  | _ => none

def Document.pair? (d : Document) (cs : Rest) : Option (Document × Rest) := do
  let (path, key, rest) ← key? cs
  let (v, rest) ← value? nestingLimit (skipBlank (← char? '=' rest))
  pure (← d.add path key v, ← lineEnd? rest)

/-- Reads lines up to the end. -/
def Document.lines? : (rounds : Nat) → Document → Rest → Option Document
  | 0, _, _ => none
  | n + 1, d, cs =>
    match skipBlank cs with
    | [] => some d
    | '#' :: rest => do lines? n d (← lineEnd? ('#' :: rest))
    | '[' :: rest => do
      let (d, rest) ← d.header? ('[' :: rest)
      lines? n d rest
    | '\n' :: rest => lines? n d rest
    | '\r' :: '\n' :: rest => lines? n d rest
    | cs => do
      let (d, rest) ← d.pair? cs
      lines? n d rest

/-- Reads a document, after a byte order mark if there is one. -/
def parse (s : String) : Option (List (String × Value)) := do
  let cs := match s.toList with
    | '\ufeff' :: rest => rest
    | cs => cs
  let d ← Document.lines? (cs.length + 1) .empty cs
  pure d.root.toValues

end ChainKeys.Toml
