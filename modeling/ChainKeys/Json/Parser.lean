import ChainKeys.Decimal
import ChainKeys.Json.Basic

/-!
JSON texts read back. Nothing may follow the value but blanks, and nesting is not bounded here:
a reader of records bounds what it looks into.
-/

namespace ChainKeys.Json

open Decimal (isDigit ofDigits)

def isBlank (c : Char) : Bool := c = ' ' || c = '\n' || c = '\r' || c = '\t'

def skipBlank (cs : List Char) : List Char := cs.dropWhile isBlank

/-! ### Texts -/

def hexValue? (c : Char) : Option Nat :=
  if '0' ≤ c ∧ c ≤ '9' then some (c.toNat - 48)
  else if 'a' ≤ c ∧ c ≤ 'f' then some (c.toNat - 87)
  else if 'A' ≤ c ∧ c ≤ 'F' then some (c.toNat - 55)
  else none

def hexUnit? (a b c d : Char) : Option Nat := do
  let w ← hexValue? a
  let x ← hexValue? b
  let y ← hexValue? c
  let z ← hexValue? d
  pure (((w * 16 + x) * 16 + y) * 16 + z)

def isHighSurrogate (n : Nat) : Bool := 0xd800 ≤ n && n ≤ 0xdbff
def isLowSurrogate (n : Nat) : Bool := 0xdc00 ≤ n && n ≤ 0xdfff
def isSurrogate (n : Nat) : Bool := 0xd800 ≤ n && n ≤ 0xdfff

def ofPair (high low : Nat) : Char := Char.ofNat (0x10000 + (high - 0xd800) * 1024 + (low - 0xdc00))

def unescape? (c : Char) : Option Char :=
  match c with
  | '"' => some '"'
  | '\\' => some '\\'
  | '/' => some '/'
  | 'b' => some '\x08'
  | 'f' => some '\x0c'
  | 'n' => some '\n'
  | 'r' => some '\r'
  | 't' => some '\t'
  | _ => none

/-- The second half of a pair, escaped at the start of `cs`. -/
def lowHalf? (cs : List Char) : Option Nat :=
  match cs with
  | '\\' :: 'u' :: a :: b :: c :: d :: _ => (hexUnit? a b c d).filter isLowSurrogate
  | _ => none

/-- The characters up to the closing quote, with `none` for half of a surrogate pair, and what
follows the quote. -/
def stringTail : List Char → Option (List (Option Char) × List Char)
  | [] => none
  | '"' :: rest => some ([], rest)
  | '\\' :: 'u' :: a :: b :: c :: d :: rest => do
    let u ← hexUnit? a b c d
    match if isHighSurrogate u then lowHalf? rest else none with
    | some v =>
      let (cs, after) ← stringTail (rest.drop 6)
      pure (some (ofPair u v) :: cs, after)
    | none =>
      let (cs, after) ← stringTail rest
      pure ((if isSurrogate u then none else some (Char.ofNat u)) :: cs, after)
  | '\\' :: c :: rest => do
    let x ← unescape? c
    let (cs, after) ← stringTail rest
    pure (some x :: cs, after)
  | c :: rest =>
    if c.toNat < 32 || c = '\\' then none
    else do
      let (cs, after) ← stringTail rest
      pure (some c :: cs, after)
termination_by cs => cs.length

def wholeText (cs : List (Option Char)) : Option String := (cs.mapM id).map String.ofList

/-! ### Numbers -/

/-- At least one digit, and what follows the last. -/
def digits? (cs : List Char) : Option (List Char × List Char) :=
  match cs.takeWhile isDigit with
  | [] => none
  | ds => some (ds, cs.dropWhile isDigit)

/-- A point and digits, or nothing. -/
def fraction? (cs : List Char) : Option (List Char × List Char) :=
  match cs with
  | '.' :: rest => digits? rest
  | _ => some ([], cs)

def signed? (cs : List Char) : Option (Int × List Char) :=
  match cs with
  | '+' :: rest => (digits? rest).map fun (ds, after) => ((ofDigits ds : Int), after)
  | '-' :: rest => (digits? rest).map fun (ds, after) => (-(ofDigits ds : Int), after)
  | _ => (digits? cs).map fun (ds, after) => ((ofDigits ds : Int), after)

/-- The exponent, with `none` when none is written. -/
def exponent? (cs : List Char) : Option (Option Int × List Char) :=
  match cs with
  | 'e' :: rest | 'E' :: rest => (signed? rest).map fun (e, after) => (some e, after)
  | _ => some (none, cs)

/-- Digits before the point: a leading zero stands alone. -/
def whole? (cs : List Char) : Option (List Char × List Char) :=
  match cs with
  | '0' :: rest => some (['0'], rest)
  | _ => digits? cs

def number? (cs : List Char) : Option (Number × List Char) := do
  let (negative, cs) := match cs with
    | '-' :: rest => (true, rest)
    | _ => (false, cs)
  let (whole, cs) ← whole? cs
  let (frac, cs) ← fraction? cs
  let (e, cs) ← exponent? cs
  pure (⟨negative, ofDigits (whole ++ frac), e.getD 0 - frac.length, frac.isEmpty && e.isNone⟩, cs)

/-! ### Values -/

mutual

/-- Reads a value. Two rounds go to each character at most, which bounds `rounds`. -/
def value? : (rounds : Nat) → List Char → Option (Json × List Char)
  | 0, _ => none
  | n + 1, cs =>
    match skipBlank cs with
    | 'n' :: 'u' :: 'l' :: 'l' :: rest => some (null, rest)
    | 't' :: 'r' :: 'u' :: 'e' :: rest => some (bool true, rest)
    | 'f' :: 'a' :: 'l' :: 's' :: 'e' :: rest => some (bool false, rest)
    | '"' :: rest => (stringTail rest).map fun (s, after) => (text (wholeText s), after)
    | '[' :: rest =>
      match skipBlank rest with
      | ']' :: after => some (array [], after)
      | rest => (items? n rest).map fun (js, after) => (array js, after)
    | '\x7b' :: rest =>
      match skipBlank rest with
      | '\x7d' :: after => some (object [], after)
      | rest => (fields? n rest).map fun (fs, after) => (object fs, after)
    | cs => (number? cs).map fun (v, after) => (number v, after)

def items? : (rounds : Nat) → List Char → Option (List Json × List Char)
  | 0, _ => none
  | n + 1, cs => do
    let (j, rest) ← value? n cs
    match skipBlank rest with
    | ',' :: rest =>
      let (js, after) ← items? n rest
      pure (j :: js, after)
    | ']' :: after => pure ([j], after)
    | _ => none

def fields? : (rounds : Nat) → List Char → Option (List (Option String × Json) × List Char)
  | 0, _ => none
  | n + 1, cs =>
    match skipBlank cs with
    | '"' :: rest => do
      let (name, rest) ← stringTail rest
      match skipBlank rest with
      | ':' :: rest =>
        let (j, rest) ← value? n rest
        match skipBlank rest with
        | ',' :: rest =>
          let (fs, after) ← fields? n rest
          pure ((wholeText name, j) :: fs, after)
        | '\x7d' :: after => pure ([(wholeText name, j)], after)
        | _ => none
      | _ => none
    | _ => none

end

def parse (s : String) : Option Json := do
  let cs := s.toList
  let (j, rest) ← value? (2 * cs.length + 2) cs
  if (skipBlank rest).isEmpty then pure j else none

end ChainKeys.Json
