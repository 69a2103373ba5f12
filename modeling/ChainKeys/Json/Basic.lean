import ChainKeys.Decimal

/-!
JSON values as they stand in a text: an object keeps its fields in order, repeated names
included, and a number keeps its spelling's exact value.
-/

namespace ChainKeys

/-- The number `digits * 10 ^ exponent`, or its negative. -/
structure Json.Number where
  negative : Bool
  digits : Nat
  exponent : Int
  /-- Spelled with neither fraction nor exponent. -/
  plain : Bool
  deriving DecidableEq, Repr

/-- A text is `none` when an escape in it leaves half of a surrogate pair. -/
inductive Json
  | null
  | bool (value : Bool)
  | number (value : Json.Number)
  | text (value : Option String)
  | array (items : List Json)
  | object (fields : List (Option String × Json))

namespace Json

def Number.ofInt (i : Int) : Number := ⟨i < 0, i.natAbs, 0, true⟩

/-- A negative zero is no integer, and neither is a number with fraction or exponent. -/
def Number.toInt? (n : Number) : Option Int :=
  if !n.plain || (n.negative && n.digits = 0) then none
  else some (if n.negative then -n.digits else n.digits)

def Number.isFinite (n : Number) : Bool := Decimal.isFinite n.digits n.exponent

def str (s : String) : Json := text (some s)

def int (i : Int) : Json := number (.ofInt i)

def obj (fields : List (String × Json)) : Json :=
  object (fields.map fun (name, v) => (some name, v))

mutual

/-- Every text in `j` is whole, every number finite, and arrays and objects nest no deeper than
`depth`. -/
def fits (depth : Nat) : Json → Bool
  | null | bool _ => true
  | number n => n.isFinite
  | text s => s.isSome
  | array items =>
    match depth with
    | 0 => false
    | d + 1 => allFit d items
  | object fields =>
    match depth with
    | 0 => false
    | d + 1 => fieldsFit d fields

def allFit (depth : Nat) : List Json → Bool
  | [] => true
  | j :: rest => fits depth j && allFit depth rest

def fieldsFit (depth : Nat) : List (Option String × Json) → Bool
  | [] => true
  | (name, j) :: rest => name.isSome && fits depth j && fieldsFit depth rest

end

end Json

end ChainKeys
