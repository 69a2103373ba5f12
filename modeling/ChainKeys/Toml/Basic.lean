/-!
TOML values and tables.

A table knows how it came to be, because that decides what may still be added: one that a
header opened is closed to dotted keys, and one that dotted keys opened is closed to headers.
-/

namespace ChainKeys.Toml

inductive Value
  | text (value : String)
  | integer (value : Int)
  | float (spelling : String)
  | bool (value : Bool)
  | dateTime (spelling : String)
  | array (items : List Value)
  | table (entries : List (String × Value))

/-- How a table came to be. -/
inductive Origin
  /-- By its own header, or by being written out between braces. -/
  | header
  /-- As a parent in the header of another table. -/
  | parent
  /-- As a part of dotted keys. -/
  | dotted
  deriving DecidableEq, Repr

inductive Item
  | value (value : Value)
  | table (origin : Origin) (entries : List (String × Item))
  /-- The tables under one double-bracket header, the last one first. -/
  | tables (elements : List (List (String × Item)))

abbrev Entries := List (String × Item)

namespace Entries

def get? (es : Entries) (key : String) : Option Item := es.lookup key

/-- Puts an item under a key, in the place of one that is there. -/
def put (es : Entries) (key : String) (item : Item) : Entries :=
  if (es.lookup key).isSome then es.map fun e => if e.1 = key then (key, item) else e
  else es ++ [(key, item)]

/-- Adds a value under a path of dotted keys, opening the tables on the way. -/
def insertDotted (es : Entries) (path : List String) (key : String) (v : Value) : Option Entries :=
  match path with
  | [] => if (es.get? key).isSome then none else some (es.put key (.value v))
  | p :: ps =>
    match es.get? p with
    | none => do pure (es.put p (.table .dotted (← insertDotted [] ps key v)))
    | some (.table .dotted inner) => do
      pure (es.put p (.table .dotted (← insertDotted inner ps key v)))
    -- a parent can be passed through, but what it leads to must be dotted itself
    | some (.table .parent inner) =>
      if ps = [] then none else do pure (es.put p (.table .parent (← insertDotted inner ps key v)))
    | some (.tables (last :: before)) =>
      if ps = [] then none else do
        pure (es.put p (.tables ((← insertDotted last ps key v) :: before)))
    | some _ => none

/-- Changes the table that a header's path leads to, opening the parents on the way. -/
def alter (es : Entries) (path : List String) (f : Entries → Option Entries) : Option Entries :=
  match path with
  | [] => f es
  | p :: ps =>
    match es.get? p with
    | none => do pure (es.put p (.table .parent (← alter [] ps f)))
    | some (.table origin inner) => do pure (es.put p (.table origin (← alter inner ps f)))
    | some (.tables (last :: before)) => do
      pure (es.put p (.tables ((← alter last ps f) :: before)))
    | some _ => none

/-- Opens a table by its header. Only one that was a mere parent may exist. -/
def open? (key : String) (es : Entries) : Option Entries :=
  match es.get? key with
  | none => some (es.put key (.table .header []))
  | some (.table .parent inner) => some (es.put key (.table .header inner))
  | some _ => none

/-- Adds a table under a double-bracket header. -/
def push? (key : String) (es : Entries) : Option Entries :=
  match es.get? key with
  | none => some (es.put key (.tables [[]]))
  | some (.tables elements) => some (es.put key (.tables ([] :: elements)))
  | some _ => none

mutual

/-- The items as plain values. -/
def toValues : Entries → List (String × Value)
  | [] => []
  | (key, item) :: es => (key, itemValue item) :: toValues es

def itemValue : Item → Value
  | .value v => v
  | .table _ es => .table (toValues es)
  | .tables ts => .array (tableValues ts).reverse

def tableValues : List Entries → List Value
  | [] => []
  | es :: ts => .table (toValues es) :: tableValues ts

end

end Entries

end ChainKeys.Toml
