import ChainKeys.Json.Basic

/-!
Objects read as records with named fields. Fields that the record does not name are skipped,
whatever they hold; a named field given twice is refused. A record may also be an array of its
fields in order.
-/

namespace ChainKeys.Json

inductive Presence
  | required
  /-- May be missing from an object, but keeps its place in an array. -/
  | nullable
  /-- May be missing; an array may end before it. -/
  | defaulted
  deriving DecidableEq, Repr

/-- The names of an object's fields, when all of them are whole. -/
def names? (fields : List (Option String × Json)) : Option (List (String × Json)) :=
  fields.mapM fun (name, j) => name.map (·, j)

/-- The value of the one field of this name, `none` when there are several. -/
def only? (name : String) (fields : List (String × Json)) : Option (Option Json) :=
  match fields.filter (·.1 = name) with
  | [] => some none
  | [(_, j)] => some (some j)
  | _ => none

def fieldOf (fields : List (String × Json)) (spec : String × Presence) : Option (Option Json) :=
  match only? spec.1 fields with
  | some none => if spec.2 = .required then none else some none
  | found => found

def placesOf : List (String × Presence) → List Json → Option (List (Option Json))
  | [], [] => some []
  | [], _ :: _ => none
  | _ :: specs, j :: items => (placesOf specs items).map (some j :: ·)
  | spec :: specs, [] => if spec.2 = .defaulted then (placesOf specs []).map (none :: ·) else none

/-- What was given for each field, in the order of `specs`. -/
def record? (specs : List (String × Presence)) : Json → Option (List (Option Json))
  | object fields => do
    let fields ← names? fields
    specs.mapM (fieldOf fields)
  | array items => placesOf specs items
  | _ => none

def text? : Json → Option String
  | text s => s
  | _ => none

def array? : Json → Option (List Json)
  | array items => some items
  | _ => none

def int? : Json → Option Int
  | number n => n.toInt?
  | _ => none

/-- An integer within bounds. -/
def intWithin? (low high : Int) (j : Json) : Option Int :=
  j.int?.filter fun i => low ≤ i && i ≤ high

/-- Reads a value that may be missing or `null`. -/
def nullable? {α : Type} (read : Json → Option α) : Option Json → Option (Option α)
  | none | some null => some none
  | some j => (read j).map some

/-- Reads a value that may be missing, but not `null`. -/
def orDefault? {α : Type} (default : α) (read : Json → Option α) : Option Json → Option α
  | none => some default
  | some j => read j

end ChainKeys.Json
