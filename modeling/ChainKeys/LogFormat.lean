import ChainKeys.Key

/-!
How log lines are written, and which of them: a filter is a list of directives, each a level, or
a target or span with the level it gets.
-/

namespace ChainKeys

inductive LogFormat
  | json
  | pretty
  deriving DecidableEq, Repr

namespace LogFormat

def name : LogFormat → String
  | json => "json"
  | pretty => "pretty"

def unknownMessage (name : String) : String := "unknown log format: " ++ name

/-- Reads a name in any case; an unknown one is given back in small letters. -/
def ofName (text : String) : Except String LogFormat :=
  match Algorithm.normalize text with
  | "json" => .ok json
  | "pretty" | "text" => .ok pretty
  | other => .error other

end LogFormat

namespace LogFilter

def isLevel (cs : List Char) : Bool :=
  ["trace", "debug", "info", "warn", "error", "off", "0", "1", "2", "3", "4", "5"].contains
    (Algorithm.normalize (String.ofList cs))

def isTargetChar (c : Char) : Bool := c.isAlphanum || c = '_' || c = ':' || c = '-' || 127 < c.toNat

/-- Drops a target, or a span in brackets. -/
def dropSubject? (cs : List Char) : Option (List Char) :=
  match cs with
  | '[' :: rest =>
    match rest.dropWhile (· ≠ ']') with
    | _ :: after => some after
    | [] => none
  | cs => if (cs.takeWhile isTargetChar).isEmpty then none else some (cs.dropWhile isTargetChar)

/-- After the subjects: nothing, an equals sign, or one with a level. -/
def isTail (cs : List Char) : Bool :=
  match cs with
  | [] | ['='] => true
  | '=' :: level => isLevel level
  | _ => false

def isDirective (cs : List Char) : Bool :=
  isLevel cs ||
    match dropSubject? cs with
    | none => false
    | some rest => isTail rest || (dropSubject? rest).any isTail

def isValid (text : String) : Bool :=
  ((text.splitOn ",").filter (· ≠ "")).all fun d => isDirective d.toList

end LogFilter

end ChainKeys
