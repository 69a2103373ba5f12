import ChainKeys.Command.Basic
import ChainKeys.Decimal

/-!
Arguments read as a command.

Commands nest: each level has its options, and either subcommands or operands. Arguments are
scanned from left to right, a value as soon as it is there; what is missing is found missing at
the end. The common options may stand at every level, and the innermost one counts.
-/

namespace ChainKeys.Command

inductive Token
  /-- Two dashes: from here on there are only operands. -/
  | onlyOperands
  | long (name : String) (value : Option String)
  | short (letters : List Char)
  | word (text : String)
  deriving DecidableEq, Repr

def Token.ofText (text : String) : Token :=
  match text.toList with
  | ['-', '-'] => onlyOperands
  | '-' :: '-' :: cs =>
    let name := String.ofList (cs.takeWhile (· ≠ '='))
    match cs.dropWhile (· ≠ '=') with
    | [] => long name none
    | _ :: value => long name (some (String.ofList value))
  | '-' :: c :: cs => short (c :: cs)
  | _ => word text

/-! ### Values -/

/-- A number that may be signed, though not below zero. -/
def readThreshold (text : String) : Option UInt32 :=
  match text.toList with
  | '-' :: digits => (Decimal.readDigits digits).bind fun n => if n = 0 then some 0 else none
  | _ => Decimal.readWord32 text

def algorithm? (text : String) : Option Algorithm := (Algorithm.ofName text).toOption

def logFormat? (text : String) : Option LogFormat := (LogFormat.ofName text).toOption

def signature? (text : String) : Option NamedSignature := (NamedSignature.parse text).toOption

/-! ### Levels -/

structure OptionSpec where
  name : String
  takesValue : Bool
  repeats : Bool
  accepts : String → Bool

/-- An option with a value. -/
def OptionSpec.valued (name : String) (accepts : String → Bool) : OptionSpec :=
  ⟨name, true, false, accepts⟩

def OptionSpec.text (name : String) : OptionSpec := valued name fun _ => true

def OptionSpec.flag (name : String) : OptionSpec := ⟨name, false, false, fun _ => true⟩

/-- One level of commands. -/
structure Level where
  isTop : Bool
  options : List OptionSpec
  subcommands : List String
  /-- How many operands there may be, if that is limited. -/
  maxOperands : Option Nat

def commonOptions : List OptionSpec :=
  [.valued "home" (· ≠ ""), .text "log-level", .valued "log-format" fun v => (logFormat? v).isSome]

def group (isTop : Bool) (names : List String) : Level := ⟨isTop, commonOptions, names, some 0⟩

def leaf (options : List OptionSpec) (maxOperands : Option Nat) : Level :=
  ⟨false, options ++ commonOptions, [], maxOperands⟩

def top : Level := group true ["pubkey", "address", "multisig", "query", "config", "version"]

def leafOf? (path : List String) : Option Level :=
  match path with
  | ["pubkey", "decode"] => some (leaf [] (some 1))
  | ["pubkey", "encode"] =>
    some (leaf [.valued "algo" fun v => (algorithm? v).isSome, .text "key", .text "prefix"]
      (some 0))
  | ["address"] => some (leaf [.text "prefix"] (some 1))
  | ["multisig", "create"] =>
    some (leaf [.valued "threshold" fun v => (readThreshold v).isSome, .flag "nosort",
      .text "prefix"] none)
  | ["multisig", "combine"] =>
    some (leaf [.text "pubkey", ⟨"sig", true, true, fun v => (signature? v).isSome⟩] (some 0))
  | ["query"] =>
    some (leaf [.text "store", .text "key", .valued "height" fun v => (Decimal.readWord64 v).isSome,
      .text "node"] (some 0))
  | ["config", "show"] => some (leaf [] (some 0))
  | ["config", "set"] => some (leaf [] (some 2))
  | ["config", "init"] => some (leaf [.flag "overwrite"] (some 0))
  | ["version"] => some (leaf [] (some 0))
  | _ => none

def groupOf (name : String) : Level :=
  match name with
  | "pubkey" => group false ["decode", "encode"]
  | "multisig" => group false ["create", "combine"]
  | "config" => group false ["show", "set", "init"]
  | _ => group false []

/-- Whether words lead from one level to another, or to help on it. -/
def isCommandPath (l : Level) : List String → Bool
  | [] => true
  | name :: rest =>
    if l.subcommands.contains name then isCommandPath (groupOf name) rest
    else name = "help" && rest = [] && l.subcommands ≠ []

/-! ### Scanning -/

/-- What was found at one level. -/
structure Scan where
  given : List (String × String)
  operands : List String
  /-- The subcommand, and the arguments after it. -/
  rest : Option (String × List String)

namespace Scan

def empty : Scan := ⟨[], [], none⟩

def put (s : Scan) (o : OptionSpec) (value : String) : Except Refusal Scan :=
  if !o.accepts value || (!o.repeats && s.given.any fun g => g.1 = o.name) then .error .misuse
  else .ok { s with given := s.given ++ [(o.name, value)] }

def addOperands (l : Level) (s : Scan) (words : List String) : Except Refusal Scan :=
  if l.maxOperands.any (· < s.operands.length + words.length) then .error .misuse
  else .ok { s with operands := s.operands ++ words }

end Scan

/-- A word at a level with subcommands is one of them, or asks for help. -/
def subcommand (l : Level) (s : Scan) (name : String) (rest : List String) :
    Except Refusal Scan :=
  if l.subcommands.contains name then .ok { s with rest := some (name, rest) }
  else if name = "help" && isCommandPath l rest then .error .help
  else .error .misuse

def scan (l : Level) (s : Scan) : List String → Except Refusal Scan
  | [] => .ok s
  | arg :: rest =>
    match Token.ofText arg with
    | .onlyOperands => s.addOperands l rest
    | .short (c :: _) =>
      if c = 'h' then .error .help
      else if c = 'V' && l.isTop then .error .version
      else .error .misuse
    | .short [] => .error .misuse
    | .word text =>
      if l.subcommands = [] then
        match s.addOperands l [text] with
        | .ok s => scan l s rest
        | .error e => .error e
      else subcommand l s text rest
    | .long name value =>
      match l.options.find? (·.name = name), value with
      | some o, some v =>
        if o.takesValue then
          match s.put o v with
          | .ok s => scan l s rest
          | .error e => .error e
        else .error .misuse
      | some o, none =>
        if o.takesValue then
          match rest with
          | v :: rest' =>
            match Token.ofText v with
            | .word v =>
              match s.put o v with
              | .ok s => scan l s rest'
              | .error e => .error e
            | _ => .error .misuse
          | [] => .error .misuse
        else
          match s.put o "" with
          | .ok s => scan l s rest
          | .error e => .error e
      | none, none =>
        if name = "help" then .error .help
        else if name = "version" && l.isTop then .error .version
        else .error .misuse
      | none, some _ => .error .misuse

namespace Scan

def all (s : Scan) (name : String) : List String :=
  s.given.filterMap fun g => if g.1 = name then some g.2 else none

def value? (s : Scan) (name : String) : Option String := (s.all name).getLast?

def has (s : Scan) (name : String) : Bool := (s.value? name).isSome

end Scan

/-- The command that the innermost level spells, if nothing is missing. -/
def ofScan (path : List String) (s : Scan) : Option Command :=
  match path, s.operands with
  | ["pubkey", "decode"], [key] => some (.decodeKey key)
  | ["pubkey", "encode"], [] => do
    let algorithm := ((s.value? "algo").bind algorithm?).getD .secp256k1
    pure (.encodeKey algorithm (← s.value? "key") (s.value? "prefix"))
  | ["address"], [key] => some (.address key (s.value? "prefix"))
  | ["multisig", "create"], k :: keys => do
    let threshold ← readThreshold (← s.value? "threshold")
    pure (.createThreshold threshold (s.has "nosort") (s.value? "prefix") (k :: keys))
  | ["multisig", "combine"], [] => do
    pure (.combine (← s.value? "pubkey") ((s.all "sig").filterMap signature?))
  | ["query"], [] => do
    pure (.query (← s.value? "store") (← s.value? "key")
      ((s.value? "height").bind Decimal.readWord64) (s.value? "node"))
  | ["config", "show"], [] => some .showConfig
  | ["config", "set"], [key, value] => some (.setConfig key value)
  | ["config", "init"], [] => some (.initConfig (s.has "overwrite"))
  | ["version"], [] => some .version
  | _, _ => none

def options (given : List (String × String)) : Options where
  home := (Scan.mk given [] none).value? "home"
  logLevel := ((Scan.mk given [] none).value? "log-level").getD "warn"
  logFormat := (((Scan.mk given [] none).value? "log-format").bind logFormat?).getD .pretty

/-- Reads the innermost level, after what the outer ones gave. -/
def parseLeaf (given : List (String × String)) (path args : List String) :
    Except Refusal Invocation := do
  match leafOf? path with
  | none => .error .misuse
  | some l =>
    let s ← scan l .empty args
    match ofScan path s with
    | some c => pure ⟨options (given ++ s.given), c⟩
    | none => .error .misuse

def parse (args : List String) : Except Refusal Invocation := do
  let s ← scan top .empty args
  match s.rest with
  | none => .error .misuse
  | some (name, args) =>
    if (leafOf? [name]).isSome then parseLeaf s.given [name] args
    else
      let inner ← scan (groupOf name) .empty args
      match inner.rest with
      | none => .error .misuse
      | some (sub, args) => parseLeaf (s.given ++ inner.given) [name, sub] args

end ChainKeys.Command
