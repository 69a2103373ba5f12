import ChainKeys.Decimal
import ChainKeys.Json.Basic
import ChainKeys.Quote
import ChainKeys.Toml.Parser
import ChainKeys.Toml.Printer
import ChainKeys.Url.Parser

/-!
What the user may configure, and its text as a TOML document of six lines.

A document may leave any field out and may hold more than these; a field that is there must be
of the right kind.
-/

namespace ChainKeys

structure Config where
  node : String
  chainId : String
  accountPrefix : String
  pubkeyPrefix : String
  /-- In seconds. -/
  timeout : UInt64
  /-- In milliseconds. -/
  headerPollInterval : UInt64
  deriving DecidableEq, Repr

inductive Config.Error
  | noFile
  | unreadable
  | unwritable
  | unknownKey (key : String)
  | badValue (key value : String)
  deriving DecidableEq, Repr

def Config.Error.message : Error → String
  | noFile => "io error"
  | unreadable => "toml parsing error"
  | unwritable => "toml serialization error"
  | unknownKey key => "unknown configuration key: " ++ key
  | badValue key value => "invalid value " ++ Quote.text value ++ " for " ++ key

namespace Config

def standard : Config where
  node := "http://localhost:26657"
  chainId := "cosmoshub-4"
  accountPrefix := "cosmos"
  pubkeyPrefix := "cosmospub"
  timeout := 30
  headerPollInterval := 1000

/-- Sets one field from text. A node must be a URL, a number a 64-bit word. -/
def set (c : Config) (key value : String) : Except Error Config :=
  match key with
  | "node" =>
    if (Url.parse value).isSome then .ok { c with node := value } else .error (.badValue key value)
  | "chain_id" => .ok { c with chainId := value }
  | "account_prefix" => .ok { c with accountPrefix := value }
  | "pubkey_prefix" => .ok { c with pubkeyPrefix := value }
  | "timeout" =>
    match Decimal.readWord64 value with
    | some n => .ok { c with timeout := n }
    | none => .error (.badValue key value)
  | "header_poll_interval_ms" =>
    match Decimal.readWord64 value with
    | some n => .ok { c with headerPollInterval := n }
    | none => .error (.badValue key value)
  | _ => .error (.unknownKey key)

/-! ### TOML -/

def textLine (key value : String) : String := key ++ " = " ++ Toml.quote value ++ "\n"

/-- TOML numbers are signed words. -/
def numberLine? (key : String) (n : UInt64) : Option String :=
  if n.toNat < 0x8000000000000000 then some (key ++ " = " ++ toString n.toNat ++ "\n") else none

def render (c : Config) : Option String := do
  let timeout ← numberLine? "timeout" c.timeout
  let interval ← numberLine? "header_poll_interval_ms" c.headerPollInterval
  pure (textLine "node" c.node ++ textLine "chain_id" c.chainId
    ++ textLine "account_prefix" c.accountPrefix ++ textLine "pubkey_prefix" c.pubkeyPrefix
    ++ timeout ++ interval)

abbrev Fields := List (String × Toml.Value)

def textField? (es : Fields) (key default : String) : Option String :=
  match es.lookup key with
  | none => some default
  | some (.text s) => some s
  | some _ => none

def numberField? (es : Fields) (key : String) (default : UInt64) : Option UInt64 :=
  match es.lookup key with
  | none => some default
  | some (.integer i) => if 0 ≤ i then some (.ofNat i.toNat) else none
  | some _ => none

def ofFields? (es : Fields) : Option Config := do
  pure {
    node := ← textField? es "node" standard.node
    chainId := ← textField? es "chain_id" standard.chainId
    accountPrefix := ← textField? es "account_prefix" standard.accountPrefix
    pubkeyPrefix := ← textField? es "pubkey_prefix" standard.pubkeyPrefix
    timeout := ← numberField? es "timeout" standard.timeout
    headerPollInterval :=
      ← numberField? es "header_poll_interval_ms" standard.headerPollInterval }

def parse (s : String) : Option Config := do ofFields? (← Toml.parse s)

/-! ### JSON -/

def toJson (c : Config) : Json :=
  .obj [("node", .str c.node), ("chain_id", .str c.chainId),
    ("account_prefix", .str c.accountPrefix), ("pubkey_prefix", .str c.pubkeyPrefix),
    ("timeout", .int c.timeout.toNat), ("header_poll_interval_ms", .int c.headerPollInterval.toNat)]

end Config

end ChainKeys
