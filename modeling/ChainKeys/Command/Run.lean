import ChainKeys.Command.Basic
import ChainKeys.Home
import ChainKeys.Json.Printer
import ChainKeys.KeyAddress
import ChainKeys.KeyJson
import ChainKeys.KeyText
import ChainKeys.MultisigWire
import ChainKeys.ProvenQuery

/-!
Carrying out commands. A command writes lines, may fail after some of them, and may change the
home directory. A query is worked out as a plan, and whoever runs the command says how it goes.
-/

namespace ChainKeys.Command

inductive Error
  | badFilter
  | badHome (name : String)
  | config (error : Config.Error)
  | notHex
  | key (error : KeyError)
  | text (error : KeyText.Error)
  | address (error : AddressError)
  | threshold (shown : String)
  | notThreshold (shown : String)
  | badSigner (shown : String)
  | twoSignatures (signer : String)
  | badUrl
  | query (error : ProvenQuery.Error)
  deriving DecidableEq, Repr

def Error.message : Error → String
  | badFilter => "failed to initialize logging: invalid filter directive"
  | badHome name => "failed to load config from " ++ name
  | config e => e.message
  | notHex => "key is not hex"
  | key e => e.message
  | text e => e.message
  | address e => e.message
  | threshold shown => shown ++ " is a multisig key"
  | notThreshold shown => shown ++ " is not a multisig key"
  | badSigner shown => "invalid signer address " ++ shown
  | twoSignatures signer => "duplicate signature for " ++ signer
  | badUrl => "invalid url"
  | query e => e.message

abbrev Result (α : Type) := Except Error α

def readKey (text : String) : Result PublicKey :=
  match KeyText.decode .cosmos text with
  | .ok (_, k) => .ok k
  | .error e => .error (.text e)

def writeKey (k : PublicKey) (hrp : String) : Result String :=
  (KeyText.encode .cosmos k hrp).mapError .text

def writeAddress (k : PublicKey) (hrp : String) : Result String :=
  ((Address.ofKey .cosmos k).toBech32 hrp).mapError .address

def readHex (text : String) : Result Bytes := (Hex.decode text).mapError fun _ => .notHex

/-- The home directory under its name. -/
structure Place where
  name : String
  home : Home

def Place.config (p : Place) : Result Config := p.home.load.mapError fun _ => .badHome p.name

def Place.file (p : Place) : String :=
  if p.name = "" || p.name.endsWith "/" then p.name ++ "config.toml" else p.name ++ "/config.toml"

/-- The prefix that was given, or else the configured one. -/
def hrpOr (p : Place) (given : Option String) (configured : Config → String) : Result String :=
  match given with
  | some hrp => .ok hrp
  | none => p.config.map configured

/-! ### Keys -/

def decodeLines (text : String) : Result (List String) := do
  pure [KeyJson.encode (← readKey text)]

def encodeLines (p : Place) (algorithm : Algorithm) (hex : String) (hrp : Option String) :
    Result (List String) := do
  let bs ← readHex hex
  let k ← (SingleKey.ofBytes algorithm bs).mapError .key
  let hrp ← hrpOr p hrp Config.pubkeyPrefix
  pure [← writeKey (.single k) hrp]

def addressLines (p : Place) (text : String) (hrp : Option String) : Result (List String) := do
  let k ← readKey text
  let hrp ← hrpOr p hrp Config.accountPrefix
  pure ["address: " ++ (← writeAddress k hrp), "hex: " ++ (Address.ofKey .cosmos k).toHex]

/-! ### Threshold keys -/

def readMember (text : String) : Result SingleKey := do
  match ← readKey text with
  | .single k => pure k
  | .threshold _ => .error (.threshold text)

/-- A new key with the line that shows it, and the configuration. -/
def makeThreshold (p : Place) (threshold : UInt32) (keepOrder : Bool) (hrp : Option String)
    (texts : List String) : Result (PublicKey × String × Config) := do
  let members ← texts.mapM readMember
  let k ← (ThresholdKey.create members threshold keepOrder).mapError .key
  let c ← p.config
  let line ← writeKey (.threshold k) (hrp.getD c.pubkeyPrefix)
  pure (.threshold k, "pubkey: " ++ line, c)

/-- Adds a signature under the address of its signer, who must not have one yet. -/
def addSignature (sigs : Signatures) (s : NamedSignature) : Result Signatures :=
  match Address.parse s.signer with
  | .error _ => .error (.badSigner s.signer)
  | .ok a =>
    match sigs.get? a with
    | some _ => .error (.twoSignatures s.signer)
    | none => .ok (sigs.put a s.signature)

def readThresholdKey (text : String) : Result ThresholdKey := do
  match ← readKey text with
  | .threshold k => pure k
  | .single _ => .error (.notThreshold text)

def bitRow (bits : BitArray) : String :=
  String.ofList (bits.toList.map fun b => if b then 'x' else '_')

def combineLines (text : String) (signatures : List NamedSignature) : Result (List String) := do
  let k ← readThresholdKey text
  let sigs ← signatures.foldlM addSignature []
  let m := MultiSignature.combine k sigs
  pure ["bitarray: " ++ bitRow m.bits,
    "signatures: " ++ toString m.signatures.length ++ "/" ++ toString k.threshold.toNat,
    "multisig: " ++ Hex.encode m.toBytes]

/-! ### Queries -/

/-- A query that is ready to go. -/
structure QueryPlan where
  node : Url
  store : String
  key : Bytes
  height : Option UInt64
  config : Config

def planQuery (p : Place) (store hex : String) (height : Option UInt64) (node : Option String) :
    Result QueryPlan := do
  let c ← p.config
  let key ← readHex hex
  match Url.parse (node.getD c.node) with
  | some url => pure ⟨url, store, key, height, c⟩
  | none => .error .badUrl

def valueLine : ProvenQuery.Value → String
  | .present bs => Hex.encode bs
  | .absent => "absent"

/-! ### All commands -/

/-- The lines written, the failure after them, if any, and the home directory afterwards. -/
structure Report where
  lines : List String
  failure : Option Error
  home : Home

def Report.ofLines (home : Home) : Result (List String) → Report
  | .ok lines => ⟨lines, none, home⟩
  | .error e => ⟨[], some e, home⟩

def programName : String := "keystone 0.1.0"

/-- Carries out a command, given how a query goes. -/
def run (ask : QueryPlan → Except ProvenQuery.Error ProvenQuery.Value) (p : Place) :
    Command → Report
  | decodeKey text => .ofLines p.home (decodeLines text)
  | encodeKey algorithm hex hrp => .ofLines p.home (encodeLines p algorithm hex hrp)
  | address text hrp => .ofLines p.home (addressLines p text hrp)
  | createThreshold threshold keepOrder hrp texts =>
    match makeThreshold p threshold keepOrder hrp texts with
    | .error e => ⟨[], some e, p.home⟩
    | .ok (k, line, c) =>
      match writeAddress k c.accountPrefix with
      | .ok shown => ⟨[line, "address: " ++ shown], none, p.home⟩
      | .error e => ⟨[line], some e, p.home⟩
  | combine text signatures => .ofLines p.home (combineLines text signatures)
  | query store hex height node =>
    .ofLines p.home do
      let plan ← planQuery p store hex height node
      let v ← (ask plan).mapError .query
      pure [valueLine v]
  | showConfig => .ofLines p.home (p.config.map fun c => [c.toJson.pretty])
  | setConfig key value =>
    match p.config with
    | .error e => ⟨[], some e, p.home⟩
    | .ok _ =>
      let out := p.home.set key value
      let r := out.result.mapError Error.config
      .ofLines out.home (r.map fun _ => [key ++ " = " ++ value])
  | initConfig overwrite =>
    let kept := p.home.file?.isSome && !overwrite
    let out := p.home.init overwrite
    let line := if kept then "config already exists at " else "config written to "
    let r := out.result.mapError Error.config
    .ofLines out.home (r.map fun _ => [line ++ p.file])
  | version => ⟨[programName], none, p.home⟩

/-- Carries out a command as it was called, unless its log filter cannot be read. -/
def Invocation.run (ask : QueryPlan → Except ProvenQuery.Error ProvenQuery.Value) (p : Place)
    (i : Invocation) : Report :=
  if LogFilter.isValid i.options.logLevel then Command.run ask p i.command
  else ⟨[], some .badFilter, p.home⟩

end ChainKeys.Command
