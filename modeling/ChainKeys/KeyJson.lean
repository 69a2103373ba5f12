import ChainKeys.Base64
import ChainKeys.Decimal
import ChainKeys.Json.Parser
import ChainKeys.Json.Printer
import ChainKeys.Json.Record
import ChainKeys.Key

/-!
Public keys as JSON: a record of a type name and a value, the value of a threshold key being a
record of its threshold, as a decimal text, and its members.
-/

namespace ChainKeys.KeyJson

inductive Error
  /-- No JSON, or not the records wanted. -/
  | malformed
  | badKey (error : KeyError)
  /-- A threshold key among the members. -/
  | nested
  deriving DecidableEq, Repr

/-- A key as its JSON form gives it: bytes not checked yet, and members of any kind. -/
inductive Form
  | single (algorithm : Algorithm) (bytes : Bytes)
  | threshold (threshold : UInt32) (members : List Form)

def typeName : Algorithm → String
  | .secp256k1 => "tendermint/PubKeySecp256k1"
  | .ed25519 => "tendermint/PubKeyEd25519"
  | .sr25519 => "tendermint/PubKeySr25519"

def thresholdTypeName : String := "tendermint/PubKeyMultisigThreshold"

/-! ### Writing -/

def ofSingle (k : SingleKey) : Json :=
  .obj [("type", .str (typeName k.algorithm)), ("value", .str (Base64.encode k.bytes))]

def toJson : PublicKey → Json
  | .single k => ofSingle k
  | .threshold k =>
    .obj [("type", .str thresholdTypeName),
      ("value", .obj [("threshold", .str (toString k.threshold.toNat)),
        ("pubkeys", .array (k.members.map ofSingle))])]

def encode (k : PublicKey) : String := (toJson k).render

/-! ### Reading -/

/-- The name of a variant, alone or as the one field of an object that holds `null`. -/
def variantName : Json → Option String
  | .text s => s
  | .object [(name, .null)] => name
  | _ => none

/-- The type name and the value of a tagged record, and whether the type came first. -/
def tagged : Json → Option (String × Json × Bool)
  | .object fields => do
    let fields ← Json.names? fields
    match fields.filter fun (name, _) => name = "type" || name = "value" with
    | [("type", tag), ("value", v)] => do pure (← variantName tag, v, true)
    | [("value", v), ("type", tag)] => do pure (← variantName tag, v, false)
    | _ => none
  | .array [tag, v] => do pure (← variantName tag, v, true)
  | _ => none

/-- Reads a form inside at most `depth` arrays and objects. A value that comes before its type
is looked through to its end, so that everything in it must be readable and nest no deeper. -/
def readForm : (depth : Nat) → Json → Option Form
  | 0, _ => none
  | d + 1, j => do
    let (tag, v, typeFirst) ← tagged j
    if !typeFirst && !v.fits d then none
    else if tag = thresholdTypeName then
      match d with
      | d + 2 =>
        match ← v.record? [("threshold", .required), ("pubkeys", .required)] with
        | [some t, some ks] => do
          let t ← Decimal.readWord32 (← t.text?)
          let ks ← (← ks.array?).mapM (readForm d)
          pure (.threshold t ks)
        | _ => none
      | _ => none
    else do
      let a ← [Algorithm.secp256k1, .ed25519, .sr25519].find? (typeName · = tag)
      let bs ← Base64.decode (← v.text?)
      pure (.single a bs)

/-- How deep arrays and objects may nest. -/
def maxDepth : Nat := 127

def Form.toSingle : Form → Except Error SingleKey
  | single a bs => (SingleKey.ofBytes a bs).mapError .badKey
  | threshold _ _ => .error .nested

def Form.toKey : Form → Except Error PublicKey
  | threshold t ks => do
    let ks ← ks.mapM Form.toSingle
    pure (.threshold ⟨t, ks⟩)
  | form => form.toSingle.map .single

def decode (s : String) : Except Error PublicKey :=
  match (Json.parse s).bind (readForm maxDepth) with
  | some form => form.toKey
  | none => .error .malformed

def Error.message : Error → String
  | malformed => "json error"
  | badKey e => "format error: invalid key: " ++ e.message
  | nested => "unsupported key type: nested multisig"

end ChainKeys.KeyJson
