import ChainKeys.Amino
import ChainKeys.Wire

/-!
Public keys as protobuf messages, each under the URL of its type. There is no message type for
sr25519 keys.
-/

namespace ChainKeys.KeyAny

structure Any where
  typeUrl : String
  value : Bytes
  deriving DecidableEq, Repr

def Any.empty : Any := ⟨"", []⟩

def Any.encode (a : Any) : Bytes :=
  Wire.putBytes 1 (Utf8.encode a.typeUrl) ++ Wire.putBytes 2 a.value

def Any.step : Wire.Step Any := fun depth a f =>
  match f.number with
  | 1 => do pure { a with typeUrl := ← f.payload.text? }
  | 2 => do pure { a with value := ← f.payload.bytes? }
  | _ => Wire.skip depth f a

def Any.decode (bs : Bytes) : Option Any := Wire.decode Any.step .empty bs

inductive Error
  | malformed
  | badKey (error : KeyError)
  | nested
  | unsupported (name : String)
  deriving DecidableEq, Repr

def Error.message : Error → String
  | malformed => "protobuf decode error"
  | badKey e => "format error: invalid key: " ++ e.message
  | nested => "unsupported key type: nested multisig"
  | unsupported name => "unsupported key type: " ++ name

def secp256k1Url : String := "/cosmos.crypto.secp256k1.PubKey"
def ed25519Url : String := "/cosmos.crypto.ed25519.PubKey"
def thresholdUrl : String := "/cosmos.crypto.multisig.LegacyAminoPubKey"

/-! ### Messages of the single types -/

def encodeKey (bs : Bytes) : Bytes := Wire.putBytes 1 bs

def keyStep : Wire.Step Bytes := fun depth bs f =>
  match f.number with
  | 1 => f.payload.bytes?
  | _ => Wire.skip depth f bs

structure ThresholdMessage where
  threshold : UInt32
  members : List Any

def ThresholdMessage.encode (m : ThresholdMessage) : Bytes :=
  Wire.putVarint 1 m.threshold.toNat
    ++ m.members.flatMap fun a => Wire.putMessage 2 a.encode

def ThresholdMessage.step : Wire.Step ThresholdMessage := fun depth m f =>
  match f.number with
  | 1 => do pure { m with threshold := ← f.payload.word32? }
  | 2 => do
    let a ← Wire.mergeInner Any.step depth .empty f.payload
    pure { m with members := m.members ++ [a] }
  | _ => Wire.skip depth f m

/-! ### Keys -/

def ofSingle (k : SingleKey) : Except Error Any :=
  match k.algorithm with
  | .secp256k1 => .ok ⟨secp256k1Url, encodeKey k.bytes⟩
  | .ed25519 => .ok ⟨ed25519Url, encodeKey k.bytes⟩
  | .sr25519 => .error (.unsupported Algorithm.sr25519.name)

def ofKey : PublicKey → Except Error Any
  | .single k => ofSingle k
  | .threshold k => do
    let members ← k.members.mapM ofSingle
    pure ⟨thresholdUrl, (ThresholdMessage.mk k.threshold members).encode⟩

def readKey (a : Algorithm) (value : Bytes) : Except Error SingleKey :=
  match Wire.decode keyStep [] value with
  | some bs => (SingleKey.ofBytes a bs).mapError .badKey
  | none => .error .malformed

def toSingle (a : Any) : Except Error SingleKey :=
  if a.typeUrl = secp256k1Url then readKey .secp256k1 a.value
  else if a.typeUrl = ed25519Url then readKey .ed25519 a.value
  else if a.typeUrl = thresholdUrl then .error .nested
  else .error (.unsupported a.typeUrl)

def toKey (a : Any) : Except Error PublicKey :=
  if a.typeUrl = thresholdUrl then
    match Wire.decode ThresholdMessage.step ⟨0, []⟩ a.value with
    | some m => do
      let members ← m.members.mapM toSingle
      pure (.threshold ⟨m.threshold, members⟩)
    | none => .error .malformed
  else (toSingle a).map .single

end ChainKeys.KeyAny
