import ChainKeys.Hex
import ChainKeys.Key
import ChainKeys.Varint

/-!
The binary form of public keys, the one that addresses and texts are made from.

A single key is its kind's four-byte prefix, a length byte and the key. A threshold key is its
prefix, `08` and the threshold, then for each member `12`, a length and the member's own
binary form.
-/

namespace ChainKeys.Amino

/-- The four-byte prefixes by which a chain tells the kinds of keys apart. Nothing forbids two
of them to be equal. -/
structure Registry where
  secp256k1 : Bytes
  ed25519 : Bytes
  sr25519 : Bytes
  threshold : Bytes
  length_secp256k1 : secp256k1.length = 4
  length_ed25519 : ed25519.length = 4
  length_sr25519 : sr25519.length = 4
  length_threshold : threshold.length = 4

namespace Registry

def cosmos : Registry where
  secp256k1 := [0xeb, 0x5a, 0xe9, 0x87]
  ed25519 := [0x16, 0x24, 0xde, 0x64]
  sr25519 := [0x0d, 0xfb, 0x10, 0x05]
  threshold := [0x22, 0xc1, 0xf7, 0xe2]
  length_secp256k1 := rfl
  length_ed25519 := rfl
  length_sr25519 := rfl
  length_threshold := rfl

def ofAlgorithm (r : Registry) : Algorithm → Bytes
  | .secp256k1 => r.secp256k1
  | .ed25519 => r.ed25519
  | .sr25519 => r.sr25519

end Registry

inductive Kind
  | single (algorithm : Algorithm)
  | threshold
  deriving DecidableEq, Repr

/-- The kind a prefix stands for. Where two prefixes coincide the threshold key comes first. -/
def Registry.kind? (r : Registry) (pre : Bytes) : Option Kind :=
  if pre = r.threshold then some .threshold
  else if pre = r.secp256k1 then some (.single .secp256k1)
  else if pre = r.ed25519 then some (.single .ed25519)
  else if pre = r.sr25519 then some (.single .sr25519)
  else none

inductive Field
  | threshold
  | member
  deriving DecidableEq, Repr

namespace Field

def tag : Field → UInt8
  | threshold => 0x08
  | member => 0x12

def name : Field → String
  | threshold => "threshold"
  | member => "participant pubkey length"

end Field

inductive VarintFault
  | malformed
  | padded
  deriving DecidableEq, Repr

/-- Why bytes are no key. Offsets count from the start of the byte string being read; inside a
member that is the member's own. -/
inductive Error
  | unknownPrefix (pre : Bytes)
  | unexpectedTag (field : Field) (actual : UInt8) (offset : Nat)
  | truncated (offset needed available : Nat)
  | wrongLength (algorithm : Algorithm) (actual : Nat)
  | trailing (count : Nat)
  | nested (offset : Nat)
  | varint (offset : Nat) (fault : VarintFault)
  | thresholdOverflow (value : Nat)
  | key (error : KeyError)
  deriving DecidableEq, Repr

/-! ### Writing -/

def encodeSingle (r : Registry) (k : SingleKey) : Bytes :=
  r.ofAlgorithm k.algorithm ++ UInt8.ofNat k.bytes.length :: k.bytes

def encodeMember (r : Registry) (k : SingleKey) : Bytes :=
  Field.member.tag :: (Varint.encode (encodeSingle r k).length ++ encodeSingle r k)

def encodeThreshold (r : Registry) (k : ThresholdKey) : Bytes :=
  r.threshold ++ Field.threshold.tag :: Varint.encode k.threshold.toNat
    ++ k.members.flatMap (encodeMember r)

def encode (r : Registry) : PublicKey → Bytes
  | .single k => encodeSingle r k
  | .threshold k => encodeThreshold r k

/-! ### Reading -/

/-- What is left to read, and how many bytes came before it. -/
structure Cursor where
  offset : Nat
  rest : Bytes

namespace Cursor

def start (bs : Bytes) : Cursor := ⟨0, bs⟩

def take (c : Cursor) (n : Nat) : Except Error (Bytes × Cursor) :=
  if c.rest.length < n then .error (.truncated c.offset n c.rest.length)
  else .ok (c.rest.take n, ⟨c.offset + n, c.rest.drop n⟩)

def byte (c : Cursor) : Except Error (UInt8 × Cursor) :=
  match c.rest with
  | [] => .error (.truncated c.offset 1 0)
  | b :: rest => .ok (b, ⟨c.offset + 1, rest⟩)

def tag (c : Cursor) (f : Field) : Except Error Cursor := do
  let (b, next) ← c.byte
  if b = f.tag then pure next else throw (.unexpectedTag f b c.offset)

/-- Reads a number in its shortest form: a padded one would not be written back as it was. -/
def varint (c : Cursor) : Except Error (Nat × Cursor) :=
  match Varint.decode c.rest with
  | none => .error (.varint c.offset .malformed)
  | some (v, rest) =>
    let used := c.rest.length - rest.length
    if used ≠ (Varint.encode v).length then .error (.varint c.offset .padded)
    else .ok (v, ⟨c.offset + used, rest⟩)

end Cursor

/-- The length byte and the key, up to the end of the input. -/
def decodeBody (a : Algorithm) (c : Cursor) : Except Error SingleKey := do
  let (n, c) ← c.byte
  if n.toNat ≠ a.keyLength then throw (.wrongLength a n.toNat)
  let (bs, c) ← c.take n.toNat
  if c.rest ≠ [] then throw (.trailing c.rest.length)
  (SingleKey.ofBytes a bs).mapError .key

/-- Reads one single key; `offset` is where a threshold key in its place is reported. -/
def decodeMember (r : Registry) (offset : Nat) (bs : Bytes) : Except Error SingleKey := do
  let (pre, c) ← (Cursor.start bs).take 4
  match r.kind? pre with
  | some (.single a) => decodeBody a c
  | some .threshold => throw (.nested offset)
  | none => throw (.unknownPrefix pre)

/-- Reads members up to the end of the input. Each takes at least its tag, so the count of
bytes left bounds the number of rounds. -/
def decodeMembers (r : Registry) : (rounds : Nat) → Cursor → Except Error (List SingleKey)
  | 0, _ => .ok []
  | n + 1, c =>
    if c.rest = [] then .ok []
    else do
      let c ← c.tag .member
      let (len, c) ← c.varint
      let (body, next) ← c.take len
      let k ← decodeMember r c.offset body
      let ks ← decodeMembers r n next
      pure (k :: ks)

def decodeThreshold (r : Registry) (c : Cursor) : Except Error ThresholdKey := do
  let c ← c.tag .threshold
  let (t, c) ← c.varint
  if UInt32.size ≤ t then throw (.thresholdOverflow t)
  let ks ← decodeMembers r c.rest.length c
  pure ⟨UInt32.ofNat t, ks⟩

def decode (r : Registry) (bs : Bytes) : Except Error PublicKey := do
  let (pre, c) ← (Cursor.start bs).take 4
  match r.kind? pre with
  | some (.single a) => (decodeBody a c).map .single
  | some .threshold => (decodeThreshold r c).map .threshold
  | none => throw (.unknownPrefix pre)

def decodeSingle (r : Registry) (bs : Bytes) : Except Error SingleKey := decodeMember r 0 bs

/-! ### Messages -/

def hexByte (b : UInt8) : String := "0x" ++ Hex.encode [b]

def VarintFault.message : VarintFault → String
  | malformed => "failed to decode Protobuf message: invalid varint"
  | padded => "non-canonical encoding"

def Error.message : Error → String
  | unknownPrefix pre => "unknown amino prefix " ++ Hex.encode pre
  | unexpectedTag f b offset =>
    "invalid multisig data at offset " ++ toString offset ++ ": expected " ++ hexByte f.tag
      ++ " before " ++ f.name ++ ", got " ++ hexByte b
  | truncated offset needed available =>
    "truncated input at offset " ++ toString offset ++ ": need " ++ toString needed
      ++ " more bytes, " ++ toString available ++ " available"
  | wrongLength a n =>
    "invalid " ++ a.name ++ " key length byte: expected " ++ toString a.keyLength ++ ", got "
      ++ toString n
  | trailing n => toString n ++ " trailing bytes after key data"
  | nested offset =>
    "multisig member at offset " ++ toString offset ++ " is itself a multisig key"
  | varint offset fault =>
    "invalid varint at offset " ++ toString offset ++ ": " ++ fault.message
  | thresholdOverflow v => "multisig threshold " ++ toString v ++ " does not fit in 32 bits"
  | key e => "invalid key: " ++ e.message

end ChainKeys.Amino
