import ChainKeys.Bytes

/-!
Public keys: a key of one signer, or a threshold key over several of them.

A single key always has the length its algorithm wants, and a secp256k1 key is compressed, so
its first byte says which of the two points it means. Members of a threshold key are single
keys, and their order belongs to the key.
-/

namespace ChainKeys

inductive Algorithm
  | secp256k1
  | ed25519
  | sr25519
  deriving DecidableEq, Repr

namespace Algorithm

def keyLength : Algorithm → Nat
  | secp256k1 => 33
  | ed25519 | sr25519 => 32

def name : Algorithm → String
  | secp256k1 => "secp256k1"
  | ed25519 => "ed25519"
  | sr25519 => "sr25519"

/-- Lower-cases ASCII letters and nothing else. -/
def normalize (text : String) : String := String.ofList (text.toList.map Char.toLower)

end Algorithm

inductive KeyError
  | wrongLength (algorithm : Algorithm) (actual : Nat)
  | uncompressed
  | badTag (tag : UInt8)
  | badThreshold (threshold : UInt32) (members : Nat)
  | unknownAlgorithm (name : String)
  deriving DecidableEq, Repr

namespace Algorithm

def ofName (text : String) : Except KeyError Algorithm :=
  match normalize text with
  | "secp256k1" => .ok secp256k1
  | "ed25519" => .ok ed25519
  | "sr25519" => .ok sr25519
  | other => .error (.unknownAlgorithm other)

/-- The byte strings that are keys of this algorithm. -/
def accepts (a : Algorithm) (bs : Bytes) : Bool :=
  bs.length = a.keyLength && (a ≠ secp256k1 || bs.head? = some 2 || bs.head? = some 3)

end Algorithm

structure SingleKey where
  algorithm : Algorithm
  bytes : Bytes
  accepted : algorithm.accepts bytes = true
  deriving DecidableEq, Repr

namespace SingleKey

/-- Why a byte string is no key of this algorithm. The tag is blamed only at the right length. -/
def fault (a : Algorithm) (bs : Bytes) : KeyError :=
  match a, bs with
  | .secp256k1, tag :: rest =>
    if rest.length = 64 then .uncompressed
    else if rest.length = 32 then .badTag tag
    else .wrongLength a bs.length
  | _, _ => .wrongLength a bs.length

def ofBytes (a : Algorithm) (bs : Bytes) : Except KeyError SingleKey :=
  if h : a.accepts bs then .ok ⟨a, bs, h⟩ else .error (fault a bs)

theorem length_bytes (k : SingleKey) : k.bytes.length = k.algorithm.keyLength := by
  have h := k.accepted
  simp only [Algorithm.accepts, Bool.and_eq_true, decide_eq_true_eq] at h
  exact h.1

theorem ofBytes_bytes (k : SingleKey) : ofBytes k.algorithm k.bytes = .ok k := by
  simp [ofBytes, k.accepted]

end SingleKey

/-- A key that `threshold` of its members must sign for. Nothing bounds the threshold here: keys
found on a chain are kept as they are, and `validate` says which of them can be used. -/
structure ThresholdKey where
  threshold : UInt32
  members : List SingleKey
  deriving DecidableEq, Repr

namespace ThresholdKey

def isValid (k : ThresholdKey) : Bool :=
  k.threshold ≠ 0 && k.threshold.toNat ≤ k.members.length

def validate (k : ThresholdKey) : Except KeyError Unit :=
  if k.isValid then .ok () else .error (.badThreshold k.threshold k.members.length)

end ThresholdKey

inductive PublicKey
  | single (key : SingleKey)
  | threshold (key : ThresholdKey)
  deriving DecidableEq, Repr

namespace PublicKey

def isThreshold : PublicKey → Bool
  | single _ => false
  | threshold _ => true

end PublicKey

def KeyError.message : KeyError → String
  | wrongLength a n =>
    "invalid " ++ a.name ++ " key length: expected " ++ toString a.keyLength ++ " bytes, got "
      ++ toString n
  | uncompressed =>
    "uncompressed secp256k1 keys are not supported, compress to 33 bytes first"
  | badTag tag =>
    "invalid secp256k1 compressed key prefix: 0x"
      ++ String.ofList [Nat.digitChar (tag.toNat / 16), Nat.digitChar (tag.toNat % 16)]
  | badThreshold t n =>
    "invalid threshold " ++ toString t.toNat ++ " for " ++ toString n ++ " member keys"
  | unknownAlgorithm name => "unknown key algorithm: " ++ name

end ChainKeys
