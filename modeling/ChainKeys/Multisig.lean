import ChainKeys.BitArray
import ChainKeys.KeyAddress
import ChainKeys.Signing
import ChainKeys.Wire

/-!
Threshold keys from members, and their signatures.

A threshold signature marks in a bit array which members signed and lists their signatures in
member order. Members are found by address, so two members of one address share a signature.
-/

namespace ChainKeys

/-- A threshold key over the given members, ordered by address unless their order is kept. -/
def ThresholdKey.create (members : List SingleKey) (threshold : UInt32) (keepOrder : Bool) :
    Except KeyError ThresholdKey :=
  if threshold = 0 ∨ members.length < threshold.toNat then
    .error (.badThreshold threshold members.length)
  else
    let byAddress := fun a b : SingleKey => Address.le (.ofSingle a) (.ofSingle b)
    .ok ⟨threshold, if keepOrder then members else members.mergeSort byAddress⟩

/-- Signatures by address. An address has one signature, the last one put. -/
abbrev Signatures := List (Address × Bytes)

namespace Signatures

def get? (s : Signatures) (a : Address) : Option Bytes := s.lookup a

def remove (s : Signatures) (a : Address) : Signatures := s.filter fun e => e.1 ≠ a

def put (s : Signatures) (a : Address) (sig : Bytes) : Signatures := (a, sig) :: remove s a

end Signatures

inductive SignMode
  | unspecified
  | direct
  | textual
  | legacyAminoJson
  deriving DecidableEq, Repr

namespace SignMode

def number : SignMode → Nat
  | unspecified => 0
  | direct => 1
  | textual => 2
  | legacyAminoJson => 127

def ofNumber? (n : Int) : Option SignMode :=
  [unspecified, direct, textual, legacyAminoJson].find? fun m => m.number = n

def name : SignMode → String
  | unspecified => "Unspecified"
  | direct => "Direct"
  | textual => "Textual"
  | legacyAminoJson => "LegacyAminoJson"

end SignMode

structure MultiSignature where
  bits : BitArray
  signatures : List Bytes
  modes : List SignMode
  deriving DecidableEq, Repr

namespace MultiSignature

/-- Takes up the signature of the member at `index`, if it has one. -/
def visit (sigs : Signatures) (acc : BitArray × List Bytes) (entry : SingleKey × Nat) :
    BitArray × List Bytes :=
  match sigs.get? (.ofSingle entry.1) with
  | some sig => (acc.1.set entry.2 true, acc.2 ++ [sig])
  | none => acc

/-- Collects the members' signatures. Addresses of other signers are passed over, and nothing
asks for the threshold here. -/
def combine (k : ThresholdKey) (sigs : Signatures) : MultiSignature :=
  let (bits, signatures) :=
    k.members.zipIdx.foldl (visit sigs) (BitArray.zeros k.members.length, [])
  ⟨bits, signatures, signatures.map fun _ => .legacyAminoJson⟩

def meets (m : MultiSignature) (k : ThresholdKey) : Bool :=
  k.threshold.toNat ≤ m.signatures.length

inductive Error
  | badKey (error : KeyError)
  | wrongBits (bits members : Nat)
  | wrongCount (set signatures : Nat)
  | missing
  | insufficient (threshold : UInt32) (actual : Nat)
  | member (index : Nat)
  deriving DecidableEq, Repr

def Error.message : Error → String
  | badKey e => e.message
  | wrongBits bits members =>
    "malformed multisignature: bit array has " ++ toString bits ++ " bits for "
      ++ toString members ++ " members"
  | wrongCount set signatures =>
    "malformed multisignature: " ++ toString set ++ " bits set but " ++ toString signatures
      ++ " signatures"
  | missing => "malformed multisignature: missing signature"
  | insufficient threshold actual =>
    "insufficient signatures: threshold " ++ toString threshold.toNat ++ ", got "
      ++ toString actual
  | member index => "signature of member " ++ toString index ++ " failed verification"

/-- Checks one signature for each member whose bit is set, in order. -/
def verifyMembers (bits : BitArray) (msg : Bytes) :
    List (SingleKey × Nat) → List Bytes → Except Error Unit
  | [], _ => .ok ()
  | (k, i) :: rest, sigs =>
    if bits.get i then
      match sigs with
      | [] => .error .missing
      | sig :: sigs =>
        match k.verify msg sig with
        | .ok () => verifyMembers bits msg rest sigs
        | .error _ => .error (.member i)
    else verifyMembers bits msg rest sigs

def verify (k : ThresholdKey) (msg : Bytes) (m : MultiSignature) : Except Error Unit := do
  k.validate.mapError .badKey
  if m.bits.length ≠ k.members.length then
    throw (.wrongBits m.bits.length k.members.length)
  if m.bits.countOnes ≠ m.signatures.length then
    throw (.wrongCount m.bits.countOnes m.signatures.length)
  if m.signatures.length < k.threshold.toNat then
    throw (.insufficient k.threshold m.signatures.length)
  verifyMembers m.bits msg k.members.zipIdx m.signatures

end MultiSignature

end ChainKeys
