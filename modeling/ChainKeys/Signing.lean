import ChainKeys.Curve.Ed25519
import ChainKeys.Curve.Secp256k1
import ChainKeys.Key

/-!
Secrets, their public keys, and signatures of one signer. sr25519 keys can be carried but
neither sign nor verify.
-/

namespace ChainKeys

inductive SecretKey
  | secp256k1 (secret : Nat) (positive : 0 < secret) (small : secret < Secp256k1.order)
  | ed25519 (seed : Bytes) (length_eq : seed.length = 32)
  deriving DecidableEq

inductive SecretError
  | outOfRange
  | wrongLength (actual : Nat)
  | unsupported (algorithm : Algorithm)
  deriving DecidableEq, Repr

def SecretError.message : SecretError → String
  | outOfRange => "invalid private key: signature error"
  | wrongLength n => "invalid private key: ed25519 secret must be 32 bytes, got " ++ toString n
  | unsupported a => a.name ++ " is not supported here"

namespace SecretKey

/-- Loads a secret. A secp256k1 secret of at least 24 bytes may lack leading zeros. -/
def ofBytes (a : Algorithm) (bs : Bytes) : Except SecretError SecretKey :=
  match a with
  | .secp256k1 =>
    let n := Bytes.toNatBE bs
    if h : (24 ≤ bs.length ∧ bs.length ≤ 32) ∧ 0 < n ∧ n < Secp256k1.order then
      .ok (.secp256k1 n h.2.1 h.2.2)
    else .error .outOfRange
  | .ed25519 =>
    if h : bs.length = 32 then .ok (.ed25519 bs h) else .error (.wrongLength bs.length)
  | .sr25519 => .error (.unsupported .sr25519)

def algorithm : SecretKey → Algorithm
  | secp256k1 .. => .secp256k1
  | ed25519 .. => .ed25519

/-- A compressed point is a key. -/
theorem accepts_writePoint (x y : Secp256k1.Coordinate) :
    Algorithm.secp256k1.accepts (Secp256k1.writePoint x y) = true := by
  simp only [Algorithm.accepts, Secp256k1.length_writePoint, Algorithm.keyLength]
  simp only [Secp256k1.writePoint]
  split <;> simp

def ofPoint (x y : Secp256k1.Coordinate) : SingleKey :=
  ⟨.secp256k1, Secp256k1.writePoint x y, accepts_writePoint x y⟩

theorem accepts_publicBytes (secret : Nat) :
    Algorithm.secp256k1.accepts (Secp256k1.publicBytes secret) = true := by
  unfold Secp256k1.publicBytes
  split <;> exact accepts_writePoint _ _

def publicKey : SecretKey → SingleKey
  | secp256k1 secret _ _ =>
    ⟨.secp256k1, Secp256k1.publicBytes secret, accepts_publicBytes secret⟩
  | ed25519 seed _ =>
    ⟨.ed25519, Ed25519.publicBytes seed, by
      simp [Algorithm.accepts, Algorithm.keyLength, Ed25519.publicBytes, Ed25519.Point.length_write]⟩

def sign : SecretKey → Bytes → Bytes
  | secp256k1 secret _ _, msg => Secp256k1.sign secret msg
  | ed25519 seed _, msg => Ed25519.sign seed msg

end SecretKey

inductive PointError
  | malformed
  | offCurve
  deriving DecidableEq, Repr

def PointError.message : PointError → String
  | malformed => "invalid public key: signature error"
  | offCurve => "invalid public key: signature error: Cannot decompress Edwards point"

/-- The compressed key of a point in any of its written forms. -/
def SingleKey.compress (bs : Bytes) : Except PointError SingleKey :=
  match Secp256k1.readPoint bs with
  | some (x, y) => .ok (SecretKey.ofPoint x y)
  | none => .error .malformed

inductive VerifyError
  | badKey (error : PointError)
  | rejected
  | unsupported (algorithm : Algorithm)
  deriving DecidableEq, Repr

def VerifyError.message : VerifyError → String
  | badKey e => e.message
  | rejected => "signature verification failed"
  | unsupported a => a.name ++ " is not supported here"

/-- Checks the signature of one signer. -/
def SingleKey.verify (k : SingleKey) (msg sig : Bytes) : Except VerifyError Unit :=
  match k.algorithm with
  | .secp256k1 =>
    match Secp256k1.readPoint k.bytes with
    | none => .error (.badKey .malformed)
    | some (x, y) => if Secp256k1.accepts x y msg sig then .ok () else .error .rejected
  | .ed25519 =>
    match Ed25519.Point.read k.bytes with
    | none => .error (.badKey .offCurve)
    | some a => if Ed25519.accepts k.bytes a msg sig then .ok () else .error .rejected
  | .sr25519 => .error (.unsupported .sr25519)

end ChainKeys
