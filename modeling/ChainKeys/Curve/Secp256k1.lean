import ChainKeys.Bytes
import ChainKeys.Curve.Power
import ChainKeys.Hash.Hmac

/-!
The curve `y^2 = x^3 + 7` and its signatures.

Points are held with a common denominator, and one formula adds any two of them. A signature
is a pair of numbers below the group order; of the two values of `s` that go with one `r`, only
the lower is written and accepted. Nonces are derived from the secret and the message.
-/

namespace ChainKeys.Secp256k1

def p : Nat := 0xfffffffffffffffffffffffffffffffffffffffffffffffffffffffefffffc2f

/-- The number of points. -/
def order : Nat := 0xfffffffffffffffffffffffffffffffebaaedce6af48a03bbfd25e8cd0364141

instance : @NeZero Nat Zero.ofOfNat0 p := ⟨by decide⟩
instance : @NeZero Nat Zero.ofOfNat0 order := ⟨by decide⟩

abbrev Coordinate := Fin p
abbrev Scalar := Fin order

def Coordinate.pow (a : Coordinate) (n : Nat) : Coordinate := power (· * ·) 1 a n
def Coordinate.inv (a : Coordinate) : Coordinate := Coordinate.pow a (p - 2)
def Scalar.inv (a : Scalar) : Scalar := power (· * ·) 1 a (order - 2)

/-- The point `(x / z, y / z)`, the one at infinity when `z` is zero. -/
structure Point where
  x : Coordinate
  y : Coordinate
  z : Coordinate

namespace Point

def infinity : Point := ⟨0, 1, 0⟩

def ofAffine (x y : Coordinate) : Point := ⟨x, y, 1⟩

def generator : Point :=
  ofAffine
    (Fin.ofNat p 0x79be667ef9dcbbac55a06295ce870b07029bfcdb2dce28d959f2815b16f81798)
    (Fin.ofNat p 0x483ada7726a3c4655da4fbfc0e1108a8fd17b448a68554199c47d08ffb10d4b8)

def add (a b : Point) : Point :=
  let xx := a.x * b.x
  let yy := a.y * b.y
  let zz := 21 * (a.z * b.z)
  let xy := a.x * b.y + b.x * a.y
  let yz := a.y * b.z + b.y * a.z
  let xz := 21 * (a.x * b.z + b.x * a.z)
  let xx3 := 3 * xx
  ⟨xy * (yy - zz) - yz * xz, (yy - zz) * (yy + zz) + xx3 * xz, (yy + zz) * yz + xx3 * xy⟩

def mul (k : Nat) (a : Point) : Point := power add infinity a k

def affine? (a : Point) : Option (Coordinate × Coordinate) :=
  if a.z = 0 then none
  else
    let i := Coordinate.inv a.z
    some (a.x * i, a.y * i)

end Point

/-! ### Keys as bytes -/

/-- The point of this `x` whose `y` is odd or even as wanted. -/
def lift (x : Nat) (odd : Bool) : Option (Coordinate × Coordinate) :=
  if x < p then
    let x := Fin.ofNat p x
    let square := x * x * x + 7
    let y := Coordinate.pow square ((p + 1) / 4)
    if y * y = square then some (x, if (y.val % 2 = 1) = odd then y else 0 - y) else none
  else none

/-- Reads a point: a tag and `x`, or a tag and both coordinates. The tag gives the parity of
`y`; a tag that leaves it open means the even one. -/
def readPoint (bs : Bytes) : Option (Coordinate × Coordinate) :=
  match bs with
  | [] => none
  | tag :: rest =>
    if rest.length = 32 then
      if tag = 2 ∨ tag = 5 then lift (Bytes.toNatBE rest) false
      else if tag = 3 then lift (Bytes.toNatBE rest) true
      else none
    else if tag = 4 ∧ rest.length = 64 then
      let x := Bytes.toNatBE (rest.take 32)
      let y := Bytes.toNatBE (rest.drop 32)
      if x < p ∧ y < p then
        let x := Fin.ofNat p x
        let y := Fin.ofNat p y
        if y * y = x * x * x + 7 then some (x, y) else none
      else none
    else none

/-- The compressed form of a point. -/
def writePoint (x y : Coordinate) : Bytes :=
  (if y.val % 2 = 1 then 3 else 2) :: Bytes.ofNatBE 32 x.val

/-- The compressed point that belongs to a secret. -/
def publicBytes (secret : Nat) : Bytes :=
  match (Point.mul secret .generator).affine? with
  | some (x, y) => writePoint x y
  | none => writePoint 0 0

theorem length_writePoint (x y : Coordinate) : (writePoint x y).length = 33 := by
  simp [writePoint]

/-! ### Signatures -/

/-- Numbers that are no larger than their negative. -/
def isLow (s : Nat) : Bool := s ≤ (order - 1) / 2

/-- The nonces that a secret and a message give, one after the other. -/
structure Nonces where
  key : Bytes
  value : Bytes

def Nonces.feed (n : Nonces) (extra : Bytes) : Nonces :=
  let key := Hmac.sha256 n.key (n.value ++ extra)
  ⟨key, Hmac.sha256 key n.value⟩

def Nonces.start (secret digest : Nat) : Nonces :=
  let seed := Bytes.ofNatBE 32 secret ++ Bytes.ofNatBE 32 digest
  ((Nonces.mk (List.replicate 32 0) (List.replicate 32 1)).feed (0 :: seed)).feed (1 :: seed)

/-- The first nonce in range. One of many is out of range so rarely that the bound on the
rounds is never felt. -/
def Nonces.pick : (rounds : Nat) → Nonces → Nat
  | 0, n => Bytes.toNatBE n.value % order
  | r + 1, n =>
    let value := Hmac.sha256 n.key n.value
    let k := Bytes.toNatBE value
    if 0 < k ∧ k < order then k else pick r ((Nonces.mk n.key value).feed [0])

/-- The hash of a message as a scalar. -/
def digest (msg : Bytes) : Scalar := Fin.ofNat order (Bytes.toNatBE (Sha256.hash msg))

def lower (s : Scalar) : Scalar := if isLow s.val then s else 0 - s

/-- The two numbers of a signature, each in 32 bytes. -/
def sign (secret : Nat) (msg : Bytes) : Bytes :=
  let z := digest msg
  let k := Nonces.pick 128 (Nonces.start secret z.val)
  let r := match (Point.mul k .generator).affine? with
    | some (x, _) => Fin.ofNat order x.val
    | none => 0
  let s := Scalar.inv (Fin.ofNat order k) * (z + r * Fin.ofNat order secret)
  Bytes.ofNatBE 32 r.val ++ Bytes.ofNatBE 32 (lower s).val

/-- Reads the two numbers of a signature, both in range. -/
def readSignature (sig : Bytes) : Option (Nat × Nat) :=
  if sig.length = 64 then
    let r := Bytes.toNatBE (sig.take 32)
    let s := Bytes.toNatBE (sig.drop 32)
    if 0 < r ∧ r < order ∧ 0 < s ∧ s < order then some (r, s) else none
  else none

/-- Whether the signature equation holds. -/
def holds (x y : Coordinate) (z : Scalar) (r s : Nat) : Bool :=
  let i := Scalar.inv (Fin.ofNat order s)
  let u := z * i
  let v := Fin.ofNat order r * i
  let sum := (Point.mul u.val .generator).add (Point.mul v.val (.ofAffine x y))
  match sum.affine? with
  | some (x', _) => x'.val % order = r
  | none => false

def accepts (x y : Coordinate) (msg sig : Bytes) : Bool :=
  match readSignature sig with
  | some (r, s) => isLow s && holds x y (digest msg) r s
  | none => false

end ChainKeys.Secp256k1
