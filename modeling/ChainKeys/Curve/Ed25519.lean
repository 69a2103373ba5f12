import ChainKeys.Bytes
import ChainKeys.Curve.Power
import ChainKeys.Hash.Sha512

/-!
The curve `y^2 - x^2 = 1 + d x^2 y^2` and its signatures.

Points are held with a common denominator and the product of their coordinates; one formula
adds any two. A point is written as `y` with the parity of `x` in the top bit. When one is
read, a `y` past the field's end and a parity that does not apply are let through.
-/

namespace ChainKeys.Ed25519

def p : Nat := Nat.pow 2 255 - 19

/-- The order of the base point. -/
def order : Nat := Nat.pow 2 252 + 27742317777372353535851937790883648493

instance : @NeZero Nat Zero.ofOfNat0 p := ⟨by decide⟩
instance : @NeZero Nat Zero.ofOfNat0 order := ⟨by decide⟩

abbrev Coordinate := Fin p
abbrev Scalar := Fin order

def Coordinate.pow (a : Coordinate) (n : Nat) : Coordinate := power (· * ·) 1 a n
def Coordinate.inv (a : Coordinate) : Coordinate := Coordinate.pow a (p - 2)

def d : Coordinate :=
  Fin.ofNat p 0x52036cee2b6ffe738cc740797779e89800700a4d4141d8ab75eb4dca135978a3

/-- A square root of minus one. -/
def i : Coordinate :=
  Fin.ofNat p 0x2b8324804fc1df0b2b4d00993dfbd7a72f431806ad2fe478c4ee1b274a0ea0b0

/-- The point `(x / z, y / z)`, with `t` such that `x * y = z * t`. -/
structure Point where
  x : Coordinate
  y : Coordinate
  z : Coordinate
  t : Coordinate

namespace Point

def neutral : Point := ⟨0, 1, 1, 0⟩

def ofAffine (x y : Coordinate) : Point := ⟨x, y, 1, x * y⟩

def base : Point :=
  ofAffine
    (Fin.ofNat p 0x216936d3cd6e53fec0a4e231fdd6dc5c692cc7609525a7b2c9562d608f25d51a)
    (Fin.ofNat p 0x6666666666666666666666666666666666666666666666666666666666666658)

def add (a b : Point) : Point :=
  let m := (a.y - a.x) * (b.y - b.x)
  let n := (a.y + a.x) * (b.y + b.x)
  let k := 2 * d * (a.t * b.t)
  let l := 2 * (a.z * b.z)
  let e := n - m
  let f := l - k
  let g := l + k
  let h := n + m
  ⟨e * f, g * h, f * g, e * h⟩

def neg (a : Point) : Point := ⟨0 - a.x, a.y, a.z, 0 - a.t⟩

def mul (k : Nat) (a : Point) : Point := power add neutral a k

def write (a : Point) : Bytes :=
  let inverse := Coordinate.inv a.z
  let x := a.x * inverse
  let y := a.y * inverse
  Bytes.ofNatLE 32 (y.val + Nat.pow 2 255 * (x.val % 2))

theorem length_write (a : Point) : a.write.length = 32 := by simp [write]

/-- The even `x` with `v * x^2 = u`. -/
def root (u v : Coordinate) : Option Coordinate :=
  let x := u * (v * v * v) * Coordinate.pow (u * Coordinate.pow v 7) ((p - 5) / 8)
  let even := fun x : Coordinate => if x.val % 2 = 1 then 0 - x else x
  if v * (x * x) = u then some (even x)
  else if v * (x * x) = 0 - u then some (even (x * i))
  else none

def read (bs : Bytes) : Option Point :=
  let n := Bytes.toNatLE bs
  let y := Fin.ofNat p (n % Nat.pow 2 255)
  let x := root (y * y - 1) (d * (y * y) + 1)
  x.map fun x => ofAffine (if n / Nat.pow 2 255 % 2 = 1 then 0 - x else x) y

end Point

/-! ### Signatures -/

/-- The secret scalar and the key for nonces, both from the hash of a seed. -/
def expand (seed : Bytes) : Nat × Bytes :=
  let h := Sha512.hash seed
  let n := Bytes.toNatLE (h.take 32) % Nat.pow 2 254
  (Nat.pow 2 254 + (n - n % 8), h.drop 32)

def publicBytes (seed : Bytes) : Bytes := (Point.mul (expand seed).1 .base).write

def challenge (bs : Bytes) : Scalar := Fin.ofNat order (Bytes.toNatLE (Sha512.hash bs))

def sign (seed msg : Bytes) : Bytes :=
  let (secret, key) := expand seed
  let nonce := challenge (key ++ msg)
  let r := (Point.mul nonce.val .base).write
  let k := challenge (r ++ publicBytes seed ++ msg)
  let s := nonce + k * Fin.ofNat order secret
  r ++ Bytes.ofNatLE 32 s.val

/-- Whether the signature's first half is what its second half gives; `a` is the point that
`key` spells. -/
def accepts (key : Bytes) (a : Point) (msg sig : Bytes) : Bool :=
  let r := sig.take 32
  let s := Bytes.toNatLE (sig.drop 32)
  sig.length = 64 && s < order &&
    ((Point.mul s .base).add (Point.mul (challenge (r ++ key ++ msg)).val a.neg)).write = r

end ChainKeys.Ed25519
