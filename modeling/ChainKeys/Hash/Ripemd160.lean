import ChainKeys.Bytes

/-!
RIPEMD-160: a 64-byte block at a time is mixed into five words by two lines of eighty steps
that see its words in different orders; the lines meet at the end of the block.
-/

namespace ChainKeys.Ripemd160

structure State where
  a : UInt32
  b : UInt32
  c : UInt32
  d : UInt32
  e : UInt32

def init : State := ⟨0x67452301, 0xefcdab89, 0x98badcfe, 0x10325476, 0xc3d2e1f0⟩

/-- One of five ways to combine three words; the left line takes them in this order and the
right line backwards. -/
def mix (stage : Nat) (x y z : UInt32) : UInt32 :=
  match stage with
  | 0 => x ^^^ y ^^^ z
  | 1 => (x &&& y) ||| (~~~x &&& z)
  | 2 => (x ||| ~~~y) ^^^ z
  | 3 => (x &&& z) ||| (y &&& ~~~z)
  | _ => x ^^^ (y ||| ~~~z)

/-- What distinguishes one line of steps: per stage the way to mix and the constant added, per
step the word taken and the rotation. -/
structure Line where
  stages : List (Nat × UInt32)
  order : List Nat
  shifts : List UInt32

def left : Line where
  stages := [(0, 0x00000000), (1, 0x5a827999), (2, 0x6ed9eba1), (3, 0x8f1bbcdc), (4, 0xa953fd4e)]
  order := [
    0, 1, 2, 3, 4, 5, 6, 7, 8, 9, 10, 11, 12, 13, 14, 15,
    7, 4, 13, 1, 10, 6, 15, 3, 12, 0, 9, 5, 2, 14, 11, 8,
    3, 10, 14, 4, 9, 15, 8, 1, 2, 7, 0, 6, 13, 11, 5, 12,
    1, 9, 11, 10, 0, 8, 12, 4, 13, 3, 7, 15, 14, 5, 6, 2,
    4, 0, 5, 9, 7, 12, 2, 10, 14, 1, 3, 8, 11, 6, 15, 13]
  shifts := [
    11, 14, 15, 12, 5, 8, 7, 9, 11, 13, 14, 15, 6, 7, 9, 8,
    7, 6, 8, 13, 11, 9, 7, 15, 7, 12, 15, 9, 11, 7, 13, 12,
    11, 13, 6, 7, 14, 9, 13, 15, 14, 8, 13, 6, 5, 12, 7, 5,
    11, 12, 14, 15, 14, 15, 9, 8, 9, 14, 5, 6, 8, 6, 5, 12,
    9, 15, 5, 11, 6, 8, 13, 12, 5, 12, 13, 14, 11, 8, 5, 6]

def right : Line where
  stages := [(4, 0x50a28be6), (3, 0x5c4dd124), (2, 0x6d703ef3), (1, 0x7a6d76e9), (0, 0x00000000)]
  order := [
    5, 14, 7, 0, 9, 2, 11, 4, 13, 6, 15, 8, 1, 10, 3, 12,
    6, 11, 3, 7, 0, 13, 5, 10, 14, 15, 8, 12, 4, 9, 1, 2,
    15, 5, 1, 3, 7, 14, 6, 9, 11, 8, 12, 2, 10, 0, 4, 13,
    8, 6, 4, 1, 3, 11, 15, 0, 5, 12, 2, 13, 9, 7, 10, 14,
    12, 15, 10, 4, 1, 5, 8, 7, 6, 2, 13, 14, 0, 3, 9, 11]
  shifts := [
    8, 9, 9, 11, 13, 15, 15, 5, 7, 7, 8, 11, 14, 14, 12, 6,
    9, 13, 15, 7, 12, 8, 9, 11, 7, 7, 12, 7, 6, 15, 13, 11,
    9, 7, 15, 11, 8, 6, 6, 14, 12, 13, 5, 14, 13, 13, 7, 5,
    15, 5, 8, 11, 14, 14, 6, 14, 6, 9, 12, 9, 12, 5, 15, 8,
    8, 5, 12, 9, 12, 5, 14, 6, 8, 13, 6, 5, 15, 13, 11, 11]

def rotl (x n : UInt32) : UInt32 := (x <<< n) ||| (x >>> (32 - n))

def step (stage : Nat × UInt32) (s : State) (word shift : UInt32) : State :=
  let t := rotl (s.a + mix stage.1 s.b s.c s.d + word + stage.2) shift + s.e
  ⟨s.e, t, s.b, rotl s.c 10, s.d⟩

def Line.run (line : Line) (words : List UInt32) (s : State) : State :=
  let stages := line.stages.flatMap (List.replicate 16)
  (stages.zip (line.order.zip line.shifts)).foldl
    (fun s (stage, k, shift) => step stage s (words.getD k 0) shift) s

def compress (s : State) (block : Bytes) : State :=
  let words := (Bytes.chunks 4 16 block).map fun c => UInt32.ofNat (Bytes.toNatLE c)
  let l := left.run words s
  let r := right.run words s
  ⟨s.b + l.c + r.d, s.c + l.d + r.e, s.d + l.e + r.a, s.e + l.a + r.b, s.a + l.b + r.c⟩

/-- The message, a one bit, zeros up to the end of a block, and the message's bit length. -/
def pad (msg : Bytes) : Bytes :=
  let zeros := (119 - msg.length % 64) % 64
  msg ++ 0x80 :: List.replicate zeros 0 ++ Bytes.ofNatLE 8 (8 * msg.length)

def State.toBytes (s : State) : Bytes :=
  [s.a, s.b, s.c, s.d, s.e].flatMap fun w => Bytes.ofNatLE 4 w.toNat

def hash (msg : Bytes) : Bytes :=
  let padded := pad msg
  ((Bytes.chunks 64 (padded.length / 64) padded).foldl compress init).toBytes

@[simp] theorem length_hash (msg : Bytes) : (hash msg).length = 20 := by
  simp [hash, State.toBytes]

end ChainKeys.Ripemd160
