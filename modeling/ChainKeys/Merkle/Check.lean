import ChainKeys.Hash.Sha256
import ChainKeys.Merkle.Proof

/-!
Checking Merkle proofs against a root.

A spec fixes how leaves and inner nodes of a kind of tree are hashed: what the bytes around a
child's hash must look like, so that no inner node passes for a leaf, and by their lengths on
which side of its sibling a child stands. Absence is shown by two present keys around the
wanted one whose leaves are neighbours, or by one at the end of the tree.
-/

namespace ChainKeys.Merkle

structure Spec where
  childSize : Nat
  minPre : Nat
  maxPre : Nat
  /-- Whether nodes begin with height, size and version. -/
  layered : Bool
  deriving DecidableEq, Repr

/-- The tree of a module's store. -/
def Spec.store : Spec := ⟨33, 4, 12, true⟩

/-- The tree over the roots of the stores. -/
def Spec.multistore : Spec := ⟨32, 1, 1, false⟩

def leafPre : Bytes := [0]

/-- Three signed numbers, none negative and the first at least `minHeight`, and what follows. -/
def layer? (minHeight : Nat) (pre : Bytes) : Option Bytes := do
  let (height, rest) ← Varint.decode pre
  let (size, rest) ← Varint.decode rest
  let (version, rest) ← Varint.decode rest
  if (minHeight : Int) ≤ Varint.zigzag height ∧ 0 ≤ Varint.zigzag size
      ∧ 0 ≤ Varint.zigzag version then pure rest else none

def Spec.leafOk (s : Spec) (l : LeafOp) : Bool :=
  l.hash = 1 && l.prehashKey = 0 && l.prehashValue = 1 && l.length = 1
    && leafPre.isPrefixOf l.pre && (!s.layered || layer? 0 l.pre = some [])

/-- `level` counts the steps from the leaf, the first being 1. -/
def Spec.innerOk (s : Spec) (level : Nat) (i : InnerOp) : Bool :=
  i.hash = 1 && !leafPre.isPrefixOf i.pre
    && s.minPre ≤ i.pre.length && i.pre.length ≤ s.maxPre + s.childSize
    && i.post.length % s.childSize = 0
    && (!s.layered || match layer? level i.pre with
      | some rest => rest.length = 1 || rest.length = 34
      | none => false)

/-- Whether leaf and steps are of the shape that a kind of tree has. -/
def Spec.shapeOk (s : Spec) (e : Existence) : Bool :=
  match e.leaf with
  | some l => s.leafOk l && e.path.zipIdx.all fun (i, k) => s.innerOk (k + 1) i
  | none => false

def lengthPrefixed (bs : Bytes) : Bytes := Varint.encode bs.length ++ bs

/-- The bytes that a leaf is the hash of. -/
def leafMessage (pre key value : Bytes) : Bytes :=
  pre ++ lengthPrefixed key ++ lengthPrefixed (Sha256.hash value)

def InnerOp.message (i : InnerOp) (child : Bytes) : Bytes := i.pre ++ child ++ i.post

def InnerOp.apply (child : Bytes) (i : InnerOp) : Bytes := Sha256.hash (i.message child)

/-- The root that leaf and path lead to. -/
def Existence.root (e : Existence) (leaf : LeafOp) : Bytes :=
  e.path.foldl InnerOp.apply (Sha256.hash (leafMessage leaf.pre e.key e.value))

/-- Whether `e` shows `value` under `key` in the tree of this root. -/
def Existence.verify (s : Spec) (root key value : Bytes) (e : Existence) : Bool :=
  s.shapeOk e && e.key = key && e.value = value && e.key ≠ [] && e.value ≠ []
    && (e.leaf.map e.root) = some root

/-! ### Sides -/

inductive Side
  | left
  | right
  deriving DecidableEq, Repr

/-- On which side of its sibling the child of this step stands. -/
def Spec.side? (s : Spec) (i : InnerOp) : Option Side :=
  if s.minPre ≤ i.pre.length ∧ i.pre.length ≤ s.maxPre ∧ i.post.length = s.childSize then
    some .left
  else if s.childSize + s.minPre ≤ i.pre.length ∧ i.pre.length ≤ s.childSize + s.maxPre
      ∧ i.post.length = 0 then some .right
  else none

/-- Whether every step keeps to one edge of the tree. -/
def Spec.onEdge (s : Spec) (side : Side) (path : List InnerOp) : Bool :=
  path.all fun i => s.side? i = some side

/-- Drops the steps from the root down on which two paths agree. -/
def diverge : List InnerOp → List InnerOp → List InnerOp × List InnerOp
  | a :: as, b :: bs =>
    if a.pre = b.pre ∧ a.post = b.post then diverge as bs else (a :: as, b :: bs)
  | as, bs => (as, bs)

/-- Whether the leaves of two paths are neighbours: where the paths part, one goes left and the
other right, and from there each keeps to the edge next to the other. -/
def Spec.areNeighbours (s : Spec) (left right : List InnerOp) : Bool :=
  match diverge left.reverse right.reverse with
  | (a :: as, b :: bs) =>
    s.side? a = some .left && s.side? b = some .right && s.onEdge .right as && s.onEdge .left bs
  | _ => false

/-- Whether `n` shows that no value stands under `key` in the tree of this root. -/
def NonExistence.verify (s : Spec) (root key : Bytes) (n : NonExistence) : Bool :=
  (n.left.all fun l => l.verify s root l.key l.value && Bytes.lt l.key key)
    && (n.right.all fun r => r.verify s root r.key r.value && Bytes.lt key r.key)
    && match n.left, n.right with
      | some l, some r => s.areNeighbours l.path r.path
      | some l, none => s.onEdge .right l.path
      | none, some r => s.onEdge .left r.path
      | none, none => false

/-! ### Messages of any kind -/

/-- The proof of existence to look at: of a batch the first one for this key. -/
def Proof.existence? (key : Bytes) : Proof → Option Existence
  | exist e => some e
  | batch entries => entries.findSome? fun
    | .exist e => if e.key = key then some e else none
    | _ => none
  | _ => none

/-- Whether the neighbours lie around a key. -/
def NonExistence.brackets (key : Bytes) (n : NonExistence) : Bool :=
  (n.left.all fun l => Bytes.lt l.key key) && (n.right.all fun r => Bytes.lt key r.key)

/-- The proof of absence to look at: of a batch the first one around this key. -/
def Proof.nonExistence? (key : Bytes) : Proof → Option NonExistence
  | nonexist n => some n
  | batch entries => entries.findSome? fun
    | .nonexist n => if n.brackets key then some n else none
    | _ => none
  | _ => none

def Proof.verifyMembership (s : Spec) (root : Bytes) (p : Proof) (key value : Bytes) : Bool :=
  (p.expand.existence? key).any (Existence.verify s root key value)

def Proof.verifyNonMembership (s : Spec) (root : Bytes) (p : Proof) (key : Bytes) : Bool :=
  (p.expand.nonExistence? key).any (NonExistence.verify s root key)

/-! ### What is hashed -/

/-- The byte strings hashed from a leaf up a path. -/
def pathMessages (child : Bytes) : List InnerOp → List Bytes
  | [] => []
  | i :: path => i.message child :: pathMessages (i.apply child) path

/-- The byte strings that checking `e` hashes. -/
def Existence.messages (e : Existence) : List Bytes :=
  match e.leaf with
  | some l =>
    let first := leafMessage l.pre e.key e.value
    e.value :: first :: pathMessages (Sha256.hash first) e.path
  | none => []

end ChainKeys.Merkle
