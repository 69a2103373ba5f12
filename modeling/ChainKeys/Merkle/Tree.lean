import ChainKeys.Merkle.Check

/-!
Trees over sorted entries, their roots, and the proofs that can be read off them. The tree of a
store splits in the middle and its nodes begin with height, size and version; the tree over
stores splits at the largest power of two and marks its inner nodes with a byte.
-/

namespace ChainKeys.Merkle

inductive Scheme
  | store
  | multistore
  deriving DecidableEq, Repr

inductive Tree
  | leaf (key value : Bytes)
  | node (left right : Tree)
  deriving DecidableEq, Repr

namespace Tree

def height : Tree → Nat
  | leaf .. => 0
  | node l r => max l.height r.height + 1

def size : Tree → Nat
  | leaf .. => 1
  | node l r => l.size + r.size

def entries : Tree → List (Bytes × Bytes)
  | leaf k v => [(k, v)]
  | node l r => l.entries ++ r.entries

def has (key : Bytes) : Tree → Bool
  | leaf k _ => k = key
  | node l r => l.has key || r.has key

end Tree

namespace Scheme

def spec : Scheme → Spec
  | store => .store
  | multistore => .multistore

def version : Nat := 1

/-- Height, size and version, each a signed number. -/
def layer (height size : Nat) : Bytes :=
  Varint.encode (2 * height) ++ Varint.encode (2 * size) ++ Varint.encode (2 * version)

def leafPre : Scheme → Bytes
  | store => layer 0 1
  | multistore => Merkle.leafPre

def nodePre (s : Scheme) (height size : Nat) : Bytes :=
  match s with
  | store => layer height size
  | multistore => [1]

def child (s : Scheme) (hash : Bytes) : Bytes :=
  match s with
  | store => lengthPrefixed hash
  | multistore => hash

def nodeMessage (s : Scheme) (height size : Nat) (left right : Bytes) : Bytes :=
  s.nodePre height size ++ s.child left ++ s.child right

/-- How many of `n` entries go to the left. -/
def split (s : Scheme) (n : Nat) : Nat :=
  match s with
  | store => n / 2
  | multistore => Nat.pow 2 (Nat.log2 (n - 1))

theorem split_pos (s : Scheme) {n : Nat} (h : 2 ≤ n) : 0 < s.split n := by
  cases s with
  | store => exact Nat.div_pos h (by decide)
  | multistore => exact Nat.two_pow_pos _

theorem split_lt (s : Scheme) {n : Nat} (h : 2 ≤ n) : s.split n < n := by
  cases s with
  | store => exact Nat.div_lt_self (by omega) (by decide)
  | multistore =>
    have : Nat.pow 2 (Nat.log2 (n - 1)) ≤ n - 1 := Nat.log2_self_le (by omega)
    simp only [split]
    omega

/-- The tree over entries in the order given. No tree has no entry; one of an empty key stands
in for it. -/
def build (s : Scheme) (es : List (Bytes × Bytes)) : Tree :=
  if _h : 2 ≤ es.length then
    .node (build s (es.take (s.split es.length))) (build s (es.drop (s.split es.length)))
  else
    match es with
    | e :: _ => .leaf e.1 e.2
    | [] => .leaf [] []
termination_by es.length
decreasing_by
  · have := s.split_lt _h
    simp only [List.length_take]
    omega
  · have := s.split_pos _h
    simp only [List.length_drop]
    omega

/-- The tree over entries sorted by key. -/
def tree (s : Scheme) (es : List (Bytes × Bytes)) : Tree :=
  s.build (es.mergeSort fun a b => Bytes.le a.1 b.1)

end Scheme

namespace Tree

def root (s : Scheme) : Tree → Bytes
  | leaf k v => Sha256.hash (leafMessage s.leafPre k v)
  | node l r =>
    Sha256.hash (s.nodeMessage (max l.height r.height + 1) (l.size + r.size) (l.root s) (r.root s))

/-- The byte strings hashed while a tree is built. -/
def messages (s : Scheme) : Tree → List Bytes
  | leaf k v => [v, leafMessage s.leafPre k v]
  | node l r =>
    s.nodeMessage (max l.height r.height + 1) (l.size + r.size) (l.root s) (r.root s)
      :: (l.messages s ++ r.messages s)

def leafOp (s : Scheme) : LeafOp := ⟨1, 0, 1, 1, s.leafPre⟩

/-- The step up from the left child: the sibling's hash follows. -/
def leftOp (s : Scheme) (height size : Nat) (sibling : Bytes) : InnerOp :=
  match s with
  | .store => ⟨1, s.nodePre height size ++ [UInt8.ofNat sibling.length], s.child sibling⟩
  | .multistore => ⟨1, s.nodePre height size, s.child sibling⟩

/-- The step up from the right child: the sibling's hash comes first. -/
def rightOp (s : Scheme) (height size : Nat) (sibling : Bytes) : InnerOp :=
  match s with
  | .store =>
    ⟨1, s.nodePre height size ++ s.child sibling ++ [UInt8.ofNat sibling.length], []⟩
  | .multistore => ⟨1, s.nodePre height size ++ s.child sibling, []⟩

/-- The steps from the leaf of a key up to the root. -/
def path (s : Scheme) (key : Bytes) : Tree → List InnerOp
  | leaf .. => []
  | node l r =>
    let height := max l.height r.height + 1
    let size := l.size + r.size
    if l.has key then l.path s key ++ [leftOp s height size (r.root s)]
    else r.path s key ++ [rightOp s height size (l.root s)]

def existence (s : Scheme) (t : Tree) (key : Bytes) : Existence :=
  ⟨key, (t.entries.lookup key).getD [], some (leafOp s), t.path s key⟩

/-- The last key below `key` and the first above it, each with its proof. -/
def nonExistence (s : Scheme) (t : Tree) (key : Bytes) : NonExistence where
  key := key
  left := (t.entries.reverse.find? fun e => Bytes.lt e.1 key).map fun e => t.existence s e.1
  right := (t.entries.find? fun e => Bytes.lt key e.1).map fun e => t.existence s e.1

end Tree

end ChainKeys.Merkle
