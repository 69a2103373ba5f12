import ChainKeys.Wire

/-!
Merkle proofs as a node sends them: that a key stands in a tree, or that two neighbours leave
no room for it, alone or many in one message. In a compressed message the inner steps of all
paths stand in one table, and a path is a list of places in it.
-/

namespace ChainKeys.Merkle

/-- How a key and its value become the hash of a leaf. Hashes and lengths are named by number,
and a message may hold any number. -/
structure LeafOp where
  hash : Int
  prehashKey : Int
  prehashValue : Int
  length : Int
  pre : Bytes
  deriving DecidableEq, Repr

/-- A step up: the child's hash goes between `pre` and `post`. -/
structure InnerOp where
  hash : Int
  pre : Bytes
  post : Bytes
  deriving DecidableEq, Repr

structure Existence where
  key : Bytes
  value : Bytes
  leaf : Option LeafOp
  path : List InnerOp
  deriving DecidableEq, Repr

structure NonExistence where
  key : Bytes
  left : Option Existence
  right : Option Existence
  deriving DecidableEq, Repr

/-- One entry of a batch. -/
inductive Entry
  | empty
  | exist (proof : Existence)
  | nonexist (proof : NonExistence)
  deriving DecidableEq, Repr

structure CompressedExistence where
  key : Bytes
  value : Bytes
  leaf : Option LeafOp
  path : List Int
  deriving DecidableEq, Repr

structure CompressedNonExistence where
  key : Bytes
  left : Option CompressedExistence
  right : Option CompressedExistence
  deriving DecidableEq, Repr

inductive CompressedEntry
  | empty
  | exist (proof : CompressedExistence)
  | nonexist (proof : CompressedNonExistence)
  deriving DecidableEq, Repr

inductive Proof
  | empty
  | exist (proof : Existence)
  | nonexist (proof : NonExistence)
  | batch (entries : List Entry)
  | compressed (entries : List CompressedEntry) (steps : List InnerOp)
  deriving DecidableEq, Repr

def Proof.kind : Proof → String
  | empty => "empty"
  | exist _ => "existence"
  | nonexist _ => "non-existence"
  | batch _ => "batch"
  | compressed .. => "compressed batch"

/-! ### Expanding a compressed message -/

def lookUp (steps : List InnerOp) (place : Int) : Option InnerOp :=
  if 0 ≤ place then steps[place.toNat]? else none

/-- A path with a place outside the table is taken as empty. -/
def CompressedExistence.expand (steps : List InnerOp) (e : CompressedExistence) : Existence :=
  ⟨e.key, e.value, e.leaf, (e.path.mapM (lookUp steps)).getD []⟩

def CompressedNonExistence.expand (steps : List InnerOp) (e : CompressedNonExistence) :
    NonExistence :=
  ⟨e.key, e.left.map (·.expand steps), e.right.map (·.expand steps)⟩

def CompressedEntry.expand (steps : List InnerOp) : CompressedEntry → Entry
  | empty => .empty
  | exist e => .exist (e.expand steps)
  | nonexist e => .nonexist (e.expand steps)

def Proof.expand : Proof → Proof
  | compressed entries steps => .batch (entries.map (·.expand steps))
  | p => p

/-! ### Messages -/

open Wire (Step mergeInner skip)

def LeafOp.zero : LeafOp := ⟨0, 0, 0, 0, []⟩

def LeafOp.step : Step LeafOp := fun depth l f =>
  match f.number with
  | 1 => do pure { l with hash := ← f.payload.int32? }
  | 2 => do pure { l with prehashKey := ← f.payload.int32? }
  | 3 => do pure { l with prehashValue := ← f.payload.int32? }
  | 4 => do pure { l with length := ← f.payload.int32? }
  | 5 => do pure { l with pre := ← f.payload.bytes? }
  | _ => skip depth f l

def InnerOp.step : Step InnerOp := fun depth i f =>
  match f.number with
  | 1 => do pure { i with hash := ← f.payload.int32? }
  | 2 => do pure { i with pre := ← f.payload.bytes? }
  | 3 => do pure { i with post := ← f.payload.bytes? }
  | _ => skip depth f i

def InnerOp.zero : InnerOp := ⟨0, [], []⟩

def Existence.step : Step Existence := fun depth e f =>
  match f.number with
  | 1 => do pure { e with key := ← f.payload.bytes? }
  | 2 => do pure { e with value := ← f.payload.bytes? }
  | 3 => do
    let leaf ← mergeInner LeafOp.step depth (e.leaf.getD .zero) f.payload
    pure { e with leaf := some leaf }
  | 4 => do pure { e with path := e.path ++ [← mergeInner InnerOp.step depth .zero f.payload] }
  | _ => skip depth f e

def Existence.zero : Existence := ⟨[], [], none, []⟩

def NonExistence.step : Step NonExistence := fun depth n f =>
  match f.number with
  | 1 => do pure { n with key := ← f.payload.bytes? }
  | 2 => do
    let left ← mergeInner Existence.step depth (n.left.getD .zero) f.payload
    pure { n with left := some left }
  | 3 => do
    let right ← mergeInner Existence.step depth (n.right.getD .zero) f.payload
    pure { n with right := some right }
  | _ => skip depth f n

def NonExistence.zero : NonExistence := ⟨[], none, none⟩

def Entry.step : Step Entry := fun depth e f =>
  match f.number with
  | 1 => do
    let start := match e with | .exist p => p | _ => .zero
    pure (.exist (← mergeInner Existence.step depth start f.payload))
  | 2 => do
    let start := match e with | .nonexist p => p | _ => .zero
    pure (.nonexist (← mergeInner NonExistence.step depth start f.payload))
  | _ => skip depth f e

def batchStep : Step (List Entry) := fun depth es f =>
  match f.number with
  | 1 => do pure (es ++ [← mergeInner Entry.step depth .empty f.payload])
  | _ => skip depth f es

def CompressedExistence.step : Step CompressedExistence := fun depth e f =>
  match f.number with
  | 1 => do pure { e with key := ← f.payload.bytes? }
  | 2 => do pure { e with value := ← f.payload.bytes? }
  | 3 => do
    let leaf ← mergeInner LeafOp.step depth (e.leaf.getD .zero) f.payload
    pure { e with leaf := some leaf }
  | 4 => do pure { e with path := e.path ++ (← f.payload.int32s?) }
  | _ => skip depth f e

def CompressedExistence.zero : CompressedExistence := ⟨[], [], none, []⟩

def CompressedNonExistence.step : Step CompressedNonExistence := fun depth n f =>
  match f.number with
  | 1 => do pure { n with key := ← f.payload.bytes? }
  | 2 => do
    let left ← mergeInner CompressedExistence.step depth (n.left.getD .zero) f.payload
    pure { n with left := some left }
  | 3 => do
    let right ← mergeInner CompressedExistence.step depth (n.right.getD .zero) f.payload
    pure { n with right := some right }
  | _ => skip depth f n

def CompressedNonExistence.zero : CompressedNonExistence := ⟨[], none, none⟩

def CompressedEntry.step : Step CompressedEntry := fun depth e f =>
  match f.number with
  | 1 => do
    let start := match e with | .exist p => p | _ => .zero
    pure (.exist (← mergeInner CompressedExistence.step depth start f.payload))
  | 2 => do
    let start := match e with | .nonexist p => p | _ => .zero
    pure (.nonexist (← mergeInner CompressedNonExistence.step depth start f.payload))
  | _ => skip depth f e

def compressedStep : Step (List CompressedEntry × List InnerOp) := fun depth (es, steps) f =>
  match f.number with
  | 1 => do pure (es ++ [← mergeInner CompressedEntry.step depth .empty f.payload], steps)
  | 2 => do pure (es, steps ++ [← mergeInner InnerOp.step depth .zero f.payload])
  | _ => skip depth f (es, steps)

/-- A later kind takes the place of an earlier one; the same kind again is merged into it. -/
def Proof.step : Step Proof := fun depth p f =>
  match f.number with
  | 1 => do
    let start := match p with | .exist e => e | _ => .zero
    pure (.exist (← mergeInner Existence.step depth start f.payload))
  | 2 => do
    let start := match p with | .nonexist e => e | _ => .zero
    pure (.nonexist (← mergeInner NonExistence.step depth start f.payload))
  | 3 => do
    let start := match p with | .batch es => es | _ => []
    pure (.batch (← mergeInner batchStep depth start f.payload))
  | 4 => do
    let start := match p with | .compressed es steps => (es, steps) | _ => ([], [])
    let (es, steps) ← mergeInner compressedStep depth start f.payload
    pure (.compressed es steps)
  | _ => skip depth f p

def Proof.decode (bs : Bytes) : Option Proof := Wire.decode Proof.step .empty bs

/-! ### Writing -/

open Wire (putVarint putBytes putMessage ofSigned)

def LeafOp.encode (l : LeafOp) : Bytes :=
  putVarint 1 (ofSigned l.hash) ++ putVarint 2 (ofSigned l.prehashKey)
    ++ putVarint 3 (ofSigned l.prehashValue) ++ putVarint 4 (ofSigned l.length)
    ++ putBytes 5 l.pre

def InnerOp.encode (i : InnerOp) : Bytes :=
  putVarint 1 (ofSigned i.hash) ++ putBytes 2 i.pre ++ putBytes 3 i.post

def Existence.encode (e : Existence) : Bytes :=
  putBytes 1 e.key ++ putBytes 2 e.value ++ e.leaf.elim [] (fun l => putMessage 3 l.encode)
    ++ e.path.flatMap fun i => putMessage 4 i.encode

def NonExistence.encode (n : NonExistence) : Bytes :=
  putBytes 1 n.key ++ n.left.elim [] (fun e => putMessage 2 e.encode)
    ++ n.right.elim [] fun e => putMessage 3 e.encode

/-- The message of a proof that is one of existence. -/
def Existence.toMessage (e : Existence) : Bytes := putMessage 1 e.encode

/-- The message of a proof that is one of absence. -/
def NonExistence.toMessage (n : NonExistence) : Bytes := putMessage 2 n.encode

end ChainKeys.Merkle
