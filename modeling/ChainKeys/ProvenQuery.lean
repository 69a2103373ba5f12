import ChainKeys.HeaderWait
import ChainKeys.Hex
import ChainKeys.Merkle.Check

/-!
Queries whose answers are proven against a chain header.

An answer carries two proofs: that the store holds the value, or does not hold the key, and
that the store's root stands in the multistore. The root of the multistore at one height is the
app hash in the header of the next. All that can be checked without the header is checked
before anyone waits for it.
-/

namespace ChainKeys.ProvenQuery

inductive ProofError
  | otherKey (expected actual : Bytes)
  | noHeight
  | opCount (count : Nat)
  | opType (index : Nat) (expected actual : String)
  | opKey (index : Nat) (expected actual : Bytes)
  | malformed (index : Nat)
  | kind (index : Nat) (expected actual : String)
  | invalid (index : Nat)
  | appHash (height : UInt64)
  deriving DecidableEq, Repr

def ProofError.message : ProofError → String
  | otherKey expected actual =>
    "response is for key " ++ Hex.encode actual ++ ", requested " ++ Hex.encode expected
  | noHeight => "response carries no height"
  | opCount n => "expected 2 proof ops, got " ++ toString n
  | opType i expected actual =>
    "proof op " ++ toString i ++ " has type " ++ actual ++ ", expected " ++ expected
  | opKey i expected actual =>
    "proof op " ++ toString i ++ " has key " ++ Utf8.decodeLossy actual ++ ", expected "
      ++ Utf8.decodeLossy expected
  | malformed i => "proof op " ++ toString i ++ " is not a commitment proof"
  | kind i expected actual =>
    "proof op " ++ toString i ++ " carries a " ++ actual ++ " proof, expected " ++ expected
  | invalid i => "proof op " ++ toString i ++ " failed verification"
  | appHash h => "store proof does not match app hash of header " ++ toString h.toNat

inductive Error
  | failed (code : UInt32) (log : String)
  | proof (error : ProofError)
  | transport (error : TransportError)
  deriving DecidableEq, Repr

def Error.message : Error → String
  | failed code log => "query failed with code " ++ toString code.toNat ++ ": " ++ log
  | proof e => e.message
  | transport e => e.message

inductive Value
  | present (value : Bytes)
  | absent
  deriving DecidableEq, Repr

/-- What is asked of the node. -/
def request (store : String) (key : Bytes) (height : Option UInt64) : QueryRequest :=
  ⟨"/store/" ++ store ++ "/key", key, height, true⟩

/-- An answer of the right shape: for the key asked, with a height and two proofs. -/
structure Answer where
  key : Bytes
  value : Bytes
  moduleOp : ProofOp
  storeOp : ProofOp
  height : UInt64
  deriving DecidableEq, Repr

def Answer.ofResponse (key : Bytes) (r : QueryResponse) : Except ProofError Answer :=
  if r.key ≠ key then .error (.otherKey key r.key)
  else
    match r.height with
    | none => .error .noHeight
    | some h =>
      if h = 0 then .error .noHeight
      else
        match r.ops with
        | [moduleOp, storeOp] => .ok ⟨r.key, r.value, moduleOp, storeOp, h⟩
        | ops => .error (.opCount ops.length)

def moduleOpType : String := "ics23:iavl"
def storeOpType : String := "ics23:simple"

def checkOp (index : Nat) (op : ProofOp) (type : String) (key : Bytes) : Except ProofError Unit :=
  if op.type ≠ type then .error (.opType index type op.type)
  else if op.key ≠ key then .error (.opKey index key op.key)
  else .ok ()

def decodeOp (index : Nat) (op : ProofOp) : Except ProofError Merkle.Proof :=
  match Merkle.Proof.decode op.data with
  | some p => .ok p
  | none => .error (.malformed index)

/-- A store's root, and the proof that the multistore holds it. -/
structure StoreRoot where
  proof : Merkle.Proof
  root : Bytes

/-- The root that the second proof claims for the store. -/
def claimedRoot (p : Merkle.Proof) : Except ProofError Bytes :=
  match p with
  | .exist e => .ok e.value
  | p => .error (.kind 1 "existence" p.kind)

/-- Checks the first proof against the claimed root: of absence for an empty value, else of the
value. -/
def checkModule (root key value : Bytes) (p : Merkle.Proof) : Except ProofError Unit :=
  let valid? := match p, decide (value = []) with
    | .nonexist _, true => some (p.verifyNonMembership .store root key)
    | .exist _, false => some (p.verifyMembership .store root key value)
    | _, _ => none
  match valid? with
  | some true => .ok ()
  | some false => .error (.invalid 0)
  | none => .error (.kind 0 (if value = [] then "non-existence" else "existence") p.kind)

/-- All that can be checked before the header is known. -/
def checkStore (store : String) (a : Answer) : Except ProofError StoreRoot := do
  checkOp 0 a.moduleOp moduleOpType a.key
  checkOp 1 a.storeOp storeOpType (Utf8.encode store)
  let moduleProof ← decodeOp 0 a.moduleOp
  let storeProof ← decodeOp 1 a.storeOp
  let root ← claimedRoot storeProof
  checkModule root a.key a.value moduleProof
  pure ⟨storeProof, root⟩

/-- The height whose header commits to the state at `height`; the last height has no next one
and stands for itself. -/
def committingHeight (height : UInt64) : UInt64 :=
  if height = UInt64.ofNat (UInt64.size - 1) then height else height + 1

/-- An answer that only lacks its header. -/
structure Pending where
  store : String
  answer : Answer
  storeRoot : StoreRoot

def Pending.target (p : Pending) : UInt64 := committingHeight p.answer.height

/-- Everything up to the wait. -/
def examine (store : String) (key : Bytes) (response : Except TransportError QueryResponse) :
    Except Error Pending := do
  let r ← response.mapError .transport
  if r.code ≠ 0 then throw (.failed r.code r.log)
  let a ← (Answer.ofResponse key r).mapError .proof
  let storeRoot ← (checkStore store a).mapError .proof
  pure ⟨store, a, storeRoot⟩

def Answer.result (a : Answer) : Value := if a.value = [] then .absent else .present a.value

/-- The rest, once the header is there. -/
def Pending.settle (p : Pending) (h : Header) : Except Error Value :=
  if p.storeRoot.proof.verifyMembership .multistore h.appHash (Utf8.encode p.store)
      p.storeRoot.root then .ok p.answer.result
  else .error (.proof (.appHash h.height))

/-- How a query went: its result, if it has come to one, and the state of the wait, if there
was one. -/
structure Outcome where
  result : Option (Except Error Value)
  wait : Option HeaderWait.State

/-- Runs a query, given how the wait for a height goes. -/
def verify (store : String) (key : Bytes) (response : Except TransportError QueryResponse)
    (wait : UInt64 → HeaderWait.State) : Outcome :=
  match examine store key response with
  | .error e => ⟨some (.error e), none⟩
  | .ok p =>
    let st := wait p.target
    ⟨st.found.map p.settle, some st⟩

end ChainKeys.ProvenQuery
