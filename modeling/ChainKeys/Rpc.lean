import ChainKeys.Base64
import ChainKeys.Decimal
import ChainKeys.Hex
import ChainKeys.Json.Parser
import ChainKeys.Json.Printer
import ChainKeys.Json.Record
import ChainKeys.Node

/-!
The JSON-RPC calls to a node and the bodies that answer them. A body is read whole or not at
all: the record first, then an error the node reports, then each field of the result.
-/

namespace ChainKeys.Rpc

inductive Error
  | unreachable
  | badUrl
  | malformed
  | rpc (code : Int) (message : String)
  | noResult
  | notBase64 (field : String)
  | badHeight (text : String)
  | badAppHash (error : Hex.Error)
  deriving DecidableEq, Repr

def Error.message : Error → String
  | unreachable => "http request failed"
  | badUrl => "invalid url"
  | malformed => "json parsing failed"
  | rpc code message => "rpc error " ++ toString code ++ ": " ++ message
  | noResult => "invalid response: missing result field"
  | notBase64 field => "invalid response: " ++ field ++ " is not base64"
  | badHeight text => "invalid response: invalid height " ++ Quote.text text
  | badAppHash e => "invalid response: app_hash is not hex: " ++ e.message

def Error.toTransport : Error → TransportError
  | unreachable => .http "error sending request"
  | badUrl => .http Error.badUrl.message
  | rpc code message => .rpc code message
  | e => .decode e.message

/-! ### Calls -/

inductive Call
  | abciQuery (request : QueryRequest)
  | blockchain (low high : UInt64)
  deriving DecidableEq, Repr

def word (n : UInt64) : Json := .str (toString n.toNat)

/-- Height zero stands for the latest one. -/
def Call.params : Call → Json
  | abciQuery r =>
    .obj [("data", .str (Hex.encode r.data)), ("height", word (r.height.getD 0)),
      ("path", .str r.path), ("prove", .bool r.prove)]
  | blockchain low high => .obj [("maxHeight", word high), ("minHeight", word low)]

def Call.method : Call → String
  | abciQuery _ => "abci_query"
  | blockchain .. => "blockchain"

def Call.body (c : Call) : Json :=
  .obj [("jsonrpc", .str "2.0"), ("id", .int 1), ("method", .str c.method), ("params", c.params)]

/-! ### Bodies -/

open Json (record? nullable? orDefault?)

/-- What the node says went wrong, with details where it has any. -/
def readFault (j : Json) : Option Error := do
  match ← j.record? [("code", .required), ("message", .required), ("data", .defaulted)] with
  | [some code, some message, data] => do
    let code ← code.intWithin? (-0x8000000000000000) 0x7fffffffffffffff
    let message ← message.text?
    let data ← nullable? Json.text? data
    match data with
    | some data => pure (.rpc code (if data = "" then message else message ++ ": " ++ data))
    | none => pure (.rpc code message)
  | _ => none

/-- Reads a body whose result `read` reads. -/
def parse {α : Type} (read : Json → Option α) (body : String) : Except Error α :=
  let parts := do
    match ← (← Json.parse body).record? [("result", .nullable), ("error", .nullable)] with
    | [result, fault] => do pure (← nullable? read result, ← nullable? readFault fault)
    | _ => none
  match parts with
  | none => .error .malformed
  | some (_, some e) => .error e
  | some (none, none) => .error .noResult
  | some (some a, none) => .ok a

def decodeBase64 (field text : String) : Except Error Bytes :=
  match Base64.decode text with
  | some bs => .ok bs
  | none => .error (.notBase64 field)

def readHeight (text : String) : Except Error UInt64 :=
  match Decimal.readWord64 text with
  | some h => .ok h
  | none => .error (.badHeight text)

structure RawOp where
  type : String
  key : String
  data : String

def readOp (j : Json) : Option RawOp := do
  match ← j.record? [("type", .required), ("key", .defaulted), ("data", .defaulted)] with
  | [some type, key, data] => do
    pure ⟨← type.text?, ← orDefault? "" Json.text? key, ← orDefault? "" Json.text? data⟩
  | _ => none

def readOps (j : Json) : Option (List RawOp) := do
  match ← j.record? [("ops", .defaulted)] with
  | [ops] => orDefault? [] (fun j => do (← j.array?).mapM readOp) ops
  | _ => none

/-- The result of a query, its texts not decoded yet. -/
structure RawQuery where
  code : UInt32
  log : String
  codespace : String
  key : String
  value : String
  ops : List RawOp
  height : String

def readWord32 (j : Json) : Option UInt32 :=
  (j.intWithin? 0 0xffffffff).map fun i => UInt32.ofNat i.toNat

def readRawQuery (j : Json) : Option RawQuery := do
  let specs := ["code", "log", "codespace", "key", "value", "proofOps", "height"]
  match ← j.record? (specs.map fun name => (name, .defaulted)) with
  | [code, log, codespace, key, value, ops, height] => do
    pure {
      code := ← orDefault? 0 readWord32 code
      log := ← orDefault? "" Json.text? log
      codespace := ← orDefault? "" Json.text? codespace
      key := (← nullable? Json.text? key).getD ""
      value := (← nullable? Json.text? value).getD ""
      ops := (← nullable? readOps ops).getD []
      height := ← orDefault? "" Json.text? height }
  | _ => none

def readQuery (j : Json) : Option RawQuery := do
  match ← j.record? [("response", .required)] with
  | [some response] => readRawQuery response
  | _ => none

def RawOp.decode (op : RawOp) : Except Error ProofOp := do
  let key ← decodeBase64 "proof op key" op.key
  let data ← decodeBase64 "proof op data" op.data
  pure ⟨op.type, key, data⟩

def RawQuery.decode (q : RawQuery) : Except Error QueryResponse := do
  let ops ← q.ops.mapM RawOp.decode
  let height ← if q.height = "" then pure none else (readHeight q.height).map some
  let key ← decodeBase64 "key" q.key
  let value ← decodeBase64 "value" q.value
  pure ⟨q.code, q.log, q.codespace, key, value, ops, height⟩

def parseQuery (body : String) : Except Error QueryResponse := do
  (← parse readQuery body).decode

structure RawHeader where
  height : String
  appHash : String

def readHeader (j : Json) : Option RawHeader := do
  match ← j.record? [("header", .required)] with
  | [some header] =>
    match ← header.record? [("height", .required), ("app_hash", .required)] with
    | [some height, some appHash] => do pure ⟨← height.text?, ← appHash.text?⟩
    | _ => none
  | _ => none

def readHeaders (j : Json) : Option (List RawHeader) := do
  match ← j.record? [("block_metas", .defaulted)] with
  | [metas] => orDefault? [] (fun j => do (← j.array?).mapM readHeader) metas
  | _ => none

def RawHeader.decode (h : RawHeader) : Except Error Header := do
  let height ← readHeight h.height
  let appHash ← (Hex.decode h.appHash).mapError .badAppHash
  pure ⟨height, appHash⟩

def parseHeaders (body : String) : Except Error (List Header) := do
  (← parse readHeaders body).mapM RawHeader.decode

/-! ### Exchanges -/

/-- Sends the body of a call and gives back the body that answers it. -/
abbrev Post := Json → Except Error String

def query (post : Post) (r : QueryRequest) : Except Error QueryResponse := do
  parseQuery (← post (Call.abciQuery r).body)

def headers (post : Post) (low high : UInt64) : Except Error (List Header) := do
  parseHeaders (← post (Call.blockchain low high).body)

end ChainKeys.Rpc
