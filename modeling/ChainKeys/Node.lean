import ChainKeys.Bytes

/-!
What a node answers: the result of a query with its proof, headers, and the ways in which an
answer can fail to come.
-/

namespace ChainKeys

structure ProofOp where
  type : String
  key : Bytes
  data : Bytes
  deriving DecidableEq, Repr

structure QueryResponse where
  code : UInt32
  log : String
  codespace : String
  key : Bytes
  value : Bytes
  ops : List ProofOp
  height : Option UInt64
  deriving DecidableEq, Repr

structure QueryRequest where
  path : String
  data : Bytes
  height : Option UInt64
  prove : Bool
  deriving DecidableEq, Repr

structure Header where
  height : UInt64
  appHash : Bytes
  deriving DecidableEq, Repr

inductive TransportError
  | http (reason : String)
  | rpc (code : Int) (message : String)
  | decode (reason : String)
  deriving DecidableEq, Repr

def TransportError.message : TransportError → String
  | http reason => "http error: " ++ reason
  | rpc code message => "rpc error " ++ toString code ++ ": " ++ message
  | decode reason => "invalid response: " ++ reason

end ChainKeys
