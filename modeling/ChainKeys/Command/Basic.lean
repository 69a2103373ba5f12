import ChainKeys.Hex
import ChainKeys.Key
import ChainKeys.LogFormat
import ChainKeys.Quote

/-!
What the command line can ask for.
-/

namespace ChainKeys

/-- A signature under the name of its signer. -/
structure NamedSignature where
  signer : String
  signature : Bytes
  deriving DecidableEq, Repr

namespace NamedSignature

inductive Error
  | noSeparator (text : String)
  | noSigner
  | notHex (error : Hex.Error)
  deriving DecidableEq, Repr

def Error.message : Error → String
  | noSeparator text => "expected <ADDRESS>=<HEX>, got " ++ Quote.text text
  | noSigner => "signer address is empty"
  | notHex e => "signature is not hex: " ++ e.message

/-- Reads `signer=hex`, split at the first equals sign. -/
def parse (text : String) : Except Error NamedSignature :=
  let cs := text.toList
  match cs.dropWhile (· ≠ '=') with
  | [] => .error (.noSeparator text)
  | _ :: hex =>
    match cs.takeWhile (· ≠ '=') with
    | [] => .error .noSigner
    | signer =>
      match Hex.decode (String.ofList hex) with
      | .ok bs => .ok ⟨String.ofList signer, bs⟩
      | .error e => .error (.notHex e)

end NamedSignature

inductive Command
  | decodeKey (key : String)
  | encodeKey (algorithm : Algorithm) (key : String) (hrp : Option String)
  | address (key : String) (hrp : Option String)
  | createThreshold (threshold : UInt32) (keepOrder : Bool) (hrp : Option String)
      (keys : List String)
  | combine (key : String) (signatures : List NamedSignature)
  | query (store key : String) (height : Option UInt64) (node : Option String)
  | showConfig
  | setConfig (key value : String)
  | initConfig (overwrite : Bool)
  | version
  deriving DecidableEq, Repr

namespace Command

/-- What may be given with every command. -/
structure Options where
  home : Option String
  logLevel : String
  logFormat : LogFormat
  deriving DecidableEq, Repr

structure Invocation where
  options : Options
  command : Command
  deriving DecidableEq, Repr

/-- Why arguments lead to no command. -/
inductive Refusal
  | misuse
  | help
  | version
  deriving DecidableEq, Repr

end Command

end ChainKeys
