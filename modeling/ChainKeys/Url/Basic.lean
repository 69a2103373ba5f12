import ChainKeys.Url.Ip

/-!
URLs and how they are written.
-/

namespace ChainKeys

inductive Url.Host
  | domain (name : String)
  | ipv4 (address : Nat)
  | ipv6 (pieces : List Nat)
  deriving DecidableEq, Repr

def Url.Host.text : Host → String
  | domain name => name
  | ipv4 a => ipv4Text a
  | ipv6 ps => "[" ++ ipv6Text ps ++ "]"

structure Url.Authority where
  user : String
  password : String
  host : Host
  portNumber : Option Nat
  deriving DecidableEq, Repr

inductive Url.Path
  /-- Anything, for a scheme that gives its own meaning to what follows. -/
  | opaqueText (text : String)
  | segments (parts : List String)
  deriving DecidableEq, Repr

structure Url where
  scheme : String
  authority : Option Url.Authority
  path : Url.Path
  query : Option String
  fragment : Option String
  deriving DecidableEq, Repr

namespace Url

def Authority.text (a : Authority) : String :=
  let password := if a.password = "" then "" else ":" ++ a.password
  let user := if a.user = "" ∧ a.password = "" then "" else a.user ++ password ++ "@"
  let portText := match a.portNumber with
    | some p => ":" ++ toString p
    | none => ""
  user ++ a.host.text ++ portText

def Path.text : Path → String
  | opaqueText t => t
  | segments ps => String.join (ps.map ("/" ++ ·))

def text (u : Url) : String :=
  let authority := match u.authority, u.path with
    | some a, _ => "//" ++ a.text
    -- an empty first segment must not pass for an authority
    | none, .segments ("" :: _ :: _) => "/."
    | none, _ => ""
  let query := match u.query with
    | some q => "?" ++ q
    | none => ""
  let fragment := match u.fragment with
    | some f => "#" ++ f
    | none => ""
  u.scheme ++ ":" ++ authority ++ u.path.text ++ query ++ fragment

end Url

end ChainKeys
