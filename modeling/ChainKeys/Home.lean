import ChainKeys.Config

/-!
The directory that holds the configuration file, and the commands that change it. What a
command cannot finish leaves the file as it was.
-/

namespace ChainKeys

inductive Home
  | missing
  | directory (file : Option String)
  deriving DecidableEq, Repr

namespace Home

def file? : Home → Option String
  | missing => none
  | directory file => file

/-- Makes the directory if need be. -/
def create : Home → Home
  | missing => directory none
  | h => h

def loadFile (h : Home) : Except Config.Error Config :=
  match h.file? with
  | none => .error .noFile
  | some text =>
    match Config.parse text with
    | some c => .ok c
    | none => .error .unreadable

/-- The configuration in the file, or the standard one where there is no file. -/
def load (h : Home) : Except Config.Error Config :=
  match h.file? with
  | none => .ok .standard
  | some _ => h.loadFile

def save (h : Home) (c : Config) : Except Config.Error Home :=
  match c.render, h with
  | none, _ => .error .unwritable
  | some _, missing => .error .noFile
  | some text, directory _ => .ok (directory (some text))

/-- A home after a command, and what came of it. -/
structure Outcome (α : Type) where
  home : Home
  result : Except Config.Error α

/-- Writes a configuration into the directory, made if need be. -/
def write (h : Home) (c : Config) : Outcome Unit :=
  match h.create.save c with
  | .ok h' => ⟨h', .ok ()⟩
  | .error e => ⟨h.create, .error e⟩

/-- Writes the standard configuration, unless there is a file that must not be overwritten. -/
def init (h : Home) (overwrite : Bool) : Outcome Config :=
  if h.file?.isSome && !overwrite then ⟨h, h.loadFile⟩
  else
    let out := h.write .standard
    ⟨out.home, out.result.map fun _ => .standard⟩

/-- Sets one field in the file. -/
def set (h : Home) (key value : String) : Outcome Unit :=
  match h.load >>= fun c => c.set key value with
  | .ok c => h.write c
  | .error e => ⟨h, .error e⟩

/-! ### Histories -/

inductive Edit
  | init (overwrite : Bool)
  | set (key value : String)
  deriving DecidableEq, Repr

def apply (h : Home) : Edit → Outcome Unit
  | .init overwrite =>
    let out := h.init overwrite
    ⟨out.home, out.result.map fun _ => ()⟩
  | .set key value => h.set key value

end Home

end ChainKeys
