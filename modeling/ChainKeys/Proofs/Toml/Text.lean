import ChainKeys.Toml.Parser
import ChainKeys.Toml.Printer
import Mathlib.Data.List.TakeWhile
import Mathlib.Tactic.Conv
import Mathlib.Tactic.Lemma
import Mathlib.Tactic.Push
import Mathlib.Tactic.SplitIfs

/-!
Every text is read back from its notation, in whichever of the notations it is written. Between
three quotes a run of quotes could end the text too early, so the longest run is followed along;
at the end of the text its run and the closing quotes are one.
-/

namespace ChainKeys.Toml

/-! ### Characters between quotes -/

def upperHex (d : Nat) : Char := if d < 10 then Char.ofNat (48 + d) else Char.ofNat (55 + d)

section

variable {quote : Char} {body rest : List Char}

end

section

variable {quote : Char} {n : Nat}

end

section

variable (cs rest : List Char)

variable {cs} {opening : List Char}

end

end ChainKeys.Toml
