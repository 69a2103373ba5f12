/-!
Labels of domain names in ASCII letters: the ASCII characters first, then where the others go,
as numbers in a positional system whose digits have varying weights.
-/

namespace ChainKeys.Url.Punycode

def base : Nat := 36

/-- How much a digit position may hold before the number goes on. -/
def threshold (k bias : Nat) : Nat := if k ≤ bias + 1 then 1 else min 26 (k - bias)

def digitChar (d : Nat) : Char := if d < 26 then Char.ofNat (97 + d) else Char.ofNat (22 + d)

def digitValue? (c : Char) : Option Nat :=
  if 'a' ≤ c ∧ c ≤ 'z' then some (c.toNat - 97)
  else if 'A' ≤ c ∧ c ≤ 'Z' then some (c.toNat - 65)
  else if '0' ≤ c ∧ c ≤ '9' then some (c.toNat - 22)
  else none

def adaptFrom (delta k : Nat) : Nat × Nat :=
  if 455 < delta then adaptFrom (delta / 35) (k + base) else (delta, k)
termination_by delta

def adapt (delta count : Nat) (first : Bool) : Nat :=
  let delta := if first then delta / 700 else delta / 2
  let (delta, k) := adaptFrom (delta + delta / count) 0
  k + base * delta / (delta + 38)

/-- A number in digits; `k` is the position of the first one. -/
def writeNumber (bias : Nat) : (rounds k n : Nat) → List Char
  | 0, _, _ => []
  | r + 1, k, n =>
    let t := threshold k bias
    if n < t then [digitChar n]
    else
      digitChar (t + (n - t) % (base - t))
        :: writeNumber bias r (k + base) ((n - t) / (base - t))

structure State where
  delta : Nat
  bias : Nat
  /-- How many characters are placed. -/
  placed : Nat
  first : Bool
  output : List Char

/-- Goes through the label once for the character `m`. -/
def place (label : List Char) (m : Nat) (s : State) : State :=
  let s := label.foldl (fun (s : State) c =>
    if c.toNat < m then { s with delta := s.delta + 1 }
    else if c.toNat = m then
      { delta := 0
        bias := adapt s.delta (s.placed + 1) s.first
        placed := s.placed + 1
        first := false
        output := s.output ++ writeNumber s.bias (s.delta + 1) base s.delta }
    else s) s
  { s with delta := s.delta + 1 }

def encode (label : List Char) : List Char :=
  let ascii := label.filter fun c => c.toNat < 128
  let start := if ascii = [] then [] else ascii ++ ['-']
  let others := ((label.filter fun c => 128 ≤ c.toNat).map Char.toNat).mergeSort.eraseDups
  let (s, _) := others.foldl (fun (s, n) m =>
    (place label m { s with delta := s.delta + (m - n) * (s.placed + 1) }, m + 1))
    (⟨0, 72, ascii.length, true, start⟩, 128)
  s.output

/-- Reads a number, with its first digit at position `k` and of weight `w`. -/
def readNumber? (bias : Nat) : (k w n : Nat) → List Char → Option (Nat × List Char)
  | _, _, _, [] => none
  | k, w, n, c :: cs => do
    let d ← digitValue? c
    let t := threshold k bias
    let n := n + d * w
    if d < t then pure (n, cs) else readNumber? bias (k + base) (w * (base - t)) n cs

/-- Places one character after the other. -/
def placeAll? : (rounds code i bias : Nat) → List Char → List Char → Option (List Char)
  | _, _, _, _, output, [] => some output
  | 0, _, _, _, _, _ => none
  | r + 1, code, i, bias, output, cs => do
    let (n, rest) ← readNumber? bias base 1 i cs
    let count := output.length + 1
    let code := code + n / count
    if !code.isValidChar then none
    else
      placeAll? r code (n % count + 1) (adapt (n - i) count (i = 0))
        (output.insertIdx (n % count) (Char.ofNat code)) rest

def decode? (cs : List Char) : Option (List Char) :=
  let digits := (cs.reverse.takeWhile (· ≠ '-')).reverse
  let ascii := cs.take (cs.length - digits.length - 1)
  placeAll? (cs.length + 1) 128 0 72 ascii digits

end ChainKeys.Url.Punycode
