import ChainKeys.Decimal

/-!
Numeric hosts. An IPv4 address is up to four numbers, each in decimal, octal or hexadecimal
notation, of which the last fills all the bytes that are left. An IPv6 address is eight pieces
between colons, with one gap for a run of zeros.
-/

namespace ChainKeys.Url

open Decimal (isDigit ofDigits)

def hexDigit? (c : Char) : Option Nat :=
  if isDigit c then some (c.toNat - 48)
  else if 'a' ≤ c ∧ c ≤ 'f' then some (c.toNat - 87)
  else if 'A' ≤ c ∧ c ≤ 'F' then some (c.toNat - 55)
  else none

/-- Splits at every `sep`. -/
def splitAt (sep : Char) : List Char → List (List Char)
  | [] => [[]]
  | c :: cs =>
    if c = sep then [] :: splitAt sep cs
    else
      match splitAt sep cs with
      | part :: parts => (c :: part) :: parts
      | [] => [[c]]

/-! ### IPv4 -/

def readRadix? (radix : Nat) (cs : List Char) : Option Nat := do
  let ds ← cs.mapM hexDigit?
  if ds.all (· < radix) then pure (ds.foldl (fun n d => n * radix + d) 0) else none

def ipv4Number? : List Char → Option Nat
  | [] => none
  | '0' :: 'x' :: cs | '0' :: 'X' :: cs => readRadix? 16 cs
  | '0' :: c :: cs => readRadix? 8 (c :: cs)
  | cs => readRadix? 10 cs

/-- The parts of a domain, without the empty one after a final dot. -/
def domainParts (cs : List Char) : List (List Char) :=
  let parts := splitAt '.' cs
  if parts.getLast? = some [] then parts.dropLast else parts

def endsInNumber (cs : List Char) : Bool :=
  match (domainParts cs).getLast? with
  | some last => last ≠ [] && (last.all isDigit || (ipv4Number? last).isSome)
  | none => false

def ipv4? (cs : List Char) : Option Nat := do
  let numbers ← (domainParts cs).mapM ipv4Number?
  let last ← numbers.getLast?
  let init := numbers.dropLast
  if 3 < init.length || init.any (255 < ·) || Nat.pow 256 (4 - init.length) ≤ last then none
  else pure (init.foldl (fun n b => n * 256 + b) 0 * Nat.pow 256 (4 - init.length) + last)

def ipv4Text (n : Nat) : String :=
  ".".intercalate ([n / 16777216 % 256, n / 65536 % 256, n / 256 % 256, n % 256].map toString)

/-! ### IPv6 -/

def piece? (cs : List Char) : Option Nat :=
  if cs = [] || 4 < cs.length then none else readRadix? 16 cs

/-- A byte in decimal digits, without a leading zero. -/
def byte? (cs : List Char) : Option Nat :=
  if cs = [] || !cs.all isDigit || (cs.head? = some '0' && 1 < cs.length) then none
  else some (ofDigits cs) |>.filter (· < 256)

/-- Four bytes as two pieces. -/
def dotted? (cs : List Char) : Option (List Nat) := do
  match ← (splitAt '.' cs).mapM byte? with
  | [a, b, c, d] => pure [a * 256 + b, c * 256 + d]
  | _ => none

/-- The pieces between colons; the last two may be written as four bytes where `dots`. -/
def pieces? (dots : Bool) : List (List Char) → Option (List Nat)
  | [] => some []
  | [last] => if dots && last.contains '.' then dotted? last else (piece? last).map ([·])
  | p :: ps => do pure ((← piece? p) :: (← pieces? dots ps))

/-- The pieces on one side of the gap. -/
def side? (dots : Bool) (cs : List Char) : Option (List Nat) :=
  if cs = [] then some [] else pieces? dots (splitAt ':' cs)

/-- What stands before and after the first two colons in a row. -/
def splitGap? : List Char → Option (List Char × List Char)
  | ':' :: ':' :: cs => some ([], cs)
  | c :: cs => (splitGap? cs).map fun (before, after) => (c :: before, after)
  | [] => none

def ipv6? (cs : List Char) : Option (List Nat) := do
  match splitGap? cs with
  | some (before, after) =>
    let left ← side? false before
    let right ← side? true after
    let count := left.length + right.length
    if 7 < count then none else pure (left ++ List.replicate (8 - count) 0 ++ right)
  | none =>
    let pieces ← side? true cs
    if pieces.length = 8 then pure pieces else none

/-- How many zeros the list starts with. -/
def zeros (ps : List Nat) : Nat := (ps.takeWhile (· = 0)).length

/-- Where the longest run of zeros starts and how long it is, the first of several. -/
def longestGap (ps : List Nat) : Nat × Nat :=
  (List.range ps.length).foldl (fun best i =>
    let n := zeros (ps.drop i)
    if best.2 < n then (i, n) else best) (0, 0)

def hexText (n : Nat) : String := String.ofList (Nat.toDigits 16 n)

def ipv6Text (ps : List Nat) : String :=
  let (i, n) := longestGap ps
  let text := fun ps : List Nat => ":".intercalate (ps.map hexText)
  if n < 2 then text ps else text (ps.take i) ++ "::" ++ text (ps.drop (i + n))

end ChainKeys.Url
