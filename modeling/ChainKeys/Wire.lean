import ChainKeys.Utf8
import ChainKeys.Varint

/-!
Messages of numbered fields. A message is read into the list of its fields first, and a kind of
message then says how each field changes the value read so far: a repeated field adds, any
other one replaces, and a message inside a message is merged into what was there.

Fields that a message does not know are skipped, but they must be well formed, and they count
towards the depth to which messages and groups may nest.
-/

namespace ChainKeys.Wire

inductive Payload
  | varint (value : Nat)
  | fixed64 (bytes : Bytes)
  | bytes (bytes : Bytes)
  /-- A group of fields that nest this deep. -/
  | group (depth : Nat)
  | fixed32 (bytes : Bytes)
  deriving DecidableEq, Repr

structure Field where
  number : Nat
  payload : Payload
  deriving DecidableEq, Repr

/-! ### Writing -/

def key (number type : Nat) : Bytes := Varint.encode (number * 8 + type)

/-- A number, left out when it is zero. -/
def putVarint (number value : Nat) : Bytes :=
  if value = 0 then [] else key number 0 ++ Varint.encode value

/-- A byte string or a message, written even when it is empty. -/
def putMessage (number : Nat) (bs : Bytes) : Bytes :=
  key number 2 ++ Varint.encode bs.length ++ bs

/-- A byte string, left out when it is empty. -/
def putBytes (number : Nat) (bs : Bytes) : Bytes := if bs = [] then [] else putMessage number bs

/-! ### Reading -/

/-- Number and type of the next field. -/
def head? (bs : Bytes) : Option (Nat × Nat × Bytes) := do
  let (k, rest) ← Varint.decode bs
  if k < UInt32.size ∧ 8 ≤ k ∧ k % 8 ≤ 5 then pure (k / 8, k % 8, rest) else none

def take? (n : Nat) (bs : Bytes) : Option (Bytes × Bytes) :=
  if n ≤ bs.length then some (bs.take n, bs.drop n) else none

/-- The payload of a field that is no group. -/
def plain? (type : Nat) (bs : Bytes) : Option (Payload × Bytes) :=
  match type with
  | 0 => (Varint.decode bs).map fun (v, rest) => (.varint v, rest)
  | 1 => (take? 8 bs).map fun (p, rest) => (.fixed64 p, rest)
  | 2 => do
    let (n, rest) ← Varint.decode bs
    let (p, rest) ← take? n rest
    pure (.bytes p, rest)
  | 5 => (take? 4 bs).map fun (p, rest) => (.fixed32 p, rest)
  | _ => none

/-- How deep the fields nest up to the end of group `number`, and what follows it. -/
def groupTail? : (rounds : Nat) → (number : Nat) → Bytes → Option (Nat × Bytes)
  | 0, _, _ => none
  | n + 1, number, bs => do
    let (m, type, rest) ← head? bs
    if type = 4 then (if m = number then pure (0, rest) else none)
    else if type = 3 then
      let (inner, rest) ← groupTail? n m rest
      let (depth, rest) ← groupTail? n number rest
      pure (max (inner + 1) depth, rest)
    else
      let (_, rest) ← plain? type rest
      let (depth, rest) ← groupTail? n number rest
      pure (max 1 depth, rest)

def field? (bs : Bytes) : Option (Field × Bytes) := do
  let (number, type, rest) ← head? bs
  if type = 3 then
    let (depth, rest) ← groupTail? rest.length number rest
    pure (⟨number, .group depth⟩, rest)
  else
    let (p, rest) ← plain? type rest
    pure (⟨number, p⟩, rest)

/-- Reads fields up to the end. Each takes a byte at least, so the length bounds the rounds. -/
def fieldsWithin : (rounds : Nat) → Bytes → Option (List Field)
  | _, [] => some []
  | 0, _ :: _ => none
  | n + 1, b :: bs => do
    let (f, rest) ← field? (b :: bs)
    let fs ← fieldsWithin n rest
    pure (f :: fs)

def fields? (bs : Bytes) : Option (List Field) := fieldsWithin bs.length bs

/-- How deep a field that is skipped nests. -/
def Payload.depth : Payload → Nat
  | group d => d + 1
  | _ => 1

/-- Leaves the value as it is, for a field that its message does not know. -/
def skip {α : Type} (depth : Nat) (f : Field) (value : α) : Option α :=
  if f.payload.depth ≤ depth then some value else none

def Payload.number? : Payload → Option Nat
  | varint v => some v
  | _ => none

/-- The low 32 bits of a number. -/
def Payload.word32? (p : Payload) : Option UInt32 := p.number?.map UInt32.ofNat

/-- The low 32 bits of a number, with a sign. -/
def signed32 (v : Nat) : Int := Int.bmod v UInt32.size

def Payload.int32? (p : Payload) : Option Int := p.number?.map signed32

/-- A signed number as it is written: negative ones fill 64 bits. -/
def ofSigned (i : Int) : Nat := (i % 0x10000000000000000).toNat

def Payload.bytes? : Payload → Option Bytes
  | bytes bs => some bs
  | _ => none

def Payload.text? (p : Payload) : Option String := p.bytes?.bind Utf8.decode?

/-- Numbers packed one after the other. -/
def packedWithin : (rounds : Nat) → Bytes → Option (List Nat)
  | _, [] => some []
  | 0, _ :: _ => none
  | n + 1, b :: bs => do
    let (v, rest) ← Varint.decode (b :: bs)
    let vs ← packedWithin n rest
    pure (v :: vs)

/-- The numbers that one field adds to a repeated one: one alone, or a packed run. -/
def Payload.int32s? : Payload → Option (List Int)
  | varint v => some [signed32 v]
  | bytes bs => (packedWithin bs.length bs).map (List.map signed32)
  | _ => none

/-- How deep messages may nest. -/
def maxDepth : Nat := 100

/-- How a kind of message takes up its fields, inside `depth` further levels. -/
abbrev Step (α : Type) := (depth : Nat) → α → Field → Option α

/-- Merges a written message into a value. -/
def merge {α : Type} (step : Step α) (depth : Nat) (value : α) (bs : Bytes) : Option α := do
  (← fields? bs).foldlM (step depth) value

/-- Merges the message that a field holds into a value. -/
def mergeInner {α : Type} (step : Step α) (depth : Nat) (value : α) (p : Payload) : Option α := do
  let bs ← p.bytes?
  match depth with
  | 0 => none
  | d + 1 => merge step d value bs

def decode {α : Type} (step : Step α) (empty : α) (bs : Bytes) : Option α :=
  merge step maxDepth empty bs

end ChainKeys.Wire
