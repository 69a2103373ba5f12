import ChainKeys.Bytes

/-!
Text as bytes. `units` reads a byte string as UTF-8, one entry per character, with `none` for
each longest stretch that starts a character and cannot be one; strict and lossy reading are
both read off it.
-/

namespace ChainKeys.Utf8

def encode (s : String) : Bytes := s.toList.flatMap String.utf8EncodeChar

/-- Different texts are different byte strings. -/
theorem encode_inj {s t : String} (h : encode s = encode t) : s = t := by
  have hbytes : s.toByteArray = t.toByteArray := by
    rw [← String.ofList_toList (s := s), ← String.ofList_toList (s := t)]
    unfold encode at h
    simp only [String.toByteArray_ofList, List.utf8Encode, h]
  exact String.toByteArray_inj.mp hbytes

def isTail (b : UInt8) : Bool := 0x80 ≤ b && b ≤ 0xbf

/-- Which second bytes may follow a given first byte: the shortest form only, no surrogate and
nothing past the last code point. -/
def isSecond (first b : UInt8) : Bool :=
  if first = 0xe0 then 0xa0 ≤ b && b ≤ 0xbf
  else if first = 0xed then 0x80 ≤ b && b ≤ 0x9f
  else if first = 0xf0 then 0x90 ≤ b && b ≤ 0xbf
  else if first = 0xf4 then 0x80 ≤ b && b ≤ 0x8f
  else isTail b

def low6 (b : UInt8) : Nat := b.toNat % 64

/-- How many bytes the character that starts with this byte has; zero when none starts so. -/
def width (first : UInt8) : Nat :=
  if first < 0x80 then 1
  else if first < 0xc2 then 0
  else if first < 0xe0 then 2
  else if first < 0xf0 then 3
  else if first < 0xf5 then 4
  else 0

def units : Bytes → List (Option Char)
  | [] => []
  | a :: rest =>
    match width a with
    | 1 => some (Char.ofNat a.toNat) :: units rest
    | 2 =>
      match rest with
      | b :: rest' =>
        if isSecond a b then some (Char.ofNat (a.toNat % 32 * 64 + low6 b)) :: units rest'
        else none :: units (b :: rest')
      | [] => [none]
    | 3 =>
      match rest with
      | b :: c :: rest' =>
        if isSecond a b then
          if isTail c then
            some (Char.ofNat ((a.toNat % 16 * 64 + low6 b) * 64 + low6 c)) :: units rest'
          else none :: units (c :: rest')
        else none :: units (b :: c :: rest')
      | [b] => if isSecond a b then [none] else none :: units [b]
      | [] => [none]
    | 4 =>
      match rest with
      | b :: c :: d :: rest' =>
        if isSecond a b then
          if isTail c then
            if isTail d then
              some (Char.ofNat (((a.toNat % 8 * 64 + low6 b) * 64 + low6 c) * 64 + low6 d))
                :: units rest'
            else none :: units (d :: rest')
          else none :: units (c :: d :: rest')
        else none :: units (b :: c :: d :: rest')
      | [b, c] =>
        if isSecond a b then (if isTail c then [none] else none :: units [c])
        else none :: units [b, c]
      | [b] => if isSecond a b then [none] else none :: units [b]
      | [] => [none]
    | _ => none :: units rest
termination_by bs => bs.length

def decode? (bs : Bytes) : Option String := ((units bs).mapM id).map String.ofList

/-- Every unreadable stretch becomes one replacement character. -/
def decodeLossy (bs : Bytes) : String :=
  String.ofList ((units bs).map (·.getD '\ufffd'))

end ChainKeys.Utf8
