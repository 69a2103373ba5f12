import ChainKeys.Url.Ip
import ChainKeys.Url.Percent
import ChainKeys.Url.Punycode

/-!
Domain names in the one form they are compared in: small letters, and labels with other than
ASCII characters encoded.
-/

namespace ChainKeys.Url

/-- ASCII characters that no domain name holds. -/
def isForbidden (c : Char) : Bool :=
  c.toNat ≤ 32 || c.toNat = 127 || "%#/:<>?@[\\]^|".toList.contains c

/-- The small letter of a capital one, in the Latin, Greek, Cyrillic and Armenian alphabets. -/
def smallLetter (c : Char) : Char :=
  let n := c.toNat
  let paired := (0x100 ≤ n && n ≤ 0x12f) || (0x132 ≤ n && n ≤ 0x137) || (0x14a ≤ n && n ≤ 0x177)
    || (0x370 ≤ n && n ≤ 0x373) || (0x3d8 ≤ n && n ≤ 0x3ef) || (0x460 ≤ n && n ≤ 0x481)
    || (0x48a ≤ n && n ≤ 0x4bf) || (0x4d0 ≤ n && n ≤ 0x52f) || (0x1e00 ≤ n && n ≤ 0x1e95)
    || (0x1ea0 ≤ n && n ≤ 0x1eff)
  let oddPaired := (0x139 ≤ n && n ≤ 0x148) || (0x179 ≤ n && n ≤ 0x17e) || (0x4c1 ≤ n && n ≤ 0x4ce)
  if 0x41 ≤ n && n ≤ 0x5a then Char.ofNat (n + 32)
  else if 0xc0 ≤ n && n ≤ 0xde && n ≠ 0xd7 then Char.ofNat (n + 32)
  else if paired && n % 2 = 0 then Char.ofNat (n + 1)
  else if oddPaired && n % 2 = 1 then Char.ofNat (n + 1)
  else if n = 0x178 then Char.ofNat 0xff
  else if n = 0x386 then Char.ofNat 0x3ac
  else if 0x388 ≤ n && n ≤ 0x38a then Char.ofNat (n + 37)
  else if n = 0x38c then Char.ofNat 0x3cc
  else if n = 0x38e || n = 0x38f then Char.ofNat (n + 63)
  else if 0x391 ≤ n && n ≤ 0x3ab && n ≠ 0x3a2 then Char.ofNat (n + 32)
  else if 0x400 ≤ n && n ≤ 0x40f then Char.ofNat (n + 80)
  else if 0x410 ≤ n && n ≤ 0x42f then Char.ofNat (n + 32)
  else if 0x531 ≤ n && n ≤ 0x556 then Char.ofNat (n + 48)
  else c

/-- The character that stands for `c` in a domain name, if any does. Wide and ideographic forms
of ASCII characters stand for these, and some characters are dropped. -/
def mapChar (c : Char) : List Char :=
  let n := c.toNat
  if n = 0xad || n = 0x200b || n = 0x2060 || n = 0xfeff || (0xfe00 ≤ n && n ≤ 0xfe0f) then []
  else if n = 0x3002 || n = 0xff61 then ['.']
  else if 0xff01 ≤ n && n ≤ 0xff5e then [smallLetter (Char.ofNat (n - 0xfee0))]
  else if n = 0xa0 || n = 0x3000 || (0x2000 ≤ n && n ≤ 0x200a) then [' ']
  else if n = 0x1e9e then ['s', 's']
  else [smallLetter c]

/-- Other than ASCII characters that no domain name holds: controls, direction marks, private
ones and such as stand for no character. -/
def isRefused (c : Char) : Bool :=
  let n := c.toNat
  (0x80 ≤ n && n ≤ 0x9f) || (0x200e ≤ n && n ≤ 0x200f) || (0x2028 ≤ n && n ≤ 0x202e)
    || (0x2061 ≤ n && n ≤ 0x206f) || (0xe000 ≤ n && n ≤ 0xf8ff) || (0xfdd0 ≤ n && n ≤ 0xfdef)
    || (0xfff0 ≤ n && n ≤ 0xffff) || 0xe0000 ≤ n

def isAscii (c : Char) : Bool := c.toNat < 128

/-- The label that an encoded one stands for; it must hold what only an encoded one can. -/
def decodeLabel? (cs : List Char) : Option (List Char) := do
  let label ← Punycode.decode? cs
  if label.all isAscii || label.any (fun c => isForbidden c || isRefused c || mapChar c ≠ [c])
      || Punycode.encode label ≠ cs then none
  else pure label

def label? (cs : List Char) : Option (List Char) :=
  match cs with
  | 'x' :: 'n' :: '-' :: '-' :: code => (decodeLabel? code).map fun _ => cs
  | cs =>
    if cs.any fun c => isForbidden c || isRefused c then none
    else if cs.all isAscii then some cs
    else some ("xn--".toList ++ Punycode.encode cs)

def joinLabels : List (List Char) → List Char
  | [] => []
  | [l] => l
  | l :: ls => l ++ '.' :: joinLabels ls

/-- Reads a domain name, percent-encoded or not. -/
def domain? (cs : List Char) : Option (List Char) := do
  let text ← Utf8.decode? (percentDecode (Utf8.encode (String.ofList cs)))
  let labels ← (splitAt '.' (text.toList.flatMap mapChar)).mapM label?
  pure (joinLabels labels)

end ChainKeys.Url
