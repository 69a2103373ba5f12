import ChainKeys.Multisig

/-!
The messages by which a threshold signature travels: the list of its signatures, and the mode
info that holds the bit array and a mode for each signature.
-/

namespace ChainKeys

namespace MultiSignature

def encodeSignatures (sigs : List Bytes) : Bytes := sigs.flatMap (Wire.putMessage 1)

def signaturesStep : Wire.Step (List Bytes) := fun depth sigs f =>
  match f.number with
  | 1 => do pure (sigs ++ [← f.payload.bytes?])
  | _ => Wire.skip depth f sigs

def decodeSignatures (bs : Bytes) : Option (List Bytes) := Wire.decode signaturesStep [] bs

def toBytes (m : MultiSignature) : Bytes := encodeSignatures m.signatures

end MultiSignature

/-- A bit array as a message carries it; nothing ties the count to the bytes. -/
structure PackedBits where
  extra : UInt32
  bytes : Bytes
  deriving DecidableEq, Repr

namespace PackedBits

def empty : PackedBits := ⟨0, []⟩

def ofBitArray (a : BitArray) : PackedBits := ⟨a.extra.toUInt32, a.bytes⟩

def encode (b : PackedBits) : Bytes := Wire.putVarint 1 b.extra.toNat ++ Wire.putBytes 2 b.bytes

def step : Wire.Step PackedBits := fun depth b f =>
  match f.number with
  | 1 => do pure { b with extra := ← f.payload.word32? }
  | 2 => do pure { b with bytes := ← f.payload.bytes? }
  | _ => Wire.skip depth f b

end PackedBits

/-- How a signer signed: with one mode, which may be none of the known ones, or as several
signers each with a mode info of its own. A message may also leave it open. -/
inductive ModeInfo
  | none
  | single (mode : Int)
  | multi (bits : Option PackedBits) (infos : List ModeInfo)

namespace ModeInfo

mutual

def encode : ModeInfo → Bytes
  | none => []
  | single mode => Wire.putMessage 1 (Wire.putVarint 1 (Wire.ofSigned mode))
  | multi bits infos =>
    let bitsPart := match bits with
      | some b => Wire.putMessage 1 b.encode
      | .none => []
    Wire.putMessage 2 (bitsPart ++ encodeAll infos)

def encodeAll : List ModeInfo → Bytes
  | [] => []
  | i :: infos => Wire.putMessage 2 (encode i) ++ encodeAll infos

end

def singleStep : Wire.Step Int := fun depth mode f =>
  match f.number with
  | 1 => f.payload.int32?
  | _ => Wire.skip depth f mode

/-- The mode info of several signers, given how one of them is read. -/
def multiStep (read : Bytes → Option ModeInfo) (depth : Nat)
    (m : Option PackedBits × List ModeInfo) (f : Wire.Field) :
    Option (Option PackedBits × List ModeInfo) :=
  match f.number with
  | 1 => do
    let bits ← Wire.mergeInner PackedBits.step depth (m.1.getD .empty) f.payload
    pure (some bits, m.2)
  | 2 => do
    let info ← read (← f.payload.bytes?)
    pure (m.1, m.2 ++ [info])
  | _ => Wire.skip depth f m

/-- Merges a written mode info into a value, inside at most `depth` further messages. -/
def mergeWithin : (depth : Nat) → ModeInfo → Bytes → Option ModeInfo
  | depth, info, bs => do
    (← Wire.fields? bs).foldlM (fun info f =>
      match f.number with
      | 1 => do
        let start := match info with
          | single mode => mode
          | _ => 0
        pure (single (← Wire.mergeInner singleStep depth start f.payload))
      | 2 => do
        let start := match info with
          | multi bits infos => (bits, infos)
          | _ => (.none, [])
        let inner ← f.payload.bytes?
        match depth with
        | 0 => .none
        | 1 =>
          -- no room for a further message
          let (bits, infos) ← Wire.merge (multiStep fun _ => .none) 0 start inner
          pure (multi bits infos)
        | d + 2 =>
          let (bits, infos) ← Wire.merge (multiStep (mergeWithin d none)) (d + 1) start inner
          pure (multi bits infos)
      | _ => Wire.skip depth f info) info

def decode (bs : Bytes) : Option ModeInfo := mergeWithin Wire.maxDepth none bs

end ModeInfo

def MultiSignature.modeInfo (m : MultiSignature) : ModeInfo :=
  .multi (some (.ofBitArray m.bits)) (m.modes.map fun mode => .single mode.number)

end ChainKeys
