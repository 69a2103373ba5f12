import ChainKeys.MultisigWire
import ChainKeys.Proofs.BitArray
import ChainKeys.Proofs.Wire

/-!
The messages of a threshold signature are read back whole. A mode info may hold others, and each
takes two levels of the depth that a reader allows: one for the list it stands in and one for
itself. The bits come back as a count and bytes, from which the array is made again.
-/

namespace ChainKeys

open Wire

/-! ### Bits -/

namespace PackedBits

/-- The array of which this is the message, if the count is that of an array. -/
def toBitArray (b : PackedBits) : BitArray := ⟨b.extra.toUInt8, b.bytes⟩

@[simp] lemma toBitArray_ofBitArray (a : BitArray) : (ofBitArray a).toBitArray = a := by
  simp [toBitArray, ofBitArray]

@[simp] lemma bytes_ofBitArray (a : BitArray) : (ofBitArray a).bytes = a.bytes := rfl

lemma takes_encode {b : PackedBits} {depth : Nat} (hlen : b.bytes.length < 2 ^ 64) :
    Takes PackedBits.step depth b.encode .empty b := by
  obtain ⟨extra, bytes⟩ := b
  have t1 : Takes PackedBits.step depth (putVarint 1 extra.toNat) .empty ⟨extra, []⟩ := by
    refine takes_varint (by decide) (Nat.lt_trans extra.toNat_lt (by decide)) ?_ fun h => ?_
    · simp [step, empty, Payload.word32?, Payload.number?]
    · rw [@UInt32.toNat_inj extra 0 |>.mp h]
      rfl
  have t2 : Takes PackedBits.step depth (putBytes 2 bytes) ⟨extra, []⟩ ⟨extra, bytes⟩ :=
    takes_bytes (by decide) hlen (by simp [step]) (by rintro rfl; rfl)
  exact t1.append t2

lemma length_bytes_le (b : PackedBits) : b.bytes.length ≤ b.encode.length := by
  have h := length_le_putBytes 2 b.bytes
  rw [encode, List.length_append]
  omega

lemma length_encode_le {b : PackedBits} (hlen : b.bytes.length < 2 ^ 64) :
    b.encode.length ≤ b.bytes.length + 40 := by
  have h1 : (putVarint 1 b.extra.toNat).length ≤ 20 :=
    length_putVarint_le (by decide) (Nat.lt_trans b.extra.toNat_lt (by decide))
  have h2 : (putBytes 2 b.bytes).length ≤ b.bytes.length + 20 :=
    length_putBytes_le (by decide) hlen
  rw [encode, List.length_append]
  omega

end PackedBits

/-! ### Mode infos -/

namespace ModeInfo

/-- Mode infos that can be written within this depth. -/
def Fits : (depth : Nat) → ModeInfo → Prop
  | _, none => True
  | _ + 1, single mode => Fits32 mode
  | d + 2, multi _ infos => ∀ i ∈ infos, Fits d i
  | _, _ => False

lemma encodeAll_eq_flatMap (infos : List ModeInfo) :
    encodeAll infos = infos.flatMap fun i => putMessage 2 (encode i) := by
  induction infos with
  | nil => rw [encodeAll, List.flatMap_nil]
  | cons i infos ih => rw [encodeAll, List.flatMap_cons, ih]

lemma encode_multi (bits : Option PackedBits) (infos : List ModeInfo) :
    encode (multi bits infos) = putMessage 2 ((bits.elim [] fun b => putMessage 1 b.encode) ++
      infos.flatMap fun i => putMessage 2 (encode i)) := by
  cases bits <;> rw [encode, encodeAll_eq_flatMap] <;> rfl

lemma length_encode_single_le (mode : Int) : (encode (single mode)).length ≤ 40 := by
  have hmode : (putVarint 1 (ofSigned mode)).length ≤ 20 :=
    length_putVarint_le (by decide) (ofSigned_lt mode)
  have hmessage : (putMessage 1 (putVarint 1 (ofSigned mode))).length ≤ _ :=
    length_putMessage_le (by decide) (by omega)
  rw [encode]
  omega

lemma mergeWithin_single {mode : Int} {depth : Nat} (h : Fits32 mode)
    (hlen : (encode (single mode)).length < 2 ^ 64) :
    mergeWithin (depth + 1) none (encode (single mode)) = some (single mode) := by
  have hinner := length_le_putMessage 1 (putVarint 1 (ofSigned mode))
  rw [encode] at hlen ⊢
  have hmode : Takes singleStep depth (putVarint 1 (ofSigned mode)) 0 mode :=
    takes_signed (by decide) h (int32?_ofSigned h) Eq.symm
  rw [mergeWithin, (spells_message (by decide) (by omega)).fields?]
  simp [hmode.mergeInner]

/-- Several mode infos, each of which is read back two levels further in. -/
lemma mergeWithin_multi {bits : Option PackedBits} {infos : List ModeInfo} {depth : Nat}
    (hread : ∀ i ∈ infos, (encode i).length < 2 ^ 64 →
      mergeWithin depth none (encode i) = some i)
    (hlen : (encode (multi bits infos)).length < 2 ^ 64) :
    mergeWithin (depth + 2) none (encode (multi bits infos)) = some (multi bits infos) := by
  rw [encode_multi] at hlen ⊢
  have hinner := length_le_putMessage 2 ((bits.elim [] fun b => putMessage 1 b.encode) ++
    infos.flatMap fun i => putMessage 2 (encode i))
  have hparts := Nat.lt_of_le_of_lt hinner hlen
  simp only [List.length_append] at hparts
  have t1 : Takes (multiStep (mergeWithin depth none)) (depth + 1)
      (bits.elim [] fun b => putMessage 1 b.encode) (.none, []) (bits, []) := by
    refine takes_optional (by decide) (g := fun bits => (bits, ([] : List ModeInfo)))
      (by omega) fun b _ hshort => ?_
    have hbytes := Nat.lt_of_le_of_lt b.length_bytes_le hshort
    simp [multiStep, (PackedBits.takes_encode hbytes).mergeInner]
  have t2 : Takes (multiStep (mergeWithin depth none)) (depth + 1)
      (infos.flatMap fun i => putMessage 2 (encode i)) (bits, []) (bits, infos) := by
    have hi : ∀ i ∈ infos, (encode i).length < 2 ^ 64 := by
      intro i hi
      have := length_le_putMessages (f := encode) 2 hi
      omega
    refine takes_repeated (by decide) (g := fun infos => (bits, infos)) hi
      (fun before i hmem => ?_) []
    simp [multiStep, hread i hmem (hi i hmem)]
  rw [mergeWithin, (spells_message (by decide) (by omega)).fields?]
  simp [(t1.append t2).merge]

/-- **Mode infos**. A mode info that fits is read back from its message. -/
theorem mergeWithin_encode {info : ModeInfo} {depth : Nat} (h : info.Fits depth)
    (hlen : info.encode.length < 2 ^ 64) : mergeWithin depth none info.encode = some info := by
  induction depth, info using Fits.induct with
  | case1 depth =>
    rw [encode, mergeWithin]
    rfl
  | case2 depth mode => exact mergeWithin_single h hlen
  | case3 depth bits infos ih => exact mergeWithin_multi (fun i hi => ih i (h i hi)) hlen
  | case4 depth info hnone hsingle hmulti => simp [Fits] at h

end ModeInfo

/-! ### Threshold signatures -/

namespace MultiSignature

lemma decodeSignatures_encodeSignatures {sigs : List Bytes}
    (hlen : ∀ sig ∈ sigs, sig.length < 2 ^ 64) :
    decodeSignatures (encodeSignatures sigs) = some sigs := by
  have h : Takes signaturesStep maxDepth (sigs.flatMap fun sig => putMessage 1 sig) [] sigs :=
    takes_repeated (by decide) (g := id) hlen
      (fun before sig _ => by simp [signaturesStep]) []
  exact h.merge

lemma fits32_number (mode : SignMode) : Fits32 mode.number := by
  cases mode <;> decide

lemma fits_modeInfo (m : MultiSignature) : m.modeInfo.Fits maxDepth := by
  intro i hi
  obtain ⟨mode, -, rfl⟩ := List.mem_map.mp hi
  exact fits32_number mode

lemma length_modeInfo_lt {m : MultiSignature} (hbytes : m.bits.bytes.length < 2 ^ 62)
    (hmodes : m.modes.length < 2 ^ 56) : m.modeInfo.encode.length < 2 ^ 64 := by
  have hbits : (PackedBits.ofBitArray m.bits).encode.length ≤ m.bits.bytes.length + 40 :=
    PackedBits.length_encode_le (by rw [PackedBits.bytes_ofBitArray]; omega)
  have hbitsPart := length_putMessage_le (by decide : 1 < 536870912)
    (by omega : (PackedBits.ofBitArray m.bits).encode.length < 2 ^ 64)
  have hinfo : ∀ i ∈ m.modes.map fun mode => ModeInfo.single mode.number,
      (putMessage 2 i.encode).length ≤ 60 := by
    intro i hi
    obtain ⟨mode, -, rfl⟩ := List.mem_map.mp hi
    have hmode := ModeInfo.length_encode_single_le mode.number
    have hmessage := length_putMessage_le (by decide : 2 < 536870912)
      (by omega : (ModeInfo.single mode.number).encode.length < 2 ^ 64)
    omega
  have hinfos := length_flatMap_le hinfo
  rw [List.length_map] at hinfos
  rw [modeInfo, ModeInfo.encode_multi]
  refine Nat.lt_of_le_of_lt (length_putMessage_le (by decide) ?_) ?_ <;>
  · rw [List.length_append, Option.elim_some]
    omega

/-- **Messages**. Both messages of a threshold signature are read back, the signatures as they
were and in their order, and the bits with the length of the array and all that was written. -/
theorem messages_exact (m : MultiSignature) (n : Nat) (writes : List (Nat × Bool))
    (hbits : m.bits = .built n writes) (hn : n < 2 ^ 64)
    (hsigs : ∀ sig ∈ m.signatures, sig.length < 2 ^ 64) (hmodes : m.modes.length < 2 ^ 56) :
    decodeSignatures m.toBytes = some m.signatures ∧
      ModeInfo.decode m.modeInfo.encode = some m.modeInfo ∧
      ∃ bits infos, m.modeInfo = .multi (some bits) infos ∧
        bits.toBitArray = m.bits ∧ bits.toBitArray.length = n ∧
        ∀ i < n, bits.toBitArray.get i = BitArray.written writes i := by
  have hclean := BitArray.clean_built n writes
  rw [← hbits] at hclean
  have hlen : m.modeInfo.encode.length < 2 ^ 64 := by
    refine length_modeInfo_lt ?_ hmodes
    rw [hclean.bytes]
    omega
  refine ⟨decodeSignatures_encodeSignatures hsigs,
    ModeInfo.mergeWithin_encode m.fits_modeInfo hlen, _, _, rfl,
    PackedBits.toBitArray_ofBitArray m.bits, ?_, fun i hi => ?_⟩
  · rw [PackedBits.toBitArray_ofBitArray, hclean.length]
  · rw [PackedBits.toBitArray_ofBitArray, hbits, BitArray.get_built hi]

/-- Ten bits, of which the last is set and the first was for a time, an empty signature, and a mode
that is zero. One write is beyond the end. -/
def sample : MultiSignature :=
  ⟨.built 10 [(0, true), (9, true), (0, false), (12, true)], [[0xaa, 0xbb], []],
    [.legacyAminoJson, .unspecified]⟩

theorem messages_exact_sample :
    decodeSignatures sample.toBytes = some [[0xaa, 0xbb], []] ∧
      ModeInfo.decode sample.modeInfo.encode =
        some (.multi (some ⟨2, [0x00, 0x40]⟩) [.single 127, .single 0]) := by
  obtain ⟨hsigs, hinfo, -⟩ := messages_exact sample 10
    [(0, true), (9, true), (0, false), (12, true)] rfl (by decide) (by decide) (by decide)
  exact ⟨hsigs, hinfo⟩

end MultiSignature

end ChainKeys
