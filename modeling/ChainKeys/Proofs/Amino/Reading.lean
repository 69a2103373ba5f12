import ChainKeys.Amino
import ChainKeys.Proofs.Except
import ChainKeys.Proofs.Varint
import Mathlib.Tactic.SplitIfs

/-!
What the readers of the binary form accept: what the writers write, and nothing else. For each
reader one lemma says what a success tells about the input, and another that what is written
there is read back, as long as the registry takes the prefixes of the single keys for what they
are.
-/

namespace ChainKeys.Amino

/-! ### Prefixes -/

namespace Registry

/-- The prefix of an algorithm is taken for that algorithm, and for nothing before it. -/
def Recognises (r : Registry) (a : Algorithm) : Prop :=
  r.kind? (r.ofAlgorithm a) = some (.single a)

lemma kind?_threshold (r : Registry) : r.kind? r.threshold = some .threshold := by
  rw [kind?, if_pos rfl]

lemma eq_threshold_of_kind? {r : Registry} {pre : Bytes} (h : r.kind? pre = some .threshold) :
    pre = r.threshold := by
  unfold kind? at h
  split_ifs at h with hpre
  · exact hpre
  all_goals simp at h

lemma eq_ofAlgorithm_of_kind? {r : Registry} {pre : Bytes} {a : Algorithm}
    (h : r.kind? pre = some (.single a)) : pre = r.ofAlgorithm a := by
  unfold kind? at h
  split_ifs at h with _ hsecp hed hsr
  · simp at h
  all_goals
    obtain rfl := Kind.single.inj (Option.some.inj h)
    assumption

lemma recognises_of_kind? {r : Registry} {pre : Bytes} {a : Algorithm}
    (h : r.kind? pre = some (.single a)) : r.Recognises a := by
  rw [Recognises, ← eq_ofAlgorithm_of_kind? h]
  exact h

lemma length_ofAlgorithm (r : Registry) (a : Algorithm) : (r.ofAlgorithm a).length = 4 := by
  cases a with
  | secp256k1 => exact r.length_secp256k1
  | ed25519 => exact r.length_ed25519
  | sr25519 => exact r.length_sr25519

end Registry

/-! ### The cursor -/

namespace Cursor

lemma take_ok {c c' : Cursor} {n : Nat} {bs : Bytes} (h : c.take n = .ok (bs, c')) :
    c.rest = bs ++ c'.rest ∧ bs.length = n := by
  unfold take at h
  split_ifs at h with hlen
  obtain ⟨rfl, rfl⟩ := Prod.mk.inj (Except.ok.inj h)
  exact ⟨(List.take_append_drop n c.rest).symm, by rw [List.length_take]; omega⟩

lemma take_append {bs : Bytes} {n : Nat} (h : bs.length = n) (o : Nat) (rest : Bytes) :
    take ⟨o, bs ++ rest⟩ n = .ok (bs, ⟨o + n, rest⟩) := by
  subst h
  simp [take]

lemma byte_ok {c c' : Cursor} {b : UInt8} (h : c.byte = .ok (b, c')) : c.rest = b :: c'.rest := by
  unfold byte at h
  split at h
  · simp at h
  · rename_i hrest
    obtain ⟨rfl, rfl⟩ := Prod.mk.inj (Except.ok.inj h)
    exact hrest

lemma tag_ok {c c' : Cursor} {f : Field} (h : c.tag f = .ok c') : c.rest = f.tag :: c'.rest := by
  obtain ⟨⟨b, next⟩, hb, h⟩ := bind_eq_ok h
  dsimp only at h
  split_ifs at h with hf
  obtain rfl : next = c' := Except.ok.inj h
  rw [byte_ok hb, hf]

lemma tag_cons (o : Nat) (f : Field) (rest : Bytes) :
    tag ⟨o, f.tag :: rest⟩ f = .ok ⟨o + 1, rest⟩ := by
  simp [tag, byte, bind, Except.bind, pure, Except.pure]

lemma varint_ok {c c' : Cursor} {v : Nat} (h : c.varint = .ok (v, c')) :
    c.rest = Varint.encode v ++ c'.rest := by
  unfold varint at h
  split at h
  · simp at h
  · rename_i w rest hdecode
    dsimp only at h
    split_ifs at h with hused
    obtain ⟨rfl, rfl⟩ := Prod.mk.inj (Except.ok.inj h)
    exact Varint.eq_encode_of_decode hdecode (by simpa using hused)

lemma varint_append {v : Nat} (h : v < 2 ^ 64) (o : Nat) (rest : Bytes) :
    varint ⟨o, Varint.encode v ++ rest⟩ = .ok (v, ⟨o + (Varint.encode v).length, rest⟩) := by
  simp [varint, Varint.decode_encode h]

end Cursor

/-! ### Single keys -/

/-- The length of a key fits into the byte in front of it. -/
lemma toNat_length (k : SingleKey) :
    (UInt8.ofNat k.bytes.length).toNat = k.algorithm.keyLength := by
  rw [k.length_bytes]
  cases k.algorithm <;> rfl

lemma ofBytes_ok {a : Algorithm} {bs : Bytes} {k : SingleKey}
    (h : SingleKey.ofBytes a bs = .ok k) : k.algorithm = a ∧ k.bytes = bs := by
  unfold SingleKey.ofBytes at h
  split_ifs at h
  obtain rfl := Except.ok.inj h
  exact ⟨rfl, rfl⟩

lemma decodeBody_ok {a : Algorithm} {c : Cursor} {k : SingleKey} (h : decodeBody a c = .ok k) :
    k.algorithm = a ∧ c.rest = UInt8.ofNat k.bytes.length :: k.bytes := by
  obtain ⟨⟨n, c₁⟩, hn, h⟩ := bind_eq_ok h
  dsimp only at h
  split_ifs at h with hlen
  · exact nomatch h
  · obtain ⟨⟨bs, c₂⟩, hbs, h⟩ := bind_eq_ok h
    dsimp only at h
    split_ifs at h with hrest
    · exact nomatch h
    · obtain ⟨halg, rfl⟩ := ofBytes_ok (mapError_eq_ok h)
      obtain ⟨hsplit, hcount⟩ := Cursor.take_ok hbs
      refine ⟨halg, ?_⟩
      rw [Cursor.byte_ok hn, hsplit, Decidable.not_not.mp hrest, List.append_nil, hcount,
        UInt8.ofNat_toNat]

lemma decodeBody_bytes (k : SingleKey) (o : Nat) :
    decodeBody k.algorithm ⟨o, UInt8.ofNat k.bytes.length :: k.bytes⟩ = .ok k := by
  have hlen := toNat_length k
  have htake := Cursor.take_append k.length_bytes (o + 1) []
  rw [List.append_nil] at htake
  generalize UInt8.ofNat k.bytes.length = b at hlen ⊢
  simp [decodeBody, Cursor.byte, bind, Except.bind, hlen, htake, k.ofBytes_bytes,
    Except.mapError]

lemma decodeMember_ok {r : Registry} {o : Nat} {bs : Bytes} {k : SingleKey}
    (h : decodeMember r o bs = .ok k) : bs = encodeSingle r k ∧ r.Recognises k.algorithm := by
  obtain ⟨⟨pre, c⟩, hpre, h⟩ := bind_eq_ok h
  dsimp only at h
  split at h
  · rename_i a hkind
    obtain ⟨rfl, hrest⟩ := decodeBody_ok h
    obtain ⟨hsplit, -⟩ := Cursor.take_ok hpre
    refine ⟨?_, Registry.recognises_of_kind? hkind⟩
    rw [encodeSingle, ← hrest, ← Registry.eq_ofAlgorithm_of_kind? hkind]
    exact hsplit
  · exact nomatch h
  · exact nomatch h

lemma decodeMember_encodeSingle {r : Registry} {k : SingleKey} (h : r.Recognises k.algorithm)
    (o : Nat) : decodeMember r o (encodeSingle r k) = .ok k := by
  have htake := Cursor.take_append (r.length_ofAlgorithm k.algorithm) 0
    (UInt8.ofNat k.bytes.length :: k.bytes)
  rw [Registry.Recognises] at h
  simp [decodeMember, encodeSingle, Cursor.start, htake, bind, Except.bind, h, decodeBody_bytes]

/-! ### Threshold keys -/

lemma length_encodeSingle (r : Registry) (k : SingleKey) :
    (encodeSingle r k).length = k.algorithm.keyLength + 5 := by
  simp [encodeSingle, r.length_ofAlgorithm, k.length_bytes]
  omega

lemma length_encodeSingle_lt (r : Registry) (k : SingleKey) :
    (encodeSingle r k).length < 2 ^ 64 := by
  rw [length_encodeSingle]
  cases k.algorithm <;> decide

lemma decodeMembers_ok {r : Registry} {n : Nat} {c : Cursor} {ks : List SingleKey}
    (hn : c.rest.length ≤ n) (h : decodeMembers r n c = .ok ks) :
    c.rest = ks.flatMap (encodeMember r) ∧ ∀ k ∈ ks, r.Recognises k.algorithm := by
  induction n generalizing c ks with
  | zero =>
    obtain rfl := Except.ok.inj h
    exact ⟨by simpa using hn, by simp⟩
  | succ n ih =>
    rw [decodeMembers] at h
    split_ifs at h with hrest
    · obtain rfl := Except.ok.inj h
      exact ⟨hrest, by simp⟩
    · obtain ⟨c₁, htag, h⟩ := bind_eq_ok h
      obtain ⟨⟨len, c₂⟩, hlen, h⟩ := bind_eq_ok h
      obtain ⟨⟨body, next⟩, hbody, h⟩ := bind_eq_ok h
      obtain ⟨k, hk, h⟩ := bind_eq_ok h
      obtain ⟨ks', hks, h⟩ := bind_eq_ok h
      obtain rfl := Except.ok.inj h
      obtain ⟨rfl, hrec⟩ := decodeMember_ok hk
      obtain ⟨hsplit, hcount⟩ := Cursor.take_ok hbody
      have hmember : c.rest = encodeMember r k ++ next.rest := by
        rw [Cursor.tag_ok htag, Cursor.varint_ok hlen, hsplit, ← hcount, encodeMember]
        simp
      have hshort : next.rest.length ≤ n := by
        rw [hmember, encodeMember, List.length_append, List.length_cons] at hn
        omega
      obtain ⟨hnext, hall⟩ := ih hshort hks
      exact ⟨by rw [hmember, hnext, List.flatMap_cons],
        fun j hj => (List.mem_cons.mp hj).elim (fun h => h ▸ hrec) (hall j)⟩

/-- One member is read and the others follow. -/
lemma decodeMembers_cons {r : Registry} {k : SingleKey} (h : r.Recognises k.algorithm) (n o : Nat)
    (rest : Bytes) :
    decodeMembers r (n + 1) ⟨o, encodeMember r k ++ rest⟩ =
      (decodeMembers r n ⟨o + (encodeMember r k).length, rest⟩).map (k :: ·) := by
  have hlen := length_encodeSingle_lt r k
  have hoffset : o + (encodeMember r k).length =
      o + 1 + (Varint.encode (encodeSingle r k).length).length + (encodeSingle r k).length := by
    simp only [encodeMember, List.length_cons, List.length_append]
    omega
  have hread : decodeMembers r (n + 1) ⟨o, encodeMember r k ++ rest⟩ =
      (decodeMembers r n ⟨o + (encodeMember r k).length, rest⟩ >>= fun ks => .ok (k :: ks)) := by
    rw [hoffset, encodeMember, List.cons_append, List.append_assoc]
    simp [decodeMembers, bind, Except.bind, Cursor.tag_cons, Cursor.varint_append hlen,
      Cursor.take_append rfl, decodeMember_encodeSingle h, pure, Except.pure]
  rw [hread]
  cases decodeMembers r n _ <;> rfl

lemma decodeMembers_encode {r : Registry} {ks : List SingleKey} {n : Nat}
    (h : ∀ k ∈ ks, r.Recognises k.algorithm)
    (hn : (ks.flatMap (encodeMember r)).length ≤ n) (o : Nat) :
    decodeMembers r n ⟨o, ks.flatMap (encodeMember r)⟩ = .ok ks := by
  induction ks generalizing n o with
  | nil => cases n <;> simp [decodeMembers]
  | cons k ks ih =>
    rw [List.flatMap_cons] at hn ⊢
    cases n with
    | zero => simp [encodeMember] at hn
    | succ n =>
      have hrest : (ks.flatMap (encodeMember r)).length ≤ n := by
        simp only [encodeMember, List.length_append, List.length_cons] at hn
        omega
      rw [decodeMembers_cons (h k (by simp)), ih (fun j hj => h j (by simp [hj])) hrest]
      rfl

/-- What stands behind the prefix of a threshold key. -/
def thresholdFields (r : Registry) (k : ThresholdKey) : Bytes :=
  Field.threshold.tag :: (Varint.encode k.threshold.toNat ++ k.members.flatMap (encodeMember r))

lemma encode_threshold (r : Registry) (k : ThresholdKey) :
    encode r (.threshold k) = r.threshold ++ thresholdFields r k := by
  simp [encode, encodeThreshold, thresholdFields]

lemma decodeThreshold_ok {r : Registry} {c : Cursor} {k : ThresholdKey}
    (h : decodeThreshold r c = .ok k) :
    c.rest = thresholdFields r k ∧ ∀ m ∈ k.members, r.Recognises m.algorithm := by
  obtain ⟨c₁, htag, h⟩ := bind_eq_ok h
  obtain ⟨⟨t, c₂⟩, ht, h⟩ := bind_eq_ok h
  dsimp only at h
  split_ifs at h with hsize
  · exact nomatch h
  · obtain ⟨ks, hks, h⟩ := bind_eq_ok h
    obtain rfl := Except.ok.inj h
    obtain ⟨hmembers, hall⟩ := decodeMembers_ok (Nat.le_refl _) hks
    refine ⟨?_, hall⟩
    have ht' : (UInt32.ofNat t).toNat = t := UInt32.toNat_ofNat_of_lt' (Nat.lt_of_not_le hsize)
    rw [Cursor.tag_ok htag, Cursor.varint_ok ht, hmembers, thresholdFields, ht']

/-- The tag and the threshold are read and the members follow. -/
lemma decodeThreshold_cons (r : Registry) (t : UInt32) (o : Nat) (rest : Bytes) :
    decodeThreshold r ⟨o, Field.threshold.tag :: (Varint.encode t.toNat ++ rest)⟩ =
      (decodeMembers r rest.length ⟨o + 1 + (Varint.encode t.toNat).length, rest⟩).map
        (⟨t, ·⟩) := by
  have hlt : t.toNat < UInt32.size := t.toNat_lt_size
  have hsize : ¬UInt32.size ≤ t.toNat := Nat.not_le_of_lt hlt
  have h64 : t.toNat < 2 ^ 64 := Nat.lt_trans hlt (by decide)
  have hread : decodeThreshold r ⟨o, Field.threshold.tag :: (Varint.encode t.toNat ++ rest)⟩ =
      (decodeMembers r rest.length ⟨o + 1 + (Varint.encode t.toNat).length, rest⟩ >>=
        fun ks => .ok ⟨t, ks⟩) := by
    simp [decodeThreshold, bind, Except.bind, Cursor.tag_cons, Cursor.varint_append h64, hsize,
      pure, Except.pure]
  rw [hread]
  cases decodeMembers r rest.length _ <;> rfl

lemma decodeThreshold_encode {r : Registry} {k : ThresholdKey}
    (h : ∀ m ∈ k.members, r.Recognises m.algorithm) (o : Nat) :
    decodeThreshold r ⟨o, thresholdFields r k⟩ = .ok k := by
  rw [thresholdFields, decodeThreshold_cons, decodeMembers_encode h (Nat.le_refl _)]
  rfl

/-! ### Any key -/

/-- The single keys that a key is made of. -/
def singles : PublicKey → List SingleKey
  | .single k => [k]
  | .threshold k => k.members

/-- The prefix decides which reader goes on. -/
lemma decode_append {r : Registry} {pre : Bytes} (h : pre.length = 4) (rest : Bytes) :
    decode r (pre ++ rest) =
      match r.kind? pre with
      | some (.single a) => (decodeBody a ⟨4, rest⟩).map .single
      | some .threshold => (decodeThreshold r ⟨4, rest⟩).map .threshold
      | none => .error (.unknownPrefix pre) := by
  rw [decode, Cursor.start, Cursor.take_append h]
  rfl

/-- **What is read** is what is written, if the registry takes every single key in it for what it
is, and nothing else. -/
theorem decode_eq_ok_iff {r : Registry} {bs : Bytes} {p : PublicKey} :
    decode r bs = .ok p ↔ encode r p = bs ∧ ∀ k ∈ singles p, r.Recognises k.algorithm := by
  constructor
  · intro h
    obtain ⟨⟨pre, c⟩, hpre, h⟩ := bind_eq_ok h
    obtain ⟨hsplit, -⟩ := Cursor.take_ok hpre
    dsimp only at h
    split at h
    · rename_i a hkind
      obtain ⟨k, hk, rfl⟩ := map_eq_ok h
      obtain ⟨rfl, hrest⟩ := decodeBody_ok hk
      refine ⟨?_, fun j hj => ?_⟩
      · rw [encode, encodeSingle, ← hrest, ← Registry.eq_ofAlgorithm_of_kind? hkind]
        exact hsplit.symm
      · obtain rfl := List.mem_singleton.mp hj
        exact Registry.recognises_of_kind? hkind
    · rename_i hkind
      obtain ⟨k, hk, rfl⟩ := map_eq_ok h
      obtain ⟨hwritten, hall⟩ := decodeThreshold_ok hk
      refine ⟨?_, hall⟩
      rw [encode_threshold, ← hwritten, ← Registry.eq_threshold_of_kind? hkind]
      exact hsplit.symm
    · exact nomatch h
  · rintro ⟨rfl, h⟩
    cases p with
    | single k =>
      have hkind : r.kind? (r.ofAlgorithm k.algorithm) = some (.single k.algorithm) :=
        h k (List.mem_singleton_self k)
      rw [encode, encodeSingle, decode_append (r.length_ofAlgorithm k.algorithm), hkind]
      simp [decodeBody_bytes, Except.map]
    | threshold k =>
      rw [encode_threshold, decode_append r.length_threshold, r.kind?_threshold]
      simp [decodeThreshold_encode h, Except.map]

end ChainKeys.Amino
