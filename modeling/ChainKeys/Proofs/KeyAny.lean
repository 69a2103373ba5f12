import ChainKeys.KeyAny
import ChainKeys.Proofs.Amino.Reading
import ChainKeys.Proofs.Except
import ChainKeys.Proofs.Utf8
import ChainKeys.Proofs.Wire

/-!
Keys as messages. The keys that have a message are those without an sr25519 key in them, and each
is read back from the message written for it. A message of another make, with fields that come
twice or that nobody knows, is read as a key that has a message of its own, of the same type.
-/

namespace ChainKeys.KeyAny

open Wire

/-! ### Messages -/

section

variable {depth : Nat}

lemma Any.takes_encode {a : Any} (hurl : (Utf8.encode a.typeUrl).length < 2 ^ 64)
    (hvalue : a.value.length < 2 ^ 64) : Takes Any.step depth a.encode .empty a := by
  obtain ⟨url, value⟩ := a
  have t1 : Takes Any.step depth (putBytes 1 (Utf8.encode url)) .empty ⟨url, []⟩ := by
    refine takes_bytes (by decide) hurl ?_ fun h => ?_
    · simp [step, empty, Payload.text?, Utf8.decode?_encode]
    · rw [@Utf8.encode_inj url "" h]
      rfl
  have t2 : Takes Any.step depth (putBytes 2 value) ⟨url, []⟩ ⟨url, value⟩ :=
    takes_bytes (by decide) hvalue (by simp [step]) (by rintro rfl; rfl)
  exact t1.append t2

/-- A message is read back from its bytes. -/
theorem Any.decode_encode {a : Any} (hurl : (Utf8.encode a.typeUrl).length < 2 ^ 64)
    (hvalue : a.value.length < 2 ^ 64) : Any.decode a.encode = some a :=
  (takes_encode hurl hvalue).merge

lemma Any.length_encode_le {a : Any} (hurl : (Utf8.encode a.typeUrl).length < 2 ^ 64)
    (hvalue : a.value.length < 2 ^ 64) :
    a.encode.length ≤ (Utf8.encode a.typeUrl).length + a.value.length + 40 := by
  have h1 : (putBytes 1 (Utf8.encode a.typeUrl)).length ≤ (Utf8.encode a.typeUrl).length + 20 :=
    length_putBytes_le (by decide) hurl
  have h2 : (putBytes 2 a.value).length ≤ a.value.length + 20 :=
    length_putBytes_le (by decide) hvalue
  rw [encode, List.length_append]
  omega

lemma decode_encodeKey {bs : Bytes} (hlen : bs.length < 2 ^ 64) :
    Wire.decode keyStep [] (encodeKey bs) = some bs :=
  (takes_bytes (by decide) hlen (by simp [keyStep]) Eq.symm).merge

/-- The members are messages inside this one, and stay short with the lengths written in them.
A threshold of zero is not written. -/
lemma ThresholdMessage.decode_encode {m : ThresholdMessage}
    (hshort : ∀ a ∈ m.members,
      (Utf8.encode a.typeUrl).length < 2 ^ 32 ∧ a.value.length < 2 ^ 32) :
    Wire.decode ThresholdMessage.step ⟨0, []⟩ m.encode = some m := by
  obtain ⟨threshold, members⟩ := m
  have t1 : Takes ThresholdMessage.step maxDepth (putVarint 1 threshold.toNat) ⟨0, []⟩
      ⟨threshold, []⟩ := by
    refine takes_varint (by decide) (Nat.lt_trans threshold.toNat_lt (by decide)) ?_ fun h => ?_
    · simp [step, Payload.word32?, Payload.number?]
    · rw [@UInt32.toNat_inj threshold 0 |>.mp h]
  have t2 : Takes ThresholdMessage.step maxDepth
      (members.flatMap fun a => putMessage 2 a.encode) ⟨threshold, []⟩ ⟨threshold, members⟩ := by
    refine takes_repeated (by decide) (g := fun as => (⟨threshold, as⟩ : ThresholdMessage))
      (fun a ha => ?_) (fun before a ha => ?_) []
    · obtain ⟨hurl, hvalue⟩ := hshort a ha
      have hlen := Any.length_encode_le (a := a) (by omega) (by omega)
      omega
    · obtain ⟨hurl, hvalue⟩ := hshort a ha
      have hmember : Takes Any.step 99 a.encode .empty a :=
        Any.takes_encode (by omega) (by omega)
      simp [step, maxDepth, hmember.mergeInner]
  exact (t1.append t2).merge

end

/-! ### Single keys -/

/-- The type that keys of an algorithm are written under. -/
def url? : Algorithm → Option String
  | .secp256k1 => some secp256k1Url
  | .ed25519 => some ed25519Url
  | .sr25519 => none

lemma isSome_url? {a : Algorithm} : (url? a).isSome ↔ a ≠ .sr25519 := by
  cases a <;> decide

lemma url?_eq_some_iff {a : Algorithm} {url : String} :
    url? a = some url ↔
      (a = .secp256k1 ∧ url = secp256k1Url) ∨ (a = .ed25519 ∧ url = ed25519Url) := by
  cases a <;> simp [url?, eq_comm]

lemma url?_ne_threshold (a : Algorithm) : url? a ≠ some thresholdUrl := by
  cases a <;> decide

lemma length_url?_lt {a : Algorithm} {url : String} (h : url? a = some url) :
    (Utf8.encode url).length < 2 ^ 32 := by
  cases a with
  | secp256k1 => exact Option.some.inj h ▸ by decide
  | ed25519 => exact Option.some.inj h ▸ by decide
  | sr25519 => exact nomatch h

lemma length_bytes_lt (k : SingleKey) : k.bytes.length < 64 := by
  rw [k.length_bytes]
  cases k.algorithm <;> decide

lemma ofSingle_eq_ok_iff {k : SingleKey} {a : Any} :
    ofSingle k = .ok a ↔ url? k.algorithm = some a.typeUrl ∧ a.value = encodeKey k.bytes := by
  obtain ⟨url, value⟩ := a
  unfold ofSingle url?
  cases k.algorithm <;> simp [eq_comm]

lemma readKey_eq_ok_iff {alg : Algorithm} {value : Bytes} {k : SingleKey} :
    readKey alg value = .ok k ↔
      k.algorithm = alg ∧ Wire.decode keyStep [] value = some k.bytes := by
  unfold readKey
  cases hread : Wire.decode keyStep [] value with
  | none => simp
  | some bs =>
    simp only [mapError_eq_ok_iff, Option.some.injEq]
    constructor
    · intro h
      obtain ⟨halg, hbytes⟩ := Amino.ofBytes_ok h
      exact ⟨halg, hbytes.symm⟩
    · rintro ⟨rfl, rfl⟩
      exact k.ofBytes_bytes

/-- A message is read as a key of the algorithm its type is for, whatever else it holds. -/
lemma toSingle_eq_ok_iff {a : Any} {k : SingleKey} :
    toSingle a = .ok k ↔
      url? k.algorithm = some a.typeUrl ∧ Wire.decode keyStep [] a.value = some k.bytes := by
  obtain ⟨url, value⟩ := a
  have hne : secp256k1Url ≠ ed25519Url := by decide
  simp only [url?_eq_some_iff, toSingle]
  split_ifs with hsecp hed hthreshold
  · simp [readKey_eq_ok_iff, hsecp, hne]
  · simp [readKey_eq_ok_iff, hed, hne.symm]
  · simp [hsecp, hed]
  · simp [hsecp, hed]

lemma toSingle_of_ofSingle {k : SingleKey} {a : Any} (h : ofSingle k = .ok a) :
    toSingle a = .ok k := by
  obtain ⟨hurl, hvalue⟩ := ofSingle_eq_ok_iff.mp h
  have hlen := Nat.lt_trans (length_bytes_lt k) (by decide : 64 < 2 ^ 64)
  exact toSingle_eq_ok_iff.mpr ⟨hurl, hvalue ▸ decode_encodeKey hlen⟩

lemma short_of_ofSingle {k : SingleKey} {a : Any} (h : ofSingle k = .ok a) :
    (Utf8.encode a.typeUrl).length < 2 ^ 32 ∧ a.value.length < 2 ^ 32 := by
  obtain ⟨hurl, hvalue⟩ := ofSingle_eq_ok_iff.mp h
  have hlen := length_bytes_lt k
  have hput : (encodeKey k.bytes).length ≤ k.bytes.length + 20 :=
    length_putBytes_le (by decide) (by omega)
  rw [hvalue]
  exact ⟨length_url?_lt hurl, by omega⟩

lemma exists_ofSingle_iff {k : SingleKey} :
    (∃ a, ofSingle k = .ok a) ↔ k.algorithm ≠ .sr25519 := by
  rw [← isSome_url?, Option.isSome_iff_exists]
  simp only [ofSingle_eq_ok_iff]
  exact ⟨fun ⟨a, ha, _⟩ => ⟨a.typeUrl, ha⟩, fun ⟨url, h⟩ => ⟨⟨url, encodeKey k.bytes⟩, h, rfl⟩⟩

/-- What is read under a type is written under it again. -/
lemma ofSingle_of_toSingle {k : SingleKey} {a : Any} (h : toSingle a = .ok k) :
    ofSingle k = .ok ⟨a.typeUrl, encodeKey k.bytes⟩ :=
  ofSingle_eq_ok_iff.mpr ⟨(toSingle_eq_ok_iff.mp h).1, rfl⟩

/-! ### Any key -/

lemma ofKey_threshold_eq_ok_iff {k : ThresholdKey} {a : Any} :
    ofKey (.threshold k) = .ok a ↔ ∃ members, k.members.mapM ofSingle = .ok members ∧
      a = ⟨thresholdUrl, (ThresholdMessage.mk k.threshold members).encode⟩ := by
  rw [ofKey]
  constructor
  · intro h
    obtain ⟨members, hmembers, h⟩ := bind_eq_ok h
    exact ⟨members, hmembers, (Except.ok.inj h).symm⟩
  · rintro ⟨members, hmembers, rfl⟩
    rw [hmembers]
    rfl

/-- The keys that have a message. -/
theorem exists_ofKey_iff {p : PublicKey} :
    (∃ a, ofKey p = .ok a) ↔ ∀ k ∈ Amino.singles p, k.algorithm ≠ .sr25519 := by
  cases p with
  | single k => simpa [ofKey, Amino.singles] using exists_ofSingle_iff
  | threshold k =>
    simp only [Amino.singles, ← exists_ofSingle_iff, ← exists_mapM_eq_ok_iff,
      ofKey_threshold_eq_ok_iff]
    constructor
    · rintro ⟨_, members, hmembers, -⟩
      exact ⟨members, hmembers⟩
    · rintro ⟨members, hmembers⟩
      exact ⟨_, members, hmembers, rfl⟩

/-- **Round trip**: a key is read back from its message. -/
theorem toKey_of_ofKey {p : PublicKey} {a : Any} (h : ofKey p = .ok a) : toKey a = .ok p := by
  cases p with
  | single k =>
    have hurl : a.typeUrl ≠ thresholdUrl := fun hurl =>
      url?_ne_threshold k.algorithm (hurl ▸ (ofSingle_eq_ok_iff.mp h).1)
    rw [toKey, if_neg hurl, toSingle_of_ofSingle h]
    rfl
  | threshold k =>
    obtain ⟨members, hmembers, rfl⟩ := ofKey_threshold_eq_ok_iff.mp h
    have hread : members.mapM toSingle = .ok k.members :=
      mapM_of_mapM (fun _ _ => toSingle_of_ofSingle) hmembers
    have hdecode := ThresholdMessage.decode_encode (m := ⟨k.threshold, members⟩) fun a ha =>
      let ⟨_, hj⟩ := exists_of_mem_mapM hmembers a ha
      short_of_ofSingle hj
    rw [toKey, if_pos rfl]
    simp only [hdecode, hread]
    rfl

lemma length_typeUrl_lt {p : PublicKey} {a : Any} (h : ofKey p = .ok a) :
    (Utf8.encode a.typeUrl).length < 2 ^ 32 := by
  cases p with
  | single k => exact (short_of_ofSingle h).1
  | threshold k =>
    obtain ⟨_, _, rfl⟩ := ofKey_threshold_eq_ok_iff.mp h
    change (Utf8.encode thresholdUrl).length < 2 ^ 32
    decide

/-- A key that was read has a message of the type it was read under. -/
lemma ofKey_of_toKey {p : PublicKey} {a : Any} (h : toKey a = .ok p) :
    ∃ a', ofKey p = .ok a' ∧ a'.typeUrl = a.typeUrl := by
  unfold toKey at h
  split_ifs at h with hurl
  · split at h
    · rename_i m _
      obtain ⟨members, hmembers, h⟩ := bind_eq_ok h
      obtain rfl := Except.ok.inj h
      have hwrite : ∀ k ∈ members, ∃ b, ofSingle k = .ok b := fun k hk =>
        let ⟨_, hb⟩ := exists_of_mem_mapM hmembers k hk
        ⟨_, ofSingle_of_toSingle hb⟩
      obtain ⟨as, has⟩ := exists_mapM_eq_ok_iff.mpr hwrite
      exact ⟨_, ofKey_threshold_eq_ok_iff.mpr ⟨as, has, rfl⟩, hurl.symm⟩
    · exact nomatch h
  · obtain ⟨k, hk, rfl⟩ := map_eq_ok h
    exact ⟨_, ofSingle_of_toSingle hk, rfl⟩

/-- **Keys and messages**. A key has a message unless there is an sr25519 key in it. The message
is read back from its bytes, whose length a reader keeps in 64 bits, and the key from the
message. And whatever message a key is read from, in the form written here or another, the key
has a message of the same type, which it is read back from. -/
theorem any_exact (p : PublicKey) :
    ((∃ a, ofKey p = .ok a) ↔ ∀ k ∈ Amino.singles p, k.algorithm ≠ .sr25519) ∧
      (∀ a, ofKey p = .ok a →
        (a.value.length < 2 ^ 64 → Any.decode a.encode = some a) ∧ toKey a = .ok p) ∧
      ∀ a, toKey a = .ok p →
        (∀ k ∈ Amino.singles p, k.algorithm ≠ .sr25519) ∧
          ∃ a', ofKey p = .ok a' ∧ a'.typeUrl = a.typeUrl ∧ toKey a' = .ok p := by
  refine ⟨exists_ofKey_iff, fun a ha => ⟨fun hlen => ?_, toKey_of_ofKey ha⟩, fun a ha => ?_⟩
  · exact Any.decode_encode (Nat.lt_trans (length_typeUrl_lt ha) (by decide)) hlen
  · obtain ⟨a', ha', hurl⟩ := ofKey_of_toKey ha
    exact ⟨exists_ofKey_iff.mp ⟨a', ha'⟩, a', ha', hurl, toKey_of_ofKey ha'⟩

end ChainKeys.KeyAny
