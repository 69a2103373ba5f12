import ChainKeys.Proofs.Amino.RoundTrip

/-!
What is read of a binary form that stops too early.

A cut falls into one field, and all fields before it are read as they were written. In the field
it leaves too few bytes, or a number without its last byte. Only a cut between two members, or
between the threshold and the first of them, falls into no field: what stands there is the binary
form of a key of fewer members.
-/

namespace ChainKeys

/-! ### Cuts -/

/-- A byte string without some of its end. -/
def Bytes.Cut (bs whole : Bytes) : Prop := ∃ b rest, whole = bs ++ b :: rest

namespace Bytes.Cut

variable {bs whole x y : Bytes}

lemma of_start (h : bs <+: whole) (hne : bs ≠ whole) : Cut bs whole := by
  obtain ⟨rest, rfl⟩ := h
  rcases rest with _ | ⟨b, rest⟩
  · simp at hne
  · exact ⟨b, rest, rfl⟩

lemma length_lt (h : Cut bs whole) : bs.length < whole.length := by
  obtain ⟨b, rest, rfl⟩ := h
  simp

lemma not_nil : ¬Cut bs [] := by
  intro h
  simpa using h.length_lt

/-- A cut of two parts falls into the first, or into the second behind all of the first. -/
lemma append (h : Cut bs (x ++ y)) : Cut bs x ∨ ∃ bs', bs = x ++ bs' ∧ Cut bs' y := by
  obtain ⟨b, rest, h⟩ := h
  rcases List.append_eq_append_iff.mp h with ⟨bs', hbs, hy⟩ | ⟨left, hx, hrest⟩
  · exact .inr ⟨bs', hbs, b, rest, hy⟩
  · rcases left with _ | ⟨c, left⟩
    · exact .inr ⟨[], by simpa using hx.symm, b, rest, hrest.symm⟩
    · exact .inl ⟨c, left, hx⟩

lemma cons {c : UInt8} (h : Cut bs (c :: y)) : bs = [] ∨ ∃ bs', bs = c :: bs' ∧ Cut bs' y := by
  rcases append (x := [c]) h with hfirst | ⟨bs', rfl, hrest⟩
  · have hlt := hfirst.length_lt
    exact .inl (List.eq_nil_of_length_eq_zero (by simpa using hlt))
  · exact .inr ⟨bs', rfl, hrest⟩

end Bytes.Cut

namespace Amino

open Bytes (Cut)

/-- At some place in an input of this length more bytes are needed than are left. -/
inductive LacksBytes (total : Nat) : Error → Prop
  | truncated {offset needed available : Nat} (left : offset + available = total)
      (few : available < needed) : LacksBytes total (.truncated offset needed available)

/-- What is said of an input of this length that stops too early: bytes are missing, or a number
has no end. -/
inductive StopsEarly (total : Nat) : Error → Prop
  | bytes {e : Error} (lacks : LacksBytes total e) : StopsEarly total e
  | number {offset : Nat} (within : offset ≤ total) : StopsEarly total (.varint offset .malformed)

variable {r : Registry} {bs : Bytes}

/-! ### The cursor -/

namespace Cursor

lemma take_cut {whole : Bytes} (h : Cut bs whole) {n : Nat} (hn : whole.length = n) (o : Nat) :
    take ⟨o, bs⟩ n = .error (.truncated o n bs.length) := by
  have hshort : bs.length < n := hn ▸ h.length_lt
  rw [take, if_pos hshort]

lemma varint_cut {v : Nat} (h : Cut bs (Varint.encode v)) (o : Nat) :
    varint ⟨o, bs⟩ = .error (.varint o .malformed) := by
  obtain ⟨b, rest, h⟩ := h
  rw [varint, Varint.decode_eq_none_of_append h]

end Cursor

/-! ### Single keys -/

lemma decodeBody_cut {k : SingleKey} (h : Cut bs (UInt8.ofNat k.bytes.length :: k.bytes))
    (o : Nat) :
    ∃ e, decodeBody k.algorithm ⟨o, bs⟩ = .error e ∧ LacksBytes (o + bs.length) e := by
  rcases h.cons with rfl | ⟨key, rfl, hkey⟩
  · exact ⟨.truncated o 1 0, rfl, .truncated (by simp) (by omega)⟩
  · have hlength := toNat_length k
    have hread := Cursor.take_cut hkey k.length_bytes (o + 1)
    have hfew : key.length < k.algorithm.keyLength := k.length_bytes ▸ hkey.length_lt
    refine ⟨.truncated (o + 1) k.algorithm.keyLength key.length, ?_, .truncated ?_ hfew⟩
    · generalize UInt8.ofNat k.bytes.length = b at hlength ⊢
      simp [decodeBody, Cursor.byte, bind, Except.bind, hlength, hread]
    · rw [List.length_cons]
      omega

/-- A cut within the prefix is noticed before anything is known of the key. -/
lemma decode_cut_first {pre rest : Bytes} (hpre : pre.length = 4) (h : Cut bs (pre ++ rest)) :
    (∃ e, decode r bs = .error e ∧ LacksBytes bs.length e) ∨
      ∃ bs', bs = pre ++ bs' ∧ Cut bs' rest := by
  rcases h.append with hfirst | hrest
  · have hfew : bs.length < 4 := hpre ▸ hfirst.length_lt
    refine .inl ⟨.truncated 0 4 bs.length, ?_, .truncated (Nat.zero_add _) hfew⟩
    rw [decode, Cursor.start, Cursor.take_cut hfirst hpre]
    rfl
  · exact .inr hrest

lemma decode_single_cut {k : SingleKey} (hk : r.Recognises k.algorithm)
    (h : Cut bs (encode r (.single k))) :
    ∃ e, decode r bs = .error e ∧ LacksBytes bs.length e := by
  have hpre := r.length_ofAlgorithm k.algorithm
  rcases decode_cut_first hpre h with hfirst | ⟨body, rfl, hbody⟩
  · exact hfirst
  · obtain ⟨e, he, hlacks⟩ := decodeBody_cut hbody 4
    have hkind : r.kind? (r.ofAlgorithm k.algorithm) = some (.single k.algorithm) := hk
    refine ⟨e, ?_, by rwa [List.length_append, hpre]⟩
    rw [decode_append hpre, hkind]
    simp [he, Except.map]

/-! ### Members -/

lemma decodeMembers_cut_member {k : SingleKey} (h : Cut bs (encodeMember r k)) (hne : bs ≠ [])
    (n o : Nat) :
    ∃ e, decodeMembers r (n + 1) ⟨o, bs⟩ = .error e ∧ StopsEarly (o + bs.length) e := by
  rcases h.cons with rfl | ⟨rest, rfl, hrest⟩
  · exact absurd rfl hne
  have htag := Cursor.tag_cons o .member rest
  rcases hrest.append with hnumber | ⟨key, rfl, hkey⟩
  · have hread := Cursor.varint_cut hnumber (o + 1)
    refine ⟨.varint (o + 1) .malformed, ?_, .number (by simp)⟩
    simp [decodeMembers, bind, Except.bind, htag, hread]
  · let place := o + 1 + (Varint.encode (encodeSingle r k).length).length
    have hread := Cursor.varint_append (length_encodeSingle_lt r k) (o + 1) key
    have htake := Cursor.take_cut hkey rfl place
    have hleft : place + key.length = o + (Field.member.tag ::
        (Varint.encode (encodeSingle r k).length ++ key)).length := by
      simp only [List.length_cons, List.length_append, place]
      omega
    refine ⟨.truncated place (encodeSingle r k).length key.length, ?_,
      .bytes (.truncated hleft hkey.length_lt)⟩
    simp [decodeMembers, bind, Except.bind, htag, hread, htake, place]

/-- By induction on the members that were written: those before the cut are read, and the cut
falls before one of them or into it. -/
lemma decodeMembers_cut {ks : List SingleKey} (hks : ∀ k ∈ ks, r.Recognises k.algorithm)
    (h : Cut bs (ks.flatMap (encodeMember r))) {n : Nat} (hn : bs.length ≤ n) (o : Nat) :
    (∃ j < ks.length, bs = (ks.take j).flatMap (encodeMember r)) ∨
      ∃ e, decodeMembers r n ⟨o, bs⟩ = .error e ∧ StopsEarly (o + bs.length) e := by
  induction ks generalizing bs n o with
  | nil => exact absurd h Bytes.Cut.not_nil
  | cons k ks ih =>
    rw [List.flatMap_cons] at h
    rcases h.append with hmember | ⟨rest, rfl, hrest⟩
    · by_cases hbs : bs = []
      · exact .inl ⟨0, by simp, by simpa using hbs⟩
      · have hpos := List.length_pos_iff.mpr hbs
        obtain ⟨n, rfl⟩ : ∃ n', n = n' + 1 := ⟨n - 1, by omega⟩
        exact .inr (decodeMembers_cut_member hmember hbs n o)
    · have hpos : 0 < (encodeMember r k).length := by simp [encodeMember]
      rw [List.length_append] at hn
      obtain ⟨n, rfl⟩ : ∃ n', n = n' + 1 := ⟨n - 1, by omega⟩
      have hothers : ∀ m ∈ ks, r.Recognises m.algorithm := fun m hm => hks m (by simp [hm])
      rcases ih hothers hrest (n := n) (by omega) (o + (encodeMember r k).length) with
        ⟨j, hj, rfl⟩ | ⟨e, he, hstops⟩
      · exact .inl ⟨j + 1, by simpa using hj, by simp⟩
      · refine .inr ⟨e, ?_, by rwa [List.length_append, ← Nat.add_assoc]⟩
        rw [decodeMembers_cons (hks k (by simp)), he]
        rfl

/-! ### Threshold keys -/

/-- The key of the same threshold and of the first `j` members. -/
def firstMembers (k : ThresholdKey) (j : Nat) : ThresholdKey := ⟨k.threshold, k.members.take j⟩

lemma decodeThreshold_cut {k : ThresholdKey} (hk : ∀ m ∈ k.members, r.Recognises m.algorithm)
    (h : Cut bs (thresholdFields r k)) (o : Nat) :
    (∃ j < k.members.length, bs = thresholdFields r (firstMembers k j)) ∨
      ∃ e, decodeThreshold r ⟨o, bs⟩ = .error e ∧ StopsEarly (o + bs.length) e := by
  rcases h.cons with rfl | ⟨rest, rfl, hrest⟩
  · exact .inr ⟨.truncated o 1 0, rfl, .bytes (.truncated (by simp) (by omega))⟩
  rcases hrest.append with hnumber | ⟨members, rfl, hmembers⟩
  · have hread := Cursor.varint_cut hnumber (o + 1)
    refine .inr ⟨.varint (o + 1) .malformed, ?_, .number (by simp)⟩
    simp [decodeThreshold, bind, Except.bind, Cursor.tag_cons, hread]
  let place := o + 1 + (Varint.encode k.threshold.toNat).length
  have htotal : place + members.length = o + (Field.threshold.tag ::
      (Varint.encode k.threshold.toNat ++ members)).length := by
    simp only [List.length_cons, List.length_append, place]
    omega
  rcases decodeMembers_cut hk hmembers (Nat.le_refl _) place with ⟨j, hj, rfl⟩ | ⟨e, he, hstops⟩
  · exact .inl ⟨j, hj, rfl⟩
  · refine .inr ⟨e, ?_, htotal ▸ hstops⟩
    rw [decodeThreshold_cons, he]
    rfl

lemma decode_threshold_cut {k : ThresholdKey} (hk : ∀ m ∈ k.members, r.Recognises m.algorithm)
    (h : Cut bs (encode r (.threshold k))) :
    (∃ j < k.members.length, bs = encode r (.threshold (firstMembers k j))) ∨
      ∃ e, decode r bs = .error e ∧ StopsEarly bs.length e := by
  have hpre := r.length_threshold
  rw [encode_threshold] at h
  rcases decode_cut_first hpre h with ⟨e, he, hlacks⟩ | ⟨fields, rfl, hfields⟩
  · exact .inr ⟨e, he, .bytes hlacks⟩
  rcases decodeThreshold_cut hk hfields 4 with ⟨j, hj, rfl⟩ | ⟨e, he, hstops⟩
  · exact .inl ⟨j, hj, (encode_threshold r _).symm⟩
  · refine .inr ⟨e, ?_, by rwa [List.length_append, hpre]⟩
    rw [decode_append hpre, r.kind?_threshold]
    simp [he, Except.map]

/-- **A binary form that stops too early**, under a registry in which no two prefixes are equal,
is read only where it is the form of a key with the same threshold and fewer of the members, the
first ones, and then as that key. Otherwise it is refused for stopping early, and where a single
key was written always for the bytes that are missing. -/
theorem decode_of_start (hr : r.Distinct) {p : PublicKey} (hstart : bs <+: encode r p)
    (hshort : bs ≠ encode r p) :
    (∀ q, decode r bs = .ok q ↔
      ∃ k j, p = .threshold k ∧ j < k.members.length ∧ q = .threshold (firstMembers k j) ∧
        bs = encode r q) ∧
    (∀ e, decode r bs = .error e → StopsEarly bs.length e) ∧
    ∀ k, p = .single k → ∃ e, decode r bs = .error e ∧ LacksBytes bs.length e := by
  have hcut : Cut bs (encode r p) := .of_start hstart hshort
  have hknown := Registry.distinct_iff.mp hr
  have hwritten : ∀ q, (∃ k j, p = .threshold k ∧ j < k.members.length ∧
      q = .threshold (firstMembers k j) ∧ bs = encode r q) → decode r bs = .ok q := by
    rintro q ⟨-, -, -, -, -, rfl⟩
    exact hr.decode_encode q
  cases p with
  | single k =>
    obtain ⟨e, he, hlacks⟩ := decode_single_cut (hknown k.algorithm) hcut
    refine ⟨fun q => by simp [he], fun e' he' => ?_, fun _ _ => ⟨e, he, hlacks⟩⟩
    obtain rfl := Except.error.inj (he.symm.trans he')
    exact .bytes hlacks
  | threshold k =>
    rcases decode_threshold_cut (fun m _ => hknown m.algorithm) hcut with
      ⟨j, hj, hbs⟩ | ⟨e, he, hstops⟩
    · have hread := hwritten _ ⟨k, j, rfl, hj, rfl, hbs⟩
      refine ⟨fun q => ⟨fun hq => ?_, hwritten q⟩, fun e he => ?_, fun _ hp => nomatch hp⟩
      · obtain rfl := Except.ok.inj (hread.symm.trans hq)
        exact ⟨k, j, rfl, hj, rfl, hbs⟩
      · exact nomatch hread.symm.trans he
    · refine ⟨fun q => ⟨fun hq => ?_, hwritten q⟩, fun e' he' => ?_, fun _ hp => nomatch hp⟩
      · exact nomatch he.symm.trans hq
      · obtain rfl := Except.error.inj (he.symm.trans he')
        exact hstops

/-- The first bytes of the binary form of a key of threshold 300 and two members. -/
def twinStart (n : Nat) : Bytes := (encode .cosmos (.threshold twinKey)).take n

/-- Cut behind the first member, and cut within the threshold, which takes two bytes. -/
theorem decode_of_start_twinKey :
    decode .cosmos (twinStart 46) = .ok (.threshold (firstMembers twinKey 1)) ∧
      decode .cosmos (twinStart 6) = .error (.varint 5 .malformed) ∧
      StopsEarly (twinStart 6).length (.varint 5 .malformed) := by
  have hdistinct : Registry.cosmos.Distinct := by decide
  have hstart : ∀ n, twinStart n <+: encode .cosmos (.threshold twinKey) :=
    fun n => List.take_prefix n _
  have hmember : twinStart 46 ≠ encode .cosmos (.threshold twinKey) := by decide +kernel
  have hnumber : twinStart 6 ≠ encode .cosmos (.threshold twinKey) := by decide +kernel
  have hread : twinStart 46 = encode .cosmos (.threshold (firstMembers twinKey 1)) := by
    decide +kernel
  have hrefused : decode .cosmos (twinStart 6) = .error (.varint 5 .malformed) := by
    decide +kernel
  refine ⟨?_, hrefused, (decode_of_start hdistinct (hstart 6) hnumber).2.1 _ hrefused⟩
  exact ((decode_of_start hdistinct (hstart 46) hmember).1 _).mpr
    ⟨twinKey, 1, rfl, by decide, rfl, hread⟩

end Amino

end ChainKeys
