import ChainKeys.Proofs.Amino.RoundTrip

/-!
What an error says of the bytes that were refused.

What the reader of a threshold key has consumed is at any time the binary form of a key, with the
members read so far. So an offset leads to the byte that is at fault, and what stands before it
is in order. Errors in the bytes of a single key count from the start of these bytes; what they
say besides holds wherever the key stands.
-/

namespace ChainKeys.Amino

/-- What is true of a byte string that is refused with this error. -/
def Error.Describes (r : Registry) (bs : Bytes) : Error → Prop
  | .unknownPrefix pre => pre.length = 4 ∧ r.kind? pre = none
  | .unexpectedTag field actual offset =>
    bs[offset]? = some actual ∧ actual ≠ field.tag ∧ (field.tag = 0x08 ↔ offset = 4) ∧
      (field.tag = 0x12 → ∃ k, decode r (bs.take offset) = .ok (.threshold k))
  | .truncated _ needed available => available < needed
  | .wrongLength a n => n ≠ a.keyLength
  | .trailing n => 0 < n
  | .nested offset =>
    (bs.drop offset).take 4 = r.threshold ∧
      ∃ before len k, bs.take offset = before ++ Field.member.tag :: Varint.encode len ∧
        decode r before = .ok (.threshold k)
  | .varint offset _ =>
    offset ≤ bs.length ∧ ∀ v < 2 ^ 64, ¬ Varint.encode v <+: bs.drop offset
  | .thresholdOverflow v => Varint.encode v <+: bs.drop 5 ∧ 2 ^ 32 ≤ v
  | .key e => ∃ tag, e = .badTag tag ∧ tag ≠ 2 ∧ tag ≠ 3

variable {r : Registry} {bs consumed : Bytes} {e : Error}

/-! ### The cursor -/

namespace Cursor

variable {c c' : Cursor}

lemma take_error {n : Nat} (h : c.take n = .error e) : e.Describes r bs := by
  unfold take at h
  split_ifs at h with hlen
  obtain rfl := Except.error.inj h
  exact hlen

lemma byte_error (h : c.byte = .error e) : c.rest = [] ∧ e = .truncated c.offset 1 0 := by
  unfold byte at h
  split at h
  · rename_i hrest
    exact ⟨hrest, (Except.error.inj h).symm⟩
  · cases h

lemma tag_error {f : Field} (h : c.tag f = .error e) :
    e = .truncated c.offset 1 0 ∨
      ∃ b rest, c.rest = b :: rest ∧ b ≠ f.tag ∧ e = .unexpectedTag f b c.offset := by
  rcases bind_eq_error h with hbyte | ⟨⟨b, next⟩, hbyte, h⟩
  · exact .inl (byte_error hbyte).2
  · dsimp only at h
    split_ifs at h with htag
    · cases h
    · exact .inr ⟨b, next.rest, byte_ok hbyte, htag, (Except.error.inj h).symm⟩

/-- A number that stands there in its shortest form would be read. -/
lemma varint_error (h : c.varint = .error e) :
    (∃ fault, e = .varint c.offset fault) ∧ ∀ v < 2 ^ 64, ¬ Varint.encode v <+: c.rest := by
  constructor
  · unfold varint at h
    split at h
    · exact ⟨.malformed, (Except.error.inj h).symm⟩
    · dsimp only at h
      split_ifs at h with hused
      exact ⟨.padded, (Except.error.inj h).symm⟩
  · rintro v hv ⟨rest, hrest⟩
    have hread := varint_append hv c.offset rest
    rw [hrest] at hread
    cases h.symm.trans hread

/-- The cursor stands behind the first bytes of the input. -/
structure Behind (bs consumed : Bytes) (c : Cursor) : Prop where
  split : bs = consumed ++ c.rest
  offset_eq : c.offset = consumed.length

namespace Behind

lemma drop (h : c.Behind bs consumed) : bs.drop c.offset = c.rest := by
  rw [h.offset_eq, h.split, List.drop_left]

lemma take (h : c.Behind bs consumed) : bs.take c.offset = consumed := by
  rw [h.offset_eq, h.split, List.take_left]

lemma offset_le (h : c.Behind bs consumed) : c.offset ≤ bs.length := by
  rw [h.offset_eq, h.split, List.length_append]
  exact Nat.le_add_right _ _

lemma move {x : Bytes} (h : c.Behind bs consumed) (hrest : c.rest = x ++ c'.rest)
    (hoffset : c'.offset = c.offset + x.length) : c'.Behind bs (consumed ++ x) where
  split := by rw [h.split, hrest, List.append_assoc]
  offset_eq := by rw [hoffset, h.offset_eq, List.length_append]

lemma move_take {n : Nat} {x : Bytes} (h : c.Behind bs consumed)
    (htake : c.take n = .ok (x, c')) : c'.Behind bs (consumed ++ x) := by
  obtain ⟨hrest, rfl⟩ := take_ok htake
  refine h.move hrest ?_
  unfold Cursor.take at htake
  split_ifs at htake
  exact (congrArg Cursor.offset (Prod.mk.inj (Except.ok.inj htake)).2).symm

lemma move_tag {f : Field} (h : c.Behind bs consumed) (htag : c.tag f = .ok c') :
    c'.Behind bs (consumed ++ [f.tag]) := by
  have hrest := tag_ok htag
  have hread := tag_cons c.offset f c'.rest
  rw [← hrest] at hread
  have hc' : (⟨c.offset + 1, c'.rest⟩ : Cursor) = c' := Except.ok.inj (hread.symm.trans htag)
  exact h.move hrest (congrArg Cursor.offset hc').symm

lemma move_varint {v : Nat} (h : c.Behind bs consumed) (hv : c.varint = .ok (v, c')) :
    c'.Behind bs (consumed ++ Varint.encode v) := by
  refine h.move (varint_ok hv) ?_
  unfold Cursor.varint at hv
  split at hv
  · cases hv
  · dsimp only at hv
    split_ifs at hv with hused
    obtain ⟨rfl, rfl⟩ := Prod.mk.inj (Except.ok.inj hv)
    exact congrArg (c.offset + ·) (Decidable.not_not.mp hused)

/-- A byte that is no tag, where all before it is in order. -/
lemma tag_describes {f : Field} (h : c.Behind bs consumed)
    (hplace : f.tag = 0x08 ↔ c.offset = 4)
    (hbefore : f.tag = 0x12 → ∃ k, decode r consumed = .ok (.threshold k))
    (htag : c.tag f = .error e) : e.Describes r bs := by
  rcases tag_error htag with rfl | ⟨b, rest, hrest, hne, rfl⟩
  · exact Nat.zero_lt_one
  · refine ⟨?_, hne, hplace, by rwa [h.take]⟩
    rw [← List.head?_drop, h.drop, hrest, List.head?_cons]

lemma varint_describes (h : c.Behind bs consumed) (hv : c.varint = .error e) :
    e.Describes r bs := by
  obtain ⟨⟨fault, rfl⟩, hnone⟩ := varint_error hv
  exact ⟨h.offset_le, by rwa [h.drop]⟩

end Behind

end Cursor

/-! ### Single keys -/

/-- At the right length only the first byte of a key can be wrong. -/
lemma ofBytes_error {a : Algorithm} {key : Bytes} {e : KeyError} (hlen : key.length = a.keyLength)
    (h : SingleKey.ofBytes a key = .error e) : ∃ tag, e = .badTag tag ∧ tag ≠ 2 ∧ tag ≠ 3 := by
  unfold SingleKey.ofBytes at h
  split_ifs at h with hrefused
  obtain rfl := Except.error.inj h
  cases a with
  | secp256k1 =>
    obtain ⟨tag, rest, rfl⟩ := List.exists_cons_of_length_eq_add_one hlen
    have hrest : rest.length = 32 := by simpa [Algorithm.keyLength] using hlen
    refine ⟨tag, by simp [SingleKey.fault, hrest], ?_⟩
    simpa [Algorithm.accepts, Algorithm.keyLength, hrest] using hrefused
  | ed25519 => simp [Algorithm.accepts, hlen] at hrefused
  | sr25519 => simp [Algorithm.accepts, hlen] at hrefused

lemma decodeBody_error {a : Algorithm} {c : Cursor} (h : decodeBody a c = .error e) :
    e.Describes r bs := by
  rcases bind_eq_error h with hbyte | ⟨⟨n, c₁⟩, -, h⟩
  · rw [(Cursor.byte_error hbyte).2]
    exact Nat.zero_lt_one
  dsimp only at h
  split_ifs at h with hlen
  · obtain rfl := Except.error.inj h
    exact hlen
  rcases bind_eq_error h with htake | ⟨⟨key, c₂⟩, htake, h⟩
  · exact Cursor.take_error htake
  dsimp only at h
  split_ifs at h with hrest
  · obtain rfl := Except.error.inj h
    exact List.length_pos_iff.mpr hrest
  · have hkey := (Cursor.take_ok htake).2
    cases hread : SingleKey.ofBytes a key with
    | ok k =>
      rw [hread] at h
      cases h
    | error e' =>
      rw [hread] at h
      obtain rfl := Except.error.inj h
      exact ofBytes_error (hkey.trans (Decidable.not_not.mp hlen)) hread

/-- Only that a threshold key stands in the member's place is said of a place outside it. -/
lemma decodeMember_error {o : Nat} {body : Bytes} (h : decodeMember r o body = .error e) :
    (e = .nested o ∧ r.threshold <+: body) ∨ e.Describes r bs := by
  rcases bind_eq_error h with htake | ⟨⟨pre, c⟩, htake, h⟩
  · exact .inr (Cursor.take_error htake)
  obtain ⟨hsplit, hpre⟩ := Cursor.take_ok htake
  dsimp only at h
  split at h
  · exact .inr (decodeBody_error h)
  · rename_i hkind
    refine .inl ⟨(Except.error.inj h).symm, c.rest, ?_⟩
    rw [← Registry.eq_threshold_of_kind? hkind]
    exact hsplit.symm
  · rename_i hkind
    obtain rfl := Except.error.inj h
    exact .inr ⟨hpre, hkind⟩

/-! ### Threshold keys -/

lemma encode_threshold_concat (t : UInt32) (ms : List SingleKey) (m : SingleKey) :
    encode r (.threshold ⟨t, ms ++ [m]⟩) = encode r (.threshold ⟨t, ms⟩) ++ encodeMember r m := by
  simp [encode, encodeThreshold]

lemma four_lt_length_encode (k : ThresholdKey) : 4 < (encode r (.threshold k)).length := by
  simp [encode, encodeThreshold, r.length_threshold]

/-- The members read so far belong to a key that the bytes before the cursor are read as. -/
lemma decodeMembers_error {n : Nat} {c : Cursor} {k : ThresholdKey}
    (hc : c.Behind bs (encode r (.threshold k))) (hk : ∀ m ∈ k.members, r.Recognises m.algorithm)
    (h : decodeMembers r n c = .error e) : e.Describes r bs := by
  induction n generalizing c k with
  | zero => cases h
  | succ n ih =>
    have hbefore : decode r (encode r (.threshold k)) = .ok (.threshold k) :=
      decode_eq_ok_iff.mpr ⟨rfl, hk⟩
    have hplace : c.offset ≠ 4 := by
      rw [hc.offset_eq]
      exact Nat.ne_of_gt (four_lt_length_encode k)
    rw [decodeMembers] at h
    split_ifs at h with hrest
    rcases bind_eq_error h with htag | ⟨c₁, htag, h⟩
    · exact hc.tag_describes (iff_of_false (by decide) hplace) (fun _ => ⟨k, hbefore⟩) htag
    have hc₁ := hc.move_tag htag
    rcases bind_eq_error h with hlen | ⟨⟨len, c₂⟩, hlen, h⟩
    · exact hc₁.varint_describes hlen
    have hc₂ := hc₁.move_varint hlen
    rcases bind_eq_error h with hbody | ⟨⟨body, next⟩, hbody, h⟩
    · exact Cursor.take_error hbody
    have hnext := hc₂.move_take hbody
    rcases bind_eq_error h with hmember | ⟨m, hmember, h⟩
    · rcases decodeMember_error hmember with ⟨rfl, x, hx⟩ | hdescribes
      · refine ⟨?_, encode r (.threshold k), len, k, ?_, hbefore⟩
        · rw [hc₂.drop, (Cursor.take_ok hbody).1, ← hx, List.append_assoc,
            ← r.length_threshold, List.take_left]
        · rw [hc₂.take, List.append_assoc]
          rfl
      · exact hdescribes
    rcases bind_eq_error h with hmore | ⟨ms, -, h⟩
    · obtain ⟨rfl, hrec⟩ := decodeMember_ok hmember
      refine ih (k := ⟨k.threshold, k.members ++ [m]⟩) ?_ ?_ hmore
      · have hcount := (Cursor.take_ok hbody).2
        rw [encode_threshold_concat, encodeMember, hcount]
        simpa using hnext
      · intro j hj
        rcases List.mem_append.mp hj with hj | hj
        · exact hk j hj
        · exact List.mem_singleton.mp hj ▸ hrec
    · cases h

lemma decodeThreshold_error {c : Cursor} (hc : c.Behind bs r.threshold)
    (h : decodeThreshold r c = .error e) : e.Describes r bs := by
  have hfour : c.offset = 4 := hc.offset_eq.trans r.length_threshold
  rcases bind_eq_error h with htag | ⟨c₁, htag, h⟩
  · exact hc.tag_describes (iff_of_true rfl hfour) (fun h => absurd h (by decide)) htag
  have hc₁ := hc.move_tag htag
  rcases bind_eq_error h with ht | ⟨⟨t, c₂⟩, ht, h⟩
  · exact hc₁.varint_describes ht
  have hc₂ := hc₁.move_varint ht
  dsimp only at h
  split_ifs at h with hsize
  · obtain rfl := Except.error.inj h
    have hfive : c₁.offset = 5 := by
      rw [hc₁.offset_eq, List.length_append, r.length_threshold]
      rfl
    refine ⟨⟨c₂.rest, ?_⟩, hsize⟩
    rw [← hfive, hc₁.drop, Cursor.varint_ok ht]
  · have ht' : (UInt32.ofNat t).toNat = t := UInt32.toNat_ofNat_of_lt' (Nat.lt_of_not_le hsize)
    rcases bind_eq_error h with hmembers | ⟨ms, -, h⟩
    · refine decodeMembers_error (k := ⟨UInt32.ofNat t, []⟩) ?_ (by simp) hmembers
      simpa [encode, encodeThreshold, ht'] using hc₂
    · cases h

/-- **Errors**: under every registry, the error that a byte string is refused with is true of it. -/
theorem decode_error_describes (h : decode r bs = .error e) : e.Describes r bs := by
  rcases bind_eq_error h with htake | ⟨⟨pre, c⟩, htake, h⟩
  · exact Cursor.take_error htake
  have hstart : (Cursor.start bs).Behind bs [] := ⟨rfl, rfl⟩
  have hc := hstart.move_take htake
  dsimp only at h
  split at h
  · exact decodeBody_error (map_eq_error h)
  · rename_i hkind
    obtain rfl := Registry.eq_threshold_of_kind? hkind
    exact decodeThreshold_error hc (map_eq_error h)
  · rename_i hkind
    obtain rfl := Except.error.inj h
    exact ⟨(Cursor.take_ok htake).2, hkind⟩

/-- The binary form of a key of two members, and what follows it. -/
def twinBefore (more : Bytes) : Bytes := encode .cosmos (.threshold twinKey) ++ more

/-- A threshold key in the place of a third member, and a third member without its tag. -/
theorem decode_error_describes_twinKey :
    decode .cosmos (twinBefore [0x12, 6, 0x22, 0xc1, 0xf7, 0xe2, 8, 1]) = .error (.nested 88) ∧
      (Error.nested 88).Describes .cosmos (twinBefore [0x12, 6, 0x22, 0xc1, 0xf7, 0xe2, 8, 1]) ∧
      decode .cosmos (twinBefore [0x1a, 37]) = .error (.unexpectedTag .member 0x1a 86) ∧
      (Error.unexpectedTag .member 0x1a 86).Describes .cosmos (twinBefore [0x1a, 37]) := by
  have hnested : decode .cosmos (twinBefore [0x12, 6, 0x22, 0xc1, 0xf7, 0xe2, 8, 1]) =
      .error (.nested 88) := by decide +kernel
  have htag : decode .cosmos (twinBefore [0x1a, 37]) =
      .error (.unexpectedTag .member 0x1a 86) := by decide +kernel
  exact ⟨hnested, decode_error_describes hnested, htag, decode_error_describes htag⟩

end ChainKeys.Amino
