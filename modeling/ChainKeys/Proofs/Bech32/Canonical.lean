import ChainKeys.Proofs.Bech32.RoundTrip

/-!
Which texts are written. A reader passes over the bits after the last whole byte, so a byte string
has other texts beside the one that is written for it: texts with bits there that are set, or with
a symbol too many. All the rest of a text is settled by its prefix and bytes.
-/

namespace ChainKeys.Bech32

/-! ### Bits left over -/

/-- The bits after the last whole byte. -/
def spare (ss : List Symbol) : List Bool :=
  (ss.flatMap fun s => bitsOf 5 s.val).drop (8 * (5 * ss.length / 8))

/-- No more symbols than the bytes in them need, and nothing but zeros after these bytes. -/
def IsFilled (ss : List Symbol) : Prop := (spare ss).length < 5 ∧ ∀ b ∈ spare ss, b = false

instance (ss : List Symbol) : Decidable (IsFilled ss) :=
  inferInstanceAs (Decidable (_ ∧ ∀ b ∈ spare ss, b = false))

lemma bits_bytesOfSymbols (ss : List Symbol) :
    (bytesOfSymbols ss).flatMap (fun b => bitsOf 8 b.toNat) ++ spare ss =
      ss.flatMap fun s => bitsOf 5 s.val := by
  have hbits := bits_bytesOfBits (ss.flatMap fun s => bitsOf 5 s.val)
  rwa [length_flatMap_bitsOf] at hbits

lemma eq_of_bits_eq {ss ts : List Symbol}
    (h : (ss.flatMap fun s => bitsOf 5 s.val) = ts.flatMap fun s => bitsOf 5 s.val) : ss = ts := by
  induction ss generalizing ts with
  | nil =>
    have hlen := congrArg List.length h
    rw [length_flatMap_bitsOf, length_flatMap_bitsOf] at hlen
    exact (List.length_eq_zero_iff.mp (by simpa using hlen.symm)).symm
  | cons s ss ih =>
    cases ts with
    | nil => simp [bitsOf] at h
    | cons t ts =>
      obtain ⟨hs, hss⟩ := List.append_inj h (by rw [length_bitsOf, length_bitsOf])
      have hval := congrArg ofBits hs
      rw [ofBits_bitsOf, ofBits_bitsOf] at hval
      have hst : s = t := Fin.ext (by omega)
      rw [hst, ih hss]

/-- Symbols come back from the bytes read from them just when a writer would have filled up the
last one in the same way. -/
theorem symbolsOfBytes_bytesOfSymbols_iff {ss : List Symbol} :
    symbolsOfBytes (bytesOfSymbols ss) = ss ↔ IsFilled ss := by
  obtain ⟨n, hn, hbits⟩ :=
    bits_symbolsOfBits ((bytesOfSymbols ss).flatMap fun b => bitsOf 8 b.toNat)
  have hsplit := bits_bytesOfSymbols ss
  rw [symbolsOfBytes]
  constructor
  · intro h
    rw [h, ← hsplit, List.append_cancel_left_eq] at hbits
    simp [IsFilled, hbits, hn]
  · rintro ⟨hshort, hzero⟩
    rw [List.eq_replicate_of_mem hzero] at hsplit
    -- both fill up the same bytes to whole symbols, with fewer than five zeros
    have hlen := congrArg List.length hbits
    have hlen' := congrArg List.length hsplit
    simp only [List.length_append, length_flatMap_bitsOf, List.length_replicate] at hlen hlen'
    have hcount : n = (spare ss).length := by omega
    exact eq_of_bits_eq (by rw [hbits, hcount, hsplit])

/-! ### Texts -/

/-- The symbols that stand for bytes leave no more over than they have to, and only zeros. -/
def IsExact (s : String) : Prop :=
  ∃ parts, parse s = .ok parts ∧ IsFilled (parts.symbols.take (parts.symbols.length - 6))

instance (s : String) : Decidable (IsExact s) :=
  match h : parse s with
  | .ok parts => decidable_of_iff (IsFilled (parts.symbols.take (parts.symbols.length - 6)))
      (by simp [IsExact, h])
  | .error _ => isFalse (by simp [IsExact, h])

lemma toChar_inj {s t : Symbol} (h : s.toChar = t.toChar) : s = t :=
  Option.some.inj ((ofChar?_toChar s).symm.trans (h ▸ ofChar?_toChar t))

lemma toLower_of_ofChar? {c : Char} {s : Symbol} (h : Symbol.ofChar? c = some s) :
    c.toLower = s.toChar := by
  have hfound := List.find?_some h
  exact (of_decide_eq_true hfound).symm

lemma map_toLower {rest : List Char} {symbols : List Symbol}
    (h : rest.map Symbol.ofChar? = symbols.map some) :
    rest.map Char.toLower = symbols.map Symbol.toChar := by
  induction rest generalizing symbols with
  | nil =>
    obtain rfl := List.map_eq_nil_iff.mp h.symm
    rfl
  | cons c rest ih =>
    cases symbols with
    | nil => simp at h
    | cons s symbols =>
      obtain ⟨hc, hrest⟩ := List.cons.inj h
      rw [List.map_cons, List.map_cons, toLower_of_ofChar? hc, ih hrest]

section

variable {s hrp : String} {data : Bytes} {rest : List Char} {symbols : List Symbol}

/-- A text in lower case is its prefix in lower case and the characters of its symbols. -/
lemma Reads.toList_lowerCase {variants : List Variant}
    (h : Reads variants s hrp data rest symbols) :
    (lowerCase s).toList = (lowerCase hrp).toList ++ '1' :: symbols.map Symbol.toChar := by
  rw [lowerCase_eq, toList_recase, h.cut, List.map_append, List.map_cons, map_toLower h.ofChars,
    recases_toLower.separator, lowerCase_eq, toList_recase]

/-- The checksum is settled by prefix and data, so only the symbols of the data can differ. -/
lemma Reads.text_eq_iff (h : Reads [.bech32] s hrp data rest symbols) :
    text hrp data = lowerCase s ↔ IsFilled (symbols.take (symbols.length - 6)) := by
  obtain ⟨v, hv, hintact⟩ := h.intact
  obtain rfl := List.mem_singleton.mp hv
  have hchecked := h.checked
  have hsix : (symbols.drop (symbols.length - 6)).length = 6 := by
    rw [List.length_drop]
    omega
  have hwhole := List.take_append_drop (symbols.length - 6) symbols
  rw [← symbolsOfBytes_bytesOfSymbols_iff, ← h.bytes, ← String.toList_inj, h.toList_lowerCase,
    toList_text, List.append_cancel_left_eq, List.cons.injEq, and_iff_right rfl,
    List.map_inj_right fun _ _ => toChar_inj]
  generalize symbols.take (symbols.length - 6) = front at hwhole ⊢
  generalize symbols.drop (symbols.length - 6) = sum at hsix hwhole
  subst hwhole
  rw [isIntact_append_iff hsix] at hintact
  constructor
  · intro heq
    exact (List.append_inj' heq (by rw [hsix]; rfl)).1
  · intro heq
    rw [heq, hintact, lowerCase_eq, toList_recase, recases_toLower.checksum]

end

/-- **Written texts**: bytes that are read have a text under their prefix. It is the text they
were read from, in lower case, just when that is exact. -/
theorem encode_eq_lowerCase_iff {s hrp : String} {data : Bytes}
    (h : decode [.bech32] s = .ok (hrp, data)) :
    encode hrp data = .ok (text hrp data) ∧ (text hrp data = lowerCase s ↔ IsExact s) := by
  obtain ⟨rest, symbols, hr⟩ := decode_eq_ok_iff.mp h
  constructor
  · refine encode_eq_ok_iff.mpr ⟨hr.isPrefix, ?_, rfl⟩
    have hlen := hr.length_text
    have hshort := hr.short
    have hchecked := hr.checked
    rw [hr.bytes, length_bytesOfSymbols, List.length_take]
    rw [maxLength] at hshort
    omega
  · rw [hr.text_eq_iff, IsExact]
    simp [hr.parse]

end ChainKeys.Bech32
