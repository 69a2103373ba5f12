import ChainKeys.Proofs.Bech32.Bits
import ChainKeys.Proofs.Bech32.Checksum
import ChainKeys.Proofs.Bech32.LetterCase

/-!
Which byte strings have a text under which prefix, and that the text is read back. The separator
is found although a prefix may hold further ones, because no symbol is written as `1`; and what
is written is all of one case, whatever the case of the prefix.
-/

namespace ChainKeys.Bech32

/-! ### Characters -/

lemma ofChar?_toChar : ∀ s : Symbol, Symbol.ofChar? s.toChar = some s := by decide

lemma toLower_toChar : ∀ s : Symbol, s.toChar.toLower = s.toChar := by decide

/-! ### Texts of byte strings -/

/-- The text of a prefix and of symbols, the checksum among them. -/
def join (hrp : List Char) (symbols : List Symbol) : String :=
  String.ofList (hrp ++ '1' :: symbols.map Symbol.toChar)

def text (hrp : String) (data : Bytes) : String :=
  let low := hrp.toList.map Char.toLower
  join low (symbolsOfBytes data ++ checksum .bech32 low (symbolsOfBytes data))

lemma encode_eq_ok_iff {hrp s : String} {data : Bytes} : encode hrp data = .ok s ↔
    IsPrefix hrp ∧ hrp.length + 1 + (8 * data.length + 4) / 5 + 6 ≤ 1023 ∧ s = text hrp data := by
  rw [← checkPrefix_eq_ok_iff, ← length_symbolsOfBytes]
  constructor
  · intro h
    obtain ⟨u, hpre, h⟩ := bind_eq_ok h
    dsimp only at h
    split_ifs at h with hlen
    · exact nomatch h
    · exact ⟨mapError_eq_ok hpre, Nat.le_of_not_lt hlen, (Except.ok.inj h).symm⟩
  · rintro ⟨hpre, hlen, rfl⟩
    simp [encode, hpre, Except.mapError, bind, Except.bind, maxLength, Nat.not_lt_of_le hlen,
      text, join, pure, Except.pure]

lemma toList_join (hrp : List Char) (symbols : List Symbol) :
    (join hrp symbols).toList = hrp ++ '1' :: symbols.map Symbol.toChar := String.toList_ofList

lemma text_eq (hrp : String) (data : Bytes) : text hrp data =
    join (lowerCase hrp).toList (symbolsOfBytes data ++
      checksum .bech32 (lowerCase hrp).toList (symbolsOfBytes data)) := by
  rw [lowerCase_eq, toList_recase]
  rfl

lemma toList_text (hrp : String) (data : Bytes) : (text hrp data).toList =
    (lowerCase hrp).toList ++ '1' :: (symbolsOfBytes data ++
      checksum .bech32 (lowerCase hrp).toList (symbolsOfBytes data)).map Symbol.toChar := by
  rw [text_eq, toList_join]

/-- Under a prefix in lower case all is in lower case. -/
lemma lowerCase_join (hrp : String) (symbols : List Symbol) :
    lowerCase (join (lowerCase hrp).toList symbols) = join (lowerCase hrp).toList symbols := by
  have hsymbols : (symbols.map Symbol.toChar).map Char.toLower = symbols.map Symbol.toChar := by
    rw [List.map_map]
    exact List.map_congr_left fun s _ => toLower_toChar s
  have hlow : (lowerCase hrp).toList.map Char.toLower = (lowerCase hrp).toList := by
    rw [← toList_recase, ← lowerCase_eq, lowerCase_lowerCase]
  rw [← String.toList_inj, lowerCase_eq (join _ _), toList_recase, toList_join, List.map_append,
    List.map_cons, hlow, hsymbols, recases_toLower.separator]

lemma lowerCase_text (hrp : String) (data : Bytes) : lowerCase (text hrp data) = text hrp data := by
  rw [text_eq, lowerCase_join]

lemma ofChars_toChars (symbols : List Symbol) :
    (symbols.map Symbol.toChar).map Symbol.ofChar? = symbols.map some := by
  rw [List.map_map]
  exact List.map_congr_left fun s _ => ofChar?_toChar s

lemma one_case_join (hrp : String) (symbols : List Symbol) :
    ¬ ((∃ c ∈ (join (lowerCase hrp).toList symbols).toList, c.isUpper = true) ∧
      ∃ c ∈ (join (lowerCase hrp).toList symbols).toList, c.isLower = true) := by
  rw [← lowerCase_join, lowerCase_eq (join _ _), toList_recase]
  exact recases_toLower.one_case_map _

/-- Any symbols under a prefix are read as what they are, whether they are intact or not. -/
lemma parse_join {hrp : String} (h : IsPrefix hrp) (symbols : List Symbol) :
    parse (join (lowerCase hrp).toList symbols) = .ok ⟨(lowerCase hrp).toList, symbols⟩ := by
  have hlow : IsPrefix (lowerCase hrp) := h.recase recases_toLower
  exact parse_eq_ok_iff.mpr ⟨_, toList_join _ symbols, by rwa [String.ofList_toList],
    one_case_join hrp symbols, ofChars_toChars symbols⟩

/-- The text of a byte string is of the form that is read. -/
lemma reads_text {hrp : String} {data : Bytes} {variants : List Variant}
    (hv : .bech32 ∈ variants) (h : IsPrefix hrp)
    (hlen : hrp.length + 1 + (8 * data.length + 4) / 5 + 6 ≤ 1023) :
    ∃ rest symbols, Reads variants (text hrp data) (lowerCase hrp) data rest symbols := by
  have hsix : (checksum .bech32 (lowerCase hrp).toList (symbolsOfBytes data)).length = 6 := rfl
  have hintact := (isIntact_append_iff hsix).mpr rfl
  rw [text_eq]
  generalize checksum .bech32 (lowerCase hrp).toList (symbolsOfBytes data) = sum at hsix hintact
  have hcut := toList_join (lowerCase hrp).toList (symbolsOfBytes data ++ sum)
  have hchars := ofChars_toChars (symbolsOfBytes data ++ sum)
  refine ⟨_, symbolsOfBytes data ++ sum, hcut, h.recase recases_toLower, one_case_join hrp _,
    hchars, ?_, ?_, ⟨.bech32, hv, hintact⟩, ?_⟩
  · simp [hsix]
  · rw [length_of_cut hcut hchars, String.length_toList, lowerCase_eq, length_recase,
      List.length_append, hsix, length_symbolsOfBytes, maxLength]
    omega
  · rw [List.length_append, hsix, Nat.add_sub_cancel, List.take_left,
      bytesOfSymbols_symbolsOfBytes]

/-- **Round trip**: what is written is read back, by every reader that takes this checksum. The
prefix comes back in lower case. -/
theorem decode_text {hrp : String} {data : Bytes} {variants : List Variant}
    (hv : .bech32 ∈ variants) (h : IsPrefix hrp)
    (hlen : hrp.length + 1 + (8 * data.length + 4) / 5 + 6 ≤ 1023) :
    decode variants (text hrp data) = .ok (lowerCase hrp, data) :=
  decode_eq_ok_iff.mpr (reads_text hv h hlen)

end ChainKeys.Bech32
