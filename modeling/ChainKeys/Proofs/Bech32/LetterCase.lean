import ChainKeys.Proofs.Bech32.Reading
import Mathlib

/-!
Texts in another case. Symbols and checksum are told from the letters in lower case, so a text
that is read is read in upper case and in lower case too: as the same bytes, under the prefix in
that case.
-/

namespace ChainKeys.Bech32

/-- Changes of characters that leave all as it is but the case of the letters, which is one. -/
structure Recases (f : Char → Char) : Prop where
  toLower_eq : ∀ c, (f c).toLower = c.toLower
  printable : ∀ c, 33 ≤ c.toNat ∧ c.toNat ≤ 126 → 33 ≤ (f c).toNat ∧ (f c).toNat ≤ 126
  separator : f '1' = '1'
  one_case : (∀ c, (f c).isUpper = false) ∨ ∀ c, (f c).isLower = false

lemma recases_toLower : Recases Char.toLower where
  toLower_eq := Char.toLower_toLower_eq_toLower
  printable c hc := by
    revert hc
    by_cases h : c.toNat < 128
    · exact Utf8.forall_ascii h (by decide)
    · omega
  separator := by decide
  one_case := .inl Char.isUpper_toLower_eq_false

lemma recases_toUpper : Recases Char.toUpper where
  toLower_eq := Char.toLower_toUpper_eq_toLower
  printable c hc := by
    revert hc
    by_cases h : c.toNat < 128
    · exact Utf8.forall_ascii h (by decide)
    · omega
  separator := by decide
  one_case := .inr Char.isLower_toUpper_eq_false

def recase (f : Char → Char) (s : String) : String := String.ofList (s.toList.map f)

def upperCase (s : String) : String := recase Char.toUpper s

lemma lowerCase_eq (s : String) : lowerCase s = recase Char.toLower s := rfl

section

variable {f : Char → Char} {s : String}

@[simp] lemma toList_recase : (recase f s).toList = s.toList.map f := String.toList_ofList

@[simp] lemma length_recase : (recase f s).length = s.length := by
  rw [← String.length_toList, toList_recase, List.length_map, String.length_toList]

lemma recase_recase {g h : Char → Char} (hfg : ∀ c, f (g c) = h c) :
    recase f (recase g s) = recase h s := by
  rw [recase, toList_recase, List.map_map, recase]
  exact congrArg String.ofList (List.map_congr_left fun c _ => hfg c)

@[simp] lemma lowerCase_lowerCase (s : String) : lowerCase (lowerCase s) = lowerCase s :=
  recase_recase Char.toLower_toLower_eq_toLower

@[simp] lemma lowerCase_upperCase (s : String) : lowerCase (upperCase s) = lowerCase s :=
  recase_recase Char.toLower_toUpper_eq_toLower

@[simp] lemma upperCase_lowerCase (s : String) : upperCase (lowerCase s) = upperCase s :=
  recase_recase Char.toUpper_toLower_eq_toUpper

variable (hf : Recases f)

include hf

lemma Recases.one_case_map (cs : List Char) :
    ¬ ((∃ c ∈ cs.map f, c.isUpper = true) ∧ ∃ c ∈ cs.map f, c.isLower = true) := by
  rintro ⟨⟨_, hup, hisup⟩, ⟨_, hlow, hislow⟩⟩
  obtain ⟨c, -, rfl⟩ := List.mem_map.mp hup
  obtain ⟨d, -, rfl⟩ := List.mem_map.mp hlow
  rcases hf.one_case with h | h
  · rw [h c] at hisup
    cases hisup
  · rw [h d] at hislow
    cases hislow

lemma Recases.ofChar? (c : Char) : Symbol.ofChar? (f c) = Symbol.ofChar? c := by
  simp only [Symbol.ofChar?, hf.toLower_eq]

/-- The checksum is taken over the prefix in lower case. -/
lemma Recases.expand (hrp : List Char) : expand (hrp.map f) = expand hrp := by
  simp only [Bech32.expand, List.map_map, Function.comp_def, hf.toLower_eq]

lemma Recases.checksum (variant : Variant) (hrp : List Char) (data : List Symbol) :
    checksum variant (hrp.map f) data = checksum variant hrp data := by
  simp only [Bech32.checksum, hf.expand]

lemma IsPrefix.recase {hrp : String} (h : IsPrefix hrp) : IsPrefix (recase f hrp) := by
  obtain ⟨hchars, hpos, hshort, -⟩ := isPrefix_iff.mp h
  refine isPrefix_iff.mpr ⟨?_, by simpa, by simpa, ?_⟩
  · rw [toList_recase, List.forall_mem_map]
    exact fun c hc => hf.printable c (hchars c hc)
  · rw [toList_recase]
    exact hf.one_case_map hrp.toList

lemma Reads.recase {variants : List Variant} {hrp : String} {data : Bytes} {rest : List Char}
    {symbols : List Symbol} (h : Reads variants s hrp data rest symbols) :
    Reads variants (recase f s) (recase f hrp) data (rest.map f) symbols where
  cut := by simp [h.cut, hf.separator]
  isPrefix := h.isPrefix.recase hf
  one_case := by
    rw [toList_recase]
    exact hf.one_case_map s.toList
  ofChars := by
    rw [← h.ofChars, List.map_map]
    exact List.map_congr_left fun c _ => hf.ofChar? c
  checked := h.checked
  short := by simpa using h.short
  intact := by
    obtain ⟨v, hv, hintact⟩ := h.intact
    refine ⟨v, hv, ?_⟩
    rwa [toList_recase, isIntact, hf.expand, ← isIntact]
  bytes := h.bytes

/-- **Letter case**: a text is read in either case, as the same bytes. -/
theorem decode_recase {variants : List Variant} {hrp : String} {data : Bytes}
    (h : decode variants s = .ok (hrp, data)) :
    decode variants (Bech32.recase f s) = .ok (Bech32.recase f hrp, data) := by
  obtain ⟨rest, symbols, hr⟩ := decode_eq_ok_iff.mp h
  exact decode_eq_ok_iff.mpr ⟨_, _, hr.recase hf⟩

end

end ChainKeys.Bech32
