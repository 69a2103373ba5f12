import ChainKeys.Proofs.Bech32.Prefix
import ChainKeys.Proofs.Except

/-!
Which texts are read: a prefix, the last `1`, and symbols after it, the letters all of one case.
The last six symbols are the checksum, the others are the bytes.
-/

namespace ChainKeys.Bech32

lemma splitLast_eq_some {cs front back : List Char} (h : splitLast cs = some (front, back)) :
    cs = front ++ '1' :: back := by
  have hspan := List.takeWhile_append_dropWhile (p := (· ≠ '1')) (l := cs.reverse)
  unfold splitLast at h
  dsimp only at h
  split at h
  · exact nomatch h
  · rename_i c front' hdrop
    obtain ⟨rfl, rfl⟩ := Prod.mk.inj (Option.some.inj h)
    have hsep := List.head_dropWhile_not (p := (· ≠ '1')) (l := cs.reverse) (by rw [hdrop]; simp)
    have hc : c = '1' := by
      simp only [hdrop, List.head_cons] at hsep
      simpa using hsep
    rw [hdrop, hc] at hspan
    calc cs = (cs.reverse.takeWhile (· ≠ '1') ++ '1' :: front').reverse := by
          rw [hspan, List.reverse_reverse]
      _ = front'.reverse ++ '1' :: (cs.reverse.takeWhile (· ≠ '1')).reverse := by
          rw [List.reverse_append, List.reverse_cons, List.append_assoc]
          rfl

/-- Nothing in `back` is a separator, so the cut is made in front of it. -/
lemma splitLast_append (front : List Char) {back : List Char} (h : ∀ c ∈ back, c ≠ '1') :
    splitLast (front ++ '1' :: back) = some (front, back) := by
  have hback : ∀ c ∈ back.reverse, decide (c ≠ '1') = true := by simpa using h
  rw [splitLast, List.reverse_append, List.reverse_cons, List.append_assoc]
  simp only [List.dropWhile_append_of_pos hback, List.takeWhile_append_of_pos hback]
  simp

/-- The parts of a text: where it was cut, and what stands on each side. -/
structure Reads (variants : List Variant) (s hrp : String) (data : Bytes)
    (rest : List Char) (symbols : List Symbol) : Prop where
  cut : s.toList = hrp.toList ++ '1' :: rest
  isPrefix : IsPrefix hrp
  one_case : ¬ ((∃ c ∈ s.toList, c.isUpper = true) ∧ ∃ c ∈ s.toList, c.isLower = true)
  ofChars : rest.map Symbol.ofChar? = symbols.map some
  checked : 6 ≤ symbols.length
  short : s.length ≤ maxLength
  intact : ∃ v ∈ variants, isIntact v hrp.toList symbols = true
  bytes : data = bytesOfSymbols (symbols.take (symbols.length - 6))

/-- No symbol is read from the separator, so the cut is made at the last one. -/
lemma ne_separator {rest : List Char} {symbols : List Symbol}
    (h : rest.map Symbol.ofChar? = symbols.map some) : ∀ c ∈ rest, c ≠ '1' := by
  rintro _ hc rfl
  have hmem : Symbol.ofChar? '1' ∈ symbols.map some := h ▸ List.mem_map_of_mem hc
  have hnone : Symbol.ofChar? '1' = none := by decide
  simp [hnone] at hmem

lemma parse_eq_ok_iff {s : String} {hrp : List Char} {symbols : List Symbol} :
    parse s = .ok ⟨hrp, symbols⟩ ↔
      ∃ rest, s.toList = hrp ++ '1' :: rest ∧ IsPrefix (String.ofList hrp) ∧
        ¬ ((∃ c ∈ s.toList, c.isUpper = true) ∧ ∃ c ∈ s.toList, c.isLower = true) ∧
        rest.map Symbol.ofChar? = symbols.map some := by
  have hany : (s.toList.any Char.isUpper && s.toList.any Char.isLower) = true ↔
      (∃ c ∈ s.toList, c.isUpper = true) ∧ ∃ c ∈ s.toList, c.isLower = true := by
    rw [Bool.and_eq_true, List.any_eq_true, List.any_eq_true]
  constructor
  · intro h
    unfold parse at h
    dsimp only at h
    split at h
    · exact nomatch h
    · rename_i front rest hcut
      split_ifs at h with hcase
      split at h
      · rename_i read hread hpre
        obtain ⟨rfl, rfl⟩ := Parts.mk.inj (Except.ok.inj h)
        exact ⟨rest, splitLast_eq_some hcut, checkPrefix_eq_ok_iff.mp hpre, hany.not.mp hcase,
          mapM_eq_some_iff.mp hread⟩
      · exact nomatch h
  · rintro ⟨rest, hcut, hpre, hcase, hsymbols⟩
    have hsplit : splitLast s.toList = some (hrp, rest) := by
      rw [hcut, splitLast_append hrp (ne_separator hsymbols)]
    unfold parse
    simp only [hsplit, if_neg (hany.not.mpr hcase), mapM_eq_some_iff.mpr hsymbols,
      checkPrefix_eq_ok_iff.mpr hpre]

lemma length_of_cut {s : String} {hrp rest : List Char} {symbols : List Symbol}
    (hcut : s.toList = hrp ++ '1' :: rest) (h : rest.map Symbol.ofChar? = symbols.map some) :
    s.length = hrp.length + 1 + symbols.length := by
  have hlen : rest.length = symbols.length := by simpa using congrArg List.length h
  rw [← String.length_toList, hcut, List.length_append, List.length_cons, hlen]
  omega

section

variable {variants : List Variant} {s hrp : String} {data : Bytes} {rest : List Char}
  {symbols : List Symbol}

lemma Reads.parse (h : Reads variants s hrp data rest symbols) :
    parse s = .ok ⟨hrp.toList, symbols⟩ :=
  parse_eq_ok_iff.mpr ⟨rest, h.cut, by rw [String.ofList_toList]; exact h.isPrefix, h.one_case,
    h.ofChars⟩

lemma Reads.length_text (h : Reads variants s hrp data rest symbols) :
    s.length = hrp.length + 1 + symbols.length := by
  rw [length_of_cut h.cut h.ofChars, String.length_toList]

/-- **Reading**: which texts are read, and as what. -/
theorem decode_eq_ok_iff : decode variants s = .ok (hrp, data) ↔
    ∃ rest symbols, Reads variants s hrp data rest symbols := by
  constructor
  · intro h
    obtain ⟨⟨front, symbols⟩, hparse, h⟩ := bind_eq_ok h
    obtain ⟨rest, hcut, hpre, hcase, hsymbols⟩ := parse_eq_ok_iff.mp hparse
    have hlen := length_of_cut hcut hsymbols
    dsimp only at h
    split_ifs at h with hbad
    · exact nomatch h
    · obtain ⟨rfl, rfl⟩ := Prod.mk.inj (Except.ok.inj h)
      simp only [Bool.or_eq_true, decide_eq_true_eq, Bool.not_eq_true', Bool.not_eq_false,
        List.any_eq_true, not_or, Nat.not_lt] at hbad
      obtain ⟨⟨hchecked, hshort⟩, hintact⟩ := hbad
      exact ⟨rest, symbols, by rwa [String.toList_ofList], hpre, hcase, hsymbols, hchecked,
        by omega, by rwa [String.toList_ofList], rfl⟩
  · rintro ⟨rest, symbols, h⟩
    have hany : variants.any (isIntact · hrp.toList symbols) = true :=
      List.any_eq_true.mpr h.intact
    have hshort : ¬ symbols.length < 6 := Nat.not_lt_of_le h.checked
    have hfits : ¬ maxLength < hrp.toList.length + 1 + symbols.length := by
      rw [String.length_toList, ← h.length_text]
      exact Nat.not_lt_of_le h.short
    rw [decode, h.parse]
    simp [bind, Except.bind, hany, hshort, hfits, pure, Except.pure, h.bytes]

end

end ChainKeys.Bech32
