import ChainKeys.Proofs.Address
import ChainKeys.Proofs.KeyText.Spelling

/-!
Texts in which one character was mistyped.

The remainder of a text with one symbol changed differs from that of the text by the change,
carried through as many steps as symbols follow. A step gives zero for zero only, because the low
coefficient of a reduction tells what was reduced; so the remainder is never the one wanted. Nor
is it the one of the newer checksum, as far as an address is long.
-/

namespace ChainKeys.Bech32

/-! ### One symbol -/

/-- What a change comes to after a number of steps. -/
def carried (change steps : Nat) : Nat := (residueStep · 0)^[steps] change

lemma carried_succ (change steps : Nat) :
    carried change (steps + 1) = carried (residueStep change 0) steps := rfl

lemma foldl_zeros (change steps : Nat) :
    (List.replicate steps 0).foldl residueStep change = carried change steps := by
  induction steps generalizing change with
  | zero => rfl
  | succ steps ih => rw [List.replicate_succ, List.foldl_cons, ih, carried_succ]

lemma reduction_low : ∀ top < 32, reduction top % 32 = 0 → top = 0 := by decide

lemma eq_zero_of_residueStep {r : Nat} (hr : r < 2 ^ 30) (h : residueStep r 0 = 0) : r = 0 := by
  have htop : r / 0x2000000 < 32 := by omega
  have hsame : (r % 0x2000000) * 32 = reduction (r / 0x2000000) := by
    rw [residueStep, Nat.xor_zero, Nat.xor_eq_zero_iff, Nat.shiftLeft_eq] at h
    exact h
  have hhigh : r / 0x2000000 = 0 := reduction_low _ htop (by rw [← hsame, Nat.mul_mod_left])
  have hnone : reduction 0 = 0 := by decide
  rw [hhigh, hnone] at hsame
  omega

/-- No change is lost. -/
lemma carried_ne_zero {change : Nat} (steps : Nat) (hlt : change < 2 ^ 30) (hne : change ≠ 0) :
    carried change steps ≠ 0 := by
  induction steps generalizing change with
  | zero => exact hne
  | succ steps ih =>
    rw [carried_succ]
    exact ih (residueStep_lt change (by decide)) fun h => hne (eq_zero_of_residueStep hlt h)

lemma residueStep_change (r v w : Nat) :
    residueStep r w = (v ^^^ w) ^^^ residueStep r v := by
  have hzero : ∀ x, residueStep 0 x = x := by
    intro x
    simp [residueStep, reduction]
  have hw : (v ^^^ w) ^^^ v = w := by rw [Nat.xor_comm, Nat.xor_xor_cancel_left]
  have hsplit := residueStep_xor 0 r (v ^^^ w) v
  rwa [Nat.zero_xor, hw, hzero] at hsplit

/-- The remainders of two sequences that differ in one place. -/
lemma residue_change (before after : List Nat) (v w : Nat) :
    residue (before ++ w :: after) =
      carried (v ^^^ w) after.length ^^^ residue (before ++ v :: after) := by
  rw [residue_append, residue_append, List.foldl_cons, List.foldl_cons, residueStep_change _ v w,
    foldl_residueStep, foldl_zeros]

/-- A changed symbol leaves a text intact, in the sense of the same or of another checksum, only
if the change comes to the difference between the two. -/
lemma isIntact_change {variant other : Variant} {hrp : List Char} {before after : List Symbol}
    {a b : Symbol} (h : isIntact variant hrp (before ++ a :: after) = true) :
    isIntact other hrp (before ++ b :: after) = true ↔
      carried (a.val ^^^ b.val) after.length = other.target ^^^ variant.target := by
  have hresidue := residue_change (expand hrp ++ before.map (·.val)) (after.map (·.val)) a.val b.val
  simp only [isIntact, decide_eq_true_eq, List.map_append, List.map_cons,
    ← List.append_assoc] at h ⊢
  rw [h, List.length_map] at hresidue
  rw [hresidue]
  constructor
  · intro heq
    rw [← heq, Nat.xor_xor_cancel_right]
  · intro heq
    rw [heq, Nat.xor_xor_cancel_right]

/-! ### One character -/

/-- The second text is the first with one character behind the last separator replaced by
another one of those that symbols are written with. -/
def Mistyped (s t : String) : Prop :=
  ∃ front c c' back, s.toList = front ++ c :: back ∧ t.toList = front ++ c' :: back ∧
    '1' ∈ front ∧ '1' ∉ c :: back ∧ c' ∈ charset ∧ c' ≠ c

lemma exists_toChar {c : Char} (h : c ∈ charset) : ∃ s : Symbol, s.toChar = c := by
  obtain ⟨i, hi, rfl⟩ := List.getElem_of_mem h
  have hlength : charset.length = 32 := by decide
  exact ⟨⟨i, hlength ▸ hi⟩, List.getD_eq_getElem charset 'q' hi⟩

/-- The character stands for a symbol, and so does the one in its place. -/
lemma Mistyped.symbols {hrp : List Char} {symbols : List Symbol} {t : String}
    (h : Mistyped (join hrp symbols) t) :
    ∃ before a b after, symbols = before ++ a :: after ∧ t = join hrp (before ++ b :: after) ∧
      a ≠ b := by
  obtain ⟨front, c, c', back, hs, ht, -, hlast, hc', hne⟩ := h
  rw [toList_join] at hs
  obtain ⟨b, rfl⟩ := exists_toChar hc'
  rcases List.append_eq_append_iff.mp hs with ⟨mid, rfl, hmid⟩ | ⟨mid, -, hmid⟩
  · rcases mid with _ | ⟨x, mid⟩
    · -- the character would be the separator itself
      exact absurd ((List.cons.inj hmid).1 ▸ List.mem_cons_self) hlast
    · obtain ⟨rfl, hsymbols⟩ := List.cons.inj hmid
      obtain ⟨before, rest, rfl, rfl, hrest⟩ := List.map_eq_append_iff.mp hsymbols
      obtain ⟨a, after, rfl, rfl, rfl⟩ := List.map_eq_cons_iff.mp hrest
      refine ⟨before, a, b, after, rfl, ?_, fun hab => hne (hab ▸ rfl)⟩
      rw [← String.toList_inj, ht, toList_join]
      simp
  · exact absurd (hmid ▸ List.mem_append_right mid List.mem_cons_self) hlast

lemma decode_join_of_not_intact {hrp : String} {symbols : List Symbol} {variants : List Variant}
    (hpre : IsPrefix hrp)
    (h : ∀ v ∈ variants, isIntact v (lowerCase hrp).toList symbols = false) :
    decode variants (join (lowerCase hrp).toList symbols) = .error .notIntact := by
  have hany : variants.any (isIntact · (lowerCase hrp).toList symbols) = false := by
    rw [List.any_eq_false]
    intro v hv
    rw [h v hv]
    exact Bool.false_ne_true
  rw [decode, parse_join hpre]
  simp [bind, Except.bind, hany, throw, throwThe, MonadExceptOf.throw]

/-- A mistyped text is refused by every reader whose checksums no change of one symbol leads to. -/
lemma decode_of_mistyped {hrp t : String} {data : Bytes} {variants : List Variant}
    (hpre : IsPrefix hrp) (h : Mistyped (text hrp data) t)
    (hchange : ∀ v ∈ variants, ∀ change < 32, change ≠ 0 →
      ∀ steps < (symbolsOfBytes data).length + 6,
        carried change steps ≠ v.target ^^^ Variant.bech32.target) :
    decode variants t = .error .notIntact := by
  have hsix : (checksum .bech32 (lowerCase hrp).toList (symbolsOfBytes data)).length = 6 := rfl
  have hintact := (isIntact_append_iff hsix).mpr rfl
  rw [text_eq] at h
  have hlength : (symbolsOfBytes data ++ checksum .bech32 (lowerCase hrp).toList
      (symbolsOfBytes data)).length = (symbolsOfBytes data).length + 6 := by
    rw [List.length_append, hsix]
  generalize symbolsOfBytes data ++ checksum .bech32 (lowerCase hrp).toList (symbolsOfBytes data) =
    symbols at h hintact hlength
  obtain ⟨before, a, b, after, rfl, rfl, hab⟩ := h.symbols
  have hlt : a.val ^^^ b.val < 32 := Nat.xor_lt_two_pow (n := 5) a.isLt b.isLt
  have hne : a.val ^^^ b.val ≠ 0 := fun h => hab (Fin.ext (Nat.xor_eq_zero_iff.mp h))
  have hsteps : after.length < (symbolsOfBytes data).length + 6 := by
    rw [← hlength, List.length_append, List.length_cons]
    omega
  refine decode_join_of_not_intact hpre fun v hv => ?_
  rw [← Bool.not_eq_true, isIntact_change hintact]
  exact hchange v hv _ hlt hne _ hsteps

/-! ### Keys and addresses -/

/-- An address has 38 symbols, checksum included. -/
lemma carried_ne_newer {change steps : Nat} (hlt : change < 32) (hne : change ≠ 0)
    (hsteps : steps < 38) :
    carried change steps ≠ Variant.bech32m.target ^^^ Variant.bech32.target := by
  have hall : ∀ change < 32, change ≠ 0 →
      Variant.bech32m.target ^^^ Variant.bech32.target ∉
        List.iterate (residueStep · 0) change 38 := by decide +kernel
  exact fun h => hall change hlt hne (List.mem_iterate.mpr ⟨steps, hsteps, h.symm⟩)

lemma carried_ne_same {change : Nat} (hlt : change < 32) (hne : change ≠ 0) (steps : Nat) :
    carried change steps ≠ Variant.bech32.target ^^^ Variant.bech32.target := by
  rw [Nat.xor_self]
  exact carried_ne_zero steps (Nat.lt_trans hlt (by decide)) hne

/-- **Mistyped texts**: no text of a key is read with one character of its symbols replaced by
another, whatever its prefix and length; nor is the text of an address, although addresses are
read with either checksum. -/
theorem mistyped_refused :
    (∀ r k hrp s t, KeyText.encode r k hrp = .ok s → Mistyped s t →
      KeyText.decode r t = .error (.badText .notIntact)) ∧
    ∀ (a : Address) hrp s t, a.toBech32 hrp = .ok s → Mistyped s t →
      Address.ofBech32 t = .error (.badText .notIntact) := by
  constructor
  · intro r k hrp s t hs h
    obtain ⟨hpre, -, rfl⟩ := encode_eq_ok_iff.mp (mapError_eq_ok hs)
    have hrefused : decode [.bech32] t = .error .notIntact := by
      refine decode_of_mistyped hpre h fun v hv change hlt hne steps _ => ?_
      obtain rfl := List.mem_singleton.mp hv
      exact carried_ne_same hlt hne steps
    rw [KeyText.decode, hrefused]
    rfl
  · intro a hrp s t hs h
    obtain ⟨hpre, -, rfl⟩ := encode_eq_ok_iff.mp (mapError_eq_ok hs)
    have hlength : (symbolsOfBytes a.bytes).length = 32 := by
      rw [length_symbolsOfBytes, a.length_eq]
    have hrefused : decode [.bech32m, .bech32] t = .error .notIntact := by
      refine decode_of_mistyped hpre h fun v hv change hlt hne steps hsteps => ?_
      rw [hlength] at hsteps
      cases v with
      | bech32 => exact carried_ne_same hlt hne steps
      | bech32m => exact carried_ne_newer hlt hne hsteps
    rw [Address.ofBech32, hrefused]
    rfl

/-- A text with another character in one place. -/
def typo (s : String) (place : Nat) (c : Char) : String := String.ofList (s.toList.set place c)

lemma mistyped_typo {s : String} {place : Nat} {c : Char}
    (h : '1' ∈ s.toList.take place ∧ '1' ∉ s.toList.drop place ∧ place < s.toList.length ∧
      s.toList[place]? ≠ some c ∧ c ∈ charset) : Mistyped s (typo s place c) := by
  obtain ⟨hfront, hlast, hplace, hne, hc⟩ := h
  rw [List.getElem?_eq_getElem hplace] at hne
  refine ⟨s.toList.take place, s.toList[place], c, s.toList.drop (place + 1), ?_, ?_, hfront, ?_,
    hc, fun h => hne (congrArg some h.symm)⟩
  · rw [← List.drop_eq_getElem_cons hplace, List.take_append_drop]
  · rw [typo, String.toList_ofList, List.set_eq_take_append_cons_drop, if_pos hplace]
  · rwa [← List.drop_eq_getElem_cons hplace]

/-- The first character of a key's text behind the separator, and the last of an address's. -/
theorem mistyped_refused_typo :
    KeyText.encode .cosmos KeyText.sampleKey "wasmpub" = .ok KeyText.plainText ∧
      KeyText.decode .cosmos (typo KeyText.plainText 8 'q') = .error (.badText .notIntact) ∧
      Address.sevenAddress.toBech32 "7" = .ok Address.sevenText ∧
      Address.ofBech32 (typo Address.sevenText 39 'q') = .error (.badText .notIntact) := by
  have hkey := KeyText.encode_plainText_lower
  have haddress : Address.sevenAddress.toBech32 "7" = .ok Address.sevenText := by decide +kernel
  have hfirst : Mistyped KeyText.plainText (typo KeyText.plainText 8 'q') :=
    mistyped_typo (by decide +kernel)
  have hlast : Mistyped Address.sevenText (typo Address.sevenText 39 'q') :=
    mistyped_typo (by decide +kernel)
  exact ⟨hkey, mistyped_refused.1 _ _ _ _ _ hkey hfirst, haddress,
    mistyped_refused.2 _ _ _ _ haddress hlast⟩

end ChainKeys.Bech32
