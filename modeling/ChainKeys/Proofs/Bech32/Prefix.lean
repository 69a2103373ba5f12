import ChainKeys.Bech32
import ChainKeys.Proofs.Utf8

/-!
Which texts are prefixes: one to 83 printable ASCII characters, the letters all of one case. The
check goes through the characters and remembers the cases it has seen.
-/

namespace ChainKeys.Bech32

structure IsPrefix (hrp : String) : Prop where
  pos : 1 ≤ (Utf8.encode hrp).length
  short : (Utf8.encode hrp).length ≤ 83
  printable : ∀ b ∈ Utf8.encode hrp, 33 ≤ b.toNat ∧ b.toNat ≤ 126
  one_case : ¬ ((∃ c ∈ hrp.toList, c.isUpper = true) ∧ ∃ c ∈ hrp.toList, c.isLower = true)

/-- Printable characters are single bytes, and no byte of another character is printable. -/
lemma printable_encodeChar (c : Char) :
    (∀ b ∈ String.utf8EncodeChar c, 33 ≤ b.toNat ∧ b.toNat ≤ 126) ↔
      33 ≤ c.toNat ∧ c.toNat ≤ 126 := by
  by_cases hc : c.toNat < 128
  · rw [Utf8.encodeChar_of_lt hc, List.forall_mem_singleton, Utf8.toNat_byte (by omega)]
  · constructor
    · intro h
      obtain ⟨b, hb, hlarge⟩ := Utf8.exists_byte_of_le (Nat.le_of_not_lt hc)
      have := h b hb
      omega
    · intro h
      omega

lemma printable_encode (s : String) : (∀ b ∈ Utf8.encode s, 33 ≤ b.toNat ∧ b.toNat ≤ 126) ↔
    ∀ c ∈ s.toList, 33 ≤ c.toNat ∧ c.toNat ≤ 126 := by
  simp only [Utf8.encode, List.forall_mem_flatMap, ← printable_encodeChar]

/-- The check fails at the first fault, and two cases are one. -/
lemma scanPrefix_eq_ok_iff {upper lower : Bool} (h : ¬ (upper = true ∧ lower = true))
    (cs : List Char) : scanPrefix upper lower cs = .ok () ↔
      (∀ c ∈ cs, 33 ≤ c.toNat ∧ c.toNat ≤ 126) ∧
      ¬ ((upper = true ∨ ∃ c ∈ cs, c.isUpper = true) ∧
        (lower = true ∨ ∃ c ∈ cs, c.isLower = true)) := by
  induction cs generalizing upper lower with
  | nil => simpa [scanPrefix] using h
  | cons c cs ih =>
    have hcase : ¬ (c.isUpper = true ∧ c.isLower = true) := by
      rintro ⟨hup, hlow⟩
      have hZ : c.val ≤ 'Z'.val := (of_decide_eq_true hup).2
      have ha : 'a'.val ≤ c.val := of_decide_eq_true (Bool.and_eq_true_iff.mp hlow).1
      exact absurd (UInt32.le_trans ha hZ) (by decide)
    rw [scanPrefix]
    split_ifs with hascii hprint hmixed
    · refine iff_of_false (by simp) fun h => ?_
      have := h.1 c (by simp)
      omega
    · refine iff_of_false (by simp) fun h => ?_
      have := h.1 c (by simp)
      omega
    · refine iff_of_false (by simp) fun h => h.2 ?_
      simp only [Bool.or_eq_true, Bool.and_eq_true] at hmixed
      rcases hmixed with ⟨hlow, hup⟩ | ⟨hup, hlow⟩
      · exact ⟨.inl hup, .inr ⟨c, by simp, hlow⟩⟩
      · exact ⟨.inr ⟨c, by simp, hup⟩, .inl hlow⟩
    · have hnext : ¬ ((upper || c.isUpper) = true ∧ (lower || c.isLower) = true) := by
        cases upper <;> cases lower <;> simp_all
      have hc : 33 ≤ c.toNat ∧ c.toNat ≤ 126 := by omega
      rw [ih hnext]
      simp only [Bool.or_eq_true, List.mem_cons, forall_eq_or_imp, exists_eq_or_imp, or_assoc, hc,
        true_and, and_self]

/-- **Prefixes**: the check lets through the prefixes and nothing else. -/
theorem checkPrefix_eq_ok_iff {hrp : String} : checkPrefix hrp = .ok () ↔ IsPrefix hrp := by
  have hscan := @scanPrefix_eq_ok_iff false false (by simp) hrp.toList
  simp only [Bool.false_eq_true, false_or] at hscan
  unfold checkPrefix maxPrefix
  dsimp only
  split_ifs with hempty hlong
  · exact iff_of_false (by simp) fun h => absurd h.pos (by omega)
  · exact iff_of_false (by simp) fun h => absurd h.short (by omega)
  · rw [hscan, ← printable_encode]
    exact ⟨fun ⟨h, hone⟩ => ⟨by omega, by omega, h, hone⟩, fun h => ⟨h.printable, h.one_case⟩⟩

lemma IsPrefix.length_encode {hrp : String} (h : IsPrefix hrp) :
    (Utf8.encode hrp).length = hrp.length :=
  Utf8.length_encode fun c hc => by
    have := (printable_encode hrp).mp h.printable c hc
    omega

/-- A prefix told by its characters. -/
lemma isPrefix_iff {hrp : String} : IsPrefix hrp ↔
    (∀ c ∈ hrp.toList, 33 ≤ c.toNat ∧ c.toNat ≤ 126) ∧ 1 ≤ hrp.length ∧ hrp.length ≤ 83 ∧
      ¬ ((∃ c ∈ hrp.toList, c.isUpper = true) ∧ ∃ c ∈ hrp.toList, c.isLower = true) := by
  constructor
  · intro h
    have hlen := h.length_encode
    have hpos := h.pos
    have hshort := h.short
    exact ⟨(printable_encode hrp).mp h.printable, by omega, by omega, h.one_case⟩
  · rintro ⟨hchars, hpos, hshort, hone⟩
    have hlen : (Utf8.encode hrp).length = hrp.length :=
      Utf8.length_encode fun c hc => by
        have := hchars c hc
        omega
    exact ⟨by omega, by omega, (printable_encode hrp).mpr hchars, hone⟩

instance (hrp : String) : Decidable (IsPrefix hrp) :=
  match h : checkPrefix hrp with
  | .ok () => isTrue (checkPrefix_eq_ok_iff.mp h)
  | .error _ => isFalse fun hp => by simp [checkPrefix_eq_ok_iff.mpr hp] at h

example : IsPrefix "wasmpub" ∧ ¬ IsPrefix "wasmPub" := by decide

end ChainKeys.Bech32
