import ChainKeys.Decimal
import Mathlib.Algebra.Group.Nat.Defs
import Mathlib.Tactic.Lemma

/-!
Numbers are read from just the texts that spell them, and so are read back from the digits they
are written with.
-/

namespace ChainKeys.Decimal

lemma isDigit_of_mem {n : Nat} {c : Char} (h : c ∈ Nat.toDigits 10 n) : isDigit c = true :=
  Nat.isDigit_of_mem_toDigits (by decide) (by decide) h

lemma ofDigits_toDigits (n : Nat) : ofDigits (Nat.toDigits 10 n) = n := by
  refine Eq.trans ?_ Nat.ofDigitChars_ten_toDigits
  simp only [ofDigits, Nat.ofDigitChars, Nat.mul_comm]
  rfl

/-- A number in digits starts with zero only if it is zero. -/
lemma head_toDigits {n : Nat} (h : 0 < n) : (Nat.toDigits 10 n).head? ≠ some '0' := by
  induction n using Nat.strongRecOn with
  | ind n ih =>
    rcases Nat.lt_or_ge n 10 with hn | hn
    · have hall : ∀ n : Fin 10, 0 < n.val → Nat.digitChar n.val ≠ '0' := by decide
      rw [Nat.toDigits_of_lt_base hn]
      simpa using hall ⟨n, hn⟩ h
    · have hq := ih (n / 10) (by omega) (by omega)
      rw [Nat.toDigits_of_base_le (by decide) hn]
      cases hd : Nat.toDigits 10 (n / 10) with
      | nil => exact absurd hd Nat.toDigits_ne_nil
      | cons c ds =>
        rw [hd] at hq
        exact hq

lemma toDigits_eq_cons (n : Nat) : ∃ c ds, Nat.toDigits 10 n = c :: ds ∧ isDigit c = true := by
  obtain ⟨c, ds, hd⟩ := List.exists_cons_of_ne_nil (Nat.toDigits_ne_nil (n := n) (b := 10))
  exact ⟨c, ds, hd, isDigit_of_mem (n := n) (by simp [hd])⟩

/-- The text is an optional plus sign and digits, and `n` is their number. -/
def Spells (s : String) (n : Nat) : Prop :=
  ∃ ds, (s.toList = ds ∨ s.toList = '+' :: ds) ∧ ds ≠ [] ∧ (∀ c ∈ ds, isDigit c = true) ∧
    ofDigits ds = n

lemma spells_toString (n : Nat) : Spells (toString n) n :=
  ⟨Nat.toDigits 10 n, .inl (by rw [Nat.toString_eq_repr, Nat.toList_repr]), Nat.toDigits_ne_nil,
    fun _ => isDigit_of_mem, ofDigits_toDigits n⟩

lemma Spells.ne_empty {s : String} {n : Nat} (h : Spells s n) : s ≠ "" := by
  rintro rfl
  obtain ⟨ds, hs | hs, hne, -⟩ := h
  · exact hne hs.symm
  · simp at hs

lemma readDigits_eq_some_iff {cs : List Char} {n : Nat} :
    readDigits cs = some n ↔ cs ≠ [] ∧ (∀ c ∈ cs, isDigit c = true) ∧ ofDigits cs = n := by
  have hall : cs.all isDigit = true ↔ ∀ c ∈ cs, isDigit c = true := List.all_eq_true
  rw [readDigits, ← hall]
  cases cs with
  | nil => simp
  | cons c cs => cases (c :: cs).all isDigit <;> simp

/-- **Numbers**. What is read is the number that the text spells. -/
theorem read_eq_some_iff {s : String} {n : Nat} : read s = some n ↔ Spells s n := by
  unfold read Spells
  split
  · rename_i rest hs
    rw [readDigits_eq_some_iff, hs]
    constructor
    · exact fun h => ⟨rest, .inr rfl, h⟩
    · rintro ⟨ds, rfl | hds, hne, hdigits, hn⟩
      · exact absurd (hdigits '+' (by simp)) (by decide)
      · obtain rfl := (List.cons.inj hds).2
        exact ⟨hne, hdigits, hn⟩
  · rename_i hs
    rw [readDigits_eq_some_iff]
    constructor
    · exact fun h => ⟨_, .inl rfl, h⟩
    · rintro ⟨ds, rfl | hds, h⟩
      · exact h
      · exact absurd hds (hs ds)

lemma Spells.unique {s : String} {m n : Nat} (hm : Spells s m) (hn : Spells s n) : m = n :=
  Option.some.inj ((read_eq_some_iff.mpr hm).symm.trans (read_eq_some_iff.mpr hn))

lemma readBelow_eq_some_iff {bound n : Nat} {s : String} :
    readBelow bound s = some n ↔ Spells s n ∧ n < bound := by
  rw [readBelow, Option.filter_eq_some_iff, read_eq_some_iff, decide_eq_true_iff]

lemma readWord32_eq_some_iff {s : String} {w : UInt32} :
    readWord32 s = some w ↔ Spells s w.toNat := by
  simp only [readWord32, Option.map_eq_some_iff, readBelow_eq_some_iff]
  constructor
  · rintro ⟨n, ⟨hn, hlt⟩, rfl⟩
    rwa [UInt32.toNat_ofNat_of_lt' hlt]
  · exact fun h => ⟨w.toNat, ⟨h, w.toNat_lt_size⟩, UInt32.ofNat_toNat⟩

lemma readWord64_eq_some_iff {s : String} {w : UInt64} :
    readWord64 s = some w ↔ Spells s w.toNat := by
  simp only [readWord64, Option.map_eq_some_iff, readBelow_eq_some_iff]
  constructor
  · rintro ⟨n, ⟨hn, hlt⟩, rfl⟩
    rwa [UInt64.toNat_ofNat_of_lt' hlt]
  · exact fun h => ⟨w.toNat, ⟨h, w.toNat_lt_size⟩, UInt64.ofNat_toNat⟩

/-- A word is read back from its decimal text. -/
theorem readWord32_toString (t : UInt32) : readWord32 (toString t.toNat) = some t :=
  readWord32_eq_some_iff.mpr (spells_toString t.toNat)

end ChainKeys.Decimal
