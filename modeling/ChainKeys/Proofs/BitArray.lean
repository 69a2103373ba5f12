import ChainKeys.BitArray
import Mathlib.Data.List.Basic
import Mathlib.Data.Nat.Bitwise
import Mathlib.Tactic.Lemma

/-!
What an array holds after any writes to a fresh one.

The bytes are read as one row of bits, without regard to where the array ends. A fresh array has
no bit at or past its end and a write beyond the end does nothing, so the bits of the bytes are
the bits of the array, and counting the ones counts the positions that are set.
-/

namespace ChainKeys.BitArray

/-- The bit at `i` of the bytes. -/
def bit (bs : Bytes) (i : Nat) : Bool := (bs.getD (i / 8) 0).toNat.testBit (7 - i % 8)

lemma toNat_mask (i : Nat) : (mask i).toNat = 2 ^ (7 - i % 8) := by
  have table : ∀ k < 8, ((0x80 : UInt8) >>> UInt8.ofNat k).toNat = 2 ^ (7 - k) := by decide
  exact table (i % 8) (Nat.mod_lt i (by omega))

lemma and_mask (b : UInt8) (i : Nat) : b &&& mask i ≠ 0 ↔ b.toNat.testBit (7 - i % 8) = true := by
  have hzero : b &&& mask i = 0 ↔ b.toNat &&& (mask i).toNat = 0 := by
    rw [← UInt8.toNat_inj, UInt8.toNat_and, UInt8.toNat_zero]
  rw [ne_eq, hzero, toNat_mask, Nat.and_two_pow]
  cases b.toNat.testBit (7 - i % 8) <;> simp

lemma testBit_setByte (b : UInt8) (i : Nat) (v : Bool) {k : Nat} (hk : k < 8) :
    (setByte b i v).toNat.testBit k = if 7 - i % 8 = k then v else b.toNat.testBit k := by
  cases v with
  | true =>
    rw [setByte, if_pos rfl, UInt8.toNat_or, toNat_mask, Nat.testBit_or, Nat.testBit_two_pow]
    split <;> simp_all
  | false =>
    have hlt : 2 ^ (7 - i % 8) < 2 ^ 8 := Nat.pow_lt_pow_right (by omega) (by omega)
    have hnot : (~~~mask i).toNat = 2 ^ 8 - (2 ^ (7 - i % 8) + 1) := by
      rw [UInt8.toNat_not, toNat_mask, UInt8.size]
      omega
    rw [setByte, if_neg (by decide), UInt8.toNat_and, hnot, Nat.testBit_and,
      Nat.testBit_two_pow_sub_succ hlt, Nat.testBit_two_pow]
    split <;> simp_all

lemma bit_set {bs : Bytes} {i : Nat} (hi : i / 8 < bs.length) (v : Bool) (j : Nat) :
    bit (bs.set (i / 8) (setByte (bs.getD (i / 8) 0) i v)) j = if i = j then v else bit bs j := by
  unfold bit
  by_cases hbyte : i / 8 = j / 8
  · -- The same byte: the positions agree just when the bits do.
    have hj : j / 8 < bs.length := hbyte ▸ hi
    have hpos : 7 - i % 8 = 7 - j % 8 ↔ i = j := by omega
    rw [hbyte, List.getD_eq_getElem _ 0 (by simpa using hj), List.getElem_set_self,
      testBit_setByte _ _ _ (by omega)]
    simp only [hpos]
  · rw [if_neg (by rintro rfl; exact hbyte rfl), List.getD_eq_getElem?_getD,
      List.getElem?_set_ne hbyte, ← List.getD_eq_getElem?_getD]

/-- An array of `n` bits, with nothing in the bytes past its end. -/
structure Clean (a : BitArray) (n : Nat) : Prop where
  extra : a.extra = UInt8.ofNat (n % 8)
  bytes : a.bytes.length = (n + 7) / 8
  rest : ∀ i, n ≤ i → bit a.bytes i = false

namespace Clean

variable {a : BitArray} {n : Nat}

lemma zeros (n : Nat) : Clean (BitArray.zeros n) n where
  extra := rfl
  bytes := by simp [BitArray.zeros]
  rest i _ := by simp [BitArray.zeros, bit]

lemma toNat_extra (h : Clean a n) : a.extra.toNat = n % 8 := by
  rw [h.extra, UInt8.toNat_ofNat']
  omega

lemma length (h : Clean a n) : a.length = n := by
  have hextra := h.toNat_extra
  have hzero : a.extra = 0 ↔ n % 8 = 0 := by
    rw [← UInt8.toNat_inj, hextra, UInt8.toNat_zero]
  rw [BitArray.length, h.bytes, hextra]
  simp only [hzero]
  split <;> omega

lemma get (h : Clean a n) (i : Nat) : a.get i = bit a.bytes i := by
  rw [BitArray.get, h.length]
  by_cases hi : i < n
  · simp only [hi, decide_true, Bool.true_and]
    rw [Bool.eq_iff_iff, decide_eq_true_iff, and_mask]
    rfl
  · simp [hi, h.rest i (by omega)]

lemma set_of_lt (h : Clean a n) {i : Nat} (hi : i < n) (v : Bool) :
    a.set i v
      = { a with bytes := a.bytes.set (i / 8) (setByte (a.bytes.getD (i / 8) 0) i v) } := by
  rw [BitArray.set, BitArray.set?, h.length, if_pos hi, Option.getD_some]

lemma set_of_le (h : Clean a n) {i : Nat} (hi : n ≤ i) (v : Bool) : a.set i v = a := by
  rw [BitArray.set, BitArray.set?, h.length, if_neg (by omega), Option.getD_none]

lemma set (h : Clean a n) (i : Nat) (v : Bool) : Clean (a.set i v) n := by
  rcases Nat.lt_or_ge i n with hi | hi
  · rw [h.set_of_lt hi]
    refine ⟨h.extra, by simpa using h.bytes, fun j hj => ?_⟩
    rw [bit_set (by rw [h.bytes]; omega), if_neg (by omega)]
    exact h.rest j hj
  · rw [h.set_of_le hi]
    exact h

lemma get_set (h : Clean a n) {i : Nat} (hi : i < n) (v : Bool) (j : Nat) :
    (a.set i v).get j = if i = j then v else a.get j := by
  rw [(h.set i v).get, h.get, h.set_of_lt hi, bit_set (by rw [h.bytes]; omega)]

end Clean

lemma get_zeros (n i : Nat) : (zeros n).get i = false := by
  rw [(Clean.zeros n).get]
  simp [zeros, bit]

/-! ### Counting -/

lemma onesOf_eq (b : UInt8) (bs : Bytes) :
    onesOf b = ((List.range 8).filter (bit (b :: bs))).length := by
  have hturn : (List.range 8).map (7 - ·) = (List.range 8).reverse := by decide
  have hbit : ∀ k ∈ List.range 8, bit (b :: bs) k = b.toNat.testBit (7 - k) := by
    intro k hk
    have hlt := List.mem_range.mp hk
    rw [bit, Nat.div_eq_of_lt hlt, Nat.mod_eq_of_lt hlt, List.getD_cons_zero]
  calc onesOf b
      = ((List.range 8).reverse.filter fun k => b.toNat.testBit k).length := by
        rw [List.filter_reverse, List.length_reverse, onesOf]
    _ = ((List.range 8).filter fun k => b.toNat.testBit (7 - k)).length := by
        rw [← hturn, List.filter_map, List.length_map]
        rfl
    _ = ((List.range 8).filter (bit (b :: bs))).length := by rw [List.filter_congr hbit]

lemma bit_cons_add (b : UInt8) (bs : Bytes) (i : Nat) : bit (b :: bs) (8 + i) = bit bs i := by
  have hdiv : (8 + i) / 8 = i / 8 + 1 := by omega
  rw [bit, bit, hdiv, Nat.add_mod_left, List.getD_cons_succ]

lemma foldr_onesOf (bs : Bytes) :
    bs.foldr (fun b n => onesOf b + n) 0
      = ((List.range (8 * bs.length)).filter (bit bs)).length := by
  induction bs with
  | nil => rfl
  | cons b bs ih =>
    have hshift : bit (b :: bs) ∘ (8 + ·) = bit bs := funext (bit_cons_add b bs)
    have hsplit : 8 * (b :: bs).length = 8 + 8 * bs.length := by
      rw [List.length_cons]
      omega
    rw [List.foldr_cons, ih, hsplit, List.range_add, List.filter_append, List.length_append,
      ← onesOf_eq, List.filter_map, List.length_map, hshift]

/-- The positions that are set, in order. -/
def ones (a : BitArray) : List Nat := (List.range a.length).filter a.get

lemma ones_pairwise (a : BitArray) : a.ones.Pairwise (· < ·) :=
  List.pairwise_lt_range.filter a.get

lemma lt_length {a : BitArray} {i : Nat} (h : a.get i = true) : i < a.length := by
  rw [get, Bool.and_eq_true, decide_eq_true_iff] at h
  exact h.1

lemma mem_ones {a : BitArray} {i : Nat} : i ∈ a.ones ↔ a.get i = true := by
  rw [ones, List.mem_filter, List.mem_range, and_iff_right_iff_imp]
  exact lt_length

lemma ones_mono {a : BitArray} {j j' i i' : Nat} (h : j ≤ j') (hi : a.ones[j]? = some i)
    (hi' : a.ones[j']? = some i') : i ≤ i' := by
  rcases Nat.eq_or_lt_of_le h with rfl | hlt
  · exact (Option.some.inj (hi.symm.trans hi')).le
  · obtain ⟨hj, rfl⟩ := List.getElem?_eq_some_iff.mp hi
    obtain ⟨hj', rfl⟩ := List.getElem?_eq_some_iff.mp hi'
    exact (List.pairwise_iff_getElem.mp a.ones_pairwise j j' hj hj' hlt).le

lemma Clean.countOnes {a : BitArray} {n : Nat} (h : Clean a n) :
    a.countOnes = a.ones.length := by
  have hget : a.get = bit a.bytes := funext h.get
  have hend : 8 * a.bytes.length = n + (8 * a.bytes.length - n) := by
    rw [h.bytes]
    omega
  have hrest :
      (List.map (n + ·) (List.range (8 * a.bytes.length - n))).filter (bit a.bytes) = [] := by
    rw [List.filter_eq_nil_iff]
    intro i hi
    obtain ⟨d, -, rfl⟩ := List.mem_map.mp hi
    rw [h.rest _ (Nat.le_add_right n d)]
    decide
  rw [BitArray.countOnes, foldr_onesOf, hend, List.range_add, List.filter_append, hrest,
    List.append_nil, ones, h.length, hget]

/-! ### Arrays made by writes -/

/-- What the writes make of a fresh array. -/
def built (n : Nat) (writes : List (Nat × Bool)) : BitArray :=
  writes.foldl (fun a w => a.set w.1 w.2) (zeros n)

lemma Clean.foldl_set {a : BitArray} {n : Nat} (h : Clean a n) (writes : List (Nat × Bool)) :
    Clean (writes.foldl (fun a w => a.set w.1 w.2) a) n := by
  induction writes generalizing a with
  | nil => exact h
  | cons w writes ih => exact ih (h.set w.1 w.2)

lemma clean_built (n : Nat) (writes : List (Nat × Bool)) : Clean (built n writes) n :=
  (Clean.zeros n).foldl_set writes

/-- What was written at `i` last, if anything was. -/
def written (writes : List (Nat × Bool)) (i : Nat) : Bool :=
  writes.foldl (fun v w => if w.1 = i then w.2 else v) false

lemma Clean.get_foldl_set {a : BitArray} {n : Nat} (h : Clean a n) (writes : List (Nat × Bool))
    {i : Nat} (hi : i < n) : (writes.foldl (fun a w => a.set w.1 w.2) a).get i =
      writes.foldl (fun v w => if w.1 = i then w.2 else v) (a.get i) := by
  induction writes generalizing a with
  | nil => rfl
  | cons w writes ih =>
    have hset : (a.set w.1 w.2).get i = if w.1 = i then w.2 else a.get i := by
      rcases Nat.lt_or_ge w.1 n with hw | hw
      · exact h.get_set hw w.2 i
      · -- A write beyond the end, which is not at `i`.
        rw [h.set_of_le hw, if_neg (by omega)]
    rw [List.foldl_cons, List.foldl_cons, ih (h.set w.1 w.2), hset]

lemma get_built {n i : Nat} (hi : i < n) (writes : List (Nat × Bool)) :
    (built n writes).get i = written writes i := by
  rw [built, (Clean.zeros n).get_foldl_set writes hi, get_zeros, written]

end ChainKeys.BitArray
