import ChainKeys.Proofs.BitArray
import Mathlib.Data.List.Induction

/-!
An array is a list of booleans.

A write to the array is a write to the list, in range or not, so an array after any writes is the
list after the same writes. What a caller can ask of the array is then read off the list, and
each boolean stands in its place in the bytes with nothing besides.
-/

namespace ChainKeys.BitArray

/-- How many positions before `i` are set. -/
def rank (a : BitArray) (i : Nat) : Nat := ((List.range i).filter a.get).length

lemma getElem?_ones_rank {a : BitArray} {i : Nat} (hi : a.get i = true) :
    a.ones[a.rank i]? = some i := by
  have hlt := lt_length hi
  -- The positions are those before `i`, then `i`, then others.
  obtain ⟨m, hm⟩ : ∃ m, a.length = i + (m + 1) := ⟨a.length - i - 1, by omega⟩
  rw [ones, hm, List.range_add, List.filter_append, List.range_succ_eq_map, List.map_cons,
    Nat.add_zero, List.filter_cons_of_pos hi, rank, List.getElem?_append_right (Nat.le_refl _),
    Nat.sub_self, List.getElem?_cons_zero]

namespace Clean

variable {a : BitArray} {n : Nat}

lemma rank_eq (h : Clean a n) : a.rank n = a.countOnes := by
  rw [h.countOnes, ones, h.length, rank]

lemma get_of_le (h : Clean a n) {i : Nat} (hi : n ≤ i) : a.get i = false := by
  rw [h.get, h.rest i hi]

/-- Where the count of used bits is not zero there is a last byte that they are in. -/
lemma bytes_pos (h : Clean a n) (hextra : a.extra ≠ 0) : 0 < a.bytes.length := by
  have hn : n ≠ 0 := by
    rintro rfl
    exact hextra h.extra
  rw [h.bytes]
  omega

/-- Each bit in its place. -/
lemma and_mask_getElem? (h : Clean a n) {i : Nat} {b : UInt8} (hb : a.bytes[i / 8]? = some b) :
    b &&& mask i ≠ 0 ↔ a.get i = true := by
  have hbyte : a.bytes.getD (i / 8) 0 = b := by
    rw [List.getD_eq_getElem?_getD, hb, Option.getD_some]
  rw [and_mask, h.get, bit, hbyte]

lemma set?_eq (h : Clean a n) (i : Nat) (v : Bool) :
    a.set? i v = if i < n then some (a.set i v) else none := by
  unfold BitArray.set BitArray.set?
  rw [h.length]
  split <;> rfl

/-! ### The list -/

lemma length_toList (h : Clean a n) : a.toList.length = n := by
  simp [toList, h.length]

lemma getElem_toList (a : BitArray) {i : Nat} (hi : i < a.toList.length) :
    a.toList[i] = a.get i := by
  simp [toList]

/-- A write to the array is a write to the list. -/
lemma toList_set (h : Clean a n) (i : Nat) (v : Bool) :
    (a.set i v).toList = a.toList.set i v := by
  have hlength : (a.set i v).toList.length = (a.toList.set i v).length := by
    rw [(h.set i v).length_toList, List.length_set, h.length_toList]
  refine List.ext_getElem hlength fun j hj _ => ?_
  rw [(h.set i v).length_toList] at hj
  rw [getElem_toList, List.getElem_set, getElem_toList]
  rcases Nat.lt_or_ge i n with hi | hi
  · exact h.get_set hi v j
  · -- Past the end, which is past the end of the list.
    have hne : i ≠ j := by omega
    rw [h.set_of_le hi, if_neg hne]

lemma toList_foldl_set (h : Clean a n) (writes : List (Nat × Bool)) :
    (writes.foldl (fun a w => a.set w.1 w.2) a).toList =
      writes.foldl (fun l w => l.set w.1 w.2) a.toList := by
  induction writes generalizing a with
  | nil => rfl
  | cons w writes ih =>
    rw [List.foldl_cons, List.foldl_cons, ih (h.set w.1 w.2), h.toList_set]

end Clean

lemma toList_zeros (n : Nat) : (zeros n).toList = List.replicate n false := by
  refine List.eq_replicate_iff.mpr ⟨(Clean.zeros n).length_toList, fun b hb => ?_⟩
  obtain ⟨i, -, rfl⟩ := List.mem_map.mp hb
  exact get_zeros n i

lemma built_concat (n : Nat) (writes : List (Nat × Bool)) (i : Nat) (v : Bool) :
    built n (writes ++ [(i, v)]) = (built n writes).set i v := by
  simp [built]

/-- The last of the writes at `i` comes first when they are gone through backwards. -/
lemma written_eq_lookup (writes : List (Nat × Bool)) (i : Nat) :
    written writes i = (writes.reverse.lookup i).getD false := by
  induction writes using List.reverseRecOn with
  | nil => rfl
  | append_singleton writes w ih =>
    obtain ⟨j, v⟩ := w
    have hconcat : written (writes ++ [(j, v)]) i = if j = i then v else written writes i := by
      simp [written]
    rw [hconcat, List.reverse_concat, List.lookup_cons]
    by_cases hj : j = i
    · simp [hj]
    · rw [if_neg hj, beq_false_of_ne (Ne.symm hj), ih]

/-- **An array of bits** after any writes to a fresh one. As a list it is a fresh list after the
same writes. Its length stays; a further write is taken just when it is in range, and changes
nothing otherwise; each position holds what was written there last, and no position past the end
is set; the ones are counted rightly. In the bytes each bit is in its place, highest first, and
no other bit is set; the length never takes a byte away where there is none. -/
theorem built_exact (n : Nat) (writes : List (Nat × Bool)) :
    (built n writes).toList = writes.foldl (fun l w => l.set w.1 w.2) (List.replicate n false) ∧
    (built n writes).length = n ∧
    (∀ i v, (built n writes).set? i v =
      if i < n then some (built n (writes ++ [(i, v)])) else none) ∧
    (∀ i v, n ≤ i → (built n writes).set i v = built n writes) ∧
    (∀ i < n, (built n writes).get i = (writes.reverse.lookup i).getD false) ∧
    (∀ i, n ≤ i → (built n writes).get i = false) ∧
    (built n writes).countOnes = (built n writes).rank n ∧
    (built n writes).bytes.length = (n + 7) / 8 ∧ (built n writes).extra.toNat = n % 8 ∧
    (∀ i b, (built n writes).bytes[i / 8]? = some b →
      (b &&& (0x80 >>> UInt8.ofNat (i % 8)) ≠ 0 ↔ (built n writes).get i = true)) ∧
    ((built n writes).extra ≠ 0 → 0 < (built n writes).bytes.length) := by
  have h := clean_built n writes
  have hlist : (built n writes).toList =
      writes.foldl (fun l w => l.set w.1 w.2) (List.replicate n false) := by
    rw [← toList_zeros]
    exact (Clean.zeros n).toList_foldl_set writes
  have hset : ∀ i v, (built n writes).set? i v =
      if i < n then some (built n (writes ++ [(i, v)])) else none := by
    intro i v
    rw [built_concat]
    exact h.set?_eq i v
  have hget : ∀ i < n, (built n writes).get i = (writes.reverse.lookup i).getD false := by
    intro i hi
    rw [← written_eq_lookup]
    exact get_built hi writes
  exact ⟨hlist, h.length, hset, fun i v hi => h.set_of_le hi v, hget, fun i hi => h.get_of_le hi,
    h.rank_eq.symm, h.bytes, h.toNat_extra, fun i b hb => h.and_mask_getElem? hb, h.bytes_pos⟩

end ChainKeys.BitArray
