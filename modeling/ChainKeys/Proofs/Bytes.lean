import ChainKeys.Bytes
import Mathlib.Algebra.Group.Nat.Defs
import Mathlib.Data.List.Induction
import Mathlib.Data.List.Lex
import Mathlib.Tactic.Lemma

/-!
Numbers spelled by byte strings, and the order of byte strings. It is the lexicographic order of
lists, so it is total, and sorting by a key that is a byte string leaves the keys in order.
-/

namespace ChainKeys.Bytes

lemma toNatBE_concat (bs : Bytes) (b : UInt8) :
    toNatBE (bs ++ [b]) = toNatBE bs * 256 + b.toNat := by
  simp only [toNatBE, List.foldl_append, List.foldl_cons, List.foldl_nil]

/-- A number is spelled up to the width it is given. -/
lemma toNatBE_ofNatBE (w n : Nat) : toNatBE (ofNatBE w n) = n % 256 ^ w := by
  induction w generalizing n with
  | zero => exact (Nat.mod_one n).symm
  | succ w ih =>
    have hsplit : n % 256 ^ (w + 1) = n % 256 + 256 * (n / 256 % 256 ^ w) := by
      rw [Nat.pow_succ', Nat.mod_mul]
    rw [ofNatBE, toNatBE_concat, ih, UInt8.toNat_ofNat', hsplit, Nat.mul_comm, Nat.add_comm]

/-- A byte string is spelled again from its number and its length. -/
lemma ofNatBE_toNatBE (bs : Bytes) : ofNatBE bs.length (toNatBE bs) = bs := by
  induction bs using List.reverseRecOn with
  | nil => rfl
  | append_singleton bs b ih =>
    have hbyte : UInt8.ofNat (toNatBE bs * 256 + b.toNat) = b := by
      rw [← UInt8.toNat_inj, UInt8.toNat_ofNat', Nat.mul_add_mod_of_lt b.toNat_lt]
    have hrest : (toNatBE bs * 256 + b.toNat) / 256 = toNatBE bs := by
      have := b.toNat_lt
      omega
    rw [List.length_append, List.length_singleton, toNatBE_concat, ofNatBE, hbyte, hrest, ih]

lemma toNatBE_append (as bs : Bytes) :
    toNatBE (as ++ bs) = toNatBE as * 256 ^ bs.length + toNatBE bs := by
  induction bs using List.reverseRecOn with
  | nil => simp [toNatBE]
  | append_singleton bs b ih =>
    rw [← List.append_assoc, toNatBE_concat, ih, toNatBE_concat, List.length_append,
      List.length_singleton, Nat.pow_succ, Nat.add_mul, Nat.mul_assoc, Nat.add_assoc]

lemma toNatBE_lt (bs : Bytes) : toNatBE bs < 256 ^ bs.length := by
  rw [← ofNatBE_toNatBE bs, toNatBE_ofNatBE, length_ofNatBE]
  exact Nat.mod_lt _ (Nat.pow_pos (by decide))

lemma toNatBE_eq_zero_iff {bs : Bytes} : toNatBE bs = 0 ↔ ∀ b ∈ bs, b = 0 := by
  induction bs using List.reverseRecOn with
  | nil => simp [toNatBE]
  | append_singleton bs b ih =>
    have hb : b.toNat = 0 ↔ b = 0 := by rw [← UInt8.toNat_inj, UInt8.toNat_zero]
    rw [toNatBE_concat, List.forall_mem_append, List.forall_mem_singleton, ← ih, ← hb]
    omega

/-- A number that loses its last digits becomes smaller. -/
lemma toNatBE_take_lt {bs : Bytes} {n : Nat} (hn : n < bs.length) (hpos : 0 < toNatBE bs) :
    toNatBE (bs.take n) < toNatBE bs := by
  have hsplit : toNatBE bs =
      toNatBE (bs.take n) * 256 ^ (bs.drop n).length + toNatBE (bs.drop n) := by
    rw [← toNatBE_append, List.take_append_drop]
  have hlost : 1 < 256 ^ (bs.drop n).length := by
    rw [List.length_drop]
    exact Nat.one_lt_pow (by omega) (by decide)
  rcases Nat.eq_zero_or_pos (toNatBE (bs.take n)) with hzero | hstart
  · rwa [hzero]
  · calc toNatBE (bs.take n) = toNatBE (bs.take n) * 1 := (Nat.mul_one _).symm
      _ < toNatBE (bs.take n) * 256 ^ (bs.drop n).length := Nat.mul_lt_mul_of_pos_left hlost hstart
      _ ≤ toNatBE bs := hsplit ▸ Nat.le_add_right _ _

/-- Zeros in front leave the number as it is. -/
lemma toNatBE_leftpad (w : Nat) (bs : Bytes) : toNatBE (bs.leftpad w 0) = toNatBE bs := by
  have hzeros : toNatBE (List.replicate (w - bs.length) 0) = 0 :=
    toNatBE_eq_zero_iff.mpr fun b hb => List.eq_of_mem_replicate hb
  rw [List.leftpad, toNatBE_append, hzeros, Nat.zero_mul, Nat.zero_add]

/-- With zeros in front, a byte string is the number it spells. -/
lemma leftpad_eq_ofNatBE_iff {w n : Nat} {bs : Bytes} (hlen : bs.length ≤ w) (hn : n < 256 ^ w) :
    bs.leftpad w 0 = ofNatBE w n ↔ toNatBE bs = n := by
  have hwidth : (bs.leftpad w 0).length = w := by rw [List.length_leftpad, Nat.max_eq_left hlen]
  constructor
  · intro h
    rw [← toNatBE_leftpad w bs, h, toNatBE_ofNatBE, Nat.mod_eq_of_lt hn]
  · rintro rfl
    conv_lhs => rw [← ofNatBE_toNatBE (bs.leftpad w 0), hwidth, toNatBE_leftpad]

lemma leftpad_inj_of_length {w : Nat} {as bs : Bytes} (hlen : as.length = bs.length) :
    as.leftpad w 0 = bs.leftpad w 0 ↔ as = bs := by
  rw [List.leftpad, List.leftpad, hlen, List.append_cancel_left_eq]

lemma leftpad_of_length {w : Nat} {bs : Bytes} (hlen : bs.length = w) : bs.leftpad w 0 = bs := by
  rw [List.leftpad, hlen, Nat.sub_self, List.replicate_zero, List.nil_append]

lemma lt_iff {a b : Bytes} : lt a b = true ↔ a < b := by
  induction a generalizing b with
  | nil => cases b <;> simp [lt]
  | cons x a ih =>
    cases b with
    | nil => simp [lt]
    | cons y b =>
      rw [lt, List.cons_lt_cons_iff]
      by_cases h : x = y
      · subst h
        simp [ih, UInt8.lt_irrefl]
      · simp [h]

lemma le_iff {a b : Bytes} : le a b = true ↔ a ≤ b := by
  rw [le, Bool.not_eq_true', ← Bool.not_eq_true, lt_iff, List.not_lt]

lemma le_trans {a b c : Bytes} (hab : le a b = true) (hbc : le b c = true) : le a c = true := by
  rw [le_iff] at *
  exact List.le_trans hab hbc

lemma le_total (a b : Bytes) : (le a b || le b a) = true := by
  rw [Bool.or_eq_true, le_iff, le_iff]
  exact List.le_total a b

lemma lt_of_le_of_ne {a b : Bytes} (hab : a ≤ b) (hne : a ≠ b) : a < b := by
  by_contra h
  exact hne (List.le_antisymm hab (List.not_lt.mp h))

lemma pairwise_mergeSort {α : Type} (f : α → Bytes) (l : List α) :
    (l.mergeSort fun a b => le (f a) (f b)).Pairwise fun a b => f a ≤ f b := by
  have h : (l.mergeSort fun a b => le (f a) (f b)).Pairwise fun a b => le (f a) (f b) = true := by
    apply List.pairwise_mergeSort
    · intro a b c hab hbc
      exact le_trans hab hbc
    · intro a b
      exact le_total (f a) (f b)
  exact h.imp fun hab => le_iff.mp hab

end ChainKeys.Bytes
