import ChainKeys.Varint
import Mathlib.Algebra.Group.Nat.Defs
import Mathlib.Tactic.Lemma

/-!
Base-128 numbers inside longer byte strings. A written number is never a proper start of
another one, so what stands behind it is determined; and a reader that found a number finds the
same one whatever is appended. A number of 64 bits is read back as it was written, and the
shortest form of a number is the written one.
-/

namespace ChainKeys.Varint

lemma encode_of_lt {n : Nat} (h : n < 128) : encode n = [UInt8.ofNat n] := by
  rw [encode, if_pos h]

lemma encode_of_le {n : Nat} (h : 128 ≤ n) :
    encode n = UInt8.ofNat (n % 128 + 128) :: encode (n / 128) := by
  rw [encode, if_neg (by omega)]

lemma toNat_last {n : Nat} (h : n < 128) : (UInt8.ofNat n).toNat = n := by
  rw [UInt8.toNat_ofNat']
  omega

lemma toNat_group (n : Nat) : (UInt8.ofNat (n % 128 + 128)).toNat = n % 128 + 128 := by
  rw [UInt8.toNat_ofNat']
  omega

lemma last_lt {n : Nat} (h : n < 128) : UInt8.ofNat n < 128 := by
  rw [UInt8.lt_iff_toNat_lt, toNat_last h]
  exact h

lemma not_group_lt (n : Nat) : ¬ UInt8.ofNat (n % 128 + 128) < 128 := by
  rw [UInt8.lt_iff_toNat_lt, toNat_group]
  simp

/-- A written number is no proper start of another. -/
lemma encode_append_inj {m n : Nat} {x y : Bytes} (h : encode m ++ x = encode n ++ y) :
    m = n ∧ x = y := by
  induction m using Nat.strongRecOn generalizing n with
  | ind m ih =>
    rcases Nat.lt_or_ge m 128 with hm | hm <;> rcases Nat.lt_or_ge n 128 with hn | hn
    · rw [encode_of_lt hm, encode_of_lt hn] at h
      obtain ⟨hb, hxy⟩ := List.cons.inj h
      have := congrArg UInt8.toNat hb
      rw [toNat_last hm, toNat_last hn] at this
      exact ⟨this, hxy⟩
    · -- the first byte of one ends the number, that of the other does not
      rw [encode_of_lt hm, encode_of_le hn] at h
      have := congrArg UInt8.toNat (List.cons.inj h).1
      rw [toNat_last hm, toNat_group] at this
      omega
    · rw [encode_of_le hm, encode_of_lt hn] at h
      have := congrArg UInt8.toNat (List.cons.inj h).1
      rw [toNat_group, toNat_last hn] at this
      omega
    · rw [encode_of_le hm, encode_of_le hn] at h
      obtain ⟨hb, hr⟩ := List.cons.inj h
      have := congrArg UInt8.toNat hb
      rw [toNat_group, toNat_group] at this
      obtain ⟨hd, hxy⟩ := ih (m / 128) (by omega) hr
      exact ⟨by omega, hxy⟩

/-- What is left of a written number after some of its bytes spells a smaller one. -/
lemma encode_tail {n : Nat} {a b : Bytes} (h : encode n = a ++ b) (ha : a ≠ []) (hb : b ≠ []) :
    ∃ m < n, b = encode m := by
  induction n using Nat.strongRecOn generalizing a with
  | ind n ih =>
    obtain ⟨c, a, rfl⟩ := List.exists_cons_of_ne_nil ha
    rcases Nat.lt_or_ge n 128 with hn | hn
    · rw [encode_of_lt hn] at h
      have hr : a ++ b = [] := (List.cons.inj h).2.symm
      exact absurd (List.append_eq_nil_iff.mp hr).2 hb
    · rw [encode_of_le hn] at h
      have hr := (List.cons.inj h).2
      by_cases hc : a = []
      · subst hc
        exact ⟨n / 128, by omega, by simpa using hr.symm⟩
      · obtain ⟨m, hm, hbm⟩ := ih (n / 128) (by omega) hr hc
        exact ⟨m, by omega, hbm⟩

lemma decodeWithin_append {g v : Nat} {bs rest : Bytes} (h : decodeWithin g bs = some (v, rest))
    (x : Bytes) : decodeWithin g (bs ++ x) = some (v, rest ++ x) := by
  induction g generalizing bs v with
  | zero => simp [decodeWithin] at h
  | succ g ih =>
    cases bs with
    | nil => simp [decodeWithin] at h
    | cons b bs =>
      rw [decodeWithin] at h
      rw [List.cons_append, decodeWithin]
      by_cases hb : b < 128
      · rw [if_pos hb] at h ⊢
        split at h
        · simp at h
        · rename_i hc
          obtain ⟨rfl, rfl⟩ : b.toNat = v ∧ bs = rest := by simpa using h
          rw [if_neg hc]
      · rw [if_neg hb] at h ⊢
        obtain ⟨⟨w, r⟩, hw, hv⟩ := Option.map_eq_some_iff.mp h
        obtain ⟨rfl, rfl⟩ : b.toNat - 128 + 128 * w = v ∧ r = rest := by simpa using hv
        rw [ih hw]
        rfl

/-- A reader that finds a number does not look past it. -/
lemma decode_append {v : Nat} {bs rest : Bytes} (h : decode bs = some (v, rest)) (x : Bytes) :
    decode (bs ++ x) = some (v, rest ++ x) :=
  decodeWithin_append h x

lemma decodeWithin_encode {g n v : Nat} {x y : Bytes}
    (h : decodeWithin g (encode n ++ x) = some (v, y)) : v = n ∧ y = x := by
  induction g generalizing n v with
  | zero => simp [decodeWithin] at h
  | succ g ih =>
    rcases Nat.lt_or_ge n 128 with hn | hn
    · rw [encode_of_lt hn, List.cons_append, decodeWithin, if_pos (last_lt hn)] at h
      split at h
      · simp at h
      · rw [toNat_last hn] at h
        simpa [eq_comm] using h
    · rw [encode_of_le hn, List.cons_append, decodeWithin, if_neg (not_group_lt n),
        toNat_group] at h
      obtain ⟨⟨w, r⟩, hw, hv⟩ := Option.map_eq_some_iff.mp h
      obtain ⟨rfl, rfl⟩ : n % 128 + 128 - 128 + 128 * w = v ∧ r = y := by simpa using hv
      obtain ⟨rfl, rfl⟩ := ih hw
      exact ⟨by omega, rfl⟩

/-- Whatever is read off a written number is that number; too large a number is not read. -/
lemma eq_of_decode_encode {n v : Nat} {x y : Bytes} (h : decode (encode n ++ x) = some (v, y)) :
    v = n ∧ y = x :=
  decodeWithin_encode h

/-- A number that breaks off is not read. -/
lemma decode_eq_none_of_append {n : Nat} {bs x : Bytes} {b : UInt8}
    (h : encode n = bs ++ b :: x) : decode bs = none := by
  rcases hdecode : decode bs with _ | ⟨v, rest⟩
  · rfl
  · have hwhole := decode_append hdecode (b :: x)
    rw [← h, ← List.append_nil (encode n)] at hwhole
    have hrest := (eq_of_decode_encode hwhole).2
    simp at hrest

/-- A number of at most so many groups, the last of one bit, is read back. -/
lemma decodeWithin_encode_of_lt {g n : Nat} (h : n < 2 * 128 ^ g) (x : Bytes) :
    decodeWithin (g + 1) (encode n ++ x) = some (n, x) := by
  induction g generalizing n with
  | zero =>
    have hn : n < 128 := by omega
    have hbit : ¬(0 = 0 ∧ 1 < UInt8.ofNat n) := by
      rw [UInt8.lt_iff_toNat_lt, toNat_last hn]
      simp
      omega
    rw [encode_of_lt hn, List.cons_append, decodeWithin, if_pos (last_lt hn), if_neg hbit,
      toNat_last hn]
    rfl
  | succ g ih =>
    rcases Nat.lt_or_ge n 128 with hn | hn
    · rw [encode_of_lt hn, List.cons_append, decodeWithin, if_pos (last_lt hn), if_neg (by simp),
        toNat_last hn]
      rfl
    · have hq : n / 128 < 2 * 128 ^ g := by
        rw [Nat.pow_succ] at h
        omega
      rw [encode_of_le hn, List.cons_append, decodeWithin, if_neg (not_group_lt n), toNat_group,
        ih hq]
      simp only [Option.map_some, Option.some.injEq, Prod.mk.injEq, and_true]
      omega

/-- A number of 64 bits is read back as it was written. -/
lemma decode_encode {n : Nat} (h : n < 2 ^ 64) (x : Bytes) :
    decode (encode n ++ x) = some (n, x) :=
  decodeWithin_encode_of_lt (g := 9) (by omega) x

lemma length_lt_of_decodeWithin {g v : Nat} {bs rest : Bytes}
    (h : decodeWithin g bs = some (v, rest)) : rest.length < bs.length := by
  induction g generalizing bs v with
  | zero => simp [decodeWithin] at h
  | succ g ih =>
    cases bs with
    | nil => simp [decodeWithin] at h
    | cons b bs =>
      rw [decodeWithin] at h
      rw [List.length_cons]
      split at h
      · split at h
        · simp at h
        · obtain ⟨rfl, rfl⟩ : b.toNat = v ∧ bs = rest := by simpa using h
          exact Nat.lt_succ_self _
      · obtain ⟨⟨w, r⟩, hw, hv⟩ := Option.map_eq_some_iff.mp h
        obtain ⟨-, rfl⟩ : b.toNat - 128 + 128 * w = v ∧ r = rest := by simpa using hv
        exact Nat.lt_succ_of_lt (ih hw)

/-- A number that takes up no more bytes than it has to stands there as it is written. -/
lemma eq_encode_of_decodeWithin {g v : Nat} {bs rest : Bytes}
    (h : decodeWithin g bs = some (v, rest))
    (hlen : bs.length = (encode v).length + rest.length) : bs = encode v ++ rest := by
  induction g generalizing bs v with
  | zero => simp [decodeWithin] at h
  | succ g ih =>
    cases bs with
    | nil => simp [decodeWithin] at h
    | cons b bs =>
      rw [decodeWithin] at h
      by_cases hb : b < 128
      · rw [if_pos hb] at h
        split at h
        · simp at h
        · obtain ⟨rfl, rfl⟩ : b.toNat = v ∧ bs = rest := by simpa using h
          rw [encode_of_lt (UInt8.lt_iff_toNat_lt.mp hb), UInt8.ofNat_toNat]
          rfl
      · rw [if_neg hb] at h
        obtain ⟨⟨w, r⟩, hw, hv⟩ := Option.map_eq_some_iff.mp h
        obtain ⟨rfl, rfl⟩ : b.toNat - 128 + 128 * w = v ∧ r = rest := by simpa using hv
        have hlt : b.toNat < 256 := b.toNat_lt
        have hge : 128 ≤ b.toNat := by simpa [UInt8.lt_iff_toNat_lt] using hb
        have hmore := length_lt_of_decodeWithin hw
        rw [List.length_cons] at hlen
        rcases Nat.lt_or_ge (b.toNat - 128 + 128 * w) 128 with hv | hv
        · -- the value would fit in one byte, but two or more were read
          rw [encode_of_lt hv, List.length_singleton] at hlen
          omega
        · have hw' : (b.toNat - 128 + 128 * w) / 128 = w := by omega
          have hb' : (b.toNat - 128 + 128 * w) % 128 + 128 = b.toNat := by omega
          rw [encode_of_le hv, hw', List.length_cons] at hlen
          rw [encode_of_le hv, hw', hb', UInt8.ofNat_toNat, List.cons_append]
          exact congrArg (b :: ·) (ih hw (by omega))

lemma eq_encode_of_decode {v : Nat} {bs rest : Bytes} (h : decode bs = some (v, rest))
    (hlen : bs.length - rest.length = (encode v).length) : bs = encode v ++ rest := by
  have := length_lt_of_decodeWithin h
  exact eq_encode_of_decodeWithin h (by omega)

/-! ### Sizes and signs -/

lemma zigzag_double (n : Nat) : zigzag (2 * n) = n := by
  rw [zigzag, if_pos (by omega), Nat.mul_div_cancel_left _ (by decide : 0 < 2)]

lemma length_encode_pos (n : Nat) : 0 < (encode n).length := by
  unfold encode
  split <;> simp

/-- A byte holds seven bits. -/
lemma length_encode_le {n k : Nat} (h : n < 128 ^ (k + 1)) : (encode n).length ≤ k + 1 := by
  induction k generalizing n with
  | zero => simp [encode_of_lt (show n < 128 by omega)]
  | succ k ih =>
    rcases Nat.lt_or_ge n 128 with hn | hn
    · simp [encode_of_lt hn]
    · have hq : n / 128 < 128 ^ (k + 1) := by
        rw [Nat.pow_succ] at h
        omega
      rw [encode_of_le hn, List.length_cons]
      exact Nat.succ_le_succ (ih hq)

end ChainKeys.Varint
