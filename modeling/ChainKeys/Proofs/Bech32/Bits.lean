import ChainKeys.Bech32
import Mathlib.Data.Nat.Bitwise
import Mathlib.Tactic.Lemma
import Mathlib.Tactic.Ring

/-!
Bytes regrouped into symbols of five bits. What is written for a byte string holds its bits and
fewer than five zeros after them, so the bytes are read back whatever their number is.
-/

namespace ChainKeys.Bech32

/-! ### Bits of a number -/

@[simp] lemma length_bitsOf (w n : Nat) : (bitsOf w n).length = w := by
  induction w with
  | zero => rfl
  | succ w ih => rw [bitsOf, List.length_cons, ih]

lemma bitsOf_congr {w m n : Nat} (h : ∀ i < w, m.testBit i = n.testBit i) :
    bitsOf w m = bitsOf w n := by
  induction w with
  | zero => rfl
  | succ w ih => rw [bitsOf, bitsOf, h w (by omega), ih fun i hi => h i (by omega)]

lemma foldl_ofBits (bits : List Bool) (n : Nat) :
    bits.foldl (fun n b => 2 * n + b.toNat) n = n * 2 ^ bits.length + ofBits bits := by
  induction bits generalizing n with
  | nil => simp [ofBits]
  | cons b bits ih =>
    rw [ofBits, List.foldl_cons, List.foldl_cons, ih, ih (2 * 0 + b.toNat), List.length_cons]
    ring

lemma ofBits_cons (b : Bool) (bits : List Bool) :
    ofBits (b :: bits) = 2 ^ bits.length * b.toNat + ofBits bits := by
  rw [ofBits, List.foldl_cons, foldl_ofBits]
  ring

lemma ofBits_lt (bits : List Bool) : ofBits bits < 2 ^ bits.length := by
  induction bits with
  | nil => simp [ofBits]
  | cons b bits ih =>
    rw [ofBits_cons, List.length_cons, Nat.pow_succ]
    cases b <;> simp <;> omega

/-- The bits of a number spell its remainder. -/
lemma ofBits_bitsOf (w n : Nat) : ofBits (bitsOf w n) = n % 2 ^ w := by
  induction w with
  | zero => simp [bitsOf, ofBits, Nat.mod_one]
  | succ w ih =>
    rw [bitsOf, ofBits_cons, length_bitsOf, ih, Nat.mod_pow_succ, Nat.toNat_testBit]
    ring

/-- The number that some bits spell has these bits. -/
lemma bitsOf_add (v w n : Nat) : bitsOf (v + w) n = bitsOf v (n / 2 ^ w) ++ bitsOf w n := by
  induction v with
  | zero => rw [Nat.zero_add, bitsOf, List.nil_append]
  | succ v ih =>
    rw [Nat.succ_add, bitsOf, bitsOf, ih, Nat.testBit_div_two_pow, List.cons_append]

lemma ofBits_append (as bs : List Bool) :
    ofBits (as ++ bs) = ofBits as * 2 ^ bs.length + ofBits bs := by
  rw [ofBits, List.foldl_append, foldl_ofBits]
  rfl

lemma bitsOf_ofBits (bits : List Bool) : bitsOf bits.length (ofBits bits) = bits := by
  induction bits with
  | nil => rfl
  | cons b bits ih =>
    have hbit := Nat.testBit_two_pow_mul_add b.toNat (ofBits_lt bits)
    have hlow : ∀ i < bits.length, (ofBits (b :: bits)).testBit i = (ofBits bits).testBit i := by
      intro i hi
      rw [ofBits_cons, hbit, if_pos hi]
    rw [List.length_cons, bitsOf, bitsOf_congr hlow, ih, ofBits_cons, hbit, if_neg (by omega)]
    cases b <;> simp

/-! ### Groups of bits -/

/-- Fewer than five bits make no full symbol. -/
lemma lt_five {bits : List Bool}
    (h : ∀ a b c d e rest, bits = a :: b :: c :: d :: e :: rest → False) : bits.length < 5 := by
  by_contra hc
  match bits, h, hc with
  | a :: b :: c :: d :: e :: rest, h, _ => exact h a b c d e rest rfl
  | [], _, hc | [_], _, hc | [_, _], _, hc | [_, _, _], _, hc | [_, _, _, _], _, hc =>
    simp at hc

lemma length_symbolsOfBits (bits : List Bool) :
    (symbolsOfBits bits).length = (bits.length + 4) / 5 := by
  fun_induction symbolsOfBits bits with
  | case1 a b c d e rest ih =>
    simp only [List.length_cons, ih]
    omega
  | case2 => rfl
  | case3 short hlong hne =>
    have hpos : 0 < short.length := List.length_pos_iff.mpr hne
    have hlt := lt_five hlong
    rw [List.length_singleton]
    omega

lemma bitsOf_symbol {bits : List Bool} (h : bits.length = 5) :
    bitsOf 5 (Fin.ofNat 32 (ofBits bits)).val = bits := by
  have hlt : ofBits bits < 32 := by simpa [h] using ofBits_lt bits
  rw [Fin.val_ofNat, Nat.mod_eq_of_lt hlt, ← h, bitsOf_ofBits]

/-- The symbols hold the bits, and zeros that fill up the last symbol. -/
lemma bits_symbolsOfBits (bits : List Bool) : ∃ n < 5,
    (symbolsOfBits bits).flatMap (fun s => bitsOf 5 s.val) = bits ++ List.replicate n false := by
  fun_induction symbolsOfBits bits with
  | case1 a b c d e rest ih =>
    obtain ⟨n, hn, hbits⟩ := ih
    refine ⟨n, hn, ?_⟩
    rw [List.flatMap_cons, hbits, bitsOf_symbol rfl]
    rfl
  | case2 => exact ⟨0, by omega, rfl⟩
  | case3 short hlong hne =>
    have hpos : 0 < short.length := List.length_pos_iff.mpr hne
    have hlt := lt_five hlong
    refine ⟨5 - short.length, by omega, ?_⟩
    rw [List.flatMap_singleton, bitsOf_symbol]
    simp
    omega

lemma bytesOfBits_append {byte : List Bool} (h : byte.length = 8) (rest : List Bool) :
    bytesOfBits (byte ++ rest) = UInt8.ofNat (ofBits byte) :: bytesOfBits rest := by
  match byte, h with
  | [a, b, c, d, e, f, g, h], _ => rfl

lemma bytesOfBits_of_lt {bits : List Bool} (h : bits.length < 8) : bytesOfBits bits = [] := by
  unfold bytesOfBits
  split
  · simp only [List.length_cons] at h
    omega
  · rfl

@[simp] lemma length_flatMap_bitsOf {α : Type} (w : Nat) (f : α → Nat) (l : List α) :
    (l.flatMap fun x => bitsOf w (f x)).length = w * l.length := by
  induction l with
  | nil => rfl
  | cons x l ih =>
    rw [List.flatMap_cons, List.length_append, ih, length_bitsOf, List.length_cons]
    ring

/-- The bytes hold the bits up to the end of the last whole byte. -/
lemma bits_bytesOfBits (bits : List Bool) :
    (bytesOfBits bits).flatMap (fun b => bitsOf 8 b.toNat) ++ bits.drop (8 * (bits.length / 8)) =
      bits := by
  induction hn : bits.length / 8 generalizing bits with
  | zero =>
    rw [bytesOfBits_of_lt (by omega)]
    rfl
  | succ n ih =>
    have hbyte : (bits.take 8).length = 8 := by
      rw [List.length_take]
      omega
    have hrest : (bits.drop 8).length / 8 = n := by
      rw [List.length_drop]
      omega
    have hbits : bitsOf 8 (UInt8.ofNat (ofBits (bits.take 8))).toNat = bits.take 8 := by
      have hlt : ofBits (bits.take 8) < 256 := by
        simpa [hbyte] using ofBits_lt (bits.take 8)
      have hspell := bitsOf_ofBits (bits.take 8)
      rw [hbyte] at hspell
      rw [UInt8.toNat_ofNat_of_lt' hlt, hspell]
    have hdrop : bits.drop (8 * (n + 1)) = (bits.drop 8).drop (8 * n) := by
      rw [List.drop_drop, Nat.mul_add, Nat.add_comm, Nat.mul_one]
    have hbytes : bytesOfBits bits =
        UInt8.ofNat (ofBits (bits.take 8)) :: bytesOfBits (bits.drop 8) := by
      rw [← bytesOfBits_append hbyte, List.take_append_drop]
    rw [hbytes, List.flatMap_cons, hbits, hdrop, List.append_assoc, ih _ hrest,
      List.take_append_drop]

lemma length_bytesOfBits (bits : List Bool) : (bytesOfBits bits).length = bits.length / 8 := by
  have hlen := congrArg List.length (bits_bytesOfBits bits)
  rw [List.length_append, length_flatMap_bitsOf, List.length_drop] at hlen
  omega

/-- Bits left over after whole bytes are dropped. -/
lemma bytesOfBits_bits (bs : Bytes) {fill : List Bool} (h : fill.length < 8) :
    bytesOfBits (bs.flatMap (fun b => bitsOf 8 b.toNat) ++ fill) = bs := by
  induction bs with
  | nil => exact bytesOfBits_of_lt h
  | cons b bs ih =>
    rw [List.flatMap_cons, List.append_assoc, bytesOfBits_append (length_bitsOf 8 b.toNat),
      ofBits_bitsOf, ih, Nat.mod_eq_of_lt b.toNat_lt, UInt8.ofNat_toNat]

/-- Eight bits a byte, five bits a symbol, the last symbol filled up. -/
lemma length_symbolsOfBytes (bs : Bytes) :
    (symbolsOfBytes bs).length = (8 * bs.length + 4) / 5 := by
  rw [symbolsOfBytes, length_symbolsOfBits, length_flatMap_bitsOf]

lemma length_bytesOfSymbols (ss : List Symbol) :
    (bytesOfSymbols ss).length = 5 * ss.length / 8 := by
  rw [bytesOfSymbols, length_bytesOfBits, length_flatMap_bitsOf]

/-- A byte string is read back from its symbols. -/
theorem bytesOfSymbols_symbolsOfBytes (bs : Bytes) : bytesOfSymbols (symbolsOfBytes bs) = bs := by
  obtain ⟨n, hn, hbits⟩ := bits_symbolsOfBits (bs.flatMap fun b => bitsOf 8 b.toNat)
  rw [bytesOfSymbols, symbolsOfBytes, hbits, bytesOfBits_bits bs (by simp; omega)]

end ChainKeys.Bech32
