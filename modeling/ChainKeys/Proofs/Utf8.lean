import ChainKeys.Proofs.Except
import ChainKeys.Utf8
import Mathlib.Tactic.Lemma
import Mathlib.Tactic.SplitIfs

/-!
Every text is read back from its bytes, by the strict reader. The argument goes by the number of
bytes of a character: which first byte it has, and which second byte may follow that one.
-/

namespace ChainKeys.Utf8

/-- What holds of each of the 128 ASCII characters. -/
@[elab_as_elim]
lemma forall_ascii {P : Char → Prop} {c : Char} (hc : c.toNat < 128)
    (h : ∀ n : Fin 128, P (Char.ofNat n)) : P c := by
  have := h ⟨c.toNat, hc⟩
  rwa [Char.ofNat_toNat] at this

lemma encodeChar_of_lt {c : Char} (h : c.toNat < 128) :
    String.utf8EncodeChar c = [UInt8.ofNat c.toNat] := by
  rw [String.utf8EncodeChar]
  exact if_pos (Nat.le_of_lt_succ h)

/-- ASCII characters are single bytes. -/
lemma encode_eq_map {s : String} (h : ∀ c ∈ s.toList, c.toNat < 128) :
    encode s = s.toList.map fun c => UInt8.ofNat c.toNat := by
  rw [encode]
  generalize s.toList = cs at h ⊢
  induction cs with
  | nil => rfl
  | cons c cs ih =>
    rw [List.flatMap_cons, encodeChar_of_lt (h c (by simp)), ih fun d hd => h d (by simp [hd])]
    rfl

lemma length_encode {s : String} (h : ∀ c ∈ s.toList, c.toNat < 128) :
    (encode s).length = s.length := by
  rw [encode_eq_map h, List.length_map, String.length_toList]

/-- A character beyond ASCII has a byte beyond it. -/
lemma exists_byte_of_le {c : Char} (h : 128 ≤ c.toNat) :
    ∃ b ∈ String.utf8EncodeChar c, 128 ≤ b.toNat := by
  have hv : 128 ≤ c.val.toNat := h
  refine ⟨UInt8.ofNat (c.val.toNat % 64 + 128), ?_, ?_⟩
  · unfold String.utf8EncodeChar
    dsimp only
    split_ifs <;> simp
    omega
  · rw [UInt8.toNat_ofNat']
    omega

section

variable {a b : UInt8}

lemma width_eq (a : UInt8) : width a =
    if a.toNat < 128 then 1 else if a.toNat < 194 then 0 else if a.toNat < 224 then 2
    else if a.toNat < 240 then 3 else if a.toNat < 245 then 4 else 0 := rfl

lemma isTail_iff : isTail b = true ↔ 128 ≤ b.toNat ∧ b.toNat ≤ 191 := by
  simp [isTail, UInt8.le_iff_toNat_le]

lemma isSecond_iff : isSecond a b = true ↔ 128 ≤ b.toNat ∧ b.toNat ≤ 191 ∧
    (a.toNat = 224 → 160 ≤ b.toNat) ∧ (a.toNat = 237 → b.toNat ≤ 159) ∧
    (a.toNat = 240 → 144 ≤ b.toNat) ∧ (a.toNat = 244 → b.toNat ≤ 143) := by
  simp only [isSecond, ← UInt8.toNat_inj]
  split_ifs <;> simp_all [isTail, UInt8.le_iff_toNat_le] <;> omega

end

lemma toNat_byte {n : Nat} (h : n < 256) : (UInt8.ofNat n).toNat = n :=
  UInt8.toNat_ofNat_of_lt' h

/-- No character is half of a surrogate pair, and none is past the last code point. -/
lemma scalar (c : Char) :
    c.val.toNat < 55296 ∨ (57343 < c.val.toNat ∧ c.val.toNat < 1114112) := c.valid

/-- The bytes of a character are read as this character, whatever follows. -/
lemma units_encodeChar (c : Char) (rest : Bytes) :
    units (String.utf8EncodeChar c ++ rest) = some c :: units rest := by
  have hc := scalar c
  have hchar : ∀ n, n = c.val.toNat → Char.ofNat n = c := by
    rintro n rfl
    exact Char.ofNat_toNat c
  have htail : ∀ n, (UInt8.ofNat (n % 64 + 128)).toNat = n % 64 + 128 := fun n =>
    toNat_byte (by omega)
  unfold String.utf8EncodeChar
  dsimp only
  generalize c.val.toNat = n at hc hchar ⊢
  split_ifs with h1 h2 h3
  · -- one byte
    have ha : (UInt8.ofNat n).toNat = n := toNat_byte (by omega)
    generalize UInt8.ofNat n = a at ha ⊢
    have hw : width a = 1 := by rw [width_eq, ha, if_pos (by omega)]
    rw [List.cons_append, units.eq_def]
    simp only [hw, List.nil_append, ha, hchar n rfl]
  · -- two bytes
    have ha : (UInt8.ofNat (n / 64 % 32 + 192)).toNat = n / 64 + 192 := by
      rw [toNat_byte (by omega)]
      omega
    have hb := htail n
    generalize UInt8.ofNat (n / 64 % 32 + 192) = a at ha ⊢
    generalize UInt8.ofNat (n % 64 + 128) = b at hb ⊢
    have hw : width a = 2 := by
      rw [width_eq, ha]
      split_ifs <;> omega
    have hsecond : isSecond a b = true := isSecond_iff.mpr (by omega)
    rw [List.cons_append, units.eq_def]
    simp only [hw, List.cons_append, List.nil_append, hsecond, if_true]
    rw [hchar _ (by simp only [low6, ha, hb]; omega)]
  · -- three bytes
    have ha : (UInt8.ofNat (n / 4096 % 16 + 224)).toNat = n / 4096 + 224 := by
      rw [toNat_byte (by omega)]
      omega
    have hb := htail (n / 64)
    have hd := htail n
    generalize UInt8.ofNat (n / 4096 % 16 + 224) = a at ha ⊢
    generalize UInt8.ofNat (n / 64 % 64 + 128) = b at hb ⊢
    generalize UInt8.ofNat (n % 64 + 128) = d at hd ⊢
    have hw : width a = 3 := by
      rw [width_eq, ha]
      split_ifs <;> omega
    have hsecond : isSecond a b = true := isSecond_iff.mpr (by omega)
    have hthird : isTail d = true := isTail_iff.mpr (by omega)
    rw [List.cons_append, units.eq_def]
    simp only [hw, List.cons_append, List.nil_append, hsecond, hthird, if_true]
    rw [hchar _ (by simp only [low6, ha, hb, hd]; omega)]
  · -- four bytes
    have ha : (UInt8.ofNat (n / 262144 % 8 + 240)).toNat = n / 262144 + 240 := by
      rw [toNat_byte (by omega)]
      omega
    have hb := htail (n / 4096)
    have hd := htail (n / 64)
    have he := htail n
    generalize UInt8.ofNat (n / 262144 % 8 + 240) = a at ha ⊢
    generalize UInt8.ofNat (n / 4096 % 64 + 128) = b at hb ⊢
    generalize UInt8.ofNat (n / 64 % 64 + 128) = d at hd ⊢
    generalize UInt8.ofNat (n % 64 + 128) = e at he ⊢
    have hw : width a = 4 := by
      rw [width_eq, ha]
      split_ifs <;> omega
    have hsecond : isSecond a b = true := isSecond_iff.mpr (by omega)
    have hthird : isTail d = true := isTail_iff.mpr (by omega)
    have hfourth : isTail e = true := isTail_iff.mpr (by omega)
    rw [List.cons_append, units.eq_def]
    simp only [hw, List.cons_append, List.nil_append, hsecond, hthird, hfourth, if_true]
    rw [hchar _ (by simp only [low6, ha, hb, hd, he]; omega)]

/-- **Round trip**: a text is read back from its bytes. -/
theorem decode?_encode (s : String) : decode? (encode s) = some s := by
  have hunits : ∀ cs : List Char,
      units (cs.flatMap String.utf8EncodeChar) = cs.map some := by
    intro cs
    induction cs with
    | nil => rw [List.flatMap_nil, units, List.map_nil]
    | cons c cs ih => rw [List.flatMap_cons, units_encodeChar, ih, List.map_cons]
  have hwhole : (s.toList.map some).mapM id = some s.toList := mapM_map_eq_pure fun _ _ => rfl
  rw [decode?, encode, hunits, hwhole, Option.map_some, String.ofList_toList]

end ChainKeys.Utf8
