import ChainKeys.Bech32
import Mathlib.Data.Nat.Bitwise
import Mathlib.Tactic.Lemma

/-!
The checksum fits the text it was computed for. A step of the remainder is linear in exclusive or,
so the remainder of a text and six further symbols is the remainder with six zeros there, changed
by what the symbols spell; the checksum spells just the change that is wanted, and nothing else
spells the same.
-/

namespace ChainKeys.Bech32

lemma reduction_xor (a b : Nat) : reduction (a ^^^ b) = reduction a ^^^ reduction b := by
  have hite : ∀ (p q : Bool) (n : Nat),
      (if (p ^^ q) = true then n else 0) =
        (if p = true then n else 0) ^^^ if q = true then n else 0 := by
    intro p q n
    cases p <;> cases q <;> simp
  simp only [reduction, Nat.testBit_xor, hite]
  ac_rfl

lemma residueStep_xor (r s v w : Nat) :
    residueStep (r ^^^ s) (v ^^^ w) = residueStep r v ^^^ residueStep s w := by
  have hmod : (r ^^^ s) % 0x2000000 = r % 0x2000000 ^^^ s % 0x2000000 :=
    Nat.xor_mod_two_pow (n := 25)
  have hdiv : (r ^^^ s) / 0x2000000 = r / 0x2000000 ^^^ s / 0x2000000 :=
    Nat.xor_div_two_pow (n := 25)
  rw [residueStep, hmod, hdiv, Nat.shiftLeft_xor_distrib, reduction_xor, residueStep, residueStep]
  ac_rfl

/-- Symbols that follow change the remainder by what they spell on their own. -/
lemma foldl_residueStep (values : List Nat) (r s : Nat) :
    values.foldl residueStep (r ^^^ s) =
      (List.replicate values.length 0).foldl residueStep r ^^^ values.foldl residueStep s := by
  induction values generalizing r s with
  | nil => rfl
  | cons v values ih =>
    rw [List.foldl_cons, List.length_cons, List.replicate_succ, List.foldl_cons, List.foldl_cons,
      ← ih, ← residueStep_xor, Nat.zero_xor]

lemma reduction_lt (top : Nat) : reduction top < 2 ^ 30 := by
  unfold reduction
  refine Nat.xor_lt_two_pow (Nat.xor_lt_two_pow (Nat.xor_lt_two_pow (Nat.xor_lt_two_pow ?_ ?_) ?_)
    ?_) ?_ <;> split <;> decide

lemma residueStep_lt (r : Nat) {v : Nat} (hv : v < 32) : residueStep r v < 2 ^ 30 := by
  have hshift : (r % 0x2000000) <<< 5 < 2 ^ 30 := by
    rw [Nat.shiftLeft_eq]
    omega
  exact Nat.xor_lt_two_pow (Nat.xor_lt_two_pow hshift (by omega)) (reduction_lt _)

/-- As long as nothing is shifted out, a step appends a symbol. -/
lemma residueStep_append {r : Nat} (h : r < 2 ^ 30) : residueStep (r >>> 5) (r % 32) = r := by
  have hsmall : r >>> 5 < 0x2000000 := by
    rw [Nat.shiftRight_eq_div_pow]
    omega
  have hjoin : (r >>> 5) <<< 5 ^^^ r % 2 ^ 5 = r := by
    apply Nat.eq_of_testBit_eq
    intro i
    rw [Nat.testBit_xor, Nat.testBit_shiftLeft, Nat.testBit_shiftRight, Nat.testBit_mod_two_pow]
    rcases Nat.lt_or_ge i 5 with hi | hi
    · simp [hi, Nat.not_le_of_lt hi]
    · simp [hi, Nat.not_lt_of_le hi]
  rw [residueStep, Nat.mod_eq_of_lt hsmall, Nat.div_eq_of_lt hsmall, show reduction 0 = 0 from rfl,
    Nat.xor_zero]
  exact hjoin

/-- The six symbols of a remainder. -/
def digits (r : Nat) : List Nat := [25, 20, 15, 10, 5, 0].map fun k => r >>> k % 32

lemma foldl_digits {r : Nat} (h : r < 2 ^ 30) : (digits r).foldl residueStep 0 = r := by
  have hstep : ∀ k, residueStep (r >>> (k + 5)) (r >>> k % 32) = r >>> k := by
    intro k
    have hk : r >>> k < 2 ^ 30 := Nat.lt_of_le_of_lt (Nat.shiftRight_le r k) h
    rw [Nat.shiftRight_add]
    exact residueStep_append hk
  have hstart : r >>> 30 = 0 := by
    rw [Nat.shiftRight_eq_div_pow]
    exact Nat.div_eq_of_lt h
  calc (digits r).foldl residueStep 0
      = (digits r).foldl residueStep (r >>> 30) := by rw [hstart]
    _ = r >>> 0 := by
        simp only [digits, List.map_cons, List.map_nil, List.foldl_cons, List.foldl_nil, hstep 25,
          hstep 20, hstep 15, hstep 10, hstep 5, hstep 0]
    _ = r := rfl

/-- Six symbols spell a remainder, and no others do. -/
lemma digits_foldl {values : List Nat} (hlen : values.length = 6) (hlt : ∀ v ∈ values, v < 32) :
    digits (values.foldl residueStep 0) = values := by
  have hstep : ∀ {r v : Nat}, r < 2 ^ 25 → v < 32 → residueStep r v = 32 * r + v := by
    intro r v hr hv
    have happend := residueStep_append (r := 32 * r + v) (by omega)
    have hhigh : (32 * r + v) >>> 5 = r := by
      rw [Nat.shiftRight_eq_div_pow]
      omega
    have hlow : (32 * r + v) % 32 = v := by omega
    rwa [hhigh, hlow] at happend
  match values, hlen with
  | [a, b, c, d, e, f], _ =>
    simp only [List.forall_mem_cons] at hlt
    obtain ⟨ha, hb, hc, hd, he, hf, -⟩ := hlt
    simp only [List.foldl_cons, List.foldl_nil]
    rw [hstep (by omega) ha, hstep (by omega) hb, hstep (by omega) hc, hstep (by omega) hd,
      hstep (by omega) he, hstep (by omega) hf]
    simp only [digits, List.map_cons, List.map_nil, Nat.shiftRight_eq_div_pow, List.cons.injEq,
      and_true]
    refine ⟨?_, ?_, ?_, ?_, ?_, ?_⟩ <;> omega

lemma target_lt (variant : Variant) : variant.target < 2 ^ 30 := by
  cases variant <;> decide

lemma val_checksum (variant : Variant) (hrp : List Char) (data : List Symbol) :
    (checksum variant hrp data).map (·.val) = digits (residue
      (expand hrp ++ data.map (·.val) ++ List.replicate 6 0) ^^^ variant.target) := rfl

lemma residue_append (before after : List Nat) :
    residue (before ++ after) = after.foldl residueStep (residue before) := List.foldl_append

lemma residue_zeros_lt (values : List Nat) : residue (values ++ List.replicate 6 0) < 2 ^ 30 := by
  rw [residue_append]
  exact residueStep_lt _ (by decide)

/-- Six symbols after the data make the text intact if they spell the change that is wanted. -/
lemma isIntact_append {variant : Variant} {hrp : List Char} {data sum : List Symbol}
    (hlen : sum.length = 6) : isIntact variant hrp (data ++ sum) = true ↔
      (sum.map (·.val)).foldl residueStep 0 =
        residue (expand hrp ++ data.map (·.val) ++ List.replicate 6 0) ^^^ variant.target := by
  have hsplit : residue (expand hrp ++ (data ++ sum).map (·.val)) =
      residue (expand hrp ++ data.map (·.val) ++ List.replicate 6 0) ^^^
        (sum.map (·.val)).foldl residueStep 0 := by
    have hfold := foldl_residueStep (sum.map (·.val)) (residue (expand hrp ++ data.map (·.val))) 0
    rw [Nat.xor_zero, List.length_map, hlen] at hfold
    rw [List.map_append, ← List.append_assoc, residue_append, residue_append _ (List.replicate 6 0),
      hfold]
  rw [isIntact, decide_eq_true_eq, hsplit]
  constructor
  · intro h
    rw [← h, Nat.xor_xor_cancel_left]
  · intro h
    rw [h, Nat.xor_xor_cancel_left]

/-- **Checksum**: under every prefix and for every data, six symbols more make an intact text if
they are the checksum, and no other six do. -/
theorem isIntact_append_iff {variant : Variant} {hrp : List Char} {data sum : List Symbol}
    (hlen : sum.length = 6) :
    isIntact variant hrp (data ++ sum) = true ↔ sum = checksum variant hrp data := by
  have hval := val_checksum variant hrp data
  have hlt := Nat.xor_lt_two_pow (residue_zeros_lt (expand hrp ++ data.map (·.val)))
    (target_lt variant)
  rw [isIntact_append hlen]
  constructor
  · intro h
    have hdigits : digits ((sum.map (·.val)).foldl residueStep 0) = sum.map (·.val) :=
      digits_foldl (by rw [List.length_map, hlen]) (by simp)
    rw [h, ← hval] at hdigits
    exact ((List.map_inj_right fun _ _ => Fin.ext).mp hdigits).symm
  · rintro rfl
    rw [hval, foldl_digits hlt]

end ChainKeys.Bech32
