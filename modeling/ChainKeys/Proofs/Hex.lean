import ChainKeys.Hex
import ChainKeys.Proofs.Except
import ChainKeys.Proofs.Utf8

/-!
What hexadecimal text spells: each byte is two digits, its upper half first. So a text spells
`n` bytes when it is `2 * n` digits, of either case, and no other text does.
-/

namespace ChainKeys.Hex

/-! ### Digits -/

def IsDigit (c : Char) : Prop :=
  ('0' ≤ c ∧ c ≤ '9') ∨ ('a' ≤ c ∧ c ≤ 'f') ∨ ('A' ≤ c ∧ c ≤ 'F')

instance (c : Char) : Decidable (IsDigit c) :=
  inferInstanceAs (Decidable (('0' ≤ c ∧ c ≤ '9') ∨ ('a' ≤ c ∧ c ≤ 'f') ∨ ('A' ≤ c ∧ c ≤ 'F')))

/-- The value of a digit. -/
def digit? (c : Char) : Option Nat :=
  if c.toNat < 128 then value? (UInt8.ofNat c.toNat) else none

lemma value?_eq (b : UInt8) : value? b =
    if 48 ≤ b.toNat ∧ b.toNat ≤ 57 then some (b.toNat - 48)
    else if 97 ≤ b.toNat ∧ b.toNat ≤ 102 then some (b.toNat - 87)
    else if 65 ≤ b.toNat ∧ b.toNat ≤ 70 then some (b.toNat - 55)
    else none := rfl

lemma value?_eq_some {b : UInt8} {n : Nat} (h : value? b = some n) : n < 16 ∧ b.toNat < 128 := by
  rw [value?_eq] at h
  split_ifs at h <;> obtain rfl := Option.some.inj h <;> omega

lemma digit?_eq {c : Char} (h : c.toNat < 128) : digit? c = value? (UInt8.ofNat c.toNat) :=
  if_pos h

lemma digit?_eq_some {c : Char} {n : Nat} (h : digit? c = some n) : n < 16 ∧ c.toNat < 128 := by
  unfold digit? at h
  split_ifs at h with hc
  exact ⟨(value?_eq_some h).1, hc⟩

lemma isSome_digit? {c : Char} : (digit? c).isSome ↔ IsDigit c := by
  by_cases hc : c.toNat < 128
  · exact Utf8.forall_ascii hc (by decide)
  · simp only [digit?, if_neg hc, IsDigit, Char.le_def, UInt32.le_iff_toNat_le, Char.toNat_val]
    simp
    omega

/-! ### Bytes -/

/-- The values of the two digits of each byte. -/
def halves (bs : Bytes) : List (Option Nat) :=
  bs.flatMap fun b => [some (b.toNat / 16), some (b.toNat % 16)]

@[simp] lemma halves_nil : halves [] = [] := rfl

@[simp] lemma halves_cons (b : UInt8) (bs : Bytes) :
    halves (b :: bs) = some (b.toNat / 16) :: some (b.toNat % 16) :: halves bs := rfl

@[simp] lemma length_halves (bs : Bytes) : (halves bs).length = 2 * bs.length := by
  simp [halves, Nat.mul_comm]

/-- Two halves make a byte. -/
lemma halves_join {x y : Nat} (hx : x < 16) (hy : y < 16) (bs : Bytes) :
    halves (UInt8.ofNat (16 * x + y) :: bs) = some x :: some y :: halves bs := by
  have hbyte : (UInt8.ofNat (16 * x + y)).toNat = 16 * x + y := Utf8.toNat_byte (by omega)
  rw [halves_cons, hbyte]
  congr 3 <;> omega

lemma decodePairs_eq_ok_iff {position : Nat} {bs out : Bytes} :
    decodePairs position bs = .ok out ↔ bs.map value? = halves out := by
  fun_induction decodePairs position bs generalizing out with
  | case1 => cases out <;> simp
  | case2 position b =>
    refine iff_of_false (by simp) fun h => ?_
    have := congrArg List.length h
    simp at this
    omega
  | case3 position a b rest x y hy hx ih =>
    constructor
    · intro h
      obtain ⟨more, hmore, rfl⟩ := map_eq_ok h
      have hjoin := halves_join (value?_eq_some hx).1 (value?_eq_some hy).1 more
      rw [hjoin, ← ih.mp hmore, List.map_cons, List.map_cons, hx, hy]
    · intro h
      cases out with
      | nil => simp at h
      | cons c out =>
        simp only [List.map_cons, hx, hy, halves_cons, List.cons.injEq, Option.some.injEq] at h
        obtain ⟨rfl, rfl, h⟩ := h
        have hc : 16 * (c.toNat / 16) + c.toNat % 16 = c.toNat := Nat.div_add_mod ..
        rw [ih.mpr h, hc, UInt8.ofNat_toNat]
        rfl
  | case4 position a b rest hx =>
    cases out <;> simp [hx]
  | case5 position a b rest hy _ =>
    cases out <;> simp [hy]

lemma decodeBytes_eq_ok_iff {bs out : Bytes} :
    decodeBytes bs = .ok out ↔ bs.map value? = halves out := by
  unfold decodeBytes
  split_ifs with hodd
  · refine iff_of_false (by simp) fun h => ?_
    have := congrArg List.length h
    simp at this
    omega
  · exact decodePairs_eq_ok_iff

lemma isSome_of_mem_halves {o : Option Nat} {bs : Bytes} (h : o ∈ halves bs) : o.isSome := by
  obtain ⟨b, -, hb⟩ := List.mem_flatMap.mp h
  rcases List.mem_pair.mp hb with rfl | rfl <;> rfl

lemma map_digit? {s : String} (h : ∀ c ∈ s.toList, c.toNat < 128) :
    s.toList.map digit? = (Utf8.encode s).map value? := by
  rw [Utf8.encode_eq_map h, List.map_map]
  exact List.map_congr_left fun c hc => digit?_eq (h c hc)

/-- A text spells the bytes whose halves its digits are. -/
theorem decode_eq_ok_iff {s : String} {bs : Bytes} :
    decode s = .ok bs ↔ s.toList.map digit? = halves bs := by
  rw [decode, decodeBytes_eq_ok_iff]
  constructor
  · intro h
    rw [map_digit? fun c hc => ?_, h]
    by_contra hlarge
    obtain ⟨b, hb, hb128⟩ := Utf8.exists_byte_of_le (Nat.le_of_not_lt hlarge)
    have hmem : b ∈ Utf8.encode s := List.mem_flatMap.mpr ⟨c, hc, hb⟩
    have hsome := isSome_of_mem_halves (h ▸ List.mem_map_of_mem hmem)
    obtain ⟨n, hn⟩ := Option.isSome_iff_exists.mp hsome
    have := (value?_eq_some hn).2
    omega
  · intro h
    rw [← map_digit? fun c hc => ?_, h]
    have hsome := isSome_of_mem_halves (h ▸ List.mem_map_of_mem hc)
    obtain ⟨n, hn⟩ := Option.isSome_iff_exists.mp hsome
    exact (digit?_eq_some hn).2

lemma exists_halves {n : Nat} {cs : List Char} (hlen : cs.length = 2 * n)
    (h : ∀ c ∈ cs, IsDigit c) : ∃ bs, cs.map digit? = halves bs ∧ bs.length = n := by
  induction n generalizing cs with
  | zero =>
    obtain rfl := List.length_eq_zero_iff.mp hlen
    exact ⟨[], rfl, rfl⟩
  | succ n ih =>
    match cs, hlen with
    | a :: b :: cs, hlen =>
      simp only [List.forall_mem_cons, ← isSome_digit?, Option.isSome_iff_exists] at h
      obtain ⟨⟨x, hx⟩, ⟨y, hy⟩, hrest⟩ := h
      simp only [← Option.isSome_iff_exists, isSome_digit?] at hrest
      obtain ⟨bs, hbs, hcount⟩ := ih (by simpa [Nat.mul_add] using hlen) hrest
      have hjoin := halves_join (digit?_eq_some hx).1 (digit?_eq_some hy).1 bs
      refine ⟨UInt8.ofNat (16 * x + y) :: bs, ?_, by rw [List.length_cons, hcount]⟩
      rw [hjoin, ← hbs, List.map_cons, List.map_cons, hx, hy]

/-- The texts that spell `n` bytes. -/
theorem exists_decode_iff {s : String} {n : Nat} : (∃ bs, decode s = .ok bs ∧ bs.length = n) ↔
    s.length = 2 * n ∧ ∀ c ∈ s.toList, IsDigit c := by
  simp only [decode_eq_ok_iff, ← String.length_toList]
  constructor
  · rintro ⟨bs, h, rfl⟩
    refine ⟨by simpa using congrArg List.length h, fun c hc => ?_⟩
    exact isSome_digit?.mp (isSome_of_mem_halves (h ▸ List.mem_map_of_mem hc))
  · rintro ⟨hlen, h⟩
    exact exists_halves hlen h

/-! ### Written text -/

/-- Bytes are read back from digits that have the values they are written for. -/
lemma decode_encodeWith {digit : Nat → Char} (h : ∀ n : Fin 16, digit? (digit n) = some n.val)
    (bs : Bytes) : decode (String.ofList (encodeWith digit bs)) = .ok bs := by
  rw [decode_eq_ok_iff, String.toList_ofList]
  induction bs with
  | nil => rfl
  | cons b bs ih =>
    have hb := b.toNat_lt
    have hhigh : digit? (digit (b.toNat / 16)) = some (b.toNat / 16) :=
      h ⟨b.toNat / 16, by omega⟩
    have hlow : digit? (digit (b.toNat % 16)) = some (b.toNat % 16) :=
      h ⟨b.toNat % 16, by omega⟩
    rw [halves_cons, ← ih, encodeWith, List.flatMap_cons, List.map_append, List.map_cons,
      List.map_singleton, hhigh, hlow]
    rfl

/-- **Round trip**: bytes are read back from their upper-case text. -/
theorem decode_encodeUpper (bs : Bytes) : decode (encodeUpper bs) = .ok bs :=
  decode_encodeWith (by decide) bs

/-- **Round trip**: bytes are read back from their lower-case text. -/
theorem decode_encodeLower (bs : Bytes) : decode (encode bs) = .ok bs :=
  decode_encodeWith (by decide) bs

end ChainKeys.Hex
