import ChainKeys.Proofs.Varint
import ChainKeys.Wire
import Mathlib.Algebra.Group.Action.Defs
import Mathlib.Algebra.Order.BigOperators.Group.List
import Mathlib.Algebra.Order.Group.Nat
import Mathlib.Tactic.SplitIfs

/-!
Written messages read back. The bytes of a field are cut off whole, whatever follows them, so a
message is read into the fields it was written from, one after the other.
-/

namespace ChainKeys.Wire

/-- These bytes are a run of whole fields: a reader of fields takes them off, with no more
rounds than there are bytes. -/
def Spells (bs : Bytes) (fs : List Field) : Prop :=
  ∀ rest n, (bs ++ rest).length ≤ n →
    ∃ m, rest.length ≤ m ∧ fieldsWithin n (bs ++ rest) = (fieldsWithin m rest).map (fs ++ ·)

lemma Spells.nil : Spells [] [] := fun rest n hn => ⟨n, hn, by simp⟩

lemma Spells.append {as bs : Bytes} {fs gs : List Field} (ha : Spells as fs)
    (hb : Spells bs gs) : Spells (as ++ bs) (fs ++ gs) := by
  intro rest n hn
  rw [List.append_assoc] at hn ⊢
  obtain ⟨m, hm, hfs⟩ := ha (bs ++ rest) n hn
  obtain ⟨k, hk, hgs⟩ := hb rest m hm
  refine ⟨k, hk, ?_⟩
  rw [hfs, hgs, Option.map_map]
  congr 1
  funext more
  simp

lemma Spells.fields? {bs : Bytes} {fs : List Field} (h : Spells bs fs) : fields? bs = some fs := by
  obtain ⟨m, -, hfs⟩ := h [] bs.length (by simp)
  rw [List.append_nil] at hfs
  rw [Wire.fields?, hfs]
  cases m <;> simp [fieldsWithin]

lemma Spells.field {bs : Bytes} {f : Field} (hne : bs ≠ [])
    (h : ∀ rest, field? (bs ++ rest) = some (f, rest)) : Spells bs [f] := by
  intro rest n hn
  obtain ⟨b, bs, rfl⟩ := List.exists_cons_of_ne_nil hne
  rw [List.cons_append] at hn ⊢
  cases n with
  | zero => simp at hn
  | succ n =>
    simp only [List.length_cons, List.length_append] at hn
    refine ⟨n, by omega, ?_⟩
    rw [fieldsWithin, ← List.cons_append, h]
    simp only [Option.bind_eq_bind, Option.bind_some]
    cases fieldsWithin n rest <;> rfl

/-! ### Single fields -/

lemma key_ne_nil (number type : Nat) : key number type ≠ [] := by
  unfold key Varint.encode
  split_ifs <;> simp

section

variable {number : Nat} (hnumber : 1 ≤ number ∧ number < 536870912)

include hnumber

lemma head?_key {type : Nat} (htype : type ≤ 5) (rest : Bytes) :
    head? (key number type ++ rest) = some (number, type, rest) := by
  have hlt : number * 8 + type < UInt32.size := by
    have : UInt32.size = 536870912 * 8 := rfl
    omega
  have h64 : number * 8 + type < 2 ^ 64 := Nat.lt_trans hlt (by decide)
  have hnumber' : (number * 8 + type) / 8 = number := by omega
  have htype' : (number * 8 + type) % 8 = type := by omega
  have hok : number * 8 + type < UInt32.size ∧ 8 ≤ number * 8 + type ∧ type ≤ 5 :=
    ⟨hlt, by omega, htype⟩
  simp only [head?, key, Varint.decode_encode h64, Option.bind_eq_bind, Option.bind_some,
    hnumber', htype', if_pos hok]
  rfl

lemma spells_message {bs : Bytes} (hlen : bs.length < 2 ^ 64) :
    Spells (putMessage number bs) [⟨number, .bytes bs⟩] := by
  refine .field (by simp [putMessage, key_ne_nil]) fun rest => ?_
  rw [putMessage, List.append_assoc, List.append_assoc]
  simp [field?, head?_key hnumber (by decide : 2 ≤ 5), plain?, Varint.decode_encode hlen, take?]

lemma spells_varint {value : Nat} (hvalue : value < 2 ^ 64) :
    Spells (putVarint number value) (if value = 0 then [] else [⟨number, .varint value⟩]) := by
  unfold putVarint
  split_ifs
  · exact .nil
  · refine .field (by simp [key_ne_nil]) fun rest => ?_
    rw [List.append_assoc]
    simp [field?, head?_key hnumber (by decide : 0 ≤ 5), plain?, Varint.decode_encode hvalue]

lemma spells_bytes {bs : Bytes} (hlen : bs.length < 2 ^ 64) :
    Spells (putBytes number bs) (if bs = [] then [] else [⟨number, .bytes bs⟩]) := by
  unfold putBytes
  split_ifs
  · exact .nil
  · exact spells_message hnumber hlen

end

/-! ### Sizes -/

lemma length_le_putMessage (number : Nat) (bs : Bytes) :
    bs.length ≤ (putMessage number bs).length := by
  simp only [putMessage, List.length_append]
  omega

lemma length_le_putBytes (number : Nat) (bs : Bytes) :
    bs.length ≤ (putBytes number bs).length := by
  unfold putBytes
  split_ifs with h
  · simp [h]
  · exact length_le_putMessage number bs

lemma length_putVarint_le {number value : Nat} (hnumber : number < 536870912)
    (hvalue : value < 2 ^ 64) : (putVarint number value).length ≤ 20 := by
  have hkey : (key number 0).length ≤ 10 := Varint.length_encode_le (k := 9) (by omega)
  have hcode : (Varint.encode value).length ≤ 10 := Varint.length_encode_le (k := 9) (by omega)
  unfold putVarint
  split_ifs
  · simp
  · rw [List.length_append]
    omega

lemma length_putMessage_le {number : Nat} {bs : Bytes} (hnumber : number < 536870912)
    (hlen : bs.length < 2 ^ 64) : (putMessage number bs).length ≤ bs.length + 20 := by
  have hkey : (key number 2).length ≤ 10 := Varint.length_encode_le (k := 9) (by omega)
  have hcount : (Varint.encode bs.length).length ≤ 10 :=
    Varint.length_encode_le (k := 9) (by omega)
  simp only [putMessage, List.length_append]
  omega

lemma length_putBytes_le {number : Nat} {bs : Bytes} (hnumber : number < 536870912)
    (hlen : bs.length < 2 ^ 64) : (putBytes number bs).length ≤ bs.length + 20 := by
  unfold putBytes
  split_ifs with h
  · simp
  · exact length_putMessage_le hnumber hlen

/-- Each of several messages is shorter than all of them. -/
lemma length_le_putMessages {α : Type} {f : α → Bytes} {l : List α} {a : α} (number : Nat)
    (h : a ∈ l) : (f a).length ≤ (l.flatMap fun a => putMessage number (f a)).length := by
  obtain ⟨before, after, rfl⟩ := List.append_of_mem h
  have ha := length_le_putMessage number (f a)
  simp only [List.flatMap_append, List.flatMap_cons, List.length_append]
  omega

lemma length_flatMap_le {α : Type} {f : α → Bytes} {l : List α} {k : Nat}
    (h : ∀ a ∈ l, (f a).length ≤ k) : (l.flatMap f).length ≤ l.length * k := by
  have hsum := List.sum_le_card_nsmul (l.map fun a => (f a).length) k (by simpa using h)
  rwa [List.length_map, smul_eq_mul, ← List.length_flatMap] at hsum

/-! ### Signed numbers -/

/-- Numbers that have 32 bits, one of them for the sign. -/
def Fits32 (i : Int) : Prop := -2147483648 ≤ i ∧ i < 2147483648

instance (i : Int) : Decidable (Fits32 i) :=
  inferInstanceAs (Decidable (-2147483648 ≤ i ∧ i < 2147483648))

lemma ofSigned_lt (i : Int) : ofSigned i < 2 ^ 64 := by
  unfold ofSigned
  omega

lemma signed32_ofSigned {i : Int} (h : Fits32 i) : signed32 (ofSigned i) = i := by
  obtain ⟨hlow, hhigh⟩ := h
  unfold signed32 ofSigned
  rw [Int.bmod_def]
  simp only [UInt32.size]
  omega

lemma int32?_ofSigned {i : Int} (h : Fits32 i) : (Payload.varint (ofSigned i)).int32? = some i :=
  congrArg some (signed32_ofSigned h)

@[simp] lemma bytes?_bytes (bs : Bytes) : (Payload.bytes bs).bytes? = some bs := rfl

lemma ofSigned_eq_zero {i : Int} (h : Fits32 i) (hi : ofSigned i = 0) : i = 0 := by
  obtain ⟨hlow, hhigh⟩ := h
  unfold ofSigned at hi
  omega

/-! ### Taking up fields -/

section

variable {α : Type} {step : Step α} {depth : Nat} {x y z : α} {as bs : Bytes}

/-- These bytes are a run of fields that a message takes up from `x` to `y`. -/
def Takes (step : Step α) (depth : Nat) (bs : Bytes) (x y : α) : Prop :=
  ∃ fs, Spells bs fs ∧ fs.foldlM (step depth) x = some y

lemma Takes.nil : Takes step depth [] x x := ⟨[], .nil, rfl⟩

lemma Takes.append (ha : Takes step depth as x y) (hb : Takes step depth bs y z) :
    Takes step depth (as ++ bs) x z := by
  obtain ⟨fs, hfs, hxy⟩ := ha
  obtain ⟨gs, hgs, hyz⟩ := hb
  refine ⟨fs ++ gs, hfs.append hgs, ?_⟩
  rw [List.foldlM_append, hxy]
  exact hyz

lemma Takes.merge (h : Takes step depth bs x y) : merge step depth x bs = some y := by
  obtain ⟨fs, hfs, hxy⟩ := h
  rw [Wire.merge, hfs.fields?]
  exact hxy

lemma Takes.mergeInner (h : Takes step depth bs x y) :
    mergeInner step (depth + 1) x (.bytes bs) = some y := h.merge

variable {number : Nat} (hnumber : 1 ≤ number ∧ number < 536870912)

include hnumber

lemma takes_message (hlen : bs.length < 2 ^ 64)
    (hstep : step depth x ⟨number, .bytes bs⟩ = some y) :
    Takes step depth (putMessage number bs) x y :=
  ⟨_, spells_message hnumber hlen, by simp [hstep]⟩

lemma takes_bytes (hlen : bs.length < 2 ^ 64)
    (hstep : step depth x ⟨number, .bytes bs⟩ = some y) (hempty : bs = [] → x = y) :
    Takes step depth (putBytes number bs) x y := by
  refine ⟨_, spells_bytes hnumber hlen, ?_⟩
  split_ifs with h
  · rw [hempty h]
    rfl
  · simp [hstep]

lemma takes_varint {value : Nat} (hvalue : value < 2 ^ 64)
    (hstep : step depth x ⟨number, .varint value⟩ = some y) (hzero : value = 0 → x = y) :
    Takes step depth (putVarint number value) x y := by
  refine ⟨_, spells_varint hnumber hvalue, ?_⟩
  split_ifs with h
  · rw [hzero h]
    rfl
  · simp [hstep]

lemma takes_signed {i : Int} (hfits : Fits32 i)
    (hstep : step depth x ⟨number, .varint (ofSigned i)⟩ = some y) (hzero : i = 0 → x = y) :
    Takes step depth (putVarint number (ofSigned i)) x y :=
  takes_varint hnumber (ofSigned_lt i) hstep fun h => hzero (ofSigned_eq_zero hfits h)

/-- A message that may be left out. -/
lemma takes_optional {β : Type} {f : β → Bytes} {o : Option β} {g : Option β → α}
    (hlen : (o.elim [] fun b => putMessage number (f b)).length < 2 ^ 64)
    (hstep : ∀ b ∈ o, (f b).length < 2 ^ 64 →
      step depth (g none) ⟨number, .bytes (f b)⟩ = some (g (some b))) :
    Takes step depth (o.elim [] fun b => putMessage number (f b)) (g none) (g o) := by
  cases o with
  | none => exact .nil
  | some b =>
    have hb := Nat.lt_of_le_of_lt (length_le_putMessage number (f b)) hlen
    exact takes_message hnumber hb (hstep b rfl hb)

/-- A repeated field adds its values one by one. -/
lemma takes_repeated {β : Type} {f : β → Bytes} {l : List β} {g : List β → α}
    (hlen : ∀ b ∈ l, (f b).length < 2 ^ 64)
    (hstep : ∀ before, ∀ b ∈ l, step depth (g before) ⟨number, .bytes (f b)⟩ =
      some (g (before ++ [b]))) (before : List β) :
    Takes step depth (l.flatMap fun b => putMessage number (f b)) (g before)
      (g (before ++ l)) := by
  induction l generalizing before with
  | nil =>
    rw [List.append_nil]
    exact .nil
  | cons b l ih =>
    rw [List.flatMap_cons, List.append_cons]
    refine .append (takes_message hnumber (hlen b (by simp)) (hstep before b (by simp))) ?_
    exact ih (fun c hc => hlen c (by simp [hc])) (fun before c hc => hstep before c (by simp [hc]))
      (before ++ [b])

end

end ChainKeys.Wire
