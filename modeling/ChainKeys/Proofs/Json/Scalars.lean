import ChainKeys.Json.Parser
import ChainKeys.Json.Printer
import ChainKeys.Proofs.Decimal
import ChainKeys.Proofs.Except
import Mathlib.Tactic.SplitIfs

/-!
Texts and numbers are read back from JSON. A character is read off its escape whatever follows,
and a number wherever none of its further parts could follow.
-/

namespace ChainKeys.Json

/-! ### Texts -/

lemma hexValue?_digitChar {n : Nat} (h : n < 16) : hexValue? (Nat.digitChar n) = some n := by
  have hall : ∀ n : Fin 16, hexValue? (Nat.digitChar n.val) = some n.val := by decide
  exact hall ⟨n, h⟩

lemma hexUnit?_hex4 (n : Nat) :
    hexUnit? (Nat.digitChar (n / 4096 % 16)) (Nat.digitChar (n / 256 % 16))
      (Nat.digitChar (n / 16 % 16)) (Nat.digitChar (n % 16)) = some (n % 65536) := by
  rw [hexUnit?, hexValue?_digitChar (by omega), hexValue?_digitChar (by omega),
    hexValue?_digitChar (by omega), hexValue?_digitChar (by omega)]
  simp only [Option.bind_eq_bind, Option.bind_some, Option.pure_def, Option.some.injEq]
  omega

/-- A short escape is read as the character it stands for. -/
lemma stringTail_short {c d : Char} (h : unescape? d = some c) (rest : List Char) :
    stringTail ('\\' :: d :: rest) =
      (stringTail rest).map fun (cs, after) => (some c :: cs, after) := by
  have hu : d ≠ 'u' := by
    rintro rfl
    exact nomatch h
  cases htail : stringTail rest <;> simp [stringTail, hu, h, htail]

/-- An escape by number is read as the character of this number, if it is no surrogate. -/
lemma stringTail_hex4 {n : Nat} (h : n < 0xd800) (rest : List Char) :
    stringTail ('\\' :: 'u' :: hex4 n ++ rest) =
      (stringTail rest).map fun (cs, after) => (some (Char.ofNat n) :: cs, after) := by
  have hmod : n % 65536 = n := Nat.mod_eq_of_lt (by omega)
  have hunit := hexUnit?_hex4 n
  have hhigh : isHighSurrogate n = false := by simp [isHighSurrogate]; omega
  have hsurrogate : isSurrogate n = false := by simp [isSurrogate]; omega
  simp only [hex4, List.cons_append, List.nil_append]
  rw [stringTail, hunit, hmod]
  cases htail : stringTail rest <;> simp [hhigh, hsurrogate]

/-- A character is read off its escape, whatever follows. -/
lemma stringTail_escape (c : Char) (rest : List Char) :
    stringTail (escape c ++ rest) =
      (stringTail rest).map fun (cs, after) => (some c :: cs, after) := by
  unfold escape
  split_ifs with h1 h2 h3 h4 h5 h6 h7 h8
  · exact stringTail_short (by rw [h1]; rfl) rest
  · exact stringTail_short (by rw [h2]; rfl) rest
  · exact stringTail_short (by rw [h3]; rfl) rest
  · exact stringTail_short (by rw [h4]; rfl) rest
  · exact stringTail_short (by rw [h5]; rfl) rest
  · exact stringTail_short (by rw [@Char.toNat_inj c '\x08' |>.mp h6]; rfl) rest
  · exact stringTail_short (by rw [@Char.toNat_inj c '\x0c' |>.mp h7]; rfl) rest
  · rw [stringTail_hex4 (by omega), Char.ofNat_toNat]
  · cases htail : stringTail rest <;> simp [stringTail, h2, h8, htail]

lemma stringTail_quoted (cs rest : List Char) :
    stringTail (cs.flatMap escape ++ '"' :: rest) = some (cs.map some, rest) := by
  induction cs with
  | nil => simp [stringTail]
  | cons c cs ih => rw [List.flatMap_cons, List.append_assoc, stringTail_escape, ih]; rfl

lemma wholeText_some (cs : List Char) : wholeText (cs.map some) = some (String.ofList cs) := by
  have hwhole : (cs.map some).mapM id = some cs := mapM_map_eq_pure fun _ _ => rfl
  rw [wholeText, hwhole, Option.map_some]

/-! ### Numbers -/

open Decimal (isDigit isDigit_of_mem ofDigits ofDigits_toDigits head_toDigits toDigits_eq_cons)

/-- No digit comes next. -/
def NoDigit (cs : List Char) : Prop := ∀ c ∈ cs.head?, isDigit c = false

lemma digits?_toDigits (n : Nat) {rest : List Char} (h : NoDigit rest) :
    digits? (Nat.toDigits 10 n ++ rest) = some (Nat.toDigits 10 n, rest) := by
  have hdigits : ∀ c ∈ Nat.toDigits 10 n, isDigit c = true := fun c => isDigit_of_mem
  have hrest : rest.takeWhile isDigit = [] ∧ rest.dropWhile isDigit = rest := by
    cases rest with
    | nil => exact ⟨rfl, rfl⟩
    | cons c rest =>
      have := h c rfl
      simp [this]
  rw [digits?, List.takeWhile_append_of_pos hdigits, List.dropWhile_append_of_pos hdigits, hrest.1,
    hrest.2, List.append_nil]
  split
  · rename_i hnil
    exact absurd hnil Nat.toDigits_ne_nil
  · rfl

lemma whole?_toDigits (n : Nat) {rest : List Char} (h : NoDigit rest) :
    whole? (Nat.toDigits 10 n ++ rest) = some (Nat.toDigits 10 n, rest) := by
  rcases Nat.eq_zero_or_pos n with rfl | hn
  · rfl
  · have hhead := head_toDigits hn
    have hdigits := digits?_toDigits n h
    obtain ⟨c, ds, hd, -⟩ := toDigits_eq_cons n
    rw [hd, List.cons_append] at hdigits ⊢
    have hc : c ≠ '0' := by simpa [hd] using hhead
    rw [whole?.eq_def]
    split
    · rename_i heq
      exact absurd (List.cons.inj heq).1 hc
    · exact hdigits

lemma signed?_toString (i : Int) {rest : List Char} (h : NoDigit rest) :
    signed? ((toString i).toList ++ rest) = some (i, rest) := by
  rw [Int.toString_eq_repr, Int.repr_eq_if]
  split_ifs with hi
  · have hdigits := digits?_toDigits i.toNat h
    have hvalue := ofDigits_toDigits i.toNat
    rw [Nat.toList_repr]
    generalize hds : Nat.toDigits 10 i.toNat = ds at hdigits hvalue ⊢
    obtain ⟨c, ds', rfl, hc⟩ : ∃ c ds', ds = c :: ds' ∧ isDigit c = true :=
      hds ▸ toDigits_eq_cons i.toNat
    rw [List.cons_append] at hdigits ⊢
    rw [signed?.eq_def]
    split
    · rename_i heq
      obtain ⟨rfl, -⟩ := List.cons.inj heq
      exact absurd hc (by decide)
    · rename_i heq
      obtain ⟨rfl, -⟩ := List.cons.inj heq
      exact absurd hc (by decide)
    · rw [hdigits, Option.map_some]
      dsimp only
      rw [hvalue, Int.toNat_of_nonneg hi]
  · have hdigits := digits?_toDigits (-i).toNat h
    have hvalue := ofDigits_toDigits (-i).toNat
    rw [String.toList_append, Nat.toList_repr]
    change (digits? (Nat.toDigits 10 (-i).toNat ++ rest)).map _ = _
    rw [hdigits]
    simp [hvalue]
    omega

/-- Here a value ends: at the end of the text, or in front of what may follow a value. -/
def Delimited : List Char → Prop
  | [] => True
  | c :: _ => c = ',' ∨ c = ']' ∨ c = '\x7d'

lemma Delimited.noDigit {cs : List Char} (h : Delimited cs) : NoDigit cs := by
  intro c hc
  cases cs with
  | nil => exact nomatch hc
  | cons d cs =>
    obtain rfl : d = c := by simpa using hc
    rcases h with rfl | rfl | rfl <;> decide

lemma Delimited.fraction? {cs : List Char} (h : Delimited cs) : fraction? cs = some ([], cs) := by
  cases cs with
  | nil => rfl
  | cons c cs => rcases h with rfl | rfl | rfl <;> rfl

lemma Delimited.exponent? {cs : List Char} (h : Delimited cs) :
    exponent? cs = some (none, cs) := by
  cases cs with
  | nil => rfl
  | cons c cs => rcases h with rfl | rfl | rfl <;> rfl

/-- A number that is spelled as an integer has no exponent. -/
def Number.Written (n : Number) : Prop := n.plain = true → n.exponent = 0

/-- What stands behind the digits of a number. -/
def Number.tail (n : Number) : List Char :=
  if n.plain then [] else 'e' :: (toString n.exponent).toList

lemma Number.tail_append {n : Number} (h : n.Written) {rest : List Char} (hrest : Delimited rest) :
    NoDigit (n.tail ++ rest) ∧ Json.fraction? (n.tail ++ rest) = some ([], n.tail ++ rest) ∧
      ∃ e, Json.exponent? (n.tail ++ rest) = some (e, rest) ∧ e.getD 0 = n.exponent ∧
        e.isNone = n.plain := by
  unfold tail
  cases hp : n.plain with
  | true => exact ⟨hrest.noDigit, hrest.fraction?, none, hrest.exponent?, (h hp).symm, rfl⟩
  | false =>
    refine ⟨fun c hc => ?_, rfl, some n.exponent, ?_, rfl, rfl⟩
    · obtain rfl : 'e' = c := by simpa using hc
      decide
    · change (signed? ((toString n.exponent).toList ++ rest)).map _ = _
      rw [signed?_toString n.exponent hrest.noDigit]
      rfl

lemma number?_render {n : Number} (h : n.Written) {rest : List Char} (hrest : Delimited rest) :
    number? (n.render ++ rest) = some (n, rest) := by
  obtain ⟨hdigit, hfraction, e, hexponent, hvalue, hplain⟩ := Number.tail_append h hrest
  have hwhole := whole?_toDigits n.digits hdigit
  have hnumber := ofDigits_toDigits n.digits
  have hrender : n.render ++ rest = (if n.negative then ['-'] else []) ++
      (Nat.toDigits 10 n.digits ++ (n.tail ++ rest)) := by
    rw [Number.render, Number.tail, List.append_assoc, List.append_assoc]
  rw [hrender]
  generalize n.tail ++ rest = after at hfraction hexponent hwhole ⊢
  obtain ⟨negative, digits, exponent, plain⟩ := n
  dsimp only at *
  subst hvalue hplain
  cases negative with
  | true => simp [number?, hwhole, hfraction, hexponent, hnumber]
  | false =>
    -- the first character is a digit, so no sign is taken off
    obtain ⟨c, ds, hd, hc⟩ := toDigits_eq_cons digits
    rw [hd] at hwhole hnumber ⊢
    rw [if_neg (by decide), List.nil_append, List.cons_append, number?.eq_def]
    split
    rename_i heq
    split at heq
    · rename_i hminus
      obtain ⟨rfl, -⟩ := List.cons.inj hminus
      exact absurd hc (by decide)
    · obtain ⟨rfl, rfl⟩ := Prod.mk.inj heq
      rw [← List.cons_append, hwhole]
      simp [hfraction, hexponent, hnumber]

end ChainKeys.Json
