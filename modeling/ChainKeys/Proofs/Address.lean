import ChainKeys.Address
import ChainKeys.Proofs.Bech32.Reading
import ChainKeys.Proofs.Bech32.RoundTrip
import ChainKeys.Proofs.Hex

/-!
Addresses as text. Forty hexadecimal digits spell an address, and bech32 text under a prefix of
one digit can be forty hexadecimal digits as well. Such a text is taken for what it spells, which
is never the address it was written for. Any other bech32 text is read as the address it was
written for.
-/

namespace ChainKeys.Address

open Bech32

/-! ### The two forms -/

/-- Forty hexadecimal digits. -/
def IsHex (s : String) : Prop := s.length = 40 ∧ ∀ c ∈ s.toList, Hex.IsDigit c

/-- One hexadecimal digit. -/
def IsDigitPrefix (hrp : String) : Prop := ∃ c, Hex.IsDigit c ∧ hrp.toList = [c]

lemma exists_spelled_iff {s : String} :
    (∃ a : Address, Hex.decode s = .ok a.bytes) ↔ IsHex s := by
  rw [IsHex, ← Hex.exists_decode_iff (n := 20)]
  exact ⟨fun ⟨a, h⟩ => ⟨a.bytes, h, a.length_eq⟩, fun ⟨bs, h, hlen⟩ => ⟨⟨bs, hlen⟩, h⟩⟩

lemma parse_of_spelled {s : String} {a : Address} (h : Hex.decode s = .ok a.bytes) :
    parse s = .ok a := by
  rw [parse, h]
  exact dif_pos a.length_eq

lemma parse_of_not_isHex {s : String} (h : ¬ IsHex s) : parse s = (ofBech32 s).map (·.2) := by
  rw [← exists_spelled_iff, not_exists] at h
  unfold parse
  split
  · rename_i bs hbs
    exact dif_neg fun hlen => h ⟨bs, hlen⟩ hbs
  · rfl

lemma ofBech32_eq_ok {s hrp : String} {a : Address} (h : ofBech32 s = .ok (hrp, a)) :
    ∃ rest symbols, Reads [.bech32m, .bech32] s hrp a.bytes rest symbols := by
  obtain ⟨⟨hrp', bs⟩, hdecode, h⟩ := bind_eq_ok h
  obtain ⟨b, hb, h⟩ := bind_eq_ok h
  obtain ⟨rfl, rfl⟩ := Prod.mk.inj (Except.ok.inj h)
  unfold ofBytes at hb
  split_ifs at hb with hlen
  obtain rfl := Except.ok.inj hb
  exact decode_eq_ok_iff.mp (mapError_eq_ok hdecode)

/-- **Round trip**: an address is read back from its text, the prefix in lower case. -/
theorem ofBech32_toBech32 {s hrp : String} {a : Address} (h : a.toBech32 hrp = .ok s) :
    ofBech32 s = .ok (lowerCase hrp, a) := by
  obtain ⟨hpre, hlen, rfl⟩ := encode_eq_ok_iff.mp (mapError_eq_ok h)
  have hdecode : decode [.bech32m, .bech32] (text hrp a.bytes) = .ok (lowerCase hrp, a.bytes) :=
    decode_text (by simp) hpre hlen
  simp [ofBech32, hdecode, ofBytes, a.length_eq, Except.mapError, bind, Except.bind, pure,
    Except.pure]

/-! ### Texts of both forms -/

section

variable {s hrp : String} {a : Address} {variants : List Variant} {rest : List Char}
  {symbols : List Symbol}

/-- Twenty bytes are read from 32 symbols or 33, so one character at most is left for the prefix. -/
lemma length_symbols_of_isHex (h : Reads variants s hrp a.bytes rest symbols) (hs : IsHex s) :
    hrp.length = 1 ∧ rest.length = 38 ∧ symbols.length = 38 := by
  have hbytes : 5 * (symbols.length - 6) / 8 = 20 := by
    rw [← a.length_eq, h.bytes, length_bytesOfSymbols, List.length_take]
    omega
  have hrest : rest.length = symbols.length := by
    simpa using congrArg List.length h.ofChars
  have hcut := h.length_text
  have hpos := (isPrefix_iff.mp h.isPrefix).2.1
  have hchecked := h.checked
  have hforty := hs.1
  omega

lemma isDigitPrefix_of_isHex (h : Reads variants s hrp a.bytes rest symbols) (hs : IsHex s) :
    IsDigitPrefix hrp := by
  have hone := (length_symbols_of_isHex h hs).1
  rw [← String.length_toList] at hone
  obtain ⟨c, hc⟩ := List.length_eq_one_iff.mp hone
  refine ⟨c, hs.2 c ?_, hc⟩
  rw [h.cut, hc]
  simp

end

/-! ### No address is spelled by its own text -/

/-- The symbols that the sixteen digits are read as. A number past all symbols stands for `1` and
`b`, which are none. -/
def symbolOf (x : Nat) : Nat :=
  [15, 4096, 10, 17, 21, 20, 26, 30, 7, 5, 29, 4096, 24, 13, 25, 9].getD x 4096

lemma symbolOf_eq {c : Char} {x : Nat} {σ : Symbol} (hx : Hex.digit? c = some x)
    (hσ : Symbol.ofChar? c = some σ) : symbolOf x = σ.val := by
  have hall : ∀ x ∈ Hex.digit? c, ∀ σ ∈ Symbol.ofChar? c, symbolOf x = σ.val :=
    Utf8.forall_ascii (Hex.digit?_eq_some hx).2 (by decide +kernel)
  exact hall x hx σ hσ

/-- The first four bytes of a text of symbols. -/
lemma bytesOfSymbols_seven (a b c d e f g : Symbol) (more : List Symbol) :
    ∃ rest, bytesOfSymbols (a :: b :: c :: d :: e :: f :: g :: more) =
      UInt8.ofNat (8 * a + b / 4) :: UInt8.ofNat (64 * (b % 4) + 2 * c + d / 16) ::
        UInt8.ofNat (16 * (d % 16) + e / 2) :: UInt8.ofNat (128 * (e % 2) + 4 * f + g / 8) ::
          rest := by
  refine ⟨bytesOfBits (bitsOf 3 g ++ more.flatMap fun s => bitsOf 5 s.val), ?_⟩
  have hb : bitsOf 5 b = bitsOf 3 (b / 4) ++ bitsOf 2 b := bitsOf_add 3 2 b
  have hd : bitsOf 5 d = bitsOf 1 (d / 16) ++ bitsOf 4 d := bitsOf_add 1 4 d
  have he : bitsOf 5 e = bitsOf 4 (e / 2) ++ bitsOf 1 e := bitsOf_add 4 1 e
  have hg : bitsOf 5 g = bitsOf 2 (g / 8) ++ bitsOf 3 g := bitsOf_add 2 3 g
  have hbits : ((a :: b :: c :: d :: e :: f :: g :: more).flatMap fun s => bitsOf 5 s.val) =
      (bitsOf 5 a ++ bitsOf 3 (b / 4)) ++ ((bitsOf 2 b ++ bitsOf 5 c ++ bitsOf 1 (d / 16)) ++
        ((bitsOf 4 d ++ bitsOf 4 (e / 2)) ++ ((bitsOf 1 e ++ bitsOf 5 f ++ bitsOf 2 (g / 8)) ++
          (bitsOf 3 g ++ more.flatMap fun s => bitsOf 5 s.val)))) := by
    simp only [List.flatMap_cons, hb, hd, he, hg, List.append_assoc]
  rw [bytesOfSymbols, hbits]
  simp only [bytesOfBits_append, List.length_append, length_bitsOf, ofBits_append, ofBits_bitsOf,
    List.cons.injEq, and_true]
  refine ⟨?_, ?_, ?_, ?_⟩ <;> congr 1 <;> omega

/-- The first digits would have to be the symbols that the digits further on are read as. -/
lemma symbolOf_overlap : ∀ x₃ x₄ x₁ : Fin 16,
    16 * x₁.val + 1 = 8 * symbolOf x₃ + symbolOf x₄ / 4 → ∀ x₅ x₆ : Fin 16,
    16 * x₃.val + x₄ = 64 * (symbolOf x₄ % 4) + 2 * symbolOf x₅ + symbolOf x₆ / 16 →
    ∀ x₇ x₈ : Fin 16,
    16 * x₅.val + x₆ = 16 * (symbolOf x₆ % 16) + symbolOf x₇ / 2 → ∀ x₉ : Fin 16,
    16 * x₇.val + x₈ ≠ 128 * (symbolOf x₇ % 2) + 4 * symbolOf x₈ + symbolOf x₉ / 8 := by
  decide +kernel

/-- Symbols whose bytes, put into digits, are these symbols again with `1` in front of them: the
digits found from the front contradict each other at the eighth. -/
lemma not_selfSpelled {c₃ c₄ c₅ c₆ c₇ c₈ c₉ : Char} {σ₃ σ₄ σ₅ σ₆ σ₇ σ₈ σ₉ : Symbol} {x₉ : Nat}
    (h₃ : Symbol.ofChar? c₃ = some σ₃) (h₄ : Symbol.ofChar? c₄ = some σ₄)
    (h₅ : Symbol.ofChar? c₅ = some σ₅) (h₆ : Symbol.ofChar? c₆ = some σ₆)
    (h₇ : Symbol.ofChar? c₇ = some σ₇) (h₈ : Symbol.ofChar? c₈ = some σ₈)
    (h₉ : Symbol.ofChar? c₉ = some σ₉)
    (hsep : Hex.digit? '1' = some ((8 * σ₃.val + σ₄ / 4) % 16))
    (d₃ : Hex.digit? c₃ = some ((64 * (σ₄.val % 4) + 2 * σ₅ + σ₆ / 16) / 16))
    (d₄ : Hex.digit? c₄ = some ((64 * (σ₄.val % 4) + 2 * σ₅ + σ₆ / 16) % 16))
    (d₅ : Hex.digit? c₅ = some ((16 * (σ₆.val % 16) + σ₇ / 2) / 16))
    (d₆ : Hex.digit? c₆ = some ((16 * (σ₆.val % 16) + σ₇ / 2) % 16))
    (d₇ : Hex.digit? c₇ = some ((128 * (σ₇.val % 2) + 4 * σ₈ + σ₉ / 8) / 16))
    (d₈ : Hex.digit? c₈ = some ((128 * (σ₇.val % 2) + 4 * σ₈ + σ₉ / 8) % 16))
    (d₉ : Hex.digit? c₉ = some x₉) : False := by
  have hone : (8 * σ₃.val + σ₄ / 4) % 16 = 1 := (Option.some.inj hsep).symm
  have e₃ := symbolOf_eq d₃ h₃
  have e₄ := symbolOf_eq d₄ h₄
  have e₅ := symbolOf_eq d₅ h₅
  have e₆ := symbolOf_eq d₆ h₆
  have e₇ := symbolOf_eq d₇ h₇
  have e₈ := symbolOf_eq d₈ h₈
  have e₉ := symbolOf_eq d₉ h₉
  refine symbolOf_overlap ⟨_, (Hex.digit?_eq_some d₃).1⟩ ⟨_, (Hex.digit?_eq_some d₄).1⟩
    ⟨(8 * σ₃.val + σ₄ / 4) / 16, by omega⟩ ?_ ⟨_, (Hex.digit?_eq_some d₅).1⟩
    ⟨_, (Hex.digit?_eq_some d₆).1⟩ ?_ ⟨_, (Hex.digit?_eq_some d₇).1⟩
    ⟨_, (Hex.digit?_eq_some d₈).1⟩ ?_ ⟨x₉, (Hex.digit?_eq_some d₉).1⟩ ?_
  · simp only [e₃, e₄]
    omega
  · simp only [e₄, e₅, e₆]
    omega
  · simp only [e₆, e₇]
    omega
  · simp only [e₇, e₈, e₉]
    omega

/-- Each digit after the separator is read both as half a byte and as a symbol, and the bytes are
those of the symbols. -/
theorem decode_ne_ofBech32 {s hrp : String} {a : Address} (h : ofBech32 s = .ok (hrp, a)) :
    Hex.decode s ≠ .ok a.bytes := by
  intro hspelled
  have hs : IsHex s := exists_spelled_iff.mp ⟨a, hspelled⟩
  obtain ⟨rest, symbols, hr⟩ := ofBech32_eq_ok h
  obtain ⟨-, hrest, hsymbols⟩ := length_symbols_of_isHex hr hs
  obtain ⟨c, -, hhrp⟩ := isDigitPrefix_of_isHex hr hs
  have hdigits := Hex.decode_eq_ok_iff.mp hspelled
  have hcut := hr.cut
  have hchars := hr.ofChars
  have hbytes := hr.bytes
  rw [hcut, hhrp] at hdigits
  match rest, symbols, hrest, hsymbols with
  | c₃ :: c₄ :: c₅ :: c₆ :: c₇ :: c₈ :: c₉ :: rest,
    σ₃ :: σ₄ :: σ₅ :: σ₆ :: σ₇ :: σ₈ :: σ₉ :: symbols, hrest, hsymbols =>
    simp only [List.map_cons, List.cons.injEq] at hchars
    obtain ⟨h₃, h₄, h₅, h₆, h₇, h₈, h₉, -⟩ := hchars
    rw [hsymbols] at hbytes
    obtain ⟨more, hmore⟩ := bytesOfSymbols_seven σ₃ σ₄ σ₅ σ₆ σ₇ σ₈ σ₉ (symbols.take 25)
    rw [hbytes] at hdigits
    simp only [Nat.reduceSub, List.take_succ_cons, hmore, Hex.halves_cons, List.map_cons,
      List.cons_append, List.nil_append, List.cons.injEq] at hdigits
    obtain ⟨-, hsep, d₃, d₄, d₅, d₆, d₇, d₈, -⟩ := hdigits
    rw [Utf8.toNat_byte (by omega)] at hsep d₃ d₄ d₅ d₆ d₇ d₈
    have hc₉ : Hex.IsDigit c₉ := hs.2 c₉ (by rw [hcut]; simp)
    obtain ⟨x₉, d₉⟩ := Option.isSome_iff_exists.mp (Hex.isSome_digit?.mpr hc₉)
    exact not_selfSpelled h₃ h₄ h₅ h₆ h₇ h₈ h₉ hsep d₃ d₄ d₅ d₆ d₇ d₈ d₉

/-! ### Parsing -/

lemma IsDigitPrefix.of_lowerCase {hrp : String} (hpre : IsPrefix hrp)
    (h : IsDigitPrefix (lowerCase hrp)) : IsDigitPrefix hrp := by
  obtain ⟨d, hd, hlow⟩ := h
  rw [lowerCase, String.toList_ofList, List.map_eq_singleton_iff] at hlow
  obtain ⟨c, hc, rfl⟩ := hlow
  have hprint := (isPrefix_iff.mp hpre).1 c (by simp [hc])
  have hall : Hex.IsDigit c.toLower → Hex.IsDigit c :=
    Utf8.forall_ascii (by omega : c.toNat < 128) (by decide)
  exact ⟨c, hall hd, hc⟩

/-- **Parsing bech32 text**. The address in the text is the one that comes out, unless the text is
forty hexadecimal digits: then the address they spell comes out, which is another one. This
happens under prefixes of one hexadecimal digit only. -/
theorem parse_bech32 (s : String) :
    (∀ hrp a, ofBech32 s = .ok (hrp, a) →
      (parse s = .ok a ↔ ¬ IsHex s) ∧
        (IsHex s → IsDigitPrefix hrp ∧ ∃ b, Hex.decode s = .ok b.bytes ∧ parse s = .ok b)) ∧
      ∀ a hrp, toBech32 a hrp = .ok s → ¬ IsDigitPrefix hrp → parse s = .ok a := by
  have hplain : ∀ {hrp a}, ofBech32 s = .ok (hrp, a) → ¬ IsHex s → parse s = .ok a := by
    intro hrp a h hs
    rw [parse_of_not_isHex hs, h]
    rfl
  have hspelled : ∀ {hrp a}, ofBech32 s = .ok (hrp, a) → IsHex s → IsDigitPrefix hrp := by
    intro hrp a h hs
    obtain ⟨rest, symbols, hr⟩ := ofBech32_eq_ok h
    exact isDigitPrefix_of_isHex hr hs
  refine ⟨fun hrp a h => ⟨⟨fun hparse hs => ?_, hplain h⟩, fun hs => ⟨hspelled h hs, ?_⟩⟩,
    fun a hrp h hdigit => hplain (ofBech32_toBech32 h) fun hs => hdigit ?_⟩
  · obtain ⟨b, hb⟩ := exists_spelled_iff.mpr hs
    obtain rfl := Except.ok.inj ((parse_of_spelled hb).symm.trans hparse)
    exact decode_ne_ofBech32 h hb
  · obtain ⟨b, hb⟩ := exists_spelled_iff.mpr hs
    exact ⟨b, hb, parse_of_spelled hb⟩
  · have hpre := (encode_eq_ok_iff.mp (mapError_eq_ok h)).1
    exact (hspelled (ofBech32_toBech32 h) hs).of_lowerCase hpre

/-- The text of an address under the prefix `7`. -/
def sevenText : String := "714d457459370fd59ae3c9960cfcffd7d3dad689"

/-- The address that `sevenText` was written for. -/
def sevenAddress : Address :=
  ⟨[0xab, 0x6b, 0x4f, 0x56, 0x85, 0x8f, 0x9e, 0x96, 0xd0, 0xbd, 0xcc, 0x70, 0x52, 0xe9, 0xf8,
    0x4e, 0x12, 0x96, 0xf9, 0xb1], rfl⟩

/-- It has nothing but hexadecimal digits in it, and is taken for another address. -/
theorem parse_sevenText : toBech32 sevenAddress "7" = .ok sevenText ∧
    ofBech32 sevenText = .ok ("7", sevenAddress) ∧ parse sevenText ≠ .ok sevenAddress ∧
    (parse sevenText).map toHex = .ok "714D457459370FD59AE3C9960CFCFFD7D3DAD689" := by
  decide +kernel

end ChainKeys.Address
