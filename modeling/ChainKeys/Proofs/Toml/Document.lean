import ChainKeys.Proofs.Decimal
import ChainKeys.Proofs.Lookup
import ChainKeys.Proofs.Toml.Text

/-!
Documents of plain lines: each line puts a text or a number under a bare key. Such a document is
read back as its entries, in order, when no key is there twice.
-/

namespace ChainKeys.Toml

open Decimal (isDigit isDigit_of_mem ofDigits ofDigits_toDigits head_toDigits toDigits_eq_cons)

/-! ### Numbers -/

section

variable {ds rest : List Char} (hds : ∀ c ∈ ds, isDigit c = true)

include hds

end

section

variable (n : Nat) (rest : List Char)

end

/-! ### Values -/

/-- Characters from which a value is read at the end of a line. -/
def Writes (cs : List Char) (v : Value) : Prop :=
  (∀ rest, value? nestingLimit (cs ++ '\n' :: rest) = some (v, '\n' :: rest)) ∧
    ∃ c more, cs = c :: more ∧ isBlank c = false

/-- A bare key. -/
def IsBare (key : List Char) : Prop := key ≠ [] ∧ ∀ c ∈ key, isBareKey c = true

/-- A line that puts a value under a key. -/
def IsLine (entry : String × Value) (line : List Char) : Prop :=
  IsBare entry.1.toList ∧ ∃ cs, Writes cs entry.2 ∧
    line = entry.1.toList ++ (' ' :: '=' :: ' ' :: (cs ++ ['\n']))

lemma skipBlank_cons {c : Char} (h : isBlank c = false) (cs : List Char) :
    skipBlank (c :: cs) = c :: cs := by
  simp [skipBlank, h]

section

variable {key : List Char} (hkey : IsBare key)

include hkey

/-- A bare key starts with none of the characters that stand for something else. -/
lemma IsBare.eq_cons : ∃ c more, key = c :: more ∧ ∀ d, isBareKey d = false → c ≠ d := by
  obtain ⟨c, more, rfl⟩ := List.exists_cons_of_ne_nil hkey.1
  refine ⟨c, more, rfl, fun d hd => ?_⟩
  rintro rfl
  simp [hkey.2 c (by simp)] at hd

lemma IsBare.skipBlank (rest : List Char) : Toml.skipBlank (key ++ rest) = key ++ rest := by
  obtain ⟨c, more, rfl, hc⟩ := hkey.eq_cons
  refine skipBlank_cons ?_ (more ++ rest)
  simp [isBlank, hc ' ' (by decide), hc '\t' (by decide)]

lemma IsBare.simpleKey? (rest : List Char) :
    Toml.simpleKey? (key ++ ' ' :: rest) = some (String.ofList key, ' ' :: rest) := by
  have htake : (key ++ ' ' :: rest).takeWhile isBareKey = key := by
    rw [List.takeWhile_append_of_pos hkey.2]
    simp [show isBareKey ' ' = false by decide]
  have hdrop : (key ++ ' ' :: rest).dropWhile isBareKey = ' ' :: rest := by
    rw [List.dropWhile_append_of_pos hkey.2]
    simp [show isBareKey ' ' = false by decide]
  obtain ⟨c, more, rfl, hc⟩ := hkey.eq_cons
  rw [Toml.simpleKey?.eq_def]
  split
  · rename_i heq
    exact absurd (List.cons.inj heq).1 (hc '"' (by decide))
  · rename_i heq
    exact absurd (List.cons.inj heq).1 (hc '\'' (by decide))
  · rw [htake, hdrop]

lemma IsBare.key? (rest : List Char) :
    Toml.key? (key ++ ' ' :: '=' :: rest) = some ([], String.ofList key, '=' :: rest) := by
  have hparts (n : Nat) : keyParts? (n + 1) (key ++ ' ' :: '=' :: rest) =
      some ([String.ofList key], '=' :: rest) := by
    have hequals : Toml.skipBlank (' ' :: '=' :: rest) = '=' :: rest := rfl
    rw [keyParts?, hkey.skipBlank, hkey.simpleKey?]
    simp [hequals]
  rw [Toml.key?, hparts]
  rfl

end

lemma lineEnd?_newline (rest : List Char) : lineEnd? ('\n' :: rest) = some rest := rfl

section

variable {entry : String × Value} {line : List Char} {root : Entries}

lemma Document.add_fresh (hfresh : root.lookup entry.1 = none) :
    (Document.mk root []).add [] entry.1 entry.2 =
      some ⟨root ++ [(entry.1, .value entry.2)], []⟩ := by
  simp [Document.add, Entries.alter, Entries.insertDotted, Entries.get?, Entries.put, hfresh]

lemma IsLine.pair? (hline : IsLine entry line) (hfresh : root.lookup entry.1 = none)
    (rest : List Char) : (Document.mk root []).pair? (line ++ rest) =
      some (⟨root ++ [(entry.1, .value entry.2)], []⟩, rest) := by
  obtain ⟨hkey, cs, ⟨hvalue, c, more, hcs, hc⟩, rfl⟩ := hline
  have hblank : skipBlank (' ' :: (cs ++ '\n' :: rest)) = cs ++ '\n' :: rest := by
    rw [hcs]
    exact skipBlank_cons hc (more ++ '\n' :: rest)
  have happend : entry.1.toList ++ (' ' :: '=' :: ' ' :: (cs ++ ['\n'])) ++ rest =
      entry.1.toList ++ ' ' :: '=' :: ' ' :: (cs ++ '\n' :: rest) := by simp
  have hequals (more : List Char) : char? '=' ('=' :: more) = some more := rfl
  rw [happend, Document.pair?, hkey.key?]
  simp [hequals, hblank, hvalue, Document.add_fresh hfresh, lineEnd?_newline]

lemma IsLine.lines? (hline : IsLine entry line) (hfresh : root.lookup entry.1 = none)
    (n : Nat) (rest : List Char) : Document.lines? (n + 1) ⟨root, []⟩ (line ++ rest) =
      Document.lines? n ⟨root ++ [(entry.1, .value entry.2)], []⟩ rest := by
  have hpair := hline.pair? hfresh rest
  obtain ⟨hkey, cs, -, rfl⟩ := hline
  rw [List.append_assoc] at hpair ⊢
  rw [Document.lines?, hkey.skipBlank]
  obtain ⟨c, more, hcs, hc⟩ := hkey.eq_cons
  rw [hcs, List.cons_append] at hpair ⊢
  split
  case h_6 => rw [hpair, Option.bind_eq_bind, Option.bind_some]
  case h_1 =>
    rename_i heq
    exact nomatch heq
  all_goals
    rename_i heq
    exact absurd (List.cons.inj heq).1 (hc _ (by decide))

end

/-! ### Whole documents -/

/-- A line is never empty, and starts with no byte order mark. -/
lemma IsLine.eq_cons {entry : String × Value} {line : List Char} (h : IsLine entry line) :
    ∃ c more, line = c :: more ∧ c ≠ '\ufeff' := by
  obtain ⟨hkey, cs, -, rfl⟩ := h
  obtain ⟨c, more, hcs, hc⟩ := hkey.eq_cons
  exact ⟨c, _, by rw [hcs, List.cons_append], hc _ (by decide)⟩

end ChainKeys.Toml
