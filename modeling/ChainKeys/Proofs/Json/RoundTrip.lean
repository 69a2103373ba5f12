import ChainKeys.Proofs.Json.Scalars

/-!
Every JSON value is read back from its text. A value is read off the start of a longer text, so
that the induction goes through arrays and objects; the rounds that a reading needs are counted
by the characters it reads.
-/

namespace ChainKeys.Json

mutual

/-- Values that have a text of their own: all texts and names are whole, and a number that is
spelled as an integer is one. -/
def Written : Json → Prop
  | null | bool _ => True
  | number n => n.Written
  | text s => s.isSome = true
  | array items => AllWritten items
  | object fields => FieldsWritten fields

def AllWritten : List Json → Prop
  | [] => True
  | j :: rest => Written j ∧ AllWritten rest

def FieldsWritten : List (Option String × Json) → Prop
  | [] => True
  | (name, j) :: rest => name.isSome = true ∧ Written j ∧ FieldsWritten rest

end

lemma allWritten_iff {items : List Json} : AllWritten items ↔ ∀ j ∈ items, Written j := by
  induction items with
  | nil => simp [AllWritten]
  | cons j items ih => simp [AllWritten, ih]

/-! ### Where a value starts -/

lemma skipBlank_cons {c : Char} (h : isBlank c = false) (cs : List Char) :
    skipBlank (c :: cs) = c :: cs := by
  simp [skipBlank, h]

/-- A value starts here: no blank and no bracket that closes. -/
def Starts (cs : List Char) : Prop := ∃ c rest, cs = c :: rest ∧ isBlank c = false ∧ c ≠ ']'

lemma Starts.append {cs : List Char} (h : Starts cs) (more : List Char) : Starts (cs ++ more) := by
  obtain ⟨c, rest, rfl, hc⟩ := h
  exact ⟨c, rest ++ more, rfl, hc⟩

lemma Starts.skipBlank {cs : List Char} (h : Starts cs) : Json.skipBlank cs = cs := by
  obtain ⟨c, rest, rfl, hc, -⟩ := h
  exact skipBlank_cons hc rest

lemma render_eq_cons (n : Number) :
    ∃ c cs, n.render = c :: cs ∧ (c = '-' ∨ Decimal.isDigit c = true) := by
  obtain ⟨c, ds, hd, hc⟩ := Decimal.toDigits_eq_cons n.digits
  rw [Number.render, hd]
  cases n.negative with
  | true => exact ⟨'-', _, rfl, .inl rfl⟩
  | false => exact ⟨c, _, rfl, .inr hc⟩

lemma starts_chars (j : Json) : Starts (chars j) := by
  cases j with
  | null => exact ⟨'n', _, rfl, by decide, by decide⟩
  | bool b => cases b <;> exact ⟨_, _, rfl, by decide, by decide⟩
  | number n =>
    obtain ⟨c, cs, h, hc⟩ := render_eq_cons n
    refine ⟨c, cs, by rw [chars, h], ?_, ?_⟩
    · rw [Bool.eq_false_iff]
      intro hblank
      simp only [isBlank, Bool.or_eq_true, decide_eq_true_eq] at hblank
      rcases hblank with ((rfl | rfl) | rfl) | rfl <;> revert hc <;> decide
    · rintro rfl
      revert hc
      decide
  | text s => exact ⟨'"', _, rfl, by decide, by decide⟩
  | array items => exact ⟨'[', _, by rw [chars], by decide, by decide⟩
  | object fields => exact ⟨'\x7b', _, by rw [chars], by decide, by decide⟩

/-! ### Values that hold no others -/

section

variable {n : Nat}

lemma stringTail_quotedText {s : Option String} (h : s.isSome = true) (rest : List Char) :
    ∃ cs, quotedText s ++ rest = '"' :: cs ∧
      ∃ units, stringTail cs = some (units, rest) ∧ wholeText units = s := by
  obtain ⟨s, rfl⟩ := Option.isSome_iff_exists.mp h
  refine ⟨s.toList.flatMap escape ++ '"' :: rest, by simp [quotedText, quoted], _,
    stringTail_quoted s.toList rest, ?_⟩
  rw [wholeText_some, String.ofList_toList]

lemma value?_quotedText {s : Option String} (h : s.isSome = true) (rest : List Char) :
    value? (n + 1) (quotedText s ++ rest) = some (text s, rest) := by
  obtain ⟨cs, hcs, units, hunits, hwhole⟩ := stringTail_quotedText h rest
  rw [hcs, value?, skipBlank_cons (by decide)]
  simp [hunits, hwhole]

lemma value?_render {x : Number} (h : x.Written) {rest : List Char} (hrest : Delimited rest) :
    value? (n + 1) (x.render ++ rest) = some (number x, rest) := by
  have hstart : Starts (x.render ++ rest) := by
    have := starts_chars (number x)
    rw [chars] at this
    exact this.append rest
  have hnumber := number?_render h hrest
  obtain ⟨c, cs, hcs, hc⟩ := render_eq_cons x
  rw [value?, hstart.skipBlank]
  rw [hcs, List.cons_append] at hnumber ⊢
  -- no other kind of value starts with a sign or a digit
  split
  case h_7 => rw [hnumber, Option.map_some]
  all_goals
    rename_i heq
    obtain ⟨rfl, -⟩ := List.cons.inj heq
    exact absurd hc (by decide)

/-! ### Arrays and objects -/

lemma value?_array {cs rest : List Char} {items : List Json} (hstart : Starts cs)
    (h : items? n cs = some (items, rest)) :
    value? (n + 1) ('[' :: cs) = some (array items, rest) := by
  rw [value?, skipBlank_cons (by decide)]
  simp only [hstart.skipBlank]
  obtain ⟨c, cs, rfl, -, hc⟩ := hstart
  split
  · rename_i heq
    exact absurd (List.cons.inj heq).1 hc
  · rw [h, Option.map_some]

lemma items?_last {cs rest : List Char} {j : Json} (h : value? n cs = some (j, ']' :: rest)) :
    items? (n + 1) cs = some ([j], rest) := by
  rw [items?, h]
  simp [skipBlank_cons (show isBlank ']' = false by decide)]

lemma items?_more {cs mid rest : List Char} {j : Json} {js : List Json}
    (h : value? n cs = some (j, ',' :: mid)) (hmore : items? n mid = some (js, rest)) :
    items? (n + 1) cs = some (j :: js, rest) := by
  rw [items?, h]
  simp [skipBlank_cons (show isBlank ',' = false by decide), hmore]

lemma value?_object {cs rest : List Char} {fields : List (Option String × Json)}
    (hstart : ∃ tail, cs = '"' :: tail) (h : fields? n cs = some (fields, rest)) :
    value? (n + 1) ('\x7b' :: cs) = some (object fields, rest) := by
  obtain ⟨tail, rfl⟩ := hstart
  rw [value?, skipBlank_cons (by decide)]
  simp [skipBlank_cons (show isBlank '"' = false by decide), h]

variable {name : Option String} (hname : name.isSome = true)

include hname

lemma fields?_last {mid rest : List Char} {j : Json}
    (h : value? n mid = some (j, '\x7d' :: rest)) :
    fields? (n + 1) (quotedText name ++ ':' :: mid) = some ([(name, j)], rest) := by
  obtain ⟨cs, hcs, units, hunits, hwhole⟩ := stringTail_quotedText hname (':' :: mid)
  rw [hcs, fields?, skipBlank_cons (by decide)]
  simp [hunits, hwhole, h, skipBlank_cons (show isBlank ':' = false by decide),
    skipBlank_cons (show isBlank '\x7d' = false by decide)]

lemma fields?_more {mid mid' rest : List Char} {j : Json} {fields : List (Option String × Json)}
    (h : value? n mid = some (j, ',' :: mid')) (hmore : fields? n mid' = some (fields, rest)) :
    fields? (n + 1) (quotedText name ++ ':' :: mid) = some ((name, j) :: fields, rest) := by
  obtain ⟨cs, hcs, units, hunits, hwhole⟩ := stringTail_quotedText hname (':' :: mid)
  rw [hcs, fields?, skipBlank_cons (by decide)]
  simp [hunits, hwhole, h, skipBlank_cons (show isBlank ':' = false by decide),
    skipBlank_cons (show isBlank ',' = false by decide), hmore]

end

lemma itemChars_cons_cons (j k : Json) (items : List Json) :
    itemChars (j :: k :: items) = chars j ++ ',' :: itemChars (k :: items) := by
  rw [itemChars]
  simp

lemma fieldChars_cons_cons (name : Option String) (j : Json) (f : Option String × Json)
    (fields : List (Option String × Json)) : fieldChars ((name, j) :: f :: fields) =
      quotedText name ++ ':' :: (chars j ++ ',' :: fieldChars (f :: fields)) := by
  rw [fieldChars]
  · simp
  · simp

lemma starts_itemChars (j : Json) (items : List Json) : Starts (itemChars (j :: items)) := by
  cases items with
  | nil =>
    rw [itemChars]
    exact starts_chars j
  | cons k items =>
    rw [itemChars_cons_cons]
    exact (starts_chars j).append _

lemma fieldChars_eq_cons (f : Option String × Json) (fields : List (Option String × Json)) :
    ∃ tail, fieldChars (f :: fields) = '"' :: tail := by
  obtain ⟨name, j⟩ := f
  cases fields with
  | nil =>
    rw [fieldChars]
    exact ⟨_, rfl⟩
  | cons g fields =>
    rw [fieldChars_cons_cons]
    exact ⟨_, rfl⟩

/-! ### Whole values -/

mutual

theorem value?_chars {j : Json} (h : j.Written) {n : Nat} {rest : List Char}
    (hn : 2 * (chars j).length ≤ n) (hrest : Delimited rest) :
    value? n (chars j ++ rest) = some (j, rest) := by
  obtain ⟨c, cs, hcs, -⟩ := starts_chars j
  obtain ⟨n, rfl⟩ : ∃ m, n = m + 1 := ⟨n - 1, by simp [hcs] at hn; omega⟩
  match j with
  | .null => rfl
  | .bool true => rfl
  | .bool false => rfl
  | .number x =>
    rw [Written] at h
    rw [chars]
    exact value?_render h hrest
  | .text s =>
    rw [Written] at h
    rw [chars]
    exact value?_quotedText h rest
  | .array [] => rfl
  | .array (j :: items) =>
    rw [Written] at h
    simp only [chars, List.cons_append, List.append_assoc, List.length_cons, List.length_append,
      List.length_nil, List.nil_append] at hn ⊢
    refine value?_array ((starts_itemChars j items).append _) ?_
    exact items?_chars (by simp) h (by omega)
  | .object [] => rfl
  | .object (f :: fields) =>
    rw [Written] at h
    simp only [chars, List.cons_append, List.append_assoc, List.length_cons, List.length_append,
      List.length_nil, List.nil_append] at hn ⊢
    obtain ⟨tail, htail⟩ := fieldChars_eq_cons f fields
    refine value?_object ⟨_, by rw [htail]; rfl⟩ ?_
    exact fields?_chars (by simp) h (by omega)

theorem items?_chars {items : List Json} (hne : items ≠ []) (h : AllWritten items) {n : Nat}
    {rest : List Char} (hn : 2 * (itemChars items).length + 1 ≤ n) :
    items? n (itemChars items ++ ']' :: rest) = some (items, rest) := by
  obtain ⟨n, rfl⟩ : ∃ m, n = m + 1 := ⟨n - 1, by omega⟩
  match items with
  | [j] =>
    rw [AllWritten] at h
    rw [itemChars] at hn ⊢
    exact items?_last (value?_chars h.1 (by omega) (.inr (.inl rfl)))
  | j :: k :: items =>
    rw [AllWritten] at h
    rw [itemChars_cons_cons] at hn ⊢
    simp only [List.length_append, List.length_cons] at hn
    rw [List.append_assoc, List.cons_append]
    refine items?_more (value?_chars h.1 (by omega) (.inl rfl)) ?_
    exact items?_chars (by simp) h.2 (by omega)

theorem fields?_chars {fields : List (Option String × Json)} (hne : fields ≠ [])
    (h : FieldsWritten fields) {n : Nat} {rest : List Char}
    (hn : 2 * (fieldChars fields).length + 1 ≤ n) :
    fields? n (fieldChars fields ++ '\x7d' :: rest) = some (fields, rest) := by
  obtain ⟨n, rfl⟩ : ∃ m, n = m + 1 := ⟨n - 1, by omega⟩
  match fields with
  | [(name, j)] =>
    rw [FieldsWritten] at h
    rw [fieldChars] at hn ⊢
    simp only [List.length_append, List.length_cons] at hn
    rw [List.append_assoc, List.cons_append]
    exact fields?_last h.1 (value?_chars h.2.1 (by omega) (.inr (.inr rfl)))
  | (name, j) :: g :: fields =>
    rw [FieldsWritten] at h
    rw [fieldChars_cons_cons] at hn ⊢
    simp only [List.length_append, List.length_cons] at hn
    rw [List.append_assoc, List.cons_append, List.append_assoc, List.cons_append]
    refine fields?_more h.1 (value?_chars h.2.1 (by omega) (.inl rfl)) ?_
    exact fields?_chars (by simp) h.2.2 (by omega)

end

/-- **Round trip**: a value is read back from its text. -/
theorem parse_render {j : Json} (h : j.Written) : parse (render j) = some j := by
  have hvalue : value? (2 * (chars j).length + 2) (chars j ++ []) = some (j, []) :=
    value?_chars h (Nat.le_add_right _ 2) trivial
  rw [List.append_nil] at hvalue
  simp only [parse, render, String.toList_ofList, hvalue, Option.bind_eq_bind, Option.bind_some]
  rfl

end ChainKeys.Json
