import ChainKeys.Json.Record
import ChainKeys.Proofs.Except
import ChainKeys.Proofs.Lookup

/-!
Records are read from objects whatever the order of the fields, and whatever further fields stand
between them.
-/

namespace ChainKeys.Json

/-- An object in which these fields and no others have a name among `names`. They stand in
whatever order, with any fields of other names between them. -/
def Has (names : List String) (known : List (String × Json)) (j : Json) : Prop :=
  ∃ extra fields, (∀ f ∈ extra, f.1 ∉ names) ∧ fields.Perm (known ++ extra) ∧ j = obj fields

variable {known extra fields : List (String × Json)}

lemma names?_obj (fields : List (String × Json)) :
    names? (fields.map fun f => (some f.1, f.2)) = some fields :=
  mapM_map_eq_pure fun _ _ => rfl

lemma only?_of_perm {name : String} (hname : ∀ f ∈ extra, f.1 ≠ name)
    (hperm : fields.Perm (known ++ extra)) (hnodup : (known.map Prod.fst).Nodup) :
    only? name fields = some (known.lookup name) := by
  have hnone : extra.filter (·.1 = name) = [] := List.filter_eq_nil_iff.mpr (by simpa using hname)
  have hfilter := hperm.filter (·.1 = name)
  rw [List.filter_append, filter_key_eq hnodup, hnone, List.append_nil] at hfilter
  unfold only?
  cases hlookup : known.lookup name with
  | none =>
    rw [hlookup] at hfilter
    rw [List.perm_nil.mp hfilter]
  | some v =>
    rw [hlookup] at hfilter
    rw [List.perm_singleton.mp hfilter]

/-- **Records**. An object that has the fields of a record, each one once, is read as the record:
each field is found if it is there. -/
theorem Has.record? {specs : List (String × Presence)} {names : List String} {j : Json}
    {found : List (Option Json)} (h : Has names known j) (hnames : specs.map Prod.fst = names)
    (hnodup : (known.map Prod.fst).Nodup)
    (hfound : specs.map (fun spec => known.lookup spec.1) = found)
    (hrequired : ∀ spec ∈ specs, spec.2 = .required → (known.lookup spec.1).isSome) :
    j.record? specs = some found := by
  subst hnames hfound
  obtain ⟨extra, fields, hextra, hperm, rfl⟩ := h
  have hfield : ∀ spec ∈ specs, fieldOf fields spec = some (known.lookup spec.1) := by
    intro spec hspec
    have hname : ∀ f ∈ extra, f.1 ≠ spec.1 := fun f hf heq =>
      hextra f hf (heq ▸ List.mem_map_of_mem hspec)
    rw [fieldOf, only?_of_perm hname hperm hnodup]
    cases hlookup : known.lookup spec.1 with
    | some v => rfl
    | none =>
      have hnot : spec.2 ≠ .required := fun hrequire => by
        simpa [hlookup] using hrequired spec hspec hrequire
      simp [hnot]
  have hall : specs.mapM (fieldOf fields) = some (specs.map fun spec => known.lookup spec.1) := by
    rw [mapM_eq_some_iff, List.map_map]
    exact List.map_congr_left hfield
  rw [obj, Json.record?, names?_obj, Option.bind_eq_bind, Option.bind_some, hall]

lemma Has.ne_null {names : List String} {j : Json} (h : Has names known j) : j ≠ null := by
  obtain ⟨_, _, -, -, rfl⟩ := h
  simp [obj]

/-! ### Values -/

lemma toInt?_ofInt (i : Int) : (Number.ofInt i).toInt? = some i := by
  unfold Number.ofInt Number.toInt?
  by_cases h : i < 0
  · have hdigits : i.natAbs ≠ 0 := by omega
    have hvalue : -(i.natAbs : Int) = i := by omega
    simp only [h, hdigits, decide_true, decide_false, Bool.not_true, Bool.and_false, Bool.or_false,
      Bool.false_eq_true, ↓reduceIte, hvalue]
  · have hvalue : (i.natAbs : Int) = i := by omega
    simp only [h, decide_false, Bool.not_true, Bool.false_and, Bool.or_false, Bool.false_eq_true,
      ↓reduceIte, hvalue]

lemma intWithin?_int {low high i : Int} (hlow : low ≤ i) (hhigh : i ≤ high) :
    (int i).intWithin? low high = some i := by
  simp [intWithin?, int, int?, toInt?_ofInt, hlow, hhigh]

@[simp] lemma text?_str (s : String) : (str s).text? = some s := rfl

@[simp] lemma orDefault?_some {α : Type} (default : α) (read : Json → Option α) (j : Json) :
    orDefault? default read (some j) = read j := rfl

@[simp] lemma nullable?_str {α : Type} (read : Json → Option α) (s : String) :
    nullable? read (some (str s)) = (read (str s)).map some := rfl

lemma nullable?_some {α : Type} (read : Json → Option α) {j : Json} (h : j ≠ null) :
    nullable? read (some j) = (read j).map some := by
  cases j <;> first | rfl | exact absurd rfl h

end ChainKeys.Json
