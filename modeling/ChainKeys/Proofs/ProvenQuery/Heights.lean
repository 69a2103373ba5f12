import ChainKeys.Proofs.ProvenQuery.Scheduling

/-!
Which header an answer is checked against.

It is the one after the height that the answer names, for every height that has a next one. The
height that was asked for goes to the node and is not looked at again, so a node may answer for
another one, and what it answers is then proven for that one.
-/

namespace ChainKeys.ProvenQuery

open Merkle HeaderWait

/-- What a node answers to a request, right or wrong. -/
abbrev QueryNode := QueryRequest → Except TransportError QueryResponse

/-- A query for the state at some height, or the latest one, put to a node. -/
def ask (node : QueryNode) (store : String) (key : Bytes) (height : Option UInt64) (s : Setting)
    (choices : List Bool) : Outcome :=
  verify store key (node (request store key height)) fun target => run target s choices

/-- The header that the answer was checked against, once there is one. -/
def Outcome.header? (o : Outcome) : Option Header := o.wait.bind fun st => st.found

variable {node : QueryNode} {store : String} {key : Bytes} {height : Option UInt64} {s : Setting}
  {choices : List Bool}

lemma toNat_committingHeight {height : UInt64} (h : height.toNat + 1 < UInt64.size) :
    (committingHeight height).toNat = height.toNat + 1 := by
  rw [committingHeight_of_lt h, UInt64.toNat_add]
  exact Nat.mod_eq_of_lt h

/-! ### Before there is a header -/

/-- None of the faults of an answer is about an app hash. -/
lemma ne_appHash_of_mem_faults {r : QueryResponse} {n : UInt64} :
    ∀ f ∈ faults store key r, f ≠ some (.proof (.appHash n)) := by
  have hkind : ∀ i kind p, kindFault? i kind p ≠ some (.proof (.appHash n)) := by
    intro i kind p
    unfold kindFault?
    split_ifs <;> simp
  have hmodule : ∀ p q, moduleFault? r p q ≠ some (.proof (.appHash n)) := by
    intro p q
    unfold moduleFault?
    split
    · split_ifs <;> simp
    · simp
  rw [faults, List.forall_mem_append]
  refine ⟨by simp, ?_⟩
  split
  · simp [opFaults, Option.bind_eq_some_iff, hkind, hmodule]
  · simp

lemma examine_ne_appHash {response : Except TransportError QueryResponse} {n : UInt64} :
    examine store key response ≠ .error (.proof (.appHash n)) := by
  intro h
  cases response with
  | error e => exact nomatch h
  | ok r =>
    obtain ⟨f, hmem, hf⟩ := List.exists_of_findSome?_eq_some (firstFault?_eq_some_iff.mpr h)
    exact ne_appHash_of_mem_faults f hmem hf

/-! ### With a header -/

/-- A check against a header is the settlement of the answer that the node gave, and the header
was delivered for the height that commits to the one which that answer names. -/
lemma ask_header {h : Header} (hh : (ask node store key height s choices).header? = some h) :
    ∃ r p, node (request store key height) = .ok r ∧ examine store key (.ok r) = .ok p ∧
      r.height = some p.answer.height ∧ s.Delivers h ∧
      h.height = committingHeight p.answer.height ∧
      (ask node store key height s choices).result = some (p.settle h) := by
  unfold ask verify at hh ⊢
  cases hx : examine store key (node (request store key height)) with
  | error e => simp [hx, Outcome.header?] at hh
  | ok p =>
    simp only [hx] at hh ⊢
    have hfound : (run p.target s choices).found = some h := hh
    obtain ⟨hheight, hdelivers⟩ := delivers_of_found hfound
    obtain ⟨r, hr, -, ha, -, -⟩ := examine_ok hx
    obtain ⟨-, -, -, hanswered, -⟩ := ofResponse_ok ha
    exact ⟨r, p, hr, hr ▸ hx, hanswered, hdelivers, hheight, by rw [hfound]; rfl⟩

/-- Whether a header was needed shows in the result. -/
lemma header?_isSome_iff :
    (ask node store key height s choices).header?.isSome ↔
      (∃ v, (ask node store key height s choices).result = some (.ok v)) ∨
      ∃ n, (ask node store key height s choices).result = some (.error (.proof (.appHash n))) := by
  constructor
  · intro hsome
    obtain ⟨h, hh⟩ := Option.isSome_iff_exists.mp hsome
    obtain ⟨r, p, -, -, -, -, -, hresult⟩ := ask_header hh
    rw [hresult]
    rcases settle_cases p h with ⟨v, hv⟩ | hfault
    · exact .inl ⟨v, by rw [hv]⟩
    · exact .inr ⟨h.height, by rw [hfault]⟩
  · unfold ask verify
    cases hx : examine store key (node (request store key height)) with
    | error e =>
      rintro (⟨v, hv⟩ | ⟨n, hn⟩)
      · exact nomatch hv
      · simp only [Option.some.injEq, Except.error.injEq] at hn
        exact absurd (hn ▸ hx) examine_ne_appHash
    | ok p =>
      cases hfound : (run p.target s choices).found with
      | none => simp [hfound]
      | some h => simp [hfound, Outcome.header?]

/-- **No header at or below the height of an answer** is used, in any run: a result is a value or
a fault of the app hash exactly when the answer was checked against a header, and that header was
delivered, is the one that the fault names, and stands at the next height, if the height of the
answer has a next one. -/
theorem header_follows_answer (node : QueryNode) (store : String) (key : Bytes)
    (height : Option UInt64) (s : Setting) (choices : List Bool) :
    ((ask node store key height s choices).header?.isSome ↔
      (∃ v, (ask node store key height s choices).result = some (.ok v)) ∨
      ∃ n, (ask node store key height s choices).result = some (.error (.proof (.appHash n)))) ∧
    ∀ h, (ask node store key height s choices).header? = some h →
      s.Delivers h ∧
      (∀ n, (ask node store key height s choices).result = some (.error (.proof (.appHash n))) →
        n = h.height) ∧
      ∃ r answered, node (request store key height) = .ok r ∧ r.height = some answered ∧
        (answered.toNat + 1 < UInt64.size → h.height.toNat = answered.toNat + 1) := by
  refine ⟨header?_isSome_iff, fun h hh => ?_⟩
  obtain ⟨r, p, hr, -, hanswered, hdelivers, hheight, hresult⟩ := ask_header hh
  refine ⟨hdelivers, fun n hn => ?_, r, p.answer.height, hr, hanswered, fun hnext => ?_⟩
  · rw [hresult, Option.some.injEq] at hn
    rcases settle_cases p h with ⟨v, hv⟩ | hfault
    · rw [hv] at hn
      exact nomatch hn
    · rw [hfault] at hn
      cases hn
      rfl
  · rw [hheight]
    exact toNat_committingHeight hnext

/-- A query that is answered for height 41, when one header can be had. -/
def askAbsent (height : Option UInt64) (h : Header) : Outcome :=
  ask (fun _ => .ok absentAnswer) "bank" [98] height (polling h) [true, true]

theorem header_follows_answer_of_wrong_hash :
    (askAbsent none ⟨42, []⟩).result = some (.error (.proof (.appHash 42))) ∧
      ∃ h, (askAbsent none ⟨42, []⟩).header? = some h ∧ h.height = 42 := by
  have hresult : (askAbsent none ⟨42, []⟩).result = some (.error (.proof (.appHash 42))) :=
    congrArg Outcome.result (query_polling 41 ⟨42, []⟩ (by decide) rfl (if_neg (by decide)))
  obtain ⟨hsome, hheader⟩ := header_follows_answer (fun _ => .ok absentAnswer) "bank" [98] none
    (polling ⟨42, []⟩) [true, true]
  obtain ⟨h, hh⟩ := Option.isSome_iff_exists.mp (hsome.mpr (.inr ⟨42, hresult⟩))
  exact ⟨hresult, h, hh, ((hheader h hh).2.1 42 hresult).symm⟩

/-- The last height has no next one, and an answer for it is checked against a header of that
very height. -/
theorem header_of_last_height :
    ¬ ∀ (node : QueryNode) (store : String) (key : Bytes) (height : Option UInt64) (s : Setting)
      (choices : List Bool) (h : Header) (r : QueryResponse) (answered : UInt64),
      (ask node store key height s choices).header? = some h →
      node (request store key height) = .ok r → r.height = some answered →
      h.height.toNat = answered.toNat + 1 := by
  intro h
  have hsame := h (fun _ => .ok { absentAnswer with height := some 18446744073709551615 }) "bank"
    [98] (some 18446744073709551615) (polling ⟨18446744073709551615, oneAppHash⟩) [true, true]
    ⟨18446744073709551615, oneAppHash⟩ _ 18446744073709551615
    (congrArg Outcome.header? (query_polling _ ⟨_, oneAppHash⟩ (by decide) rfl rfl)) rfl rfl
  exact absurd hsame (by decide)

/-! ### The height that was asked for -/

/-- **A value is proven for the height that the answer names**: the second proof holds under the
app hash of a delivered header, the one of the next height. That is the header which commits to
the height asked for exactly when the answer is for that height. -/
theorem value_of_answered_height {height : UInt64} {v : Value}
    (h : (ask node store key (some height) s choices).result = some (.ok v)) :
    ∃ r p header, node (request store key (some height)) = .ok r ∧
      examine store key (.ok r) = .ok p ∧ r.height = some p.answer.height ∧
      p.answer.height ≠ 0 ∧ p.answer.result = v ∧
      (ask node store key (some height) s choices).header? = some header ∧ s.Delivers header ∧
      p.storeRoot.proof.verifyMembership .multistore header.appHash (Utf8.encode store)
        p.storeRoot.root = true ∧
      (p.answer.height.toNat + 1 < UInt64.size →
        header.height.toNat = p.answer.height.toNat + 1 ∧
        (header.height.toNat = height.toNat + 1 ↔ p.answer.height = height)) := by
  obtain ⟨header, hh⟩ := Option.isSome_iff_exists.mp (header?_isSome_iff.mpr (.inl ⟨v, h⟩))
  obtain ⟨r, p, hr, hx, hanswered, hdelivers, hheight, hresult⟩ := ask_header hh
  obtain ⟨r', hr', -, ha, -, hstore⟩ := examine_ok hx
  obtain ⟨-, -, -, -, hpos⟩ := ofResponse_ok ha
  have hsettle : p.settle header = .ok v := Option.some.inj (hresult.symm.trans h)
  obtain ⟨hvalue, hmember⟩ := settle_ok hsettle
  refine ⟨r, p, header, hr, hx, hanswered, hpos, hvalue, hh, hdelivers, hstore ▸ hmember,
    fun hnext => ?_⟩
  have hnumber : header.height.toNat = p.answer.height.toNat + 1 := by
    rw [hheight]
    exact toNat_committingHeight hnext
  refine ⟨hnumber, ?_⟩
  rw [hnumber, ← UInt64.toNat_inj]
  omega

theorem value_of_answered_height_absent :
    (askAbsent (some 41) ⟨42, oneAppHash⟩).result = some (.ok .absent) ∧
      ∃ header, (askAbsent (some 41) ⟨42, oneAppHash⟩).header? = some header ∧
        header.height.toNat = 41 + 1 := by
  have hresult : (askAbsent (some 41) ⟨42, oneAppHash⟩).result = some (.ok .absent) :=
    congrArg Outcome.result (query_polling 41 ⟨42, oneAppHash⟩ (by decide) rfl (if_pos rfl))
  obtain ⟨r, p, header, hr, -, hanswered, -, -, hh, -, -, hnumber⟩ :=
    value_of_answered_height hresult
  obtain rfl := Except.ok.inj hr
  have hheight : p.answer.height = 41 := (Option.some.inj hanswered).symm
  rw [hheight] at hnumber
  exact ⟨hresult, header, hh, (hnumber (by decide)).1⟩

/-- An answer for another height than the one asked for is taken, if it is proven for its own. -/
theorem value_of_another_height :
    ¬ ∀ (node : QueryNode) (store : String) (key : Bytes) (height : UInt64) (s : Setting)
      (choices : List Bool) (v : Value), height ≠ 0 →
      (ask node store key (some height) s choices).result = some (.ok v) →
      ∃ h, (ask node store key (some height) s choices).header? = some h ∧
        h.height.toNat = height.toNat + 1 := by
  intro h
  have hasked := query_polling 41 ⟨42, oneAppHash⟩ (by decide) rfl (if_pos rfl)
  obtain ⟨header, hh, hheight⟩ := h (fun _ => .ok absentAnswer) "bank" [98] 40
    (polling ⟨42, oneAppHash⟩) [true, true] .absent (by decide) (congrArg Outcome.result hasked)
  have hused : (askAbsent (some 40) ⟨42, oneAppHash⟩).header? = some ⟨42, oneAppHash⟩ :=
    (congrArg Outcome.header? hasked).trans (found_polling ⟨42, oneAppHash⟩)
  obtain rfl := Option.some.inj (hused.symm.trans hh)
  exact absurd hheight (by decide)

end ChainKeys.ProvenQuery
