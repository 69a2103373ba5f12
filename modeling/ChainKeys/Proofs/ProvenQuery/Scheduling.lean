import ChainKeys.Proofs.HeaderWait.Progress
import ChainKeys.Proofs.ProvenQuery.Soundness

/-!
What the course of events around a query can change about its result: nothing, as long as only
one app hash is to be had for the height that commits to the answer. An answer with a fault does
not get as far as a wait, and of several faults the first in a fixed order is reported.
-/

namespace ChainKeys.ProvenQuery

open Merkle HeaderWait

/-! ### Faults of an answer -/

/-- The fault that a proof of another kind is. -/
def kindFault? (index : Nat) (kind : String) (p : Proof) : Option Error :=
  if p.kind = kind then none else some (.proof (.kind index kind p.kind))

/-- The fault that the first proof does not hold in a tree of the root that the second is about;
it has to show the value, or when that is empty that there is none. -/
def moduleFault? (r : QueryResponse) : Proof → Proof → Option Error
  | p, .exist e =>
    if (if r.value = [] then p.verifyNonMembership .store e.value r.key
      else p.verifyMembership .store e.value r.key r.value) then none
    else some (.proof (.invalid 0))
  | _, _ => none

/-- What can be wrong with the two ops of an answer, each looked at for itself. -/
def opFaults (store : String) (r : QueryResponse) (moduleOp storeOp : ProofOp) :
    List (Option Error) :=
  let moduleProof := Proof.decode moduleOp.data
  let storeProof := Proof.decode storeOp.data
  let kind := if r.value = [] then "non-existence" else "existence"
  [if moduleOp.type = moduleOpType then none
    else some (.proof (.opType 0 moduleOpType moduleOp.type)),
   if moduleOp.key = r.key then none else some (.proof (.opKey 0 r.key moduleOp.key)),
   if storeOp.type = storeOpType then none
    else some (.proof (.opType 1 storeOpType storeOp.type)),
   if storeOp.key = Utf8.encode store then none
    else some (.proof (.opKey 1 (Utf8.encode store) storeOp.key)),
   if moduleProof.isSome then none else some (.proof (.malformed 0)),
   if storeProof.isSome then none else some (.proof (.malformed 1)),
   storeProof.bind (kindFault? 1 "existence"),
   moduleProof.bind (kindFault? 0 kind),
   moduleProof.bind fun p => storeProof.bind (moduleFault? r p)]

/-- All that can be wrong with an answer, in the order in which it is reported. -/
def faults (store : String) (key : Bytes) (r : QueryResponse) : List (Option Error) :=
  [if r.code = 0 then none else some (.failed r.code r.log),
   if r.key = key then none else some (.proof (.otherKey key r.key)),
   if r.height.getD 0 ≠ 0 then none else some (.proof .noHeight),
   if r.ops.length = 2 then none else some (.proof (.opCount r.ops.length))] ++
  match r.ops with
  | [moduleOp, storeOp] => opFaults store r moduleOp storeOp
  | _ => []

/-! ### The first fault -/

/-- A computation fails with the first fault of a list, and succeeds if there is none. -/
def Reports {α : Type} (faults : List (Option Error)) (x : Except Error α) : Prop :=
  match faults.findSome? id with
  | some e => x = .error e
  | none => ∃ a, x = .ok a

section

variable {α β : Type} {l m : List (Option Error)} {x : Except Error α}

lemma Reports.ok {a : α} : Reports [] (.ok a) := ⟨a, rfl⟩

lemma Reports.cons {o : Option Error} (hfault : ∀ e, o = some e → x = .error e)
    (hnone : o = none → Reports l x) : Reports (o :: l) x := by
  cases o with
  | none => exact hnone rfl
  | some e => exact hfault e rfl

lemma Reports.check {c : Prop} [Decidable c] {e : Error} (hfault : ¬c → x = .error e)
    (hnone : c → Reports l x) : Reports ((if c then none else some e) :: l) x := by
  split_ifs with hc
  · exact .cons nofun fun _ => hnone hc
  · exact .cons (fun _ he => Option.some.inj he ▸ hfault hc) nofun

/-- The faults of a second step come after those of the first. -/
lemma Reports.append {y : Except ProofError α} {f : α → Except ProofError β}
    (h : Reports l (y.mapError Error.proof))
    (hf : ∀ a, y = .ok a → Reports m ((f a).mapError Error.proof)) :
    Reports (l ++ m) ((y >>= f).mapError Error.proof) := by
  unfold Reports at h hf ⊢
  rw [List.findSome?_append]
  cases hfirst : l.findSome? id with
  | some e =>
    simp only [hfirst] at h
    cases y with
    | ok a => exact nomatch h
    | error e' =>
      obtain rfl := Except.error.inj h
      rfl
  | none =>
    simp only [hfirst] at h
    obtain ⟨a, ha⟩ := h
    obtain rfl := mapError_eq_ok ha
    exact hf a rfl

end

/-! ### One check after the other -/

lemma ofResponse_reports (key : Bytes) (r : QueryResponse) :
    Reports [if r.key = key then none else some (.proof (.otherKey key r.key)),
      if r.height.getD 0 ≠ 0 then none else some (.proof .noHeight),
      if r.ops.length = 2 then none else some (.proof (.opCount r.ops.length))]
      ((Answer.ofResponse key r).mapError Error.proof) := by
  unfold Answer.ofResponse
  refine .check (fun h => ?_) fun hkey => .check (fun h => ?_) fun hheight =>
    .check (fun h => ?_) fun hcount => ?_
  · rw [if_pos h]
    rfl
  · rw [if_neg (not_not.mpr hkey)]
    cases hh : r.height with
    | none => rfl
    | some height =>
      rw [hh, Option.getD_some, not_not] at h
      simp [h, Except.mapError]
  all_goals
    rw [if_neg (not_not.mpr hkey)]
    obtain ⟨height, hh⟩ : ∃ height, r.height = some height := by
      cases hh : r.height with
      | none => simp [hh] at hheight
      | some height => exact ⟨height, rfl⟩
    rw [hh, Option.getD_some] at hheight
    simp only [hh, if_neg hheight]
  · split
    · rename_i hops
      simp [hops] at h
    · rfl
  · obtain ⟨moduleOp, storeOp, hops⟩ := List.length_eq_two.mp hcount
    rw [hops]
    exact .ok

lemma checkOp_reports (index : Nat) (op : ProofOp) (type : String) (key : Bytes) :
    Reports [if op.type = type then none else some (.proof (.opType index type op.type)),
      if op.key = key then none else some (.proof (.opKey index key op.key))]
      ((checkOp index op type key).mapError Error.proof) := by
  unfold checkOp
  refine .check (fun h => ?_) fun htype => .check (fun h => ?_) fun hkey => ?_
  · rw [if_pos h]
    rfl
  · rw [if_neg (not_not.mpr htype), if_pos h]
    rfl
  · rw [if_neg (not_not.mpr htype), if_neg (not_not.mpr hkey)]
    exact .ok

lemma decodeOp_reports (index : Nat) (op : ProofOp) :
    Reports [if (Proof.decode op.data).isSome then none else some (.proof (.malformed index))]
      ((decodeOp index op).mapError Error.proof) := by
  unfold decodeOp
  cases Proof.decode op.data with
  | none => exact rfl
  | some p => exact .ok

lemma claimedRoot_reports (p : Proof) :
    Reports [kindFault? 1 "existence" p] ((claimedRoot p).mapError Error.proof) := by
  refine .check (fun hkind => ?_) fun hkind => ?_
  · cases p with
    | exist e => exact absurd rfl hkind
    | _ => rfl
  · cases p with
    | exist e => exact .ok
    | _ => simp [Proof.kind] at hkind

/-- The check of the first proof reports its kind, then whether it holds. -/
lemma checkModule_reports (r : QueryResponse) (e : Existence) (p : Proof) :
    Reports [kindFault? 0 (if r.value = [] then "non-existence" else "existence") p,
      moduleFault? r p (.exist e)]
      ((checkModule e.value r.key r.value p).mapError Error.proof) := by
  unfold checkModule
  refine .check (fun hkind => ?_) fun hkind => .check (fun hinvalid => ?_) fun hvalid => ?_
  all_goals
    by_cases hvalue : r.value = []
    · cases p <;> simp_all [Proof.kind, Except.mapError, Reports]
    · cases p <;> simp_all [Proof.kind, Except.mapError, Reports]

lemma checkStore_reports (store : String) (r : QueryResponse) (moduleOp storeOp : ProofOp)
    (height : UInt64) :
    Reports (opFaults store r moduleOp storeOp)
      ((checkStore store ⟨r.key, r.value, moduleOp, storeOp, height⟩).mapError Error.proof) := by
  refine .append (l := [_, _]) (checkOp_reports 0 moduleOp moduleOpType r.key) fun _ _ => ?_
  refine .append (l := [_, _]) (checkOp_reports 1 storeOp storeOpType _) fun _ _ => ?_
  refine .append (l := [_]) (decodeOp_reports 0 moduleOp) fun p hp => ?_
  refine .append (l := [_]) (decodeOp_reports 1 storeOp) fun q hq => ?_
  rw [decodeOp_ok hp, decodeOp_ok hq]
  refine .append (l := [_]) (claimedRoot_reports q) fun root hroot => ?_
  obtain ⟨e, rfl, rfl⟩ := claimedRoot_ok hroot
  exact .append (l := [_, _]) (checkModule_reports r e p) fun _ _ => .ok

/-- An answer fails with its first fault, before anyone waits for a header. -/
lemma examine_reports (store : String) (key : Bytes) (r : QueryResponse) :
    Reports (faults store key r) (examine store key (.ok r)) := by
  rw [examine_eq]
  refine .check (fun hcode => if_neg hcode) fun hcode => ?_
  rw [if_pos hcode]
  refine .append (l := [_, _, _]) (ofResponse_reports key r) fun a ha => ?_
  obtain ⟨akey, avalue, moduleOp, storeOp, height⟩ := a
  obtain rfl := ofResponse_key ha
  obtain ⟨rfl, rfl, hops, -, -⟩ := ofResponse_ok ha
  rw [hops]
  change Reports (opFaults store r moduleOp storeOp) _
  rw [← List.append_nil (opFaults store r moduleOp storeOp)]
  exact .append (checkStore_reports store r moduleOp storeOp height) fun _ _ => .ok

def firstFault? (store : String) (key : Bytes) (r : QueryResponse) : Option Error :=
  (faults store key r).findSome? id

lemma firstFault?_eq_some_iff {store : String} {key : Bytes} {r : QueryResponse} {e : Error} :
    firstFault? store key r = some e ↔ examine store key (.ok r) = .error e := by
  have h := examine_reports store key r
  unfold Reports at h
  unfold firstFault?
  cases hfirst : (faults store key r).findSome? id with
  | some e' =>
    simp only [hfirst] at h
    simp [h]
  | none =>
    simp only [hfirst] at h
    obtain ⟨p, hp⟩ := h
    simp [hp]

/-! ### Schedules -/

/-- A query whose wait goes as the choices say. -/
def query (store : String) (key : Bytes) (r : QueryResponse) (s : Setting)
    (choices : List Bool) : Outcome :=
  verify store key (.ok r) fun target => run target s choices

lemma committingHeight_of_lt {height : UInt64} (h : height.toNat + 1 < UInt64.size) :
    committingHeight height = height + 1 := by
  rw [committingHeight, if_neg]
  rintro rfl
  exact absurd h (by decide)

/-- A result after a wait is the settlement with a header that was delivered for the height. -/
lemma query_result {store : String} {key : Bytes} {r : QueryResponse} {s : Setting}
    {choices : List Bool} {x : Except Error Value} {p : Pending}
    (hx : (query store key r s choices).result = some x)
    (hp : examine store key (.ok r) = .ok p) :
    ∃ h, s.Delivers h ∧ h.height = p.target ∧ x = p.settle h := by
  simp only [query, verify, hp] at hx
  obtain ⟨h, hfound, rfl⟩ := Option.map_eq_some_iff.mp hx
  obtain ⟨hheight, hdelivers⟩ := delivers_of_found hfound
  exact ⟨h, hdelivers, hheight, rfl⟩

/-- **Scheduling does not matter.** Two queries with the same answer, for a height that has a next
one, come to the same result if they come to one at all, however their waits go, as long as all
headers of the next height that are delivered to either have the same app hash. An answer with a
fault leads to the first of its faults with no wait, and only such an answer does. -/
theorem query_unscheduled (store : String) (key : Bytes) (r : QueryResponse) :
    (∀ (height : UInt64) (hash : Bytes) (s₁ s₂ : Setting) (choices₁ choices₂ : List Bool)
      (x₁ x₂ : Except Error Value),
      r.height = some height → height.toNat + 1 < UInt64.size →
      (∀ h, s₁.Delivers h → h.height = height + 1 → h.appHash = hash) →
      (∀ h, s₂.Delivers h → h.height = height + 1 → h.appHash = hash) →
      (query store key r s₁ choices₁).result = some x₁ →
      (query store key r s₂ choices₂).result = some x₂ → x₁ = x₂) ∧
    ∀ (wait : UInt64 → HeaderWait.State) (e : Error),
      verify store key (.ok r) wait = ⟨some (.error e), none⟩ ↔
        firstFault? store key r = some e := by
  constructor
  · intro height hash s₁ s₂ choices₁ choices₂ x₁ x₂ hheight hnext h₁ h₂ hx₁ hx₂
    cases hp : examine store key (.ok r) with
    | error e =>
      simp only [query, verify, hp, Option.some.injEq] at hx₁ hx₂
      rw [← hx₁, hx₂]
    | ok p =>
      have htarget : p.target = height + 1 := by
        obtain ⟨r', hr', -, ha, -, -⟩ := examine_ok hp
        obtain rfl := Except.ok.inj hr'
        obtain ⟨-, -, -, hp', -⟩ := ofResponse_ok ha
        obtain rfl := Option.some.inj (hheight.symm.trans hp')
        exact committingHeight_of_lt hnext
      obtain ⟨a, ha, hat, rfl⟩ := query_result hx₁ hp
      obtain ⟨b, hb, hbt, rfl⟩ := query_result hx₂ hp
      have hsame : a = b := by
        obtain ⟨aheight, aHash⟩ := a
        obtain ⟨bheight, bHash⟩ := b
        obtain rfl := h₁ _ ha (hat.trans htarget)
        obtain rfl := h₂ _ hb (hbt.trans htarget)
        simp only at hat hbt
        rw [hat, hbt]
      rw [hsame]
  · intro wait e
    rw [firstFault?_eq_some_iff]
    unfold verify
    cases examine store key (.ok r) with
    | error e' => simp
    | ok p => simp

/-- Polls are answered at once, with this header; nothing is pushed. -/
def polling (h : Header) : Setting := ⟨1, fun _ => ⟨0, .ok [h]⟩, none⟩

/-- Polls fail; this header is pushed over and over. -/
def pushing (h : Header) : Setting :=
  ⟨1, fun _ => ⟨0, .error (.decode "")⟩, some fun _ => some (0, .header h)⟩

lemma eq_of_polling {h h' : Header} (hd : (polling h).Delivers h') : h' = h := by
  rcases hd with ⟨k, hk⟩ | ⟨k, headers, hanswer, hmem⟩
  · simp [polling, Setting.header?, Setting.push?] at hk
  · obtain rfl := Except.ok.inj hanswer
    exact List.mem_singleton.mp hmem

lemma eq_of_pushing {h h' : Header} (hd : (pushing h).Delivers h') : h' = h := by
  rcases hd with ⟨k, hk⟩ | ⟨k, headers, hanswer, hmem⟩
  · exact (Option.some.inj hk).symm
  · exact nomatch hanswer

lemma found_polling (h : Header) : (run h.height (polling h) [true, true]).found = some h := by
  simp [run, step, polling, State.start, State.next?, stepPoll, wanted?]

lemma query_polling (height : UInt64) (h : Header) {x : Except Error Value} (hheight : height ≠ 0)
    (hnext : committingHeight height = h.height)
    (hx : (if h.appHash = oneAppHash then .ok .absent
      else .error (.proof (.appHash h.height))) = x) :
    query "bank" [98] { absentAnswer with height := some height } (polling h) [true, true] =
      ⟨some x, some (run h.height (polling h) [true, true])⟩ := by
  rw [← hnext]
  exact verify_absentAnswer height _ h hheight (hnext ▸ found_polling h) hx

theorem query_unscheduled_absent :
    (query "bank" [98] absentAnswer (polling ⟨42, oneAppHash⟩) [true, true]).result =
      (query "bank" [98] absentAnswer (pushing ⟨42, oneAppHash⟩) [false, false, true]).result ∧
    verify "bank" [99] (.ok absentAnswer) (foundAt oneAppHash) =
      ⟨some (.error (.proof (.otherKey [99] [98]))), none⟩ := by
  have h₁ : (query "bank" [98] absentAnswer (polling ⟨42, oneAppHash⟩) [true, true]).result =
      some (.ok .absent) :=
    congrArg Outcome.result (query_polling 41 ⟨42, oneAppHash⟩ (by decide) rfl (if_pos rfl))
  obtain ⟨x, h₂⟩ : ∃ x, (query "bank" [98] absentAnswer (pushing ⟨42, oneAppHash⟩)
      [false, false, true]).result = some x :=
    ⟨_, congrArg Outcome.result (verify_absentAnswer 41 _ ⟨42, oneAppHash⟩ (by decide)
      (by decide +kernel) rfl)⟩
  have hsame := (query_unscheduled "bank" [98] absentAnswer).1 41 oneAppHash _ _ _ _ _ _ rfl
    (by decide) (fun h hd _ => by rw [eq_of_polling hd]) (fun h hd _ => by rw [eq_of_pushing hd])
    h₁ h₂
  refine ⟨by rw [h₁, h₂, hsame], ?_⟩
  exact ((query_unscheduled "bank" [99] absentAnswer).2 _ _).mpr (by decide +kernel)

/-- The last 64-bit height has no next one, and a query for it settles with a header of its own
height; so there the result does hang on which headers come, though none of the next height ever
does. -/
theorem query_scheduled_at_last_height :
    ¬ ∀ (store : String) (key : Bytes) (r : QueryResponse) (height : UInt64) (hash : Bytes)
      (s₁ s₂ : Setting) (choices₁ choices₂ : List Bool) (x₁ x₂ : Except Error Value),
      r.height = some height →
      (∀ h, s₁.Delivers h → h.height.toNat = height.toNat + 1 → h.appHash = hash) →
      (∀ h, s₂.Delivers h → h.height.toNat = height.toNat + 1 → h.appHash = hash) →
      (query store key r s₁ choices₁).result = some x₁ →
      (query store key r s₂ choices₂).result = some x₂ → x₁ = x₂ := by
  intro h
  have hnone : ∀ h' : Header, h'.height.toNat ≠ (18446744073709551615 : UInt64).toNat + 1 :=
    fun h' => Nat.ne_of_lt h'.height.toNat_lt_size
  have hsame := h "bank" [98] { absentAnswer with height := some 18446744073709551615 }
    18446744073709551615 [] (polling ⟨18446744073709551615, oneAppHash⟩)
    (polling ⟨18446744073709551615, []⟩) [true, true] [true, true] (.ok .absent)
    (.error (.proof (.appHash 18446744073709551615))) rfl
    (fun h' _ hh => absurd hh (hnone h')) (fun h' _ hh => absurd hh (hnone h'))
    (congrArg Outcome.result (query_polling _ ⟨_, oneAppHash⟩ (by decide) rfl (if_pos rfl)))
    (congrArg Outcome.result (query_polling _ ⟨_, []⟩ (by decide) rfl (if_neg (by decide))))
  exact nomatch hsame

end ChainKeys.ProvenQuery
