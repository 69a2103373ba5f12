import ChainKeys.Proofs.Except
import ChainKeys.ProvenQuery

/-!
What a query has checked when it has come this far: one lemma for each stage, saying all that a
success of the stage implies.
-/

namespace ChainKeys

namespace ProvenQuery

open Merkle

lemma ofResponse_ok {key : Bytes} {r : QueryResponse} {a : Answer}
    (h : Answer.ofResponse key r = .ok a) :
    a.key = key ∧ a.value = r.value ∧ r.ops = [a.moduleOp, a.storeOp] ∧
      r.height = some a.height ∧ a.height ≠ 0 := by
  unfold Answer.ofResponse at h
  split at h
  · simp at h
  · rename_i hkey
    have hkey : r.key = key := by simpa using hkey
    cases hh : r.height with
    | none => simp [hh] at h
    | some height =>
      simp only [hh] at h
      split at h
      · simp at h
      · rename_i h0
        match hops : r.ops with
        | [moduleOp, storeOp] =>
          simp only [hops, Except.ok.injEq] at h
          subst h
          exact ⟨hkey, rfl, rfl, rfl, h0⟩
        | [] => simp [hops] at h
        | [_] => simp [hops] at h
        | _ :: _ :: _ :: _ => simp [hops] at h

lemma ofResponse_key {key : Bytes} {r : QueryResponse} {a : Answer}
    (h : Answer.ofResponse key r = .ok a) : r.key = key := by
  by_contra hkey
  rw [Answer.ofResponse, if_pos hkey] at h
  simp at h

lemma checkModule_ok {root key value : Bytes} {p : Proof}
    (h : checkModule root key value p = .ok ()) :
    (value = [] ∧ ∃ n, p = .nonexist n ∧ n.verify .store root key = true) ∨
      (value ≠ [] ∧ ∃ e, p = .exist e ∧ e.verify .store root key value = true) := by
  unfold checkModule at h
  by_cases hv : value = []
  · subst hv
    cases p with
    | nonexist n =>
      cases hn : n.verify .store root key with
      | true => exact Or.inl ⟨rfl, n, rfl, hn⟩
      | false => simp [Proof.verifyNonMembership, Proof.expand, Proof.nonExistence?, hn] at h
    | _ => simp at h
  · cases p with
    | exist e =>
      cases he : e.verify .store root key value with
      | true => exact Or.inr ⟨hv, e, rfl, he⟩
      | false => simp [hv, Proof.verifyMembership, Proof.expand, Proof.existence?, he] at h
    | _ => simp [hv] at h

lemma checkOp_ok {index : Nat} {op : ProofOp} {type : String} {key : Bytes}
    (h : checkOp index op type key = .ok ()) : op.type = type ∧ op.key = key := by
  unfold checkOp at h
  split at h
  · simp at h
  · split at h
    · simp at h
    · rename_i ht hk
      exact ⟨by simpa using ht, by simpa using hk⟩

lemma decodeOp_ok {index : Nat} {op : ProofOp} {p : Proof} (h : decodeOp index op = .ok p) :
    Proof.decode op.data = some p := by
  unfold decodeOp at h
  split at h
  · rename_i q hq
    rw [hq]
    simpa using h
  · simp at h

lemma claimedRoot_ok {p : Proof} {root : Bytes} (h : claimedRoot p = .ok root) :
    ∃ e, p = .exist e ∧ e.value = root := by
  cases p with
  | exist e => exact ⟨e, rfl, by simpa [claimedRoot] using h⟩
  | _ => simp [claimedRoot] at h

/-- A checked answer carries a proof of the store's root and, checked against that root, one of
the value or of its absence. -/
lemma checkStore_ok {store : String} {a : Answer} {sr : StoreRoot}
    (h : checkStore store a = .ok sr) :
    ∃ p e, Proof.decode a.moduleOp.data = some p ∧
      Proof.decode a.storeOp.data = some (.exist e) ∧ sr = ⟨.exist e, e.value⟩ ∧
      checkModule e.value a.key a.value p = .ok () ∧
      (a.moduleOp.type = moduleOpType ∧ a.moduleOp.key = a.key) ∧
      (a.storeOp.type = storeOpType ∧ a.storeOp.key = Utf8.encode store) := by
  unfold checkStore at h
  obtain ⟨_, hmodule, h⟩ := bind_eq_ok h
  obtain ⟨_, hstore, h⟩ := bind_eq_ok h
  obtain ⟨p, hp, h⟩ := bind_eq_ok h
  obtain ⟨q, hq, h⟩ := bind_eq_ok h
  obtain ⟨root, hroot, h⟩ := bind_eq_ok h
  obtain ⟨_, hcheck, h⟩ := bind_eq_ok h
  obtain ⟨e, rfl, rfl⟩ := claimedRoot_ok hroot
  have hsr : sr = ⟨.exist e, e.value⟩ := (Except.ok.inj h).symm
  exact ⟨p, e, decodeOp_ok hp, decodeOp_ok hq, hsr, hcheck, checkOp_ok hmodule,
    checkOp_ok hstore⟩

/-- Before anyone waits for a header, the answer has passed all checks that need none. -/
lemma examine_ok {store : String} {key : Bytes}
    {response : Except TransportError QueryResponse} {p : Pending}
    (h : examine store key response = .ok p) :
    ∃ r, response = .ok r ∧ r.code = 0 ∧ Answer.ofResponse key r = .ok p.answer ∧
      checkStore store p.answer = .ok p.storeRoot ∧ p.store = store := by
  unfold examine at h
  obtain ⟨r, hr, h⟩ := bind_eq_ok h
  have hr := mapError_eq_ok hr
  by_cases hcode : r.code = 0
  · simp only [hcode, ne_eq, not_true_eq_false, if_false] at h
    obtain ⟨a, ha, h⟩ := bind_eq_ok h
    obtain ⟨sr, hsr, h⟩ := bind_eq_ok h
    have hp : p = ⟨store, a, sr⟩ := (Except.ok.inj h).symm
    subst hp
    exact ⟨r, hr, hcode, mapError_eq_ok ha, mapError_eq_ok hsr, rfl⟩
  · simp only [ne_eq, hcode, not_false_eq_true, if_true] at h
    exact nomatch h

lemma examine_eq (store : String) (key : Bytes) (r : QueryResponse) :
    examine store key (.ok r) =
      if r.code = 0 then
        ((Answer.ofResponse key r >>= fun a => checkStore store a >>= fun sr =>
          pure (⟨store, a, sr⟩ : Pending)) : Except ProofError Pending).mapError .proof
      else .error (.failed r.code r.log) := by
  by_cases hcode : r.code = 0
  · rw [if_pos hcode]
    cases ha : Answer.ofResponse key r with
    | error e => simp [examine, hcode, ha, bind, Except.bind, Except.mapError]
    | ok a =>
      cases hs : checkStore store a with
      | error e => simp [examine, hcode, ha, hs, bind, Except.bind, Except.mapError]
      | ok sr =>
        simp [examine, hcode, ha, hs, bind, Except.bind, Except.mapError, pure, Except.pure]
  · rw [if_neg hcode]
    simp [examine, hcode, bind, Except.bind, Except.mapError, throw, throwThe,
      MonadExceptOf.throw]

/-- The height is not among the things that are checked: an answer that passes does so for any
height but zero. -/
lemma examine_height {store : String} {key : Bytes} {r : QueryResponse} {p : Pending}
    {height : UInt64} (h : examine store key (.ok r) = .ok p) (hheight : height ≠ 0) :
    examine store key (.ok { r with height := some height }) =
      .ok { p with answer := { p.answer with height := height } } := by
  obtain ⟨r', hr, hcode, ha, hs, rfl⟩ := examine_ok h
  obtain rfl := Except.ok.inj hr
  obtain ⟨hkey, hvalue, hops, -, -⟩ := ofResponse_ok ha
  have ha' : Answer.ofResponse key { r with height := some height } =
      .ok { p.answer with height := height } := by
    simp [Answer.ofResponse, ofResponse_key ha, hkey, hvalue, hops, hheight]
  have hs' : checkStore p.store { p.answer with height := height } = .ok p.storeRoot := hs
  rw [examine_eq, if_pos hcode, ha']
  simp [hs', bind, Except.bind, pure, Except.pure, Except.mapError]

lemma settle_ok {p : Pending} {h : Header} {v : Value} (hv : p.settle h = .ok v) :
    p.answer.result = v ∧
      p.storeRoot.proof.verifyMembership .multistore h.appHash (Utf8.encode p.store)
        p.storeRoot.root = true := by
  unfold Pending.settle at hv
  split at hv
  · exact ⟨Except.ok.inj hv, ‹_›⟩
  · exact nomatch hv

lemma settle_cases (p : Pending) (h : Header) :
    (∃ v, p.settle h = .ok v) ∨ p.settle h = .error (.proof (.appHash h.height)) := by
  unfold Pending.settle
  split
  · exact .inl ⟨_, rfl⟩
  · exact .inr rfl

end ProvenQuery

end ChainKeys
