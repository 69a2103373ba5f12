import ChainKeys.Merkle.Tree
import ChainKeys.Proofs.Merkle.Soundness
import ChainKeys.Proofs.ProvenQuery.Steps

/-!
What a node can make a client believe. The answer to a query is the node's to choose, proofs
and all; only the header is the chain's. Then a value that a query returns is the one the store
holds, and a key that it reports absent is not in the store.
-/

namespace ChainKeys

open Merkle

/-- A chain at one height: the entries of one store, and the roots of all stores by name. -/
structure Chain where
  store : String
  entries : List (Bytes × Bytes)
  roots : List (String × Bytes)
  entries_ne_nil : entries ≠ []
  keys_nodup : (entries.map (·.1)).Nodup
  names_nodup : (roots.map (·.1)).Nodup
  names_ne_empty : ∀ n ∈ roots.map (·.1), n ≠ ""
  holds : (store, (Scheme.store.tree entries).root .store) ∈ roots

namespace Chain

def storeTree (c : Chain) : Tree := Scheme.store.tree c.entries

def multistore (c : Chain) : Tree :=
  Scheme.multistore.tree (c.roots.map fun r => (Utf8.encode r.1, r.2))

/-- What the header of the next height says. -/
def appHash (c : Chain) : Bytes := c.multistore.root .multistore

def get? (c : Chain) (key : Bytes) : Option Bytes := c.entries.lookup key

/-- The byte strings that are hashed on the chain's side. -/
def messages (c : Chain) : List Bytes :=
  c.storeTree.messages .store ++ c.multistore.messages .multistore

/-- No other store's name ends in this one's with its length in front. -/
def Unambiguous (c : Chain) : Prop :=
  ∀ n ∈ c.roots.map (·.1), n ≠ c.store →
    ¬ lengthPrefixed (Utf8.encode c.store) <:+ Utf8.encode n

lemma get?_eq_some {c : Chain} {key value : Bytes} (h : (key, value) ∈ c.entries) :
    c.get? key = some value :=
  (lookup_eq_some_iff_mem c.keys_nodup).mpr h

lemma get?_eq_none {c : Chain} {key : Bytes} (h : key ∉ c.entries.map (·.1)) :
    c.get? key = none := by
  rw [get?, List.lookup_eq_none_iff]
  intro e he
  rw [bne_iff_ne]
  rintro rfl
  exact h (List.mem_map_of_mem he)

lemma mem_storeTree {c : Chain} {e : Bytes × Bytes} :
    e ∈ c.storeTree.entries ↔ e ∈ c.entries :=
  (Scheme.perm_entries_tree .store c.entries_ne_nil).mem_iff

lemma sorted_storeTree (c : Chain) : c.storeTree.Sorted :=
  Scheme.sorted_tree .store c.entries_ne_nil c.keys_nodup

lemma named_ne_nil (c : Chain) : (c.roots.map fun r => (Utf8.encode r.1, r.2)) ≠ [] := by
  rw [ne_eq, List.map_eq_nil_iff]
  exact List.ne_nil_of_mem c.holds

lemma mem_multistore {c : Chain} {k root : Bytes} (h : (k, root) ∈ c.multistore.entries) :
    ∃ n, (n, root) ∈ c.roots ∧ k = Utf8.encode n := by
  have hmem := (Scheme.perm_entries_tree .multistore c.named_ne_nil).mem_iff.mp h
  obtain ⟨⟨n, r⟩, hr, he⟩ := List.mem_map.mp hmem
  obtain ⟨rfl, rfl⟩ := Prod.mk.inj he
  exact ⟨n, hr, rfl⟩

/-- A name at the end of an entry's name can only be that of its own store. -/
lemma root_of_suffix {c : Chain} (hc : c.Unambiguous) {k root : Bytes}
    (h : (k, root) ∈ c.multistore.entries)
    (hk : lengthPrefixed (Utf8.encode c.store) <:+ lengthPrefixed k) :
    root = c.storeTree.root .store := by
  obtain ⟨n, hn, rfl⟩ := mem_multistore h
  have hname : n = c.store := by
    by_contra hne
    rcases lengthPrefixed_suffix hk with heq | hsuffix
    · exact hne (Utf8.encode_inj heq).symm
    · exact hc n (List.mem_map_of_mem hn) hne hsuffix
  subst hname
  have := List.inj_on_of_nodup_map c.names_nodup hn c.holds rfl
  exact (Prod.mk.inj this).2

end Chain

/-- The byte strings that are hashed when a proof is checked. Batches are not asked for. -/
def Merkle.Proof.messages : Proof → List Bytes
  | .exist e => e.messages
  | .nonexist n => n.left.elim [] Existence.messages ++ n.right.elim [] Existence.messages
  | _ => []

namespace ProvenQuery

/-- The byte strings that are hashed when the proofs of an answer are checked. -/
def checkedMessages : Except TransportError QueryResponse → List Bytes
  | .ok r => r.ops.flatMap fun op => (Proof.decode op.data).elim [] Proof.messages
  | .error _ => []

lemma messages_subset {r : QueryResponse} {op : ProofOp} {p : Proof} (hop : op ∈ r.ops)
    (hp : Proof.decode op.data = some p) : p.messages ⊆ checkedMessages (.ok r) := by
  intro m hm
  exact List.mem_flatMap.mpr ⟨op, hop, by rw [hp]; exact hm⟩

/-- An answer is proven under one app hash only. -/
lemma settle_eq {p : Pending} {h h' : Header} {v : Value} (hv : p.settle h = .ok v) :
    p.settle h' =
      if h'.appHash = h.appHash then .ok v else .error (.proof (.appHash h'.height)) := by
  obtain ⟨rfl, hmember⟩ := settle_ok hv
  by_cases hhash : h'.appHash = h.appHash
  · rw [if_pos hhash, Pending.settle, if_pos (hhash ▸ hmember)]
  · rw [if_neg hhash, Pending.settle, if_neg]
    intro hmember'
    exact hhash (Proof.root_unique hmember' hmember)

/-- A result is returned only for an answer that was examined, with a header found whose app
hash it was checked against. -/
lemma verify_ok {store : String} {key : Bytes} {response : Except TransportError QueryResponse}
    {wait : UInt64 → HeaderWait.State} {x : Value}
    (h : (verify store key response wait).result = some (.ok x)) :
    ∃ p header, examine store key response = .ok p ∧
      (verify store key response wait).wait = some (wait p.target) ∧
      (wait p.target).found = some header ∧ p.answer.result = x ∧
      p.storeRoot.proof.verifyMembership .multistore header.appHash (Utf8.encode p.store)
        p.storeRoot.root = true := by
  unfold verify at h ⊢
  cases hx : examine store key response with
  | error e => simp [hx] at h
  | ok p =>
    simp only [hx] at h ⊢
    obtain ⟨header, hfound, hsettle⟩ := Option.map_eq_some_iff.mp h
    exact ⟨p, header, rfl, rfl, hfound, settle_ok hsettle⟩

section

variable {c : Chain} {key : Bytes} {response : Except TransportError QueryResponse}
  {wait : UInt64 → HeaderWait.State}

/-- The first proof of an answer that leads to a result was checked against the store's own
root: the second proof pins it. -/
lemma checkModule_of_verify (hc : c.Unambiguous)
    (hheader : ∀ st header, (verify c.store key response wait).wait = some st →
      st.found = some header → header.appHash = c.appHash)
    (hcol : NoCollision (c.messages ++ checkedMessages response)) {x : Value}
    (h : (verify c.store key response wait).result = some (.ok x)) :
    ∃ (a : Answer) (q : Proof), a.result = x ∧
      checkModule (c.storeTree.root .store) key a.value q = .ok () ∧
      NoCollision (c.storeTree.messages .store ++ q.messages) := by
  obtain ⟨p, header, hx, hwait, hfound, hresult, hstore⟩ := verify_ok h
  rw [hheader _ _ hwait hfound] at hstore
  obtain ⟨r, rfl, -, ha, hcheck, hname⟩ := examine_ok hx
  obtain ⟨hkey, -, hops, -⟩ := ofResponse_ok ha
  obtain ⟨q, e, hq, he, hsr, hmodule, -⟩ := checkStore_ok hcheck
  have hqsub := messages_subset (r := r) (by rw [hops]; simp) hq
  have hesub := messages_subset (r := r) (by rw [hops]; simp) he
  have hroot : e.value = c.storeTree.root .store := by
    simp only [hsr, hname, Proof.verifyMembership, Proof.expand, Proof.existence?,
      Option.any_some] at hstore
    have hcol' : NoCollision (c.multistore.messages .multistore ++ e.messages) := by
      refine hcol.mono fun m hm => ?_
      rcases List.mem_append.mp hm with hm | hm
      · simp [Chain.messages, hm]
      · exact List.mem_append_right _ (hesub hm)
    obtain ⟨k, hat, hk, -⟩ := Existence.sound (s := .multistore) hstore hcol'
    exact Chain.root_of_suffix hc (Tree.mem_of_at? hat) hk
  rw [hroot, hkey] at hmodule
  refine ⟨p.answer, q, hresult, hmodule, hcol.mono fun m hm => ?_⟩
  rcases List.mem_append.mp hm with hm | hm
  · simp [Chain.messages, hm]
  · exact List.mem_append_right _ (hqsub hm)

/-- **Soundness of proven queries.** Whatever a node answers, as long as the header found is the
chain's: a value returned is the one the store holds, and a key reported absent is not there. -/
theorem verify_sound (hc : c.Unambiguous)
    (hheader : ∀ st header, (verify c.store key response wait).wait = some st →
      st.found = some header → header.appHash = c.appHash)
    (hcol : NoCollision (c.messages ++ checkedMessages response)) :
    (∀ v, (verify c.store key response wait).result = some (.ok (.present v)) →
      c.get? key = some v) ∧
    ((verify c.store key response wait).result = some (.ok .absent) → c.get? key = none) := by
  constructor
  · intro v h
    obtain ⟨a, q, hresult, hmodule, hcol⟩ := checkModule_of_verify hc hheader hcol h
    rcases checkModule_ok hmodule with ⟨hv, -⟩ | ⟨hv, e, rfl, he⟩
    · simp [Answer.result, hv] at hresult
    · have hav : a.value = v := by simpa [Answer.result, hv] using hresult
      rw [hav] at he
      have hat := Existence.sound_store he hcol
      exact Chain.get?_eq_some (Chain.mem_storeTree.mp (Tree.mem_of_at? hat))
  · intro h
    obtain ⟨a, q, hresult, hmodule, hcol⟩ := checkModule_of_verify hc hheader hcol h
    rcases checkModule_ok hmodule with ⟨-, n, rfl, hn⟩ | ⟨hv, -⟩
    · have hnot := NonExistence.sound c.sorted_storeTree hn hcol
      refine Chain.get?_eq_none fun hmem => hnot ?_
      obtain ⟨e, he, rfl⟩ := List.mem_map.mp hmem
      exact List.mem_map_of_mem (Chain.mem_storeTree.mpr he)
    · simp [Answer.result, hv] at hresult

end

/-! ### A chain with one entry -/

def oneRoot : Bytes := [
  47, 47, 176, 210, 83, 59, 78, 48, 37, 82, 25, 52, 77, 224, 78, 33,
  195, 220, 186, 126, 36, 76, 161, 177, 168, 166, 7, 38, 135, 54, 117, 235]

def oneAppHash : Bytes := [
  134, 199, 100, 171, 6, 29, 36, 55, 184, 160, 80, 128, 168, 142, 124, 116,
  7, 88, 145, 71, 182, 89, 18, 198, 154, 9, 151, 28, 64, 245, 199, 146]

/-- The store `bank`, in which the key `a` has the value 1. -/
def oneEntry : Chain where
  store := "bank"
  entries := [([97], [1])]
  roots := [("bank", oneRoot)]
  entries_ne_nil := by decide
  keys_nodup := by decide
  names_nodup := by decide
  names_ne_empty := by decide
  holds := by
    rw [Scheme.tree_singleton]
    decide +kernel

lemma multistore_oneEntry : oneEntry.multistore = .leaf [98, 97, 110, 107] oneRoot := by
  have hname : Utf8.encode "bank" = [98, 97, 110, 107] := by decide +kernel
  rw [← hname]
  exact Scheme.tree_singleton .multistore (Utf8.encode "bank") oneRoot

lemma appHash_oneEntry : oneEntry.appHash = oneAppHash := by
  rw [Chain.appHash, multistore_oneEntry]
  decide +kernel

/-- The answer that the key `b` is absent, shown by the leaf of `a`, the last one. -/
def absentAnswer : QueryResponse where
  code := 0
  log := ""
  codespace := ""
  key := [98]
  value := []
  ops := [
    ⟨moduleOpType, [98],
      [18, 24, 10, 1, 98, 18, 19, 10, 1, 97, 18, 1, 1, 26, 11, 8, 1, 24, 1, 32, 1, 42, 3, 0, 2, 2]⟩,
    ⟨storeOpType, [98, 97, 110, 107],
      [10, 51, 10, 4, 98, 97, 110, 107, 18, 32] ++ oneRoot
        ++ [26, 9, 8, 1, 24, 1, 32, 1, 42, 1, 0]⟩]
  height := some 41

def foundAt (appHash : Bytes) (target : UInt64) : HeaderWait.State :=
  ⟨0, .idle 0, [], 0, false, some ⟨target, appHash⟩⟩

lemma messages_oneEntry : oneEntry.messages = checkedMessages (.ok absentAnswer) := by
  rw [Chain.messages, multistore_oneEntry, Chain.storeTree,
    show oneEntry.entries = [([97], [1])] from rfl, Scheme.tree_singleton]
  decide +kernel

lemma noCollision_oneEntry : NoCollision (checkedMessages (.ok absentAnswer)) := by
  decide +kernel

/-- The answer passes whatever its height, and it is right by one app hash. -/
lemma verify_absentAnswer (height : UInt64) (wait : UInt64 → HeaderWait.State) (h : Header)
    {x : Except Error Value} (hheight : height ≠ 0)
    (hfound : (wait (committingHeight height)).found = some h)
    (hx : (if h.appHash = oneAppHash then .ok .absent
      else .error (.proof (.appHash h.height))) = x) :
    verify "bank" [98] (.ok { absentAnswer with height := some height }) wait =
      ⟨some x, some (wait (committingHeight height))⟩ := by
  have hchecks : (examine "bank" [98] (.ok absentAnswer)).map
      (fun p => p.settle ⟨42, oneAppHash⟩) = .ok (.ok .absent) := by
    decide +kernel
  obtain ⟨p, hp, hsettle⟩ := map_eq_ok hchecks
  rw [← hx, ← settle_eq hsettle, ← Option.map_some (f := p.settle), ← hfound, verify,
    examine_height hp hheight]
  rfl

theorem verify_sound_absent :
    (verify "bank" [98] (.ok absentAnswer) (foundAt oneAppHash)).result = some (.ok .absent) ∧
      oneEntry.get? [98] = none := by
  have hresult : (verify oneEntry.store [98] (.ok absentAnswer) (foundAt oneAppHash)).result =
      some (.ok .absent) :=
    congrArg Outcome.result
      (verify_absentAnswer 41 _ ⟨42, oneAppHash⟩ (by decide) rfl (if_pos rfl))
  refine ⟨hresult, (verify_sound (c := oneEntry) ?_ ?_ ?_).2 hresult⟩
  · intro n hn hne
    exact absurd (List.mem_singleton.mp hn) hne
  · intro st header hst hfound
    obtain ⟨p, -, -, hwait, -⟩ := verify_ok hresult
    rw [hwait] at hst
    obtain rfl := Option.some.inj hst
    obtain rfl := Option.some.inj hfound
    exact appHash_oneEntry.symm
  · rw [messages_oneEntry]
    exact noCollision_oneEntry.mono (by simp)

end ProvenQuery

end ChainKeys
