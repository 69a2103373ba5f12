import ChainKeys.Proofs.Merkle.Completeness
import ChainKeys.Proofs.ProvenQuery.Scheduling

/-!
What an honest node answers is believed. Its proofs are read off the trees of the chain, so they
pass all checks, and once the header of the next height has come the query returns what the
store holds under the key, or that it holds nothing.
-/

namespace ChainKeys

open Merkle HeaderWait ProvenQuery

namespace Chain

variable {c : Chain} {key value : Bytes}

/-! ### The trees of a chain -/

lemma mem_of_get? (h : c.get? key = some value) : (key, value) ∈ c.entries := by
  obtain ⟨before, after, he, -⟩ := List.lookup_eq_some_iff.mp h
  rw [he]
  simp

lemma notMem_of_get? (h : c.get? key = none) : key ∉ c.storeTree.entries.map (·.1) := by
  intro hmem
  obtain ⟨e, he, rfl⟩ := List.mem_map.mp hmem
  have hsome : c.get? e.1 = some e.2 := get?_eq_some (mem_storeTree.mp he)
  exact nomatch hsome.symm.trans h

lemma lookup_storeTree (h : c.get? key = some value) :
    c.storeTree.entries.lookup key = some value :=
  c.sorted_storeTree.lookup (mem_storeTree.mpr (mem_of_get? h))

lemma hasRoom_storeTree (h : c.entries.length < 2 ^ 60) : c.storeTree.HasRoom .store :=
  Scheme.hasRoom_tree .store c.entries_ne_nil fun _ => h

lemma hasRoom_multistore (c : Chain) : c.multistore.HasRoom .multistore :=
  Scheme.hasRoom_tree .multistore c.named_ne_nil nofun

/-- Names that differ are written differently, so the tree over stores has them in order. -/
lemma sorted_multistore (c : Chain) : c.multistore.Sorted := by
  refine Scheme.sorted_tree .multistore c.named_ne_nil ?_
  have hmap : (c.roots.map fun r => (Utf8.encode r.1, r.2)).map (·.1) =
      (c.roots.map (·.1)).map Utf8.encode := by
    simp
  rw [hmap]
  exact c.names_nodup.map fun _ _ => Utf8.encode_inj

lemma lookup_multistore (c : Chain) : c.multistore.entries.lookup (Utf8.encode c.store) =
    some (c.storeTree.root .store) := by
  refine c.sorted_multistore.lookup (e := (Utf8.encode c.store, c.storeTree.root .store)) ?_
  exact (Scheme.perm_entries_tree .multistore c.named_ne_nil).mem_iff.mpr
    (List.mem_map_of_mem (f := fun r : String × Bytes => (Utf8.encode r.1, r.2)) c.holds)

lemma encode_store_ne_nil (c : Chain) : Utf8.encode c.store ≠ [] := by
  intro h
  refine c.names_ne_empty c.store (List.mem_map_of_mem (f := Prod.fst) c.holds) ?_
  exact Utf8.encode_inj (h.trans (by decide +kernel))

/-! ### The answer of an honest node -/

/-- The proof of what the store holds under a key. -/
def moduleProof (c : Chain) (key : Bytes) : Proof :=
  match c.get? key with
  | some _ => .exist (c.storeTree.existence .store key)
  | none => .nonexist (c.storeTree.nonExistence .store key)

/-- The proof that the multistore holds the store's root. -/
def rootProof (c : Chain) : Existence :=
  c.multistore.existence .multistore (Utf8.encode c.store)

/-- An answer about the chain at this height: the value, empty if there is none, and the two
proofs. -/
structure Answers (c : Chain) (key : Bytes) (height : UInt64) (r : QueryResponse) : Prop where
  code : r.code = 0
  about : r.key = key
  value : r.value = (c.get? key).getD []
  height : r.height = some height
  proofs : ∃ data₀ data₁,
    r.ops = [⟨moduleOpType, key, data₀⟩, ⟨storeOpType, Utf8.encode c.store, data₁⟩] ∧
      Proof.decode data₀ = some (c.moduleProof key) ∧
      Proof.decode data₁ = some (.exist c.rootProof)

/-- The answer with its proofs written out. -/
def response (c : Chain) (key : Bytes) (height : UInt64) : QueryResponse where
  code := 0
  log := ""
  codespace := ""
  key := key
  value := (c.get? key).getD []
  ops := [
    ⟨moduleOpType, key, match c.get? key with
      | some _ => (c.storeTree.existence .store key).toMessage
      | none => (c.storeTree.nonExistence .store key).toMessage⟩,
    ⟨storeOpType, Utf8.encode c.store, c.rootProof.toMessage⟩]
  height := some height

lemma answers_response {height : UInt64}
    (hlen : ∀ op ∈ (c.response key height).ops, op.data.length < 2 ^ 64) :
    c.Answers key height (c.response key height) := by
  refine ⟨rfl, rfl, rfl, rfl, _, _, rfl, ?_, ?_⟩
  · have h₀ := hlen _ (List.mem_cons_self ..)
    rw [moduleProof]
    cases hget : c.get? key with
    | some v =>
      simp only [hget] at h₀ ⊢
      exact Existence.decode_toMessage (Tree.fits_existence _ _ _) h₀
    | none =>
      simp only [hget] at h₀ ⊢
      exact NonExistence.decode_toMessage (Tree.fits_nonExistence _ _ _) h₀
  · have h₁ := hlen ⟨storeOpType, Utf8.encode c.store, c.rootProof.toMessage⟩ (by simp [response])
    exact Existence.decode_toMessage (Tree.fits_existence _ _ _) h₁

/-! ### It passes -/

section

variable {height : UInt64} {r : QueryResponse}

lemma value_rootProof (c : Chain) : c.rootProof.value = c.storeTree.root .store := by
  rw [rootProof, Tree.existence, lookup_multistore, Option.getD_some]

lemma verify_rootProof (c : Chain) : c.rootProof.verify .multistore c.appHash
    (Utf8.encode c.store) (c.storeTree.root .store) = true := by
  refine Tree.verify_existence c.hasRoom_multistore c.lookup_multistore c.encode_store_ne_nil ?_
  rw [ne_eq, ← List.length_eq_zero_iff, length_root]
  decide

lemma checkModule_moduleProof (hsize : c.entries.length < 2 ^ 60)
    (hfilled : ∀ e ∈ c.entries, e.1 ≠ [] ∧ e.2 ≠ []) :
    checkModule (c.storeTree.root .store) key ((c.get? key).getD []) (c.moduleProof key) =
      .ok () := by
  have hroom := hasRoom_storeTree hsize
  cases hget : c.get? key with
  | some v =>
    obtain ⟨hkey, hvalue⟩ := hfilled _ (mem_of_get? hget)
    have hv := Tree.verify_existence hroom (lookup_storeTree hget) hkey hvalue
    simp only [Scheme.spec] at hv
    simp [checkModule, moduleProof, hget, hvalue, Proof.verifyMembership, Proof.expand,
      Proof.existence?, hv]
  | none =>
    have hn := Tree.verify_nonExistence hroom c.sorted_storeTree
      (fun e he => hfilled e (mem_storeTree.mp he)) (notMem_of_get? hget)
    simp only [Scheme.spec] at hn
    simp [checkModule, moduleProof, hget, Proof.verifyNonMembership, Proof.expand,
      Proof.nonExistence?, hn]

/-- An honest answer only lacks its header. -/
lemma Answers.examine (h : c.Answers key height r) (hsize : c.entries.length < 2 ^ 60)
    (hfilled : ∀ e ∈ c.entries, e.1 ≠ [] ∧ e.2 ≠ []) (hheight : height ≠ 0) :
    ∃ a, a.value = (c.get? key).getD [] ∧ a.height = height ∧
      examine c.store key (.ok r) =
        .ok ⟨c.store, a, ⟨.exist c.rootProof, c.storeTree.root .store⟩⟩ := by
  obtain ⟨data₀, data₁, hops, h₀, h₁⟩ := h.proofs
  refine ⟨⟨key, (c.get? key).getD [], ⟨moduleOpType, key, data₀⟩,
    ⟨storeOpType, Utf8.encode c.store, data₁⟩, height⟩, rfl, rfl, ?_⟩
  have ha : Answer.ofResponse key r = .ok ⟨key, (c.get? key).getD [],
      ⟨moduleOpType, key, data₀⟩, ⟨storeOpType, Utf8.encode c.store, data₁⟩, height⟩ := by
    simp [Answer.ofResponse, h.about, h.height, hheight, hops, h.value]
  have hs : checkStore c.store ⟨key, (c.get? key).getD [], ⟨moduleOpType, key, data₀⟩,
      ⟨storeOpType, Utf8.encode c.store, data₁⟩, height⟩ =
      .ok ⟨.exist c.rootProof, c.storeTree.root .store⟩ := by
    simp [checkStore, checkOp, decodeOp, h₀, h₁, claimedRoot, value_rootProof,
      checkModule_moduleProof hsize hfilled, bind, Except.bind, pure, Except.pure]
  simp [examine_eq, h.code, ha, hs, bind, Except.bind, pure, Except.pure, Except.mapError]

/-- The header of the next height settles it. -/
lemma settle_answer {a : Answer} {h : Header} (hvalue : a.value = (c.get? key).getD [])
    (hfilled : ∀ e ∈ c.entries, e.1 ≠ [] ∧ e.2 ≠ []) (hhash : h.appHash = c.appHash) :
    Pending.settle ⟨c.store, a, ⟨.exist c.rootProof, c.storeTree.root .store⟩⟩ h =
      .ok ((c.get? key).elim .absent .present) := by
  have hresult : a.result = (c.get? key).elim .absent .present := by
    rw [Answer.result, hvalue]
    cases hget : c.get? key with
    | some v => exact if_neg (hfilled _ (mem_of_get? hget)).2
    | none => rfl
  simp [Pending.settle, Proof.verifyMembership, Proof.expand, Proof.existence?, hhash,
    verify_rootProof, hresult]

end

end Chain

namespace ProvenQuery

/-- **Completeness of proven queries.** When the world comes up with the chain's header of the
next height, every run that is long enough ends an honest answer with what the store holds
under the key, or with its absence. The answer whose proofs are written out is an honest one. -/
theorem verify_complete {c : Chain} {height : UInt64} {s : Setting}
    (hsize : c.entries.length < 2 ^ 60) (hfilled : ∀ e ∈ c.entries, e.1 ≠ [] ∧ e.2 ≠ [])
    (hheight : 0 < height) (hnext : height.toNat + 1 < UInt64.size)
    (hbrings : s.Brings (height + 1))
    (hheader : ∀ h, s.Delivers h → h.height = height + 1 → h.appHash = c.appHash)
    (key : Bytes) :
    (∀ r, c.Answers key height r → ∃ n, ∀ choices : List Bool, n ≤ choices.length →
      (query c.store key r s choices).result =
        some (.ok ((c.get? key).elim .absent .present))) ∧
    ((∀ op ∈ (c.response key height).ops, op.data.length < 2 ^ 64) →
      c.Answers key height (c.response key height)) := by
  refine ⟨fun r hr => ?_, Chain.answers_response⟩
  obtain ⟨a, hvalue, haheight, hexamine⟩ := hr.examine hsize hfilled (UInt64.ne_of_lt hheight).symm
  obtain ⟨n, hn⟩ := exists_found_of_brings hbrings
  refine ⟨n, fun choices hlen => ?_⟩
  obtain ⟨h, hfound⟩ := hn choices hlen
  obtain ⟨hh, hdelivers⟩ := delivers_of_found hfound
  have hsettle := Chain.settle_answer hvalue hfilled (hheader h hdelivers hh)
  rw [← committingHeight_of_lt hnext, ← haheight] at hfound
  simp only [query, verify, hexamine, Pending.target, hfound, Option.map_some, hsettle]

/-! ### Between two entries -/

/-- The store `bank`, in which the keys `a` and `c` have the values 1 and 2. -/
def twoEntries : Chain where
  store := "bank"
  entries := [([97], [1]), ([99], [2])]
  roots := [("bank", (Scheme.store.tree [([97], [1]), ([99], [2])]).root .store)]
  entries_ne_nil := by decide
  keys_nodup := by decide
  names_nodup := by simp
  names_ne_empty := by simp
  holds := by simp

lemma storeTree_twoEntries :
    twoEntries.storeTree = .node (.leaf [97] [1]) (.leaf [99] [2]) := by
  have hsorted : ([([97], [1]), ([99], [2])] : List (Bytes × Bytes)).mergeSort
      (fun a b => Bytes.le a.1 b.1) = [([97], [1]), ([99], [2])] :=
    List.mergeSort_of_pairwise (by decide)
  rw [Chain.storeTree, twoEntries, Scheme.tree, hsorted, Scheme.build, dif_pos (by decide)]
  have hleaf : ∀ e : Bytes × Bytes, Scheme.store.build [e] = .leaf e.1 e.2 := by
    intro e
    rw [Scheme.build, dif_neg (by simp)]
  exact congrArg₂ Merkle.Tree.node (hleaf _) (hleaf _)

lemma multistore_twoEntries : twoEntries.multistore =
    .leaf (Utf8.encode "bank") (twoEntries.storeTree.root .store) :=
  Scheme.tree_singleton .multistore _ _

lemma length_response_twoEntries : ∀ key ∈ ([[98], [99]] : List Bytes),
    ∀ op ∈ (twoEntries.response key 41).ops, op.data.length < 2 ^ 64 := by
  simp only [Chain.response, Chain.rootProof, multistore_twoEntries, storeTree_twoEntries]
  decide +kernel

lemma brings_polling (h : Header) : (polling h).Brings h.height :=
  .polled 0 [h] rfl ⟨h, by simp, rfl⟩ fun _ => ⟨0, nofun⟩

lemma dueAt_pushing (h : Header) (n : Nat) : (pushing h).dueAt (2 * n) = n := by
  induction n with
  | zero => rfl
  | succ n ih =>
    rw [show 2 * (n + 1) = 2 * n + 1 + 1 by omega, Setting.dueAt, Setting.dueAt, ih,
      if_pos (by omega), if_neg (by omega)]
    rfl

lemma brings_pushing (h : Header) : (pushing h).Brings h.height :=
  .pushed 0 h rfl rfl (fun _ hj => absurd hj (Nat.not_lt_zero _)) fun time =>
    ⟨2 * (time + 1), by rw [dueAt_pushing]; exact Nat.lt_succ_self time⟩

theorem verify_complete_two : ∃ n, ∀ choices : List Bool, n ≤ choices.length →
    (query "bank" [98] (twoEntries.response [98] 41) (polling ⟨42, twoEntries.appHash⟩)
      choices).result = some (.ok .absent) ∧
    (query "bank" [99] (twoEntries.response [99] 41) (pushing ⟨42, twoEntries.appHash⟩)
      choices).result = some (.ok (.present [2])) := by
  have hfilled : ∀ e ∈ twoEntries.entries, e.1 ≠ [] ∧ e.2 ≠ [] := by decide
  obtain ⟨habsent, hwritten⟩ := verify_complete (c := twoEntries) (by decide) hfilled
    (by decide : (0 : UInt64) < 41) (by decide) (brings_polling ⟨42, twoEntries.appHash⟩)
    (fun h hd _ => by rw [eq_of_polling hd]) [98]
  obtain ⟨m, hm⟩ := habsent _ (hwritten (length_response_twoEntries _ (by simp)))
  obtain ⟨hpresent, hwritten⟩ := verify_complete (c := twoEntries) (by decide) hfilled
    (by decide : (0 : UInt64) < 41) (by decide) (brings_pushing ⟨42, twoEntries.appHash⟩)
    (fun h hd _ => by rw [eq_of_pushing hd]) [99]
  obtain ⟨n, hn⟩ := hpresent _ (hwritten (length_response_twoEntries _ (by simp)))
  exact ⟨max m n, fun choices hlen => ⟨hm choices (by omega), hn choices (by omega)⟩⟩

end ProvenQuery

end ChainKeys
