import ChainKeys.Proofs.Merkle.Descent

/-!
What an accepted proof says about the tree whose root it was checked against. A proof of
existence shows an entry of the tree. In the tree of a store it is the very entry claimed; in
the tree over stores the claimed key may also be the end of the entry's key, with its length in
front. Two neighbours in the tree of a store leave no room between them.
-/

namespace ChainKeys.Merkle

/-- What an accepted proof of existence must be like. -/
lemma Existence.verify_spec {s : Spec} {root key value : Bytes} {e : Existence}
    (h : e.verify s root key value = true) :
    e.key = key ∧ e.value = value ∧
      ∃ l, e.leaf = some l ∧ s.leafOk l = true ∧
        (∀ i ∈ e.path, ∃ level, s.innerOk level i = true) ∧ e.root l = root := by
  simp only [Existence.verify, Bool.and_eq_true, decide_eq_true_eq] at h
  obtain ⟨⟨⟨⟨⟨hshape, hkey⟩, hvalue⟩, -⟩, -⟩, hroot⟩ := h
  obtain ⟨l, hl, hr⟩ := Option.map_eq_some_iff.mp hroot
  simp only [Spec.shapeOk, hl, Bool.and_eq_true, List.all_eq_true] at hshape
  refine ⟨hkey, hvalue, l, hl, hshape.1, fun i hi => ?_, hr⟩
  obtain ⟨k, hk⟩ := List.mem_iff_getElem?.mp hi
  exact ⟨k + 1, hshape.2 (i, k) (List.mem_zipIdx_iff_getElem?.mpr hk)⟩

/-- A proof leads to one root. -/
lemma Proof.root_unique {s : Spec} {p : Proof} {root root' key value : Bytes}
    (h : p.verifyMembership s root key value = true)
    (h' : p.verifyMembership s root' key value = true) : root = root' := by
  unfold verifyMembership at h h'
  cases he : p.expand.existence? key with
  | none => simp [he] at h
  | some e =>
    rw [he, Option.any_some] at h h'
    obtain ⟨-, -, l, hl, -, -, rfl⟩ := Existence.verify_spec h
    obtain ⟨-, -, l', hl', -, -, rfl⟩ := Existence.verify_spec h'
    rw [Option.some.inj (hl.symm.trans hl')]

/-- A checked leaf with the message of a tree's leaf has its value, and its key stands at the
end of that leaf's key. -/
lemma leaf_spec {s : Scheme} {l : LeafOp} {key value k v : Bytes}
    (hl : s.spec.leafOk l = true)
    (hm : leafMessage l.pre key value = leafMessage s.leafPre k v) :
    Sha256.hash value = Sha256.hash v ∧ lengthPrefixed key <:+ lengthPrefixed k ∧
      (s = .store → key = k) := by
  simp only [Spec.leafOk, Bool.and_eq_true, decide_eq_true_eq, List.isPrefixOf_iff_prefix,
    Bool.or_eq_true] at hl
  obtain ⟨⟨-, hpre⟩, hlayer⟩ := hl
  simp only [leafMessage, List.append_assoc] at hm
  cases s with
  | store =>
    have hlayer : layer? 0 l.pre = some [] := by simpa [Scheme.spec, Spec.store] using hlayer
    have hcut := layer?_append hlayer hm
    obtain ⟨rfl, hrest⟩ := lengthPrefixed_inj (by simpa using hcut)
    have hhash := lengthPrefixed_inj (x := []) (y := []) (by simpa using hrest)
    exact ⟨hhash.1, List.suffix_refl _, fun _ => rfl⟩
  | multistore =>
    obtain ⟨more, hmore⟩ := hpre
    rw [← hmore, List.append_assoc, Scheme.leafPre] at hm
    have hcut : (more ++ lengthPrefixed key) ++ lengthPrefixed (Sha256.hash value) =
        lengthPrefixed k ++ lengthPrefixed (Sha256.hash v) := by
      simpa using List.append_cancel_left hm
    obtain ⟨hkey, hrest⟩ := List.append_inj' hcut (by simp only [length_lengthPrefixed_hash])
    have hhash := lengthPrefixed_inj (x := []) (y := []) (by simpa using hrest)
    exact ⟨hhash.1, ⟨more, hkey⟩, by simp⟩

lemma leafPre_prefix_of_leafOk {s : Spec} {l : LeafOp} (h : s.leafOk l = true)
    (key value : Bytes) : leafPre <+: leafMessage l.pre key value := by
  simp only [Spec.leafOk, Bool.and_eq_true, List.isPrefixOf_iff_prefix] at h
  obtain ⟨more, hmore⟩ := h.1.2
  exact ⟨more ++ lengthPrefixed key ++ lengthPrefixed (Sha256.hash value), by
    simp [leafMessage, ← hmore]⟩

lemma Tree.mem_messages {s : Scheme} {t : Tree} {k v : Bytes} (h : (k, v) ∈ t.entries) :
    v ∈ t.messages s := by
  induction t with
  | leaf k' v' =>
    obtain ⟨-, rfl⟩ : k = k' ∧ v = v' := by simpa [entries] using h
    simp [messages]
  | node l r ihl ihr =>
    rw [entries, List.mem_append] at h
    rw [messages, List.mem_cons, List.mem_append]
    exact Or.inr (h.imp ihl ihr)

/-- **Existence.** The value of an accepted proof stands in the tree, at the end of the proof's
way, under a key that ends in the claimed one with its length; in the tree of a store, under the
claimed key. -/
theorem Existence.sound {s : Scheme} {t : Tree} {key value : Bytes} {e : Existence}
    (h : e.verify s.spec (t.root s) key value = true)
    (hcol : NoCollision (t.messages s ++ e.messages)) :
    ∃ k, t.at? (sides e.path) = some (k, value) ∧ lengthPrefixed key <:+ lengthPrefixed k ∧
      (s = .store → key = k) := by
  obtain ⟨rfl, rfl, l, hl, hleaf, hsteps, hroot⟩ := Existence.verify_spec h
  simp only [Existence.messages, hl] at hcol
  have hcol' : NoCollision (t.messages s ++ leafMessage l.pre e.key e.value ::
      pathMessages (Sha256.hash (leafMessage l.pre e.key e.value)) e.path) := by
    refine hcol.mono fun m hm => ?_
    simp only [List.mem_append, List.mem_cons] at hm ⊢
    tauto
  obtain ⟨k, v, hat, hm⟩ :=
    descent (leafPre_prefix_of_leafOk hleaf e.key e.value) hsteps hroot hcol'
  obtain ⟨hhash, hkey, hstore⟩ := leaf_spec hleaf hm
  have hv : e.value = v :=
    hcol _ (by simp) _ (List.mem_append_left _ (Tree.mem_messages (Tree.mem_of_at? hat))) hhash
  rw [hv]
  exact ⟨k, hat, hkey, hstore⟩

/-- In the tree of a store nothing needs to be said about key ends. -/
lemma Existence.sound_store {t : Tree} {key value : Bytes} {e : Existence}
    (h : e.verify .store (t.root .store) key value = true)
    (hcol : NoCollision (t.messages .store ++ e.messages)) :
    t.at? (sides e.path) = some (key, value) := by
  obtain ⟨k, hat, -, hk⟩ := Existence.sound (s := .store) h hcol
  rw [hk rfl]
  exact hat

/-! ### Absence -/

lemma sides_onEdge {s : Scheme} {d : Side} {path : List InnerOp}
    (h : s.spec.onEdge d path = true) : ∀ x ∈ path.map InnerOp.side, x = d := by
  intro x hx
  obtain ⟨i, hi, rfl⟩ := List.mem_map.mp hx
  simp only [Spec.onEdge, List.all_eq_true, decide_eq_true_eq] at h
  exact side_of_side? (h i hi)

/-- Paths that the check takes for neighbours are adjacent ways down. -/
lemma adjacent_of_areNeighbours {s : Scheme} {left right : List InnerOp}
    (h : s.spec.areNeighbours left right = true) :
    Tree.Adjacent (sides left) (sides right) := by
  unfold Spec.areNeighbours at h
  unfold sides
  generalize left.reverse = p at h ⊢
  generalize right.reverse = q at h ⊢
  induction p generalizing q with
  | nil => simp [diverge] at h
  | cons a p ih =>
    cases q with
    | nil => simp [diverge] at h
    | cons b q =>
      rw [diverge] at h
      by_cases hab : a.pre = b.pre ∧ a.post = b.post
      · rw [if_pos hab] at h
        have hside : a.side = b.side := by rw [InnerOp.side, InnerOp.side, hab.2]
        rw [List.map_cons, List.map_cons, hside]
        cases b.side <;> exact ⟨rfl, ih q h⟩
      · rw [if_neg hab] at h
        simp only [Bool.and_eq_true, decide_eq_true_eq] at h
        obtain ⟨⟨⟨ha, hb⟩, hp⟩, hq⟩ := h
        rw [List.map_cons, List.map_cons, side_of_side? ha, side_of_side? hb]
        exact ⟨sides_onEdge hp, sides_onEdge hq⟩

/-- **Absence.** An accepted proof of absence is checked against a tree that has no entry under
the key. -/
theorem NonExistence.sound {t : Tree} {key : Bytes} {n : NonExistence} (hs : t.Sorted)
    (h : n.verify .store (t.root .store) key = true)
    (hcol : NoCollision (t.messages .store ++
      (n.left.elim [] Existence.messages ++ n.right.elim [] Existence.messages))) :
    key ∉ t.entries.map (·.1) := by
  simp only [NonExistence.verify, Bool.and_eq_true] at h
  obtain ⟨⟨hleft, hright⟩, hplace⟩ := h
  have hl : ∀ l, n.left = some l →
      t.at? (sides l.path) = some (l.key, l.value) ∧ l.key < key := by
    intro l hl
    simp only [hl, Option.all_some, Bool.and_eq_true, Bytes.lt_iff] at hleft
    refine ⟨Existence.sound_store hleft.1 (hcol.mono fun m hm => ?_), hleft.2⟩
    simp only [hl, Option.elim_some, List.mem_append] at hm ⊢
    tauto
  have hr : ∀ r, n.right = some r →
      t.at? (sides r.path) = some (r.key, r.value) ∧ key < r.key := by
    intro r hr
    simp only [hr, Option.all_some, Bool.and_eq_true, Bytes.lt_iff] at hright
    refine ⟨Existence.sound_store hright.1 (hcol.mono fun m hm => ?_), hright.2⟩
    simp only [hr, Option.elim_some, List.mem_append] at hm ⊢
    tauto
  cases hnl : n.left with
  | some l =>
    obtain ⟨hatl, hlk⟩ := hl l hnl
    cases hnr : n.right with
    | some r =>
      obtain ⟨hatr, hkr⟩ := hr r hnr
      simp only [hnl, hnr, Spec.areNeighbours] at hplace
      obtain ⟨before, after, he⟩ :=
        Tree.entries_of_adjacent (adjacent_of_areNeighbours (s := .store) hplace) hatl hatr
      exact hs.notMem_between he hlk hkr
    | none =>
      simp only [hnl, hnr] at hplace
      rw [← onEdge_reverse] at hplace
      obtain ⟨before, he⟩ := Tree.entries_of_right hatl (sides_onEdge (s := .store) hplace)
      exact hs.notMem_after he hlk
  | none =>
    cases hnr : n.right with
    | some r =>
      obtain ⟨hatr, hkr⟩ := hr r hnr
      simp only [hnl, hnr] at hplace
      rw [← onEdge_reverse] at hplace
      obtain ⟨after, he⟩ := Tree.entries_of_left hatr (sides_onEdge (s := .store) hplace)
      exact hs.notMem_before he hkr
    | none => simp [hnl, hnr] at hplace

end ChainKeys.Merkle
