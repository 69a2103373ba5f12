import ChainKeys.Proofs.Merkle.Descent

/-!
The shape of the proofs that are read off a tree. A step up begins with height, size and
version of the node, or a single byte, and these are short enough that the lengths of what
stands before and after the child's hash say on which side it is. No leaf is that high and no
tree that large that the numbers would need more room than the checks leave them.
-/

namespace ChainKeys.Merkle

variable {s : Scheme} {height size level : Nat} {sibling : Bytes}

/-! ### The start of a node -/

/-- Numbers that a node has room for: a store's node writes its height in one byte and its size
in nine. -/
def Scheme.HasRoom (s : Scheme) (height size : Nat) : Prop :=
  s = .store → height < 64 ∧ size < 2 ^ 62

lemma Scheme.HasRoom.mono {height' size' : Nat} (h : s.HasRoom height size)
    (hheight : height' ≤ height) (hsize : size' ≤ size) : s.HasRoom height' size' := by
  intro hs
  have := h hs
  omega

lemma length_layer (h : Scheme.store.HasRoom height size) :
    3 ≤ (Scheme.layer height size).length ∧ (Scheme.layer height size).length ≤ 11 := by
  obtain ⟨hheight, hsize⟩ := h rfl
  have h1 := Varint.length_encode_pos (2 * height)
  have h2 := Varint.length_encode_pos (2 * size)
  have h3 := Varint.length_encode_pos (2 * Scheme.version)
  have h1' := Varint.length_encode_le (n := 2 * height) (k := 0) (by omega)
  have h2' := Varint.length_encode_le (n := 2 * size) (k := 8) (by omega)
  have h3' := Varint.length_encode_le (n := 2 * Scheme.version) (k := 0) (by decide)
  simp only [Scheme.layer, List.length_append]
  omega

lemma layer?_layer (h : Scheme.store.HasRoom height size) (hlevel : level ≤ height)
    (rest : Bytes) : layer? level (Scheme.layer height size ++ rest) = some rest := by
  obtain ⟨hheight, hsize⟩ := h rfl
  have h1 : 2 * height < 2 ^ 64 := by omega
  have h2 : 2 * size < 2 ^ 64 := by omega
  have h3 : 2 * Scheme.version < 2 ^ 64 := by decide
  have hok : (level : Int) ≤ height ∧ (0 : Int) ≤ size ∧ (0 : Int) ≤ Scheme.version := by omega
  simp only [layer?, Scheme.layer, List.append_assoc, Varint.decode_encode h1,
    Varint.decode_encode h2, Varint.decode_encode h3, Varint.zigzag_double, Option.bind_eq_bind,
    Option.bind_some, if_pos hok]
  rfl

/-! ### Leaf and steps -/

lemma leafOk_leafOp (s : Scheme) : s.spec.leafOk (Tree.leafOp s) = true := by
  cases s with
  | store =>
    have hroom : Scheme.store.HasRoom 0 1 := fun _ => by decide
    have hlayer := layer?_layer hroom (Nat.le_refl 0) []
    have hpre : leafPre <+: Scheme.layer 0 1 := ⟨[2, 2], by
      simp [leafPre, Scheme.layer, Scheme.version, Varint.encode_of_lt]⟩
    rw [List.append_nil] at hlayer
    simp [Spec.leafOk, Tree.leafOp, Scheme.leafPre, hlayer, hpre, List.isPrefixOf_iff_prefix]
  | multistore => decide

lemma length_child (h : sibling.length = 32) :
    (s.child sibling).length = s.spec.childSize := by
  cases s with
  | store =>
    rw [Scheme.child, lengthPrefixed, h, Varint.encode_of_lt (by decide), List.length_append,
      h]
    rfl
  | multistore => exact h

/-- Before the left child stands the node's start, after it the other child. -/
lemma length_leftOp (h : s.HasRoom height size) (hsibling : sibling.length = 32) :
    s.spec.minPre ≤ (Tree.leftOp s height size sibling).pre.length ∧
      (Tree.leftOp s height size sibling).pre.length ≤ s.spec.maxPre ∧
      (Tree.leftOp s height size sibling).post.length = s.spec.childSize := by
  have hchild := length_child (s := s) hsibling
  cases s with
  | store =>
    have := length_layer h
    simp only [Tree.leftOp, Scheme.nodePre, List.length_append, List.length_singleton]
    simp only [Scheme.spec, Spec.store] at hchild ⊢
    omega
  | multistore => exact ⟨Nat.le_refl 1, Nat.le_refl 1, hchild⟩

/-- Before the right child stands the other child too, and nothing after it. -/
lemma length_rightOp (h : s.HasRoom height size) (hsibling : sibling.length = 32) :
    s.spec.childSize + s.spec.minPre ≤ (Tree.rightOp s height size sibling).pre.length ∧
      (Tree.rightOp s height size sibling).pre.length ≤ s.spec.childSize + s.spec.maxPre ∧
      (Tree.rightOp s height size sibling).post.length = 0 := by
  have hchild := length_child (s := s) hsibling
  cases s with
  | store =>
    have := length_layer h
    simp only [Tree.rightOp, Scheme.nodePre, List.length_append, List.length_singleton]
    simp only [Scheme.spec, Spec.store] at hchild ⊢
    exact ⟨by omega, by omega, rfl⟩
  | multistore =>
    simp only [Tree.rightOp, Scheme.nodePre, List.length_append, List.length_singleton]
    simp only [Scheme.spec, Spec.multistore] at hchild ⊢
    exact ⟨by omega, by omega, rfl⟩

lemma side?_leftOp (h : s.HasRoom height size) (hsibling : sibling.length = 32) :
    s.spec.side? (Tree.leftOp s height size sibling) = some .left :=
  if_pos (length_leftOp h hsibling)

lemma side?_rightOp (h : s.HasRoom height size) (hsibling : sibling.length = 32) :
    s.spec.side? (Tree.rightOp s height size sibling) = some .right := by
  have hlen := length_rightOp h hsibling
  have hsize : 0 < s.spec.childSize := by cases s <;> decide
  rw [Spec.side?, if_neg (by omega), if_pos hlen]

lemma not_leafPre_prefix_nodePre (hpos : 0 < height) (x : Bytes) :
    ¬ leafPre <+: s.nodePre height size ++ x := by
  cases s with
  | store =>
    simp only [Scheme.nodePre, Scheme.layer, List.append_assoc]
    exact not_leafPre_prefix_encode (by omega) _
  | multistore =>
    rintro ⟨y, hy⟩
    simp [Scheme.nodePre, leafPre] at hy

/-- A step passes that begins as a node does, if the lengths are right and, in a store, what is
left before the child is a length byte, alone or behind the other child. -/
lemma innerOk_of_lengths {i : InnerOp} {rest : Bytes} (h : s.HasRoom height size)
    (hpos : 0 < height) (hlevel : level ≤ height) (hhash : i.hash = 1)
    (hpre : i.pre = s.nodePre height size ++ rest) (hmin : s.spec.minPre ≤ i.pre.length)
    (hmax : i.pre.length ≤ s.spec.maxPre + s.spec.childSize)
    (hpost : i.post.length % s.spec.childSize = 0)
    (hrest : s = .store → rest.length = 1 ∨ rest.length = 34) :
    s.spec.innerOk level i = true := by
  have hleaf : leafPre.isPrefixOf i.pre = false := by
    rw [hpre, ← Bool.not_eq_true, List.isPrefixOf_iff_prefix]
    exact not_leafPre_prefix_nodePre hpos rest
  unfold Spec.innerOk
  simp only [hhash, hleaf, hmin, hmax, hpost, decide_true, Bool.not_false, Bool.and_self,
    Bool.true_and]
  cases s with
  | store =>
    have hlayer := layer?_layer h hlevel rest
    rw [hpre]
    simpa [Scheme.nodePre, hlayer] using Or.inr (hrest rfl)
  | multistore => rfl

lemma innerOk_leftOp (h : s.HasRoom height size) (hpos : 0 < height) (hlevel : level ≤ height)
    (hsibling : sibling.length = 32) :
    s.spec.innerOk level (Tree.leftOp s height size sibling) = true := by
  obtain ⟨hmin, hmax, hpost⟩ := length_leftOp h hsibling
  have hmax' := Nat.le_add_right_of_le hmax (k := s.spec.childSize)
  have hpost' : (Tree.leftOp s height size sibling).post.length % s.spec.childSize = 0 := by
    rw [hpost, Nat.mod_self]
  cases s with
  | store =>
    exact innerOk_of_lengths h hpos hlevel rfl rfl hmin hmax' hpost' fun _ => .inl rfl
  | multistore => exact innerOk_of_lengths h hpos hlevel rfl rfl hmin hmax' hpost' nofun

lemma innerOk_rightOp (h : s.HasRoom height size) (hpos : 0 < height) (hlevel : level ≤ height)
    (hsibling : sibling.length = 32) :
    s.spec.innerOk level (Tree.rightOp s height size sibling) = true := by
  obtain ⟨hmin, hmax, hpost⟩ := length_rightOp h hsibling
  have hmin' : s.spec.minPre ≤ (Tree.rightOp s height size sibling).pre.length := by omega
  have hmax' : (Tree.rightOp s height size sibling).pre.length ≤
      s.spec.maxPre + s.spec.childSize := by omega
  have hpost' : (Tree.rightOp s height size sibling).post.length % s.spec.childSize = 0 := by
    rw [hpost, Nat.zero_mod]
  cases s with
  | store =>
    refine innerOk_of_lengths h hpos hlevel rfl (List.append_assoc _ _ _) hmin' hmax' hpost'
      fun _ => .inr ?_
    rw [List.length_append, length_child hsibling]
    rfl
  | multistore => exact innerOk_of_lengths h hpos hlevel rfl rfl hmin' hmax' hpost' nofun

/-! ### Paths -/

namespace Tree

variable {t l r : Tree} {key : Bytes}

/-- All nodes have room for their numbers. -/
def HasRoom (s : Scheme) (t : Tree) : Prop := s.HasRoom t.height t.size

lemma HasRoom.left (h : (node l r).HasRoom s) : l.HasRoom s :=
  h.mono (by rw [height]; omega) (by rw [size]; omega)

lemma HasRoom.right (h : (node l r).HasRoom s) : r.HasRoom s :=
  h.mono (by rw [height]; omega) (by rw [size]; omega)

lemma length_path_le (s : Scheme) (key : Bytes) (t : Tree) :
    (t.path s key).length ≤ t.height := by
  induction t with
  | leaf k v => exact Nat.le_refl 0
  | node l r ihl ihr =>
    rw [path, height]
    split <;> rw [List.length_append, List.length_singleton] <;> omega

/-- The step at each level is one up to a node that is at least that high. -/
lemma innerOk_path (h : t.HasRoom s) {i : InnerOp} {k : Nat}
    (hi : (i, k) ∈ (t.path s key).zipIdx) : s.spec.innerOk (k + 1) i = true := by
  induction t with
  | leaf k v => simp [path] at hi
  | node l r ihl ihr =>
    have hl := length_path_le s key l
    have hr := length_path_le s key r
    rw [path] at hi
    split at hi
    all_goals
      rw [List.zipIdx_append, List.zipIdx_singleton, Nat.zero_add, List.mem_append,
        List.mem_singleton] at hi
    · rcases hi with hi | hi
      · exact ihl h.left hi
      · obtain ⟨rfl, rfl⟩ := Prod.mk.inj hi
        exact innerOk_leftOp h (by omega) (by omega) (length_root s r)
    · rcases hi with hi | hi
      · exact ihr h.right hi
      · obtain ⟨rfl, rfl⟩ := Prod.mk.inj hi
        exact innerOk_rightOp h (by omega) (by omega) (length_root s l)

lemma shapeOk_existence (h : t.HasRoom s) (key : Bytes) :
    s.spec.shapeOk (t.existence s key) = true := by
  simp only [Spec.shapeOk, existence, leafOk_leafOp, Bool.true_and, List.all_eq_true]
  exact fun e he => innerOk_path h he

end Tree

/-! ### Trees that are built -/

lemma Tree.size_eq (t : Tree) : t.size = t.entries.length := by
  induction t with
  | leaf k v => rfl
  | node l r ihl ihr => rw [size, entries, List.length_append, ihl, ihr]

/-- Halving as often as a power of two allows. -/
lemma Scheme.height_build_store {es : List (Bytes × Bytes)} {k : Nat} (h : es.length ≤ 2 ^ k) :
    (Scheme.store.build es).height ≤ k := by
  induction es using build.induct Scheme.store generalizing k with
  | case1 es h2 ihl ihr =>
    cases k with
    | zero => omega
    | succ k =>
      rw [Nat.pow_succ] at h
      have hl := ihl (k := k) (by rw [List.length_take, split]; omega)
      have hr := ihr (k := k) (by rw [List.length_drop, split]; omega)
      rw [build, dif_pos h2, Tree.height]
      omega
  | case2 e es h2 =>
    rw [build, dif_neg h2]
    exact Nat.zero_le k
  | case3 h2 =>
    rw [build, dif_neg h2]
    exact Nat.zero_le k

/-- The tree of a store has room for all the entries that anyone will have. -/
lemma Scheme.hasRoom_tree (s : Scheme) {es : List (Bytes × Bytes)} (hne : es ≠ [])
    (hlen : s = .store → es.length < 2 ^ 60) : (s.tree es).HasRoom s := by
  rintro rfl
  have hlen := hlen rfl
  have hsize : (Scheme.store.tree es).size = es.length := by
    rw [Tree.size_eq, entries_tree .store hne, List.length_mergeSort]
  have hheight : (Scheme.store.tree es).height ≤ 60 :=
    height_build_store (by rw [List.length_mergeSort]; omega)
  omega

end ChainKeys.Merkle
