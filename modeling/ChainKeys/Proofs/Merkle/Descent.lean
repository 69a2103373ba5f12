import ChainKeys.Proofs.Merkle.Leaves
import ChainKeys.Proofs.Varint
import Mathlib.Data.List.Induction
import Mathlib.Tactic.Tauto

/-!
A proof whose root is the root of a tree goes down that tree. The message of a node says how it
is cut into the hashes of its children, so each step of the proof, from the root on, stands on
one of the two; and leaves and nodes begin with different bytes, so the proof ends where the
tree does. Nothing is asked of the hash but to keep apart the messages that occur.
-/

namespace ChainKeys.Merkle

/-- No two of these messages have the same hash. -/
def NoCollision (ms : List Bytes) : Prop :=
  ∀ a ∈ ms, ∀ b ∈ ms, Sha256.hash a = Sha256.hash b → a = b

instance (ms : List Bytes) : Decidable (NoCollision ms) :=
  inferInstanceAs (Decidable (∀ a ∈ ms, ∀ b ∈ ms, Sha256.hash a = Sha256.hash b → a = b))

lemma NoCollision.mono {ms ns : List Bytes} (h : NoCollision ns) (hsub : ms ⊆ ns) :
    NoCollision ms :=
  fun a ha b hb => h a (hsub ha) b (hsub hb)

/-! ### Messages -/

lemma lengthPrefixed_inj {a b x y : Bytes} (h : lengthPrefixed a ++ x = lengthPrefixed b ++ y) :
    a = b ∧ x = y := by
  unfold lengthPrefixed at h
  rw [List.append_assoc, List.append_assoc] at h
  obtain ⟨hlen, hrest⟩ := Varint.encode_append_inj h
  exact List.append_inj hrest hlen

lemma length_lengthPrefixed_hash (m : Bytes) : (lengthPrefixed (Sha256.hash m)).length = 33 := by
  rw [lengthPrefixed, Sha256.length_hash, Varint.encode_of_lt (by decide)]
  simp

/-- A length and a name at the end of a longer name's are at the end of that name itself: what
is left of the longer length would promise fewer bytes than follow. -/
lemma lengthPrefixed_suffix {a b : Bytes} (h : lengthPrefixed a <:+ lengthPrefixed b) :
    a = b ∨ lengthPrefixed a <:+ b := by
  obtain ⟨x, hx⟩ := h
  unfold lengthPrefixed at hx
  rcases List.append_eq_append_iff.mp hx with ⟨c, hc, hb⟩ | ⟨c, hc, hb⟩
  · by_cases hx0 : x = []
    · subst hx0
      exact Or.inl (lengthPrefixed_inj (x := []) (y := []) (by simpa [lengthPrefixed] using hx)).1
    · by_cases hc0 : c = []
      · subst hc0
        exact Or.inr ⟨[], by simpa [lengthPrefixed] using hb⟩
      · obtain ⟨m, hm, rfl⟩ := Varint.encode_tail hc hx0 hc0
        obtain ⟨hlen, rfl⟩ := Varint.encode_append_inj hb
        omega
  · exact Or.inr ⟨c, hb.symm⟩

/-- Numbers read from the front are those a node begins with, and the rest is the node's. -/
lemma layer?_append {minHeight height size : Nat} {pre rest x y : Bytes}
    (h : layer? minHeight pre = some rest) (hxy : pre ++ x = Scheme.layer height size ++ y) :
    rest ++ x = y := by
  simp only [layer?, Option.bind_eq_bind, Option.bind_eq_some_iff] at h
  obtain ⟨⟨a, r₁⟩, ha, ⟨b, r₂⟩, hb, ⟨c, r₃⟩, hc, hrest⟩ := h
  have hr : r₃ = rest := by
    split at hrest
    · simpa using hrest
    · simp at hrest
  subst hr
  unfold Scheme.layer at hxy
  rw [List.append_assoc, List.append_assoc] at hxy
  have h₁ := Varint.decode_append ha x
  rw [hxy] at h₁
  have h₂ := Varint.decode_append hb x
  rw [(Varint.eq_of_decode_encode h₁).2] at h₂
  have h₃ := Varint.decode_append hc x
  rw [(Varint.eq_of_decode_encode h₂).2] at h₃
  exact (Varint.eq_of_decode_encode h₃).2

lemma leafPre_prefix_leafMessage (s : Scheme) (k v : Bytes) :
    leafPre <+: leafMessage s.leafPre k v := by
  cases s with
  | store =>
    refine ⟨[2, 2] ++ lengthPrefixed k ++ lengthPrefixed (Sha256.hash v), ?_⟩
    have : Scheme.store.leafPre = [0, 2, 2] := by
      simp [Scheme.leafPre, Scheme.layer, Scheme.version, Varint.encode_of_lt]
    rw [leafMessage, this]
    rfl
  | multistore => exact ⟨lengthPrefixed k ++ lengthPrefixed (Sha256.hash v), by
      simp [leafMessage, Scheme.leafPre]⟩

lemma not_leafPre_prefix_encode {n : Nat} (h : n ≠ 0) (x : Bytes) :
    ¬ leafPre <+: Varint.encode n ++ x := by
  rintro ⟨y, hy⟩
  have h0 : Varint.encode 0 ++ y = Varint.encode n ++ x := by
    rw [Varint.encode_of_lt (by decide)]
    exact hy
  exact h (Varint.encode_append_inj h0).1.symm

lemma not_leafPre_prefix_nodeMessage (s : Scheme) (height size : Nat) (l r : Bytes) :
    ¬ leafPre <+: s.nodeMessage (height + 1) size l r := by
  cases s with
  | store =>
    simp only [Scheme.nodeMessage, Scheme.nodePre, Scheme.layer, List.append_assoc]
    exact not_leafPre_prefix_encode (by omega) _
  | multistore =>
    rintro ⟨y, hy⟩
    simp [Scheme.nodeMessage, Scheme.nodePre, leafPre] at hy

/-! ### One step -/

/-- The side on which a step's child stands, read off what follows it. -/
def InnerOp.side (i : InnerOp) : Side := if i.post = [] then .right else .left

lemma side_of_side? {s : Scheme} {i : InnerOp} {d : Side} (h : s.spec.side? i = some d) :
    i.side = d := by
  have hsize : 0 < s.spec.childSize := by cases s <;> decide
  unfold Spec.side? at h
  unfold InnerOp.side
  split at h
  · rename_i hl
    have hpost : i.post ≠ [] := by
      intro hnil
      rw [hnil, List.length_nil] at hl
      omega
    rw [if_neg hpost]
    simpa using h
  · split at h
    · rename_i hr
      rw [if_pos (List.length_eq_zero_iff.mp hr.2.2)]
      simpa using h
    · simp at h

lemma onEdge_reverse {s : Spec} {d : Side} {path : List InnerOp} :
    s.onEdge d path.reverse = s.onEdge d path := by
  simp [Spec.onEdge]

/-- What a checked step must be like. -/
lemma innerOk_spec {s : Spec} {level : Nat} {i : InnerOp} (h : s.innerOk level i = true) :
    ¬ leafPre <+: i.pre ∧ s.minPre ≤ i.pre.length ∧ i.pre.length ≤ s.maxPre + s.childSize ∧
      i.post.length % s.childSize = 0 ∧
      (s.layered = true →
        ∃ rest, layer? level i.pre = some rest ∧ (rest.length = 1 ∨ rest.length = 34)) := by
  simp only [Spec.innerOk, Bool.and_eq_true, decide_eq_true_eq, Bool.not_eq_true',
    ← Bool.not_eq_true, List.isPrefixOf_iff_prefix, Bool.or_eq_true] at h
  obtain ⟨⟨⟨⟨⟨-, hpre⟩, hmin⟩, hmax⟩, hpost⟩, hlayer⟩ := h
  refine ⟨hpre, hmin, hmax, hpost, fun hl => ?_⟩
  rcases hlayer with hlayer | hlayer
  · exact absurd hl hlayer
  · split at hlayer
    · rename_i rest hrest
      exact ⟨rest, hrest, by simpa using hlayer⟩
    · simp at hlayer

/-- A step never begins like a leaf. -/
lemma not_leafPre_prefix_message {s : Scheme} {level : Nat} {i : InnerOp}
    (h : s.spec.innerOk level i = true) (child : Bytes) : ¬ leafPre <+: i.message child := by
  obtain ⟨hpre, hmin, -⟩ := innerOk_spec h
  have hpos : 1 ≤ i.pre.length := by
    have : 1 ≤ s.spec.minPre := by cases s <;> decide
    omega
  intro hp
  rw [InnerOp.message, List.append_assoc] at hp
  exact hpre (List.prefix_of_prefix_length_le hp (List.prefix_append _ _) hpos)

/-- **One step down.** A step with the message of a node has one of the node's children at its
place. -/
lemma step_down {s : Scheme} {level height size : Nat} {i : InnerOp} {c l r : Bytes}
    (h : s.spec.innerOk level i = true) (hc : c.length = 32) (hl : l.length = 32)
    (hr : r.length = 32) (hm : i.message c = s.nodeMessage height size l r) :
    i.side = .left ∧ c = l ∨ i.side = .right ∧ c = r := by
  obtain ⟨-, hmin, hmax, hpost, hlayer⟩ := innerOk_spec h
  unfold InnerOp.side
  cases s with
  | store =>
    obtain ⟨rest, hrest, hlen⟩ := hlayer rfl
    have hlp : ∀ x : Bytes, x.length = 32 → Scheme.store.child x = 32 :: x := by
      intro x hx
      rw [Scheme.child, lengthPrefixed, hx, Varint.encode_of_lt (by decide)]
      rfl
    have hm' : i.pre ++ (c ++ i.post) = Scheme.layer height size ++ (32 :: l ++ 32 :: r) := by
      rw [← List.append_assoc]
      simpa [InnerOp.message, Scheme.nodeMessage, Scheme.nodePre, hlp l hl, hlp r hr] using hm
    have hcut := layer?_append hrest hm'
    have htotal := congrArg List.length hcut
    simp only [List.length_append, List.length_cons] at htotal
    rcases hlen with hlen | hlen
    · -- one byte, the length of the left child, stands before the child
      obtain ⟨b, rfl⟩ := List.length_eq_one_iff.mp hlen
      have hcl : c ++ i.post = l ++ 32 :: r := (List.cons.inj hcut).2
      have hne : i.post ≠ [] := by
        intro hnil
        rw [hnil] at htotal
        simp at htotal
        omega
      rw [if_neg hne]
      exact Or.inl ⟨rfl, (List.append_inj hcl (by omega)).1⟩
    · -- the whole left child and the length of the right one stand before the child
      have hnil : i.post = [] := List.length_eq_zero_iff.mp (by omega)
      rw [if_pos hnil]
      rw [hnil, List.append_nil] at hcut
      have hcr : rest ++ c = (32 :: l ++ [32]) ++ r := by simpa using hcut
      exact Or.inr ⟨rfl, (List.append_inj' hcr (by omega)).2⟩
  | multistore =>
    have hcut : i.pre ++ (c ++ i.post) = 1 :: (l ++ r) := by
      rw [← List.append_assoc]
      exact hm
    have htotal := congrArg List.length hcut
    simp only [List.length_append, List.length_cons] at htotal
    simp only [Scheme.spec, Spec.multistore] at hmin hmax hpost
    by_cases hnil : i.post = []
    · rw [if_pos hnil]
      rw [hnil, List.append_nil] at hcut
      have hcr : i.pre ++ c = (1 :: l) ++ r := by simpa using hcut
      exact Or.inr ⟨rfl, (List.append_inj' hcr (by omega)).2⟩
    · -- what follows has a whole number of children, so exactly one
      have hpos : 0 < i.post.length := List.length_pos_iff.mpr hnil
      obtain ⟨b, hb⟩ := List.length_eq_one_iff.mp (show i.pre.length = 1 by omega)
      rw [if_neg hnil]
      rw [hb] at hcut
      have hcl : c ++ i.post = l ++ r := (List.cons.inj hcut).2
      exact Or.inl ⟨rfl, (List.append_inj hcl (by omega)).1⟩

/-! ### The whole way -/

lemma length_root (s : Scheme) (t : Tree) : (t.root s).length = 32 := by
  cases t <;> simp [Tree.root]

lemma pathMessages_append (c : Bytes) (p q : List InnerOp) :
    pathMessages c (p ++ q) = pathMessages c p ++ pathMessages (p.foldl InnerOp.apply c) q := by
  induction p generalizing c with
  | nil => rfl
  | cons i p ih => simp [pathMessages, ih]

lemma length_foldl_apply (m : Bytes) (path : List InnerOp) :
    (path.foldl InnerOp.apply (Sha256.hash m)).length = 32 := by
  induction path generalizing m with
  | nil => simp
  | cons i path ih => exact ih (i.message (Sha256.hash m))

/-- The sides taken from the root down to the leaf. -/
def sides (path : List InnerOp) : List Side := path.reverse.map InnerOp.side

lemma sides_concat (path : List InnerOp) (i : InnerOp) :
    sides (path ++ [i]) = i.side :: sides path := by
  simp [sides]

/-- **Descent.** Checked steps from a leaf's message up to the root of a tree are a way down
that tree, and the message is that of the leaf there. -/
lemma descent {s : Scheme} {t : Tree} {first : Bytes} {path : List InnerOp}
    (hfirst : leafPre <+: first) (hsteps : ∀ i ∈ path, ∃ level, s.spec.innerOk level i = true)
    (hroot : path.foldl InnerOp.apply (Sha256.hash first) = t.root s)
    (hcol : NoCollision (t.messages s ++ first :: pathMessages (Sha256.hash first) path)) :
    ∃ k v, t.at? (sides path) = some (k, v) ∧ first = leafMessage s.leafPre k v := by
  induction t generalizing path with
  | leaf k v =>
    induction path using List.reverseRecOn with
    | nil =>
      refine ⟨k, v, rfl, hcol _ (by simp) _ (by simp [Tree.messages]) ?_⟩
      simpa [Tree.root] using hroot
    | append_singleton path i _ =>
      -- a step cannot pass for a leaf
      obtain ⟨level, hi⟩ := hsteps i (by simp)
      have hm : i.message (path.foldl InnerOp.apply (Sha256.hash first)) =
          leafMessage s.leafPre k v := by
        refine hcol _ (by simp [pathMessages_append, pathMessages]) _ (by simp [Tree.messages]) ?_
        simpa [Tree.root, InnerOp.apply] using hroot
      refine absurd ?_ (not_leafPre_prefix_message hi
        (path.foldl InnerOp.apply (Sha256.hash first)))
      rw [hm]
      exact leafPre_prefix_leafMessage s k v
  | node l r ihl ihr =>
    induction path using List.reverseRecOn with
    | nil =>
      -- nor a leaf for a node
      have hm : first = s.nodeMessage (max l.height r.height + 1) (l.size + r.size) (l.root s)
          (r.root s) := by
        refine hcol _ (by simp) _ (by simp [Tree.messages]) ?_
        simpa [Tree.root] using hroot
      rw [hm] at hfirst
      exact absurd hfirst (not_leafPre_prefix_nodeMessage s _ _ _ _)
    | append_singleton path i _ =>
      obtain ⟨level, hi⟩ := hsteps i (by simp)
      have hm : i.message (path.foldl InnerOp.apply (Sha256.hash first)) =
          s.nodeMessage (max l.height r.height + 1) (l.size + r.size) (l.root s) (r.root s) := by
        refine hcol _ (by simp [pathMessages_append, pathMessages]) _ (by simp [Tree.messages]) ?_
        simpa [Tree.root, InnerOp.apply] using hroot
      have hsteps' : ∀ j ∈ path, ∃ level, s.spec.innerOk level j = true :=
        fun j hj => hsteps j (by simp [hj])
      rw [sides_concat]
      rcases step_down hi (length_foldl_apply first path) (length_root s l) (length_root s r) hm
        with ⟨hside, hchild⟩ | ⟨hside, hchild⟩
      · rw [hside]
        refine ihl hsteps' hchild (hcol.mono ?_)
        intro m hm
        simp only [pathMessages_append, Tree.messages, List.mem_append, List.mem_cons] at hm ⊢
        tauto
      · rw [hside]
        refine ihr hsteps' hchild (hcol.mono ?_)
        intro m hm
        simp only [pathMessages_append, Tree.messages, List.mem_append, List.mem_cons] at hm ⊢
        tauto

end ChainKeys.Merkle
