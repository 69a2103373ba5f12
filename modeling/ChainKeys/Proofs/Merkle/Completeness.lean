import ChainKeys.Proofs.Merkle.Messages
import ChainKeys.Proofs.Merkle.Shape

/-!
Proofs read off a tree are accepted against its root. The path of an entry leads from its leaf
up to the root. The paths of two neighbours come down together to the node between them, where
one goes left and the other right, and from there each keeps to the edge next to the other; so
what lies between two entries, or beyond the first or the last, is shown to be absent.
-/

namespace ChainKeys.Merkle

variable {s : Scheme} {height size : Nat} {sibling child key value : Bytes}

/-! ### From the leaf to the root -/

lemma message_leftOp (hchild : child.length = 32) (hsibling : sibling.length = 32) :
    (Tree.leftOp s height size sibling).message child =
      s.nodeMessage height size child sibling := by
  cases s with
  | store =>
    simp [Tree.leftOp, InnerOp.message, Scheme.nodeMessage, Scheme.child, lengthPrefixed, hchild,
      hsibling, Varint.encode_of_lt]
  | multistore =>
    simp [Tree.leftOp, InnerOp.message, Scheme.nodeMessage, Scheme.child]

lemma message_rightOp (hchild : child.length = 32) (hsibling : sibling.length = 32) :
    (Tree.rightOp s height size sibling).message child =
      s.nodeMessage height size sibling child := by
  cases s with
  | store =>
    simp [Tree.rightOp, InnerOp.message, Scheme.nodeMessage, Scheme.child, lengthPrefixed, hchild,
      hsibling, Varint.encode_of_lt]
  | multistore =>
    simp [Tree.rightOp, InnerOp.message, Scheme.nodeMessage, Scheme.child]

namespace Tree

variable {t l r : Tree} {a b e : Bytes × Bytes} {before after : List (Bytes × Bytes)}

lemma has_eq (key : Bytes) (t : Tree) : t.has key = (t.entries.lookup key).isSome := by
  induction t with
  | leaf k v =>
    by_cases h : key = k
    · simp [has, entries, h]
    · simp [has, entries, h, Ne.symm h]
  | node l r ihl ihr => rw [has, entries, List.lookup_append, Option.isSome_or, ihl, ihr]

lemma has_of_mem (h : e ∈ t.entries) : t.has e.1 = true := by
  rw [has_eq, List.lookup_isSome_iff]
  exact ⟨e, h, by simp⟩

/-- The path of an entry leads to the root. -/
lemma foldl_path (h : t.entries.lookup key = some value) :
    (t.path s key).foldl InnerOp.apply (Sha256.hash (leafMessage s.leafPre key value)) =
      t.root s := by
  induction t with
  | leaf k v =>
    by_cases hk : key = k
    · obtain rfl : v = value := by simpa [entries, hk] using h
      rw [hk]
      rfl
    · simp [entries, hk] at h
  | node l r ihl ihr =>
    rw [entries, List.lookup_append] at h
    rw [path, root]
    by_cases hl : l.has key = true
    · have hlookup : l.entries.lookup key = some value := by
        rw [has_eq, Option.isSome_iff_exists] at hl
        obtain ⟨v, hv⟩ := hl
        rwa [hv, Option.some_or, ← hv] at h
      rw [if_pos hl, List.foldl_concat, ihl hlookup, InnerOp.apply,
        message_leftOp (length_root s l) (length_root s r)]
    · have hlookup : r.entries.lookup key = some value := by
        rw [has_eq, Bool.not_eq_true, Option.isSome_eq_false_iff, Option.isNone_iff_eq_none] at hl
        rwa [hl, Option.none_or] at h
      rw [if_neg hl, List.foldl_concat, ihr hlookup, InnerOp.apply,
        message_rightOp (length_root s r) (length_root s l)]

/-- **Existence is provable.** -/
theorem verify_existence (h : t.HasRoom s) (hlookup : t.entries.lookup key = some value)
    (hkey : key ≠ []) (hvalue : value ≠ []) :
    (t.existence s key).verify s.spec (t.root s) key value = true := by
  have hroot : (t.existence s key).root (leafOp s) = t.root s := by
    rw [Existence.root, existence, hlookup]
    exact foldl_path hlookup
  have hleaf : (t.existence s key).leaf = some (leafOp s) := rfl
  have hk : (t.existence s key).key = key := rfl
  have hv : (t.existence s key).value = value := by rw [existence, hlookup, Option.getD_some]
  simp [Existence.verify, shapeOk_existence h key, hleaf, hroot, hk, hv, hkey, hvalue]

/-! ### Edges -/

lemma Sorted.node (h : (node l r).Sorted) :
    l.Sorted ∧ r.Sorted ∧ ∀ a ∈ l.entries, ∀ b ∈ r.entries, a.1 < b.1 :=
  List.pairwise_append.mp h

lemma path_left (h : e ∈ l.entries) : (Tree.node l r).path s e.1 = l.path s e.1 ++
    [leftOp s (max l.height r.height + 1) (l.size + r.size) (r.root s)] := by
  rw [path, if_pos (has_of_mem h)]

lemma path_right (hs : (Tree.node l r).Sorted) (h : e ∈ r.entries) :
    (Tree.node l r).path s e.1 = r.path s e.1 ++
      [rightOp s (max l.height r.height + 1) (l.size + r.size) (l.root s)] := by
  rw [path, if_neg]
  rw [has_eq, List.lookup_isSome_iff]
  rintro ⟨a, ha, hae⟩
  have hlt := hs.node.2.2 a ha e h
  rw [eq_of_beq hae] at hlt
  exact List.lt_irrefl _ hlt

lemma HasRoom.side?_left (h : (Tree.node l r).HasRoom s) : s.spec.side?
    (leftOp s (max l.height r.height + 1) (l.size + r.size) (r.root s)) = some .left :=
  side?_leftOp h (length_root s r)

lemma HasRoom.side?_right (h : (Tree.node l r).HasRoom s) : s.spec.side?
    (rightOp s (max l.height r.height + 1) (l.size + r.size) (l.root s)) = some .right :=
  side?_rightOp h (length_root s l)

lemma onEdge_concat (s : Spec) (d : Side) (path : List InnerOp) (i : InnerOp) :
    s.onEdge d (path ++ [i]) = (s.onEdge d path && decide (s.side? i = some d)) := by
  simp [Spec.onEdge]

lemma entries_ne_nil (t : Tree) : t.entries ≠ [] := by
  induction t with
  | leaf k v => exact List.cons_ne_nil _ _
  | node l r ihl _ => exact List.append_ne_nil_of_left_ne_nil ihl _

lemma onEdge_left (h : t.HasRoom s) (he : t.entries = e :: after) :
    s.spec.onEdge .left (t.path s e.1) = true := by
  induction t generalizing after with
  | leaf k v => rfl
  | node l r ihl _ =>
    obtain ⟨x, rest, hl⟩ := List.exists_cons_of_ne_nil l.entries_ne_nil
    rw [entries, hl, List.cons_append] at he
    obtain ⟨rfl, -⟩ := List.cons.inj he
    rw [path_left (by simp [hl]), onEdge_concat, ihl h.left hl, h.side?_left]
    rfl

lemma onEdge_right (h : t.HasRoom s) (hs : t.Sorted) (he : t.entries = before ++ [e]) :
    s.spec.onEdge .right (t.path s e.1) = true := by
  induction t generalizing before with
  | leaf k v => rfl
  | node l r _ ihr =>
    obtain ⟨rest, x, hr⟩ := (List.eq_nil_or_concat' r.entries).resolve_left r.entries_ne_nil
    rw [entries, hr, ← List.append_assoc] at he
    obtain ⟨-, rfl⟩ := List.append_inj' he rfl |>.imp_right List.singleton_inj.mp
    rw [path_right hs (by simp [hr]), onEdge_concat, ihr h.right hs.node.2.1 hr, h.side?_right]
    rfl

/-! ### Neighbours -/

lemma areNeighbours_concat (s : Spec) (p q : List InnerOp) (i : InnerOp) :
    s.areNeighbours (p ++ [i]) (q ++ [i]) = s.areNeighbours p q := by
  simp [Spec.areNeighbours, diverge]

lemma areNeighbours_of_parting {s : Spec} {p q : List InnerOp} {i j : InnerOp}
    (hi : s.side? i = some .left) (hj : s.side? j = some .right) (hp : s.onEdge .right p = true)
    (hq : s.onEdge .left q = true) : s.areNeighbours (p ++ [i]) (q ++ [j]) = true := by
  have hne : ¬(i.pre = j.pre ∧ i.post = j.post) := by
    rintro ⟨hpre, hpost⟩
    have : s.side? i = s.side? j := by rw [Spec.side?, Spec.side?, hpre, hpost]
    rw [hi, hj] at this
    cases this
  simp [Spec.areNeighbours, diverge, hne, hi, hj, onEdge_reverse, hp, hq]

/-- Paths of neighbouring entries pass for those of neighbours. -/
lemma areNeighbours_path (h : t.HasRoom s) (hs : t.Sorted)
    (he : t.entries = before ++ a :: b :: after) :
    s.spec.areNeighbours (t.path s a.1) (t.path s b.1) = true := by
  induction t generalizing before after with
  | leaf k v =>
    have := congrArg List.length he
    simp only [entries, List.length_append, List.length_cons, List.length_nil] at this
    omega
  | node l r ihl ihr =>
    have hright : ∀ c, r.entries = c ++ a :: b :: after →
        s.spec.areNeighbours ((Tree.node l r).path s a.1) ((Tree.node l r).path s b.1) = true := by
      intro c hr
      rw [path_right hs (by simp [hr]), path_right hs (by simp [hr]), areNeighbours_concat]
      exact ihr h.right hs.node.2.1 hr
    rw [entries] at he
    rcases List.append_eq_append_iff.mp he with ⟨c, -, hr⟩ | ⟨c, hl, hc⟩
    · exact hright c hr
    · cases c with
      | nil => exact hright [] hc.symm
      | cons x c =>
        obtain ⟨rfl, hrest⟩ := List.cons.inj hc
        cases c with
        | nil =>
          -- the node between them
          have hr : r.entries = b :: after := hrest.symm
          rw [path_left (by simp [hl]), path_right hs (by simp [hr])]
          exact areNeighbours_of_parting h.side?_left h.side?_right
            (onEdge_right h.left hs.node.1 hl) (onEdge_left h.right hr)
        | cons y c =>
          obtain ⟨rfl, -⟩ := List.cons.inj hrest
          rw [path_left (by simp [hl]), path_left (by simp [hl]), areNeighbours_concat]
          exact ihl h.left hs.node.1 hl

/-! ### Around a key that is absent -/

lemma exists_split {l : List (Bytes × Bytes)} (hs : l.Pairwise fun a b => a.1 < b.1)
    (hkey : key ∉ l.map (·.1)) : ∃ before after, l = before ++ after ∧
      (∀ e ∈ before, e.1 < key) ∧ ∀ e ∈ after, key < e.1 := by
  induction l with
  | nil => exact ⟨[], [], rfl, by simp, by simp⟩
  | cons e l ih =>
    rw [List.map_cons, List.mem_cons, not_or] at hkey
    obtain ⟨hlt, hs⟩ := List.pairwise_cons.mp hs
    by_cases he : e.1 < key
    · obtain ⟨before, after, rfl, hbefore, hafter⟩ := ih hs hkey.2
      exact ⟨e :: before, after, rfl, by simpa [he] using hbefore, hafter⟩
    · have hke : key < e.1 := Bytes.lt_of_le_of_ne (List.not_lt.mp he) hkey.1
      refine ⟨[], e :: l, rfl, by simp, ?_⟩
      rintro x (_ | ⟨_, hx⟩)
      · exact hke
      · exact List.lt_trans hke (hlt x hx)

lemma find?_eq_head? {α : Type} {p : α → Bool} {l : List α} (h : ∀ x ∈ l, p x = true) :
    l.find? p = l.head? := by
  cases l with
  | nil => rfl
  | cons x l => simp [h]

/-- The proof of absence is made of the last entry before the key and the first one after. -/
lemma nonExistence_eq (he : t.entries = before ++ after) (hbefore : ∀ e ∈ before, e.1 < key)
    (hafter : ∀ e ∈ after, key < e.1) : t.nonExistence s key =
      ⟨key, before.getLast?.map fun e => t.existence s e.1,
        after.head?.map fun e => t.existence s e.1⟩ := by
  have hleft : t.entries.reverse.find? (fun e => Bytes.lt e.1 key) = before.getLast? := by
    rw [he, List.reverse_append, List.find?_append, List.find?_eq_none.mpr, Option.none_or,
      find?_eq_head?, List.head?_reverse]
    · intro e he
      exact Bytes.lt_iff.mpr (hbefore e (List.mem_reverse.mp he))
    · intro e he
      rw [Bytes.lt_iff]
      exact List.lt_asymm (hafter e (List.mem_reverse.mp he))
  have hright : t.entries.find? (fun e => Bytes.lt key e.1) = after.head? := by
    rw [he, List.find?_append, List.find?_eq_none.mpr, Option.none_or, find?_eq_head?]
    · intro e he
      exact Bytes.lt_iff.mpr (hafter e he)
    · intro e he
      rw [Bytes.lt_iff]
      exact List.lt_asymm (hbefore e he)
  rw [nonExistence, hleft, hright]

/-- **Absence is provable.** -/
theorem verify_nonExistence (h : t.HasRoom s) (hs : t.Sorted)
    (hfilled : ∀ e ∈ t.entries, e.1 ≠ [] ∧ e.2 ≠ []) (hkey : key ∉ t.entries.map (·.1)) :
    (t.nonExistence s key).verify s.spec (t.root s) key = true := by
  have hexist : ∀ e ∈ t.entries, (t.existence s e.1).verify s.spec (t.root s) e.1
      (t.existence s e.1).value = true := by
    intro e he
    have hv : (t.existence s e.1).value = e.2 := by
      rw [existence, hs.lookup he, Option.getD_some]
    rw [hv]
    exact verify_existence h (hs.lookup he) (hfilled e he).1 (hfilled e he).2
  obtain ⟨before, after, he, hbefore, hafter⟩ := exists_split hs hkey
  rw [nonExistence_eq he hbefore hafter]
  have hleft : ∀ e ∈ before, ((t.existence s e.1).verify s.spec (t.root s) e.1
      (t.existence s e.1).value && Bytes.lt e.1 key) = true := fun e hmem => by
    rw [hexist e (by simp [he, hmem]), Bytes.lt_iff.mpr (hbefore e hmem), Bool.and_self]
  have hright : ∀ e ∈ after, ((t.existence s e.1).verify s.spec (t.root s) e.1
      (t.existence s e.1).value && Bytes.lt key e.1) = true := fun e hmem => by
    rw [hexist e (by simp [he, hmem]), Bytes.lt_iff.mpr (hafter e hmem), Bool.and_self]
  simp only [NonExistence.verify, Bool.and_eq_true]
  refine ⟨⟨?_, ?_⟩, ?_⟩
  · rw [Option.all_map, Option.all_eq_true]
    exact fun e hmem => hleft e (List.mem_of_getLast? hmem)
  · rw [Option.all_map, Option.all_eq_true]
    exact fun e hmem => hright e (List.mem_of_mem_head? hmem)
  -- which of the two there are, and that they stand side by side
  rcases List.eq_nil_or_concat' before with rfl | ⟨before, a, rfl⟩
  · cases after with
    | nil => exact absurd he t.entries_ne_nil
    | cons b after => exact onEdge_left h he
  · rw [List.getLast?_concat]
    cases after with
    | nil => exact onEdge_right h hs (by rw [he, List.append_nil])
    | cons b after => exact areNeighbours_path h hs (he.trans (List.append_cons before a _).symm)

/-! ### As messages -/

lemma hash_of_mem_path {i : InnerOp} (h : i ∈ t.path s key) : i.hash = 1 := by
  induction t with
  | leaf k v => exact absurd h List.not_mem_nil
  | node l r ihl ihr =>
    rw [path] at h
    split at h
    all_goals
      rw [List.mem_append, List.mem_singleton] at h
    · rcases h with h | rfl
      · exact ihl h
      · cases s <;> rfl
    · rcases h with h | rfl
      · exact ihr h
      · cases s <;> rfl

lemma fits_existence (s : Scheme) (t : Tree) (key : Bytes) : (t.existence s key).Fits := by
  refine ⟨fun l hl => ?_, fun i hi => ?_⟩
  · obtain rfl := Option.some.inj hl
    simp only [LeafOp.Fits, leafOp]
    decide
  · rw [hash_of_mem_path hi]
    decide

lemma fits_nonExistence (s : Scheme) (t : Tree) (key : Bytes) :
    (t.nonExistence s key).Fits := by
  constructor
  all_goals
    intro e he
    obtain ⟨x, -, rfl⟩ := Option.map_eq_some_iff.mp he
    exact fits_existence s t x.1

end Tree

end ChainKeys.Merkle
