import ChainKeys.Merkle.Tree
import ChainKeys.Proofs.Bytes
import ChainKeys.Proofs.Lookup

/-!
The leaves of a tree by their way down from the root, and which ways lead to leaves that stand
next to each other in the order of the entries.
-/

namespace ChainKeys.Merkle

namespace Tree

/-- The entry at the end of a way down. -/
def at? : Tree → List Side → Option (Bytes × Bytes)
  | leaf k v, [] => some (k, v)
  | node l _, .left :: p => l.at? p
  | node _ r, .right :: p => r.at? p
  | _, _ => none

/-- Where two ways part, one goes left and then keeps right, and the other the other way round. -/
def Adjacent : List Side → List Side → Prop
  | .left :: p, .right :: q => (∀ s ∈ p, s = .right) ∧ ∀ s ∈ q, s = .left
  | a :: p, b :: q => a = b ∧ Adjacent p q
  | _, _ => False

lemma mem_of_at? {t : Tree} {p : List Side} {e : Bytes × Bytes} (h : t.at? p = some e) :
    e ∈ t.entries := by
  induction t generalizing p with
  | leaf k v =>
    cases p with
    | nil => simpa [at?, entries, eq_comm] using h
    | cons a p => simp [at?] at h
  | node l r ihl ihr =>
    rw [entries, List.mem_append]
    match p, h with
    | .left :: p, h => exact Or.inl (ihl h)
    | .right :: p, h => exact Or.inr (ihr h)

lemma entries_of_left {t : Tree} {p : List Side} {e : Bytes × Bytes} (h : t.at? p = some e)
    (hp : ∀ s ∈ p, s = .left) : ∃ after, t.entries = e :: after := by
  induction t generalizing p with
  | leaf k v =>
    cases p with
    | nil => exact ⟨[], by simpa [at?, entries] using h⟩
    | cons a p => simp [at?] at h
  | node l r ihl _ =>
    match p, h with
    | .left :: p, h =>
      obtain ⟨after, ha⟩ := ihl h fun s hs => hp s (by simp [hs])
      exact ⟨after ++ r.entries, by simp [entries, ha]⟩
    | .right :: p, _ => exact absurd (hp .right (by simp)) (by decide)

lemma entries_of_right {t : Tree} {p : List Side} {e : Bytes × Bytes} (h : t.at? p = some e)
    (hp : ∀ s ∈ p, s = .right) : ∃ before, t.entries = before ++ [e] := by
  induction t generalizing p with
  | leaf k v =>
    cases p with
    | nil => exact ⟨[], by simpa [at?, entries] using h⟩
    | cons a p => simp [at?] at h
  | node l r _ ihr =>
    match p, h with
    | .right :: p, h =>
      obtain ⟨before, hb⟩ := ihr h fun s hs => hp s (by simp [hs])
      exact ⟨l.entries ++ before, by simp [entries, hb]⟩
    | .left :: p, _ => exact absurd (hp .left (by simp)) (by decide)

/-- Adjacent ways lead to neighbouring entries. -/
lemma entries_of_adjacent {t : Tree} {p q : List Side} {a b : Bytes × Bytes}
    (hpq : Adjacent p q) (ha : t.at? p = some a) (hb : t.at? q = some b) :
    ∃ before after, t.entries = before ++ a :: b :: after := by
  induction t generalizing p q with
  | leaf k v =>
    match p, q, hpq with
    | _ :: _, _ :: _, _ => simp [at?] at ha
  | node l r ihl ihr =>
    match p, q, hpq with
    | .left :: p, .right :: q, ⟨hp, hq⟩ =>
      -- the ways part here: the last entry on the left, then the first on the right
      obtain ⟨before, hl⟩ := entries_of_right (t := l) ha hp
      obtain ⟨after, hr⟩ := entries_of_left (t := r) hb hq
      exact ⟨before, after, by simp [entries, hl, hr]⟩
    | .left :: p, .left :: q, ⟨_, h⟩ =>
      obtain ⟨before, after, hl⟩ := ihl h ha hb
      exact ⟨before, after ++ r.entries, by simp [entries, hl]⟩
    | .right :: p, .right :: q, ⟨_, h⟩ =>
      obtain ⟨before, after, hr⟩ := ihr h ha hb
      exact ⟨l.entries ++ before, after, by simp [entries, hr]⟩
    | .right :: p, .left :: q, ⟨h, _⟩ => exact absurd h (by decide)

/-! ### Sorted entries -/

/-- Keys strictly increase from left to right. -/
def Sorted (t : Tree) : Prop := t.entries.Pairwise fun a b => a.1 < b.1

lemma Sorted.nodup {t : Tree} (hs : t.Sorted) : (t.entries.map (·.1)).Nodup := by
  refine List.pairwise_map.mpr (hs.imp fun {a b} hlt heq => ?_)
  rw [heq] at hlt
  exact List.lt_irrefl _ hlt

lemma Sorted.lookup {t : Tree} (hs : t.Sorted) {e : Bytes × Bytes} (h : e ∈ t.entries) :
    t.entries.lookup e.1 = some e.2 :=
  (lookup_eq_some_iff_mem hs.nodup).mpr h

/-- Nothing lies between neighbours. -/
lemma Sorted.notMem_between {t : Tree} (hs : t.Sorted) {before after : List (Bytes × Bytes)}
    {a b : Bytes × Bytes} (he : t.entries = before ++ a :: b :: after) {key : Bytes}
    (ha : a.1 < key) (hb : key < b.1) : key ∉ t.entries.map (·.1) := by
  unfold Sorted at hs
  rw [he] at hs ⊢
  intro hmem
  simp only [List.map_append, List.map_cons, List.mem_append, List.mem_cons, List.mem_map] at hmem
  simp only [List.pairwise_append, List.pairwise_cons, List.mem_cons] at hs
  obtain ⟨-, ⟨-, hafter, -⟩, hbefore⟩ := hs
  rcases hmem with ⟨x, hx, rfl⟩ | rfl | rfl | ⟨x, hx, rfl⟩
  · exact List.lt_asymm ha (hbefore x hx a (Or.inl rfl))
  · exact List.lt_irrefl _ ha
  · exact List.lt_irrefl _ hb
  · exact List.lt_asymm hb (hafter x hx)

lemma Sorted.notMem_after {t : Tree} (hs : t.Sorted) {before : List (Bytes × Bytes)}
    {a : Bytes × Bytes} (he : t.entries = before ++ [a]) {key : Bytes} (ha : a.1 < key) :
    key ∉ t.entries.map (·.1) := by
  unfold Sorted at hs
  rw [he] at hs ⊢
  intro hmem
  simp only [List.map_append, List.map_cons, List.map_nil, List.mem_append, List.mem_singleton,
    List.mem_map] at hmem
  rcases hmem with ⟨x, hx, rfl⟩ | rfl
  · exact List.lt_asymm ha ((List.pairwise_append.mp hs).2.2 x hx a (by simp))
  · exact List.lt_irrefl _ ha

lemma Sorted.notMem_before {t : Tree} (hs : t.Sorted) {after : List (Bytes × Bytes)}
    {b : Bytes × Bytes} (he : t.entries = b :: after) {key : Bytes} (hb : key < b.1) :
    key ∉ t.entries.map (·.1) := by
  unfold Sorted at hs
  rw [he] at hs ⊢
  intro hmem
  simp only [List.map_cons, List.mem_cons, List.mem_map] at hmem
  rcases hmem with rfl | ⟨x, hx, rfl⟩
  · exact List.lt_irrefl _ hb
  · exact List.lt_asymm hb ((List.pairwise_cons.mp hs).1 x hx)

end Tree

namespace Scheme

lemma entries_build (s : Scheme) {es : List (Bytes × Bytes)} (h : es ≠ []) :
    (s.build es).entries = es := by
  induction es using build.induct s with
  | case1 es h2 ihl ihr =>
    have hpos := s.split_pos h2
    have hlt := s.split_lt h2
    have hl : es.take (s.split es.length) ≠ [] := by
      rw [ne_eq, List.take_eq_nil_iff]
      exact not_or.mpr ⟨by omega, h⟩
    have hr : es.drop (s.split es.length) ≠ [] := by
      rw [ne_eq, List.drop_eq_nil_iff]
      omega
    rw [build, dif_pos h2, Tree.entries, ihl hl, ihr hr, List.take_append_drop]
  | case2 e es h2 =>
    have : es = [] := by
      simp only [List.length_cons] at h2
      exact List.length_eq_zero_iff.mp (by omega)
    subst this
    rw [build, dif_neg h2]
    rfl
  | case3 => exact absurd rfl h

lemma entries_tree (s : Scheme) {es : List (Bytes × Bytes)} (h : es ≠ []) :
    (s.tree es).entries = es.mergeSort fun a b => Bytes.le a.1 b.1 := by
  have hne : (es.mergeSort fun a b => Bytes.le a.1 b.1) ≠ [] := by
    rw [ne_eq, ← List.length_eq_zero_iff, List.length_mergeSort, List.length_eq_zero_iff]
    exact h
  rw [tree, entries_build s hne]

lemma tree_singleton (s : Scheme) (k v : Bytes) : s.tree [(k, v)] = .leaf k v := by
  rw [tree, List.mergeSort_singleton, build, dif_neg (by simp)]

/-- The entries of a tree are those it was built over. -/
lemma perm_entries_tree (s : Scheme) {es : List (Bytes × Bytes)} (h : es ≠ []) :
    (s.tree es).entries.Perm es := by
  rw [entries_tree s h]
  exact List.mergeSort_perm _ _

lemma sorted_tree (s : Scheme) {es : List (Bytes × Bytes)} (h : es ≠ [])
    (hkeys : (es.map (·.1)).Nodup) : (s.tree es).Sorted := by
  have hnodup : ((s.tree es).entries.map (·.1)).Nodup :=
    ((perm_entries_tree s h).map (·.1)).nodup_iff.mpr hkeys
  have hne : (s.tree es).entries.Pairwise fun a b => a.1 ≠ b.1 := List.pairwise_map.mp hnodup
  have hle : (s.tree es).entries.Pairwise fun a b => a.1 ≤ b.1 := by
    rw [entries_tree s h]
    exact Bytes.pairwise_mergeSort (·.1) es
  exact hle.imp₂ (fun a b hab hne => Bytes.lt_of_le_of_ne hab hne) hne

end Scheme

end ChainKeys.Merkle
