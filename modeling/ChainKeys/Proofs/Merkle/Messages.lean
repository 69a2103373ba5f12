import ChainKeys.Merkle.Proof
import ChainKeys.Proofs.Wire

/-!
Proofs of existence and of absence are read back from the messages they are written to, as long
as their numbers have 32 bits and the lengths 64.
-/

namespace ChainKeys.Merkle

open Wire

def LeafOp.Fits (l : LeafOp) : Prop :=
  Fits32 l.hash ∧ Fits32 l.prehashKey ∧ Fits32 l.prehashValue ∧ Fits32 l.length

def Existence.Fits (e : Existence) : Prop :=
  (∀ l ∈ e.leaf, l.Fits) ∧ ∀ i ∈ e.path, Fits32 i.hash

def NonExistence.Fits (n : NonExistence) : Prop :=
  (∀ e ∈ n.left, e.Fits) ∧ ∀ e ∈ n.right, e.Fits

variable {depth : Nat}

lemma LeafOp.takes_encode {l : LeafOp} (h : l.Fits) (hlen : l.encode.length < 2 ^ 64) :
    Takes LeafOp.step depth l.encode .zero l := by
  obtain ⟨hash, prehashKey, prehashValue, length, pre⟩ := l
  obtain ⟨h1, h2, h3, h4⟩ := h
  simp only at h1 h2 h3 h4
  have hpre : pre.length < 2 ^ 64 := by
    have := length_le_putBytes 5 pre
    simp only [encode, List.length_append] at hlen
    omega
  have t1 : Takes LeafOp.step depth (putVarint 1 (ofSigned hash)) .zero ⟨hash, 0, 0, 0, []⟩ :=
    takes_signed (by decide) h1 (by simp [step, zero, int32?_ofSigned h1]) (by rintro rfl; rfl)
  have t2 : Takes LeafOp.step depth (putVarint 2 (ofSigned prehashKey)) ⟨hash, 0, 0, 0, []⟩
      ⟨hash, prehashKey, 0, 0, []⟩ :=
    takes_signed (by decide) h2 (by simp [step, int32?_ofSigned h2]) (by rintro rfl; rfl)
  have t3 : Takes LeafOp.step depth (putVarint 3 (ofSigned prehashValue))
      ⟨hash, prehashKey, 0, 0, []⟩ ⟨hash, prehashKey, prehashValue, 0, []⟩ :=
    takes_signed (by decide) h3 (by simp [step, int32?_ofSigned h3]) (by rintro rfl; rfl)
  have t4 : Takes LeafOp.step depth (putVarint 4 (ofSigned length))
      ⟨hash, prehashKey, prehashValue, 0, []⟩ ⟨hash, prehashKey, prehashValue, length, []⟩ :=
    takes_signed (by decide) h4 (by simp [step, int32?_ofSigned h4]) (by rintro rfl; rfl)
  have t5 : Takes LeafOp.step depth (putBytes 5 pre) ⟨hash, prehashKey, prehashValue, length, []⟩
      ⟨hash, prehashKey, prehashValue, length, pre⟩ :=
    takes_bytes (by decide) hpre (by simp [step]) (by rintro rfl; rfl)
  exact (((t1.append t2).append t3).append t4).append t5

lemma InnerOp.takes_encode {i : InnerOp} (h : Fits32 i.hash) (hlen : i.encode.length < 2 ^ 64) :
    Takes InnerOp.step depth i.encode .zero i := by
  obtain ⟨hash, pre, post⟩ := i
  simp only at h
  have hpre := length_le_putBytes 2 pre
  have hpost := length_le_putBytes 3 post
  simp only [encode, List.length_append] at hlen
  have t1 : Takes InnerOp.step depth (putVarint 1 (ofSigned hash)) .zero ⟨hash, [], []⟩ :=
    takes_signed (by decide) h (by simp [step, zero, int32?_ofSigned h]) (by rintro rfl; rfl)
  have t2 : Takes InnerOp.step depth (putBytes 2 pre) ⟨hash, [], []⟩ ⟨hash, pre, []⟩ :=
    takes_bytes (by decide) (by omega) (by simp [step]) (by rintro rfl; rfl)
  have t3 : Takes InnerOp.step depth (putBytes 3 post) ⟨hash, pre, []⟩ ⟨hash, pre, post⟩ :=
    takes_bytes (by decide) (by omega) (by simp [step]) (by rintro rfl; rfl)
  exact (t1.append t2).append t3

/-- A proof of existence has messages inside it, so a level must be left for them. -/
lemma Existence.takes_encode {e : Existence} (h : e.Fits) (hlen : e.encode.length < 2 ^ 64) :
    Takes Existence.step (depth + 1) e.encode .zero e := by
  obtain ⟨key, value, leaf, path⟩ := e
  obtain ⟨hleaf, hpath⟩ := h
  simp only at hleaf hpath
  have hkey := length_le_putBytes 1 key
  have hvalue := length_le_putBytes 2 value
  simp only [encode, List.length_append] at hlen
  have t1 : Takes Existence.step (depth + 1) (putBytes 1 key) .zero ⟨key, [], none, []⟩ :=
    takes_bytes (by decide) (by omega) (by simp [step, zero]) (by rintro rfl; rfl)
  have t2 : Takes Existence.step (depth + 1) (putBytes 2 value) ⟨key, [], none, []⟩
      ⟨key, value, none, []⟩ :=
    takes_bytes (by decide) (by omega) (by simp [step]) (by rintro rfl; rfl)
  have t3 : Takes Existence.step (depth + 1) (leaf.elim [] fun l => putMessage 3 l.encode)
      ⟨key, value, none, []⟩ ⟨key, value, leaf, []⟩ := by
    refine takes_optional (by decide) (g := fun leaf => (⟨key, value, leaf, []⟩ : Existence))
      (by omega) fun l hl hshort => ?_
    simp [step, (LeafOp.takes_encode (hleaf l hl) hshort).mergeInner]
  have t4 : Takes Existence.step (depth + 1) (path.flatMap fun i => putMessage 4 i.encode)
      ⟨key, value, leaf, []⟩ ⟨key, value, leaf, path⟩ := by
    have hi : ∀ i ∈ path, i.encode.length < 2 ^ 64 := by
      intro i hi
      have := length_le_putMessages (f := InnerOp.encode) 4 hi
      omega
    refine takes_repeated (by decide) (g := fun path => (⟨key, value, leaf, path⟩ : Existence)) hi
      (fun before i hmem => ?_) []
    simp [step, (InnerOp.takes_encode (hpath i hmem) (hi i hmem)).mergeInner]
  exact ((t1.append t2).append t3).append t4

/-- A proof of absence has proofs of existence inside it. -/
lemma NonExistence.takes_encode {n : NonExistence} (h : n.Fits)
    (hlen : n.encode.length < 2 ^ 64) : Takes NonExistence.step (depth + 2) n.encode .zero n := by
  obtain ⟨key, left, right⟩ := n
  obtain ⟨hleft, hright⟩ := h
  simp only at hleft hright
  have hkey := length_le_putBytes 1 key
  simp only [encode, List.length_append] at hlen
  have t1 : Takes NonExistence.step (depth + 2) (putBytes 1 key) .zero ⟨key, none, none⟩ :=
    takes_bytes (by decide) (by omega) (by simp [step, zero]) (by rintro rfl; rfl)
  have t2 : Takes NonExistence.step (depth + 2) (left.elim [] fun e => putMessage 2 e.encode)
      ⟨key, none, none⟩ ⟨key, left, none⟩ := by
    refine takes_optional (by decide) (g := fun left => (⟨key, left, none⟩ : NonExistence)) (by omega)
      fun e he hshort => ?_
    simp [step, (Existence.takes_encode (hleft e he) hshort).mergeInner]
  have t3 : Takes NonExistence.step (depth + 2) (right.elim [] fun e => putMessage 3 e.encode)
      ⟨key, left, none⟩ ⟨key, left, right⟩ := by
    refine takes_optional (by decide) (g := fun right => (⟨key, left, right⟩ : NonExistence)) (by omega)
      fun e he hshort => ?_
    simp [step, (Existence.takes_encode (hright e he) hshort).mergeInner]
  exact (t1.append t2).append t3

/-- A proof of existence is read back from its message. -/
theorem Existence.decode_toMessage {e : Existence} (h : e.Fits)
    (hlen : e.toMessage.length < 2 ^ 64) : Proof.decode e.toMessage = some (.exist e) := by
  have he := length_le_putMessage 1 e.encode
  unfold toMessage at hlen ⊢
  refine (takes_message (by decide) (by omega) ?_).merge
  simp [Proof.step, maxDepth, (Existence.takes_encode h (by omega)).mergeInner]

/-- A proof of absence is read back from its message. -/
theorem NonExistence.decode_toMessage {n : NonExistence} (h : n.Fits)
    (hlen : n.toMessage.length < 2 ^ 64) : Proof.decode n.toMessage = some (.nonexist n) := by
  have hn := length_le_putMessage 2 n.encode
  unfold toMessage at hlen ⊢
  refine (takes_message (by decide) (by omega) ?_).merge
  simp [Proof.step, maxDepth, (NonExistence.takes_encode h (by omega)).mergeInner]

end ChainKeys.Merkle
