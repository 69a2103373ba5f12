import Mathlib.Data.List.Perm.Basic
import Mathlib.Data.List.Nodup
import Mathlib.Tactic.Lemma

/-!
Lists of entries in which every key has one entry. What is looked up in such a list is what it
holds, so its order does not matter.
-/

namespace ChainKeys

variable {α β : Type}

section

variable [BEq α] [LawfulBEq α] {l l' : List (α × β)}

lemma lookup_eq_some_iff_mem (h : (l.map Prod.fst).Nodup) {a : α} {b : β} :
    l.lookup a = some b ↔ (a, b) ∈ l := by
  constructor
  · intro hab
    obtain ⟨before, after, hl, -⟩ := List.lookup_eq_some_iff.mp hab
    rw [hl]
    simp
  · intro hmem
    obtain ⟨w, hw⟩ : ∃ w, l.lookup a = some w := by
      rw [← Option.isSome_iff_exists, List.lookup_isSome_iff]
      exact ⟨(a, b), hmem, by simp⟩
    obtain ⟨before, after, hl, -⟩ := List.lookup_eq_some_iff.mp hw
    have hmem' : (a, w) ∈ l := by rw [hl]; simp
    rw [hw, (Prod.mk.inj (List.inj_on_of_nodup_map h hmem hmem' rfl)).2]

lemma isSome_lookup_iff {a : α} : (l.lookup a).isSome ↔ a ∈ l.map Prod.fst := by
  rw [List.lookup_isSome_iff, List.mem_map]
  exact exists_congr fun e => and_congr_right fun _ => by rw [beq_iff_eq, eq_comm]

lemma lookup_eq_of_perm (hp : l.Perm l') (h : (l.map Prod.fst).Nodup) (a : α) :
    l.lookup a = l'.lookup a := by
  have h' := (hp.map Prod.fst).nodup_iff.mp h
  ext b
  rw [lookup_eq_some_iff_mem h, lookup_eq_some_iff_mem h', hp.mem_iff]

end

/-- The entries of one key are the one that is looked up. -/
lemma filter_key_eq [DecidableEq α] {l : List (α × β)} (h : (l.map Prod.fst).Nodup) (a : α) :
    l.filter (·.1 = a) = ((l.lookup a).map (a, ·)).toList := by
  induction l with
  | nil => rfl
  | cons e l ih =>
    obtain ⟨b, v⟩ := e
    rw [List.map_cons, List.nodup_cons] at h
    rw [List.filter_cons, List.lookup_cons, ih h.2]
    by_cases hab : b = a
    · subst hab
      have hnone : l.lookup b = none := by
        rw [← Option.not_isSome_iff_eq_none, isSome_lookup_iff]
        exact h.1
      simp [hnone]
    · rw [if_neg (by simpa using hab), beq_false_of_ne (Ne.symm hab)]

end ChainKeys
