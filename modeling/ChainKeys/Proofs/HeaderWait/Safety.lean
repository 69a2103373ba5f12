import ChainKeys.HeaderWait
import Mathlib.Data.List.Induction
import Mathlib.Tactic.Lemma

/-!
Which header a wait may end with.

While nothing is found, what was heard so far is older than the target, but for a last push that
ended the listening, and no answer so far had the target. So when something is found it is the
first of its kind, on whichever of the two sides it came.
-/

namespace ChainKeys.HeaderWait

variable {target : UInt64} {s : Setting} {st : State}

/-- The header pushed at place `k`, if a header is pushed there. -/
def Setting.header? (s : Setting) (k : Nat) : Option Header :=
  match s.push? k with
  | some (_, .header h) => some h
  | _ => none

/-- A header below the target is pushed at place `k`. -/
def Older (target : UInt64) (s : Setting) (k : Nat) : Prop :=
  ∃ h, s.header? k = some h ∧ h.height < target

/-- The answer to poll `k` does not have the target. -/
def Lacks (target : UInt64) (s : Setting) (k : Nat) : Prop :=
  ∀ headers, (s.replies k).answer = .ok headers → ∀ h ∈ headers, h.height ≠ target

/-- `h` is the last of so many pushes, it has the target height, and all before are older. -/
def FirstPushed (target : UInt64) (s : Setting) (pushes : Nat) (h : Header) : Prop :=
  ∃ k, k + 1 = pushes ∧ s.header? k = some h ∧ h.height = target ∧ ∀ j < k, Older target s j

/-- `h` is the first header of the target height in the last of so many answers, and no answer
before has one. -/
def FirstAnswered (target : UInt64) (s : Setting) (polls : Nat) (h : Header) : Prop :=
  ∃ k, k + 1 = polls ∧
    (∃ before after, (s.replies k).answer = .ok (before ++ h :: after) ∧ h.height = target ∧
      ∀ h' ∈ before, h'.height ≠ target) ∧
    ∀ j < k, Lacks target s j

/-- How many polls were answered. -/
def State.answered (st : State) : Nat :=
  match st.poll with
  | .idle _ => st.calls.length
  | .asked _ => st.calls.length - 1

/-! ### The wait goes on -/

/-- What is known while nothing is found. -/
structure Waiting (target : UInt64) (s : Setting) (st : State) : Prop where
  found : st.found = none
  older : ∀ j, j + 1 < st.heard → Older target s j
  last : st.listening = true → ∀ j < st.heard, Older target s j
  lacks : ∀ j < st.answered, Lacks target s j
  sent : ∀ t, st.poll = .asked t → 0 < st.calls.length

/-- What is known once `h` is found. -/
structure Settled (target : UInt64) (s : Setting) (st : State) (h : Header) : Prop where
  found : st.found = some h
  older : ∀ j, j + 1 < st.heard → Older target s j
  first : FirstPushed target s st.heard h ∨ FirstAnswered target s st.calls.length h

lemma waiting_start (target : UInt64) (s : Setting) : Waiting target s (State.start s) where
  found := rfl
  older j h := by cases h
  last _ j h := by cases h
  lacks j h := by cases h
  sent t h := by cases h

lemma wanted?_eq_none {answer : Except TransportError (List Header)} :
    wanted? target answer = none ↔
      ∀ headers, answer = .ok headers → ∀ h ∈ headers, h.height ≠ target := by
  cases answer with
  | error e => simp [wanted?]
  | ok headers => simp [wanted?]

lemma wanted?_eq_some {answer : Except TransportError (List Header)} {h : Header}
    (hw : wanted? target answer = some h) :
    ∃ before after, answer = .ok (before ++ h :: after) ∧ h.height = target ∧
      ∀ h' ∈ before, h'.height ≠ target := by
  cases answer with
  | error e => cases hw
  | ok headers =>
    obtain ⟨hheight, before, after, rfl, hbefore⟩ := List.find?_eq_some_iff_append.mp hw
    exact ⟨before, after, rfl, by simpa using hheight, by simpa using hbefore⟩

/-- A poll goes on unless its answer has the target. -/
lemma Waiting.stepPoll (hw : Waiting target s st) :
    Waiting target s (stepPoll target s st) ∨ ∃ h, Settled target s (stepPoll target s st) h := by
  unfold HeaderWait.stepPoll
  cases hpoll : st.poll with
  | idle t =>
    have hanswered : st.answered = st.calls.length := by rw [State.answered, hpoll]
    refine .inl ⟨hw.found, hw.older, hw.last, fun j hj => hw.lacks j ?_, fun _ _ => by simp⟩
    rw [hanswered]
    simpa [State.answered] using hj
  | asked t =>
    have hsent := hw.sent t hpoll
    have hanswered : st.answered = st.calls.length - 1 := by rw [State.answered, hpoll]
    dsimp only
    cases hwanted : wanted? target (s.replies (st.calls.length - 1)).answer with
    | none =>
      refine .inl ⟨hw.found, hw.older, hw.last, fun j hj => ?_, fun _ h => by cases h⟩
      replace hj : j < st.calls.length := hj
      rcases Nat.lt_or_ge j st.answered with hlt | hge
      · exact hw.lacks j hlt
      · have hlast : j = st.calls.length - 1 := by omega
        exact hlast ▸ wanted?_eq_none.mp hwanted
    | some h =>
      refine .inr ⟨h, rfl, hw.older, .inr ⟨st.calls.length - 1, Nat.sub_add_cancel hsent,
        wanted?_eq_some hwanted, fun j hj => hw.lacks j (hanswered ▸ hj)⟩⟩

/-- A push is heard unless it has the target, and listening goes on only if it is older. -/
lemma Waiting.stepPush (hw : Waiting target s st) (hlisten : st.listening = true) {t : Nat}
    {p : Push} (hpush : s.push? st.heard = some (t, p)) :
    Waiting target s (stepPush target st t p) ∨
      ∃ h, Settled target s (stepPush target st t p) h := by
  have hbefore : ∀ j, j + 1 < st.heard + 1 → Older target s j := fun j hj =>
    hw.last hlisten j (by omega)
  unfold HeaderWait.stepPush
  cases p with
  | closed => exact .inl ⟨hw.found, hbefore, (nomatch ·), hw.lacks, hw.sent⟩
  | header h =>
    have hheader : s.header? st.heard = some h := by rw [Setting.header?, hpush]
    dsimp only
    split_ifs with heq hbeyond
    · exact .inr ⟨h, rfl, hbefore, .inl ⟨st.heard, rfl, hheader, heq, hw.last hlisten⟩⟩
    · exact .inl ⟨hw.found, hbefore, (nomatch ·), hw.lacks, hw.sent⟩
    · have holder : Older target s st.heard := by
        refine ⟨h, hheader, ?_⟩
        rw [UInt64.lt_iff_toNat_lt] at hbeyond ⊢
        rw [← UInt64.toNat_inj] at heq
        omega
      refine .inl ⟨hw.found, hbefore, fun _ j hj => ?_, hw.lacks, hw.sent⟩
      rcases Nat.lt_succ_iff_lt_or_eq.mp hj with hlt | rfl
      · exact hw.last hlisten j hlt
      · exact holder

lemma Waiting.step (hw : Waiting target s st) (pushFirst : Bool) :
    Waiting target s (step target s st pushFirst) ∨
      ∃ h, Settled target s (step target s st pushFirst) h := by
  unfold HeaderWait.step
  rw [hw.found]
  simp only [Option.isSome_none, Bool.false_eq_true, if_false]
  cases hnext : st.next? s with
  | none => exact hw.stepPoll
  | some e =>
    obtain ⟨t, p⟩ := e
    dsimp only
    split_ifs
    · have hlisten : st.listening = true := by
        by_contra hnot
        simp [State.next?, hnot] at hnext
      refine hw.stepPush hlisten ?_
      simpa [State.next?, hlisten] using hnext
    · exact hw.stepPoll

/-- What is found stays found. -/
lemma Settled.step {h : Header} (hs : Settled target s st h) (pushFirst : Bool) :
    HeaderWait.step target s st pushFirst = st := by
  rw [HeaderWait.step, hs.found]
  rfl

lemma run_concat (target : UInt64) (s : Setting) (choices : List Bool) (c : Bool) :
    run target s (choices ++ [c]) = step target s (run target s choices) c := by
  simp [run]

lemma run_inv (target : UInt64) (s : Setting) (choices : List Bool) :
    Waiting target s (run target s choices) ∨ ∃ h, Settled target s (run target s choices) h := by
  induction choices using List.reverseRecOn with
  | nil => exact .inl (waiting_start target s)
  | append_singleton choices c ih =>
    rw [run_concat]
    rcases ih with hw | ⟨h, hs⟩
    · exact hw.step c
    · rw [hs.step c]
      exact .inr ⟨h, hs⟩

/-! ### What ends the wait -/

lemma FirstPushed.height {n : Nat} {h : Header} (hp : FirstPushed target s n h) :
    h.height = target := by
  obtain ⟨-, -, -, hheight, -⟩ := hp
  exact hheight

lemma FirstAnswered.height {n : Nat} {h : Header} (ha : FirstAnswered target s n h) :
    h.height = target := by
  obtain ⟨-, -, ⟨-, -, -, hheight, -⟩, -⟩ := ha
  exact hheight

/-- Nothing is heard after a push that is not older than the target. -/
lemma heard_of_not_older (choices : List Bool) {j : Nat} (hj : j < (run target s choices).heard)
    (hnot : ¬Older target s j) : (run target s choices).heard = j + 1 := by
  have holder : ∀ j, j + 1 < (run target s choices).heard → Older target s j := by
    rcases run_inv target s choices with hw | ⟨h, hs⟩
    · exact hw.older
    · exact hs.older
  by_contra hne
  exact hnot (holder j (by omega))

/-- **Safety of the race**: in every run, a header that is found has the target height, and it
either was pushed after nothing but older headers or is the first of its height in the first
answer that has one. Once a header past the target or the end of the pushes is heard nothing
more is, and only an answer can end the wait. What lacks the target on either side never ends
it. -/
theorem found_safe (target : UInt64) (s : Setting) (choices : List Bool) :
    let st := run target s choices
    (∀ h, st.found = some h → h.height = target ∧
      (FirstPushed target s st.heard h ∨ FirstAnswered target s st.calls.length h)) ∧
    (∀ j < st.heard, (∀ h', s.header? j = some h' → target < h'.height) →
      st.heard = j + 1 ∧ ∀ h, st.found = some h → FirstAnswered target s st.calls.length h) ∧
    ((∀ j < st.heard, ∀ h, s.header? j = some h → h.height ≠ target) →
      (∀ j < st.calls.length, Lacks target s j) → st.found = none) := by
  intro st
  have hfirst : ∀ h, st.found = some h → h.height = target ∧
      (FirstPushed target s st.heard h ∨ FirstAnswered target s st.calls.length h) := by
    intro h hfound
    rcases run_inv target s choices with hw | ⟨h', hs⟩
    · exact absurd (hw.found.symm.trans hfound) (by simp)
    · obtain rfl : h' = h := Option.some.inj (hs.found.symm.trans hfound)
      exact ⟨hs.first.elim FirstPushed.height FirstAnswered.height, hs.first⟩
  refine ⟨hfirst, fun j hj hbeyond => ?_, fun hpushes hanswers => ?_⟩
  · have hnot : ¬Older target s j := by
      rintro ⟨h', hh', hlt⟩
      exact UInt64.lt_asymm hlt (hbeyond h' hh')
    have hheard := heard_of_not_older choices hj hnot
    refine ⟨hheard, fun h hfound => ?_⟩
    rcases (hfirst h hfound).2 with ⟨k, hk, hheader, hheight, -⟩ | hanswered
    · -- The last push is the one past the target, so it cannot have been taken.
      obtain rfl : k = j := Nat.succ.inj (hk.trans hheard)
      exact absurd (hheight ▸ hbeyond h hheader) (UInt64.lt_irrefl target)
    · exact hanswered
  · by_contra hsome
    obtain ⟨h, hfound⟩ := Option.ne_none_iff_exists'.mp hsome
    rcases (hfirst h hfound).2 with ⟨k, hk, hheader, hheight, -⟩ | ⟨k, hk, hanswered, -⟩
    · exact hpushes k (hk ▸ Nat.lt_succ_self k) h hheader hheight
    · obtain ⟨before, after, hanswer, hheight, -⟩ := hanswered
      exact hanswers k (hk ▸ Nat.lt_succ_self k) _ hanswer h (by simp) hheight

example :
    let answers := [.error (.decode ""), .ok [⟨10, [1]⟩]]
    let pushes := [.header ⟨11, []⟩, .header ⟨10, [2]⟩]
    (follow 10 (scripted answers (some pushes)) 2).found = some ⟨10, [1]⟩ := by
  rfl

end ChainKeys.HeaderWait
