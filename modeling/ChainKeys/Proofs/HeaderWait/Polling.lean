import ChainKeys.Proofs.HeaderWait.Progress

/-!
Pushes leave the polls alone.

At every time the polls so far are the first ones of a schedule that only the answers and the
interval determine, and the next one is due on that schedule. A push changes neither, so a wait
that listens and one that does not go through the same polls; they differ only in how far they
come, since a push may end the wait early.
-/

namespace ChainKeys.HeaderWait

variable {target : UInt64} {s : Setting} {st : State}

/-- The same answers, and nothing to listen to. -/
def Setting.alone (s : Setting) : Setting := { s with pushes := none }

/-- Poll `k`, counted from 0, as it goes out if the wait lasts so long. -/
def Setting.callAt (s : Setting) (target : UInt64) (k : Nat) : Call :=
  ⟨s.dueAt (2 * k), lowEnd target, target⟩

/-- A poll goes out one interval after the answer to the one before. -/
lemma Setting.dueAt_next (s : Setting) (k : Nat) :
    s.dueAt (2 * (k + 1)) = s.dueAt (2 * k) + (s.replies k).delay + s.interval := by
  have hodd : s.dueAt (2 * k + 1) = s.dueAt (2 * k) + (s.replies k).delay := by
    rw [Setting.dueAt, if_pos (by omega), Nat.mul_div_cancel_left _ (by decide)]
  rw [show 2 * (k + 1) = 2 * k + 1 + 1 by omega, Setting.dueAt, if_neg (by omega), hodd]

/-- What is known of the polls, whether or not a header is found. -/
structure Scheduled (target : UInt64) (s : Setting) (st : State) : Prop where
  now : st.now ≤ st.poll.due
  due : st.poll.due = s.dueAt st.turns
  calls : st.calls = (List.range st.calls.length).map (s.callAt target)
  past : ∀ c ∈ st.calls, c.time ≤ st.now
  lacks : ∀ j, j + 1 < st.calls.length → Lacks target s j

lemma scheduled_start (target : UInt64) (s : Setting) : Scheduled target s (State.start s) where
  now := Nat.le_refl 0
  due := rfl
  calls := rfl
  past c h := by cases h
  lacks j h := by cases h

lemma calls_stepPush (target : UInt64) (st : State) (t : Nat) (p : Push) :
    (stepPush target st t p).calls = st.calls := by
  unfold stepPush
  cases p with
  | closed => rfl
  | header h =>
    dsimp only
    split_ifs <;> rfl

/-- A push that is due no later than the poll changes nothing about it. -/
lemma Scheduled.stepPush (hs : Scheduled target s st) {t : Nat} (ht : max st.now t ≤ st.poll.due)
    (p : Push) : Scheduled target s (stepPush target st t p) := by
  obtain ⟨hturns, hpoll, -, hnow⟩ := stepPush_fields target st t p
  have hcalls := calls_stepPush target st t p
  refine ⟨?_, ?_, ?_, fun c hc => ?_, fun j hj => hs.lacks j (hcalls ▸ hj)⟩
  · rw [hnow, hpoll]
    exact ht
  · rw [hpoll, hturns, hs.due]
  · rw [hcalls]
    exact hs.calls
  · rw [hnow]
    exact Nat.le_trans (hs.past c (hcalls ▸ hc)) (Nat.le_max_left _ _)

/-- A poll goes out or is answered. An answer that ends the wait leaves the poll as it is. -/
lemma stepPoll_found {h : Header} (hnone : st.found = none)
    (hfound : (stepPoll target s st).found = some h) :
    (stepPoll target s st).poll = st.poll ∧ (stepPoll target s st).turns = st.turns := by
  unfold stepPoll at hfound ⊢
  cases hpoll : st.poll with
  | idle t => simp [hpoll, hnone] at hfound
  | asked t =>
    cases hwanted : wanted? target (s.replies (st.calls.length - 1)).answer with
    | none => simp [hpoll, hwanted, hnone] at hfound
    | some w => simp [hwanted, hpoll, State.turns]

lemma stepPoll_calls (target : UInt64) (s : Setting) (st : State) :
    (stepPoll target s st).calls = st.calls ∨
      st.turns = 2 * st.calls.length ∧ st.answered = st.calls.length ∧
        (stepPoll target s st).calls =
          st.calls ++ [⟨st.poll.due, lowEnd target, target⟩] := by
  unfold stepPoll State.turns State.answered
  cases st.poll with
  | idle t => exact .inr ⟨rfl, rfl, rfl⟩
  | asked t =>
    left
    dsimp only
    split <;> rfl

lemma Scheduled.stepPoll (hs : Scheduled target s st) (hw : Waiting target s st) :
    Scheduled target s (stepPoll target s st) := by
  have hnow := (stepPoll_fields target s st).2.2
  have hpast : ∀ c ∈ st.calls, c.time ≤ st.poll.due := fun c hc =>
    Nat.le_trans (hs.past c hc) hs.now
  have hdue : (HeaderWait.stepPoll target s st).poll.due =
        s.dueAt (HeaderWait.stepPoll target s st).turns ∧
      st.poll.due ≤ (HeaderWait.stepPoll target s st).poll.due := by
    cases hfound : (HeaderWait.stepPoll target s st).found with
    | some h =>
      obtain ⟨hpoll, hturns⟩ := stepPoll_found hw.found hfound
      rw [hpoll, hturns]
      exact ⟨hs.due, Nat.le_refl _⟩
    | none =>
      obtain ⟨hturns, hdue⟩ := hw.turns_stepPoll hs.due hfound
      rw [hdue, hturns, hs.due]
      exact ⟨rfl, s.dueAt_mono (Nat.le_succ _)⟩
  rcases stepPoll_calls target s st with hcalls | ⟨hturns, hanswered, hcalls⟩
  · refine ⟨hnow ▸ hdue.2, hdue.1, ?_, fun c hc => ?_, fun j hj => hs.lacks j (hcalls ▸ hj)⟩
    · rw [hcalls]
      exact hs.calls
    · rw [hnow]
      exact hpast c (hcalls ▸ hc)
  · have hcall : (⟨st.poll.due, lowEnd target, target⟩ : Call) =
        s.callAt target st.calls.length := by
      rw [hs.due, hturns, Setting.callAt]
    refine ⟨hnow ▸ hdue.2, hdue.1, ?_, fun c hc => ?_, fun j hj => hw.lacks j ?_⟩
    · rw [hcalls, hcall, List.length_append, List.length_singleton, List.range_succ,
        List.map_append, List.map_singleton, ← hs.calls]
    · rw [hnow]
      rw [hcalls] at hc
      rcases List.mem_append.mp hc with hc | hc
      · exact hpast c hc
      · exact (List.mem_singleton.mp hc).symm ▸ Nat.le_refl _
    · rw [hcalls, List.length_append, List.length_singleton] at hj
      omega

lemma Scheduled.getElem? (hs : Scheduled target s st) {i : Nat} (h : i < st.calls.length) :
    st.calls[i]? = some (s.callAt target i) := by
  rw [hs.calls, List.getElem?_map, List.getElem?_range h, Option.map_some]

lemma run_scheduled (target : UInt64) (s : Setting) (choices : List Bool) :
    Scheduled target s (run target s choices) := by
  induction choices using List.reverseRecOn with
  | nil => exact scheduled_start target s
  | append_singleton choices c ih =>
    rw [run_concat]
    rcases run_inv target s choices with hw | ⟨h, hset⟩
    · rcases step_cases target hw.found c with ⟨t, p, -, ht, hstep⟩ | ⟨-, hstep⟩
      · rw [hstep]
        exact ih.stepPush ht p
      · rw [hstep]
        exact ih.stepPoll hw
    · rw [hset.step c]
      exact ih

/-! ### With pushes and without -/

/-- Nothing is heard where there is nothing to listen to. -/
lemma heard_alone (target : UInt64) (s : Setting) (choices : List Bool) :
    (run target s.alone choices).heard = 0 := by
  induction choices using List.reverseRecOn with
  | nil => rfl
  | append_singleton choices c ih =>
    rw [run_concat]
    rcases run_inv target s.alone choices with hw | ⟨h, hset⟩
    · rcases step_cases (s := s.alone) target hw.found c with ⟨t, p, hnext, -, -⟩ | ⟨-, hstep⟩
      · exact absurd (listening_of_next? hnext).2 (by simp [Setting.push?, Setting.alone])
      · rw [hstep, (stepPoll_fields target s.alone _).1, ih]
    · rw [hset.step c, ih]

lemma State.turns_le_calls (st : State) : st.turns ≤ 2 * st.calls.length := by
  unfold State.turns
  split <;> omega

lemma callAt_alone (target : UInt64) (s : Setting) (k : Nat) :
    s.alone.callAt target k = s.callAt target k := by
  have hdue : ∀ m, s.alone.dueAt m = s.dueAt m := by
    intro m
    induction m with
    | zero => rfl
    | succ m ih => rw [Setting.dueAt, Setting.dueAt, ih]; rfl
  rw [Setting.callAt, Setting.callAt, hdue]

/-- A wait that does not listen comes as far with its polls as one that does. -/
lemma length_calls_le_alone (target : UInt64) (s : Setting) (choices : List Bool)
    {others : List Bool} (hlen : 2 * (run target s choices).calls.length ≤ others.length) :
    (run target s choices).calls.length ≤ (run target s.alone others).calls.length := by
  have hheard := heard_alone target s others
  rcases run_inv target s.alone others with hw | ⟨h, hset⟩
  · -- every step was a turn of the polls
    obtain ⟨hu, -⟩ :=
      run_unfound (P := fun _ => True) trivial (fun _ _ _ _ _ _ => trivial) hw.found
    have hcount := hu.count
    have hturns := (run target s.alone others).turns_le_calls
    omega
  · rcases hset.first with ⟨k, hk, -⟩ | ⟨k, hk, ⟨_, _, hanswer, hheight, -⟩, -⟩
    · omega
    · -- the answer that ended this wait has the target, so the other has not come past it
      by_contra hlt
      have hlacks := (run_scheduled target s choices).lacks k (by omega)
      exact hlacks _ hanswer h (by simp) hheight

/-- **Pushes leave the polls alone**: the polls of a wait are the first ones of the wait with the
same answers that does not listen, at the same times and from the same height up to the same. No
poll is missing that this one has sent before the time the wait has come to. And every poll goes
out one interval after the answer to the one before. -/
theorem polls_undisturbed (target : UInt64) (s : Setting) (choices : List Bool) :
    let st := run target s choices
    (∃ n, ∀ others : List Bool, n ≤ others.length →
      st.calls <+: (run target s.alone others).calls ∧
        ∀ c ∈ (run target s.alone others).calls.drop st.calls.length, st.now ≤ c.time) ∧
    (∀ c ∈ st.calls, c.time ≤ st.now ∧ c.low = lowEnd target ∧ c.high = target) ∧
    ∀ i (h : i + 1 < st.calls.length),
      st.calls[i + 1].time = st.calls[i].time + (s.replies i).delay + s.interval := by
  intro st
  have hs : Scheduled target s st := run_scheduled target s choices
  have hcall : ∀ i (h : i < st.calls.length), st.calls[i] = s.callAt target i := fun i h =>
    Option.some.inj ((List.getElem?_eq_getElem h).symm.trans (hs.getElem? h))
  refine ⟨⟨2 * st.calls.length, fun others hlen => ?_⟩, fun c hc => ⟨hs.past c hc, ?_⟩,
    fun i h => ?_⟩
  · have hle := length_calls_le_alone target s choices hlen
    have halone : ∀ {i}, i < (run target s.alone others).calls.length →
        (run target s.alone others).calls[i]? = some (s.callAt target i) := fun h =>
      callAt_alone target s _ ▸ (run_scheduled target s.alone others).getElem? h
    constructor
    · rw [List.prefix_iff_getElem?]
      intro i h
      rw [hcall i h]
      exact halone (Nat.lt_of_lt_of_le h hle)
    · intro c hc
      obtain ⟨i, hi, rfl⟩ := List.mem_drop_iff_getElem.mp hc
      have hlate := s.dueAt_mono (Nat.le_trans st.turns_le_calls
        (Nat.mul_le_mul_left 2 (Nat.le_add_right st.calls.length i)))
      rw [← hs.due] at hlate
      have hsent : (run target s.alone others).calls[st.calls.length + i] = s.callAt target _ :=
        Option.some.inj ((List.getElem?_eq_getElem _).symm.trans (halone (by omega)))
      rw [hsent]
      exact Nat.le_trans hs.now hlate
  · rw [hs.calls] at hc
    obtain ⟨k, -, rfl⟩ := List.mem_map.mp hc
    exact ⟨rfl, rfl⟩
  · rw [hcall (i + 1) h, hcall i (by omega)]
    exact s.dueAt_next i

end ChainKeys.HeaderWait
