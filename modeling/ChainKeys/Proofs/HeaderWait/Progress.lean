import ChainKeys.Proofs.HeaderWait.Safety

/-!
A header that is delivered is found.

Pushes do not touch the polls, so the `m`-th thing that a poll does, to go out or to be
answered, falls on a time that only the answers and the interval determine. While nothing is
found every step either is such a thing or takes up a push, and both are bounded: a push that is
due later does not come before a poll, nor a poll before a push. Assumed of the world is only
that it does not do infinitely many things in a finite time.
-/

namespace ChainKeys.HeaderWait

variable {target : UInt64} {s : Setting} {st : State}

/-! ### Steps while nothing is found -/

/-- What happens next: a push that is due no later than the poll, or the poll, due no later than
any push. -/
lemma step_cases (target : UInt64) (hfound : st.found = none) (pushFirst : Bool) :
    (∃ t p, st.next? s = some (t, p) ∧ max st.now t ≤ st.poll.due ∧
      step target s st pushFirst = stepPush target st t p) ∨
    ((∀ t p, st.next? s = some (t, p) → st.poll.due ≤ max st.now t) ∧
      step target s st pushFirst = stepPoll target s st) := by
  unfold step
  rw [hfound]
  simp only [Option.isSome_none, Bool.false_eq_true, if_false]
  cases hnext : st.next? s with
  | none => exact .inr ⟨fun t p h => by simp at h, rfl⟩
  | some e =>
    obtain ⟨t, p⟩ := e
    dsimp only
    split_ifs with hdue
    · exact .inl ⟨t, p, rfl, by omega, rfl⟩
    · refine .inr ⟨fun t' p' h => ?_, rfl⟩
      obtain ⟨rfl, -⟩ := Prod.mk.inj (Option.some.inj h)
      omega

/-! ### The times of the polls -/

/-- How often a poll went out or was answered. -/
def State.turns (st : State) : Nat :=
  match st.poll with
  | .idle _ => 2 * st.calls.length
  | .asked _ => 2 * st.calls.length - 1

/-- When a poll goes out or is answered for the `m`-th time, counted from 0. -/
def Setting.dueAt (s : Setting) : Nat → Nat
  | 0 => 0
  | m + 1 => s.dueAt m + if m % 2 = 0 then (s.replies (m / 2)).delay else s.interval

lemma Setting.dueAt_mono (s : Setting) {m n : Nat} (h : m ≤ n) : s.dueAt m ≤ s.dueAt n := by
  induction h with
  | refl => exact Nat.le_refl _
  | step _ ih => exact Nat.le_trans ih (Nat.le_add_right _ _)

/-- A poll that finds nothing has had one more turn, and its next one is due on schedule. -/
lemma Waiting.turns_stepPoll (hw : Waiting target s st) (hdue : st.poll.due = s.dueAt st.turns)
    (h : (HeaderWait.stepPoll target s st).found = none) :
    (HeaderWait.stepPoll target s st).turns = st.turns + 1 ∧
      (HeaderWait.stepPoll target s st).poll.due = s.dueAt (st.turns + 1) := by
  unfold HeaderWait.stepPoll at h ⊢
  cases hpoll : st.poll with
  | idle t =>
    have hturns : st.turns = 2 * st.calls.length := by rw [State.turns, hpoll]
    have ht : t = s.dueAt st.turns := by rw [← hdue, hpoll]; rfl
    constructor
    · simp only [State.turns, List.length_append, List.length_singleton, hpoll]
      omega
    · rw [Setting.dueAt, ← ht, hturns, if_pos (by omega),
        Nat.mul_div_cancel_left _ (by decide : 0 < 2)]
      rfl
  | asked t =>
    have hsent := hw.sent t hpoll
    have hturns : st.turns = 2 * st.calls.length - 1 := by rw [State.turns, hpoll]
    have ht : t = s.dueAt st.turns := by rw [← hdue, hpoll]; rfl
    simp only [hpoll] at h ⊢
    cases hwanted : wanted? target (s.replies (st.calls.length - 1)).answer with
    | some w => simp [hwanted] at h
    | none =>
      constructor
      · simp only [State.turns, hpoll]
        omega
      · rw [Setting.dueAt, ← ht, hturns, if_neg (by omega)]
        rfl

lemma stepPush_fields (target : UInt64) (st : State) (t : Nat) (p : Push) :
    (stepPush target st t p).turns = st.turns ∧
      (stepPush target st t p).poll = st.poll ∧
      (stepPush target st t p).heard = st.heard + 1 ∧
      (stepPush target st t p).now = max st.now t := by
  unfold stepPush
  cases p with
  | closed => exact ⟨rfl, rfl, rfl, rfl⟩
  | header h =>
    dsimp only
    split_ifs <;> exact ⟨rfl, rfl, rfl, rfl⟩

lemma stepPoll_fields (target : UInt64) (s : Setting) (st : State) :
    (stepPoll target s st).heard = st.heard ∧
      (stepPoll target s st).listening = st.listening ∧
      (stepPoll target s st).now = st.poll.due := by
  unfold stepPoll
  cases st.poll with
  | idle t => exact ⟨rfl, rfl, rfl⟩
  | asked t =>
    dsimp only
    split <;> exact ⟨rfl, rfl, rfl⟩

/-- A wait that has found nothing in `n` steps: polls are on schedule, and every step was a turn
of theirs or a push. -/
structure Unfound (target : UInt64) (s : Setting) (n : Nat) (st : State) : Prop
    extends Waiting target s st where
  due : st.poll.due = s.dueAt st.turns
  count : st.turns + st.heard = n

lemma Unfound.step {n : Nat} (hu : Unfound target s n st) (c : Bool)
    (hw : Waiting target s (step target s st c)) :
    Unfound target s (n + 1) (HeaderWait.step target s st c) := by
  have hcount := hu.count
  rcases step_cases target hu.found c with ⟨t, p, -, -, hstep⟩ | ⟨-, hstep⟩
  · obtain ⟨hturns, hpoll, hheard, -⟩ := stepPush_fields target st t p
    rw [hstep] at hw ⊢
    exact ⟨hw, by rw [hpoll, hturns, hu.due], by omega⟩
  · rw [hstep] at hw ⊢
    obtain ⟨hturns, hdue⟩ := hu.toWaiting.turns_stepPoll hu.due hw.found
    have hheard := (stepPoll_fields target s st).1
    exact ⟨hw, by rw [hdue, hturns], by omega⟩

/-- What the start has, and every step keeps that finds nothing, every run has that has found
nothing. -/
lemma run_unfound {P : State → Prop} (start : P (State.start s))
    (next : ∀ n st c, Unfound target s n st → P st → (step target s st c).found = none →
      P (step target s st c))
    {choices : List Bool} (h : (run target s choices).found = none) :
    Unfound target s choices.length (run target s choices) ∧ P (run target s choices) := by
  induction choices using List.reverseRecOn with
  | nil => exact ⟨⟨waiting_start target s, rfl, rfl⟩, start⟩
  | append_singleton choices c ih =>
    rw [run_concat] at h ⊢
    rw [List.length_append, List.length_singleton]
    rcases run_inv target s choices with hw | ⟨h', hs⟩
    · obtain ⟨hu, hP⟩ := ih hw.found
      rcases hw.step c with hw' | ⟨h', hs⟩
      · exact ⟨hu.step c hw', next _ _ c hu hP h⟩
      · exact absurd (hs.found.symm.trans h) (by simp)
    · rw [hs.step c] at h
      exact absurd (hs.found.symm.trans h) (by simp)

/-! ### What is delivered -/

/-- Some push or some answer has this header. -/
def Setting.Delivers (s : Setting) (h : Header) : Prop :=
  (∃ k, s.header? k = some h) ∨ ∃ k headers, (s.replies k).answer = .ok headers ∧ h ∈ headers

lemma delivers_of_found {choices : List Bool} {h : Header}
    (hfound : (run target s choices).found = some h) : h.height = target ∧ s.Delivers h := by
  rcases run_inv target s choices with hw | ⟨h', hs⟩
  · exact absurd (hw.found.symm.trans hfound) (by simp)
  · obtain rfl : h' = h := Option.some.inj (hs.found.symm.trans hfound)
    rcases hs.first with ⟨k, -, hheader, hheight, -⟩ | ⟨k, -, ⟨_, _, hanswer, hheight, -⟩, -⟩
    · exact ⟨hheight, .inl ⟨k, hheader⟩⟩
    · exact ⟨hheight, .inr ⟨k, _, hanswer, by simp⟩⟩

/-- The world comes up with the target: an answer has it, and only so many pushes come before
any time; or it is pushed after nothing but older headers, and only so many polls are done
before any time. -/
inductive Setting.Brings (s : Setting) (target : UInt64) : Prop
  | polled (k : Nat) (headers : List Header) (answer : (s.replies k).answer = .ok headers)
    (has : ∃ h ∈ headers, h.height = target)
    (pushes : ∀ time, ∃ j, ∀ t p, s.push? j = some (t, p) → time < t)
  | pushed (k : Nat) (h : Header) (header : s.header? k = some h) (height : h.height = target)
    (older : ∀ j < k, Older target s j) (polls : ∀ time, ∃ m, time < s.dueAt m)

/-- While nothing is found, the answer that has the target is still to come. -/
lemma Waiting.turns_le {k : Nat} (hw : Waiting target s st) (hk : ¬Lacks target s k) :
    st.turns ≤ 2 * k + 1 := by
  have hanswered : st.answered ≤ k := by
    by_contra hlt
    exact hk (hw.lacks k (Nat.lt_of_not_le hlt))
  unfold State.answered at hanswered
  unfold State.turns
  cases hpoll : st.poll with
  | idle t =>
    simp only [hpoll] at hanswered ⊢
    omega
  | asked t =>
    have := hw.sent t hpoll
    simp only [hpoll] at hanswered ⊢
    omega

lemma listening_of_next? {e : Nat × Push} (h : st.next? s = some e) :
    st.listening = true ∧ s.push? st.heard = some e := by
  unfold State.next? at h
  split_ifs at h with hlisten
  exact ⟨hlisten, h⟩

/-- No push is heard before the answer that has the target if it is due after it. -/
lemma length_of_polled {k j : Nat} (hk : ¬Lacks target s k)
    (hj : ∀ t p, s.push? j = some (t, p) → s.dueAt (2 * k + 1) < t) {choices : List Bool}
    (h : (run target s choices).found = none) : choices.length ≤ 2 * k + 1 + j := by
  obtain ⟨hu, hheard⟩ := run_unfound (P := fun st => st.heard ≤ j) (Nat.zero_le j) (by
    intro n st c hu hle _
    rcases step_cases target hu.found c with ⟨t, p, hnext, hdue, hstep⟩ | ⟨-, hstep⟩
    · rw [hstep, (stepPush_fields target st t p).2.2.1]
      by_contra hlast
      obtain rfl : st.heard = j := by omega
      have hlate := hj t p (listening_of_next? hnext).2
      have hturns := s.dueAt_mono (hu.turns_le hk)
      rw [hu.due] at hdue
      omega
    · rw [hstep, (stepPoll_fields target s st).1]
      exact hle) h
  have hturns := hu.turns_le hk
  have hcount := hu.count
  omega

lemma push?_of_header? {k : Nat} {h : Header} (hheader : s.header? k = some h) :
    ∃ t, s.push? k = some (t, .header h) := by
  unfold Setting.header? at hheader
  split at hheader
  · rename_i t h' hpush
    obtain rfl := Option.some.inj hheader
    exact ⟨t, hpush⟩
  · simp at hheader

/-- The first pushes are all due by some time. -/
lemma exists_last_time (s : Setting) (k : Nat) :
    ∃ time, ∀ j ≤ k, ∀ t p, s.push? j = some (t, p) → t ≤ time := by
  induction k with
  | zero =>
    refine ⟨(s.push? 0).elim 0 Prod.fst, fun j hj t p hp => ?_⟩
    rw [← Nat.le_zero.mp hj, hp]
    exact Nat.le_refl t
  | succ k ih =>
    obtain ⟨time, ih⟩ := ih
    refine ⟨max time ((s.push? (k + 1)).elim 0 Prod.fst), fun j hj t p hp => ?_⟩
    rcases Nat.lt_or_eq_of_le hj with hlt | rfl
    · exact Nat.le_trans (ih j (Nat.le_of_lt_succ hlt) t p hp) (Nat.le_max_left _ _)
    · rw [hp]
      exact Nat.le_max_right _ _

/-- On the way to push `k`: no more than `m` turns of the polls, by a time when all pushes up to
`k` are due. -/
structure Approaching (s : Setting) (time m k : Nat) (st : State) : Prop where
  now : st.now ≤ time
  turns : st.turns ≤ m
  heard : st.heard ≤ k
  listening : st.listening = true

section

variable {time m k : Nat} {h : Header}

/-- What is pushed next on the way to the target's push. -/
lemma Approaching.next? (ha : Approaching s time m k st) (hheader : s.header? k = some h)
    (holder : ∀ j < k, Older target s j) :
    ∃ t h', st.next? s = some (t, .header h') ∧
      (st.heard < k ∧ h'.height < target ∨ st.heard = k ∧ h' = h) := by
  have hnext : st.next? s = s.push? st.heard := by rw [State.next?, if_pos ha.listening]
  rcases Nat.lt_or_eq_of_le ha.heard with hlt | heq
  · obtain ⟨h', hh', hbelow⟩ := holder _ hlt
    obtain ⟨t, hpush⟩ := push?_of_header? hh'
    exact ⟨t, h', hnext.trans hpush, .inl ⟨hlt, hbelow⟩⟩
  · obtain ⟨t, hpush⟩ := push?_of_header? hheader
    exact ⟨t, h, hnext.trans (heq ▸ hpush), .inr ⟨heq, rfl⟩⟩

/-- Older headers keep the wait on the way, and no poll comes in between that is due too late. -/
lemma Approaching.step {n : Nat} (ha : Approaching s time m k st)
    (hu : Unfound target s n st) (hheader : s.header? k = some h) (hheight : h.height = target)
    (holder : ∀ j < k, Older target s j)
    (htime : ∀ j ≤ k, ∀ t p, s.push? j = some (t, p) → t ≤ time) (hm : time < s.dueAt m)
    (c : Bool) (hnone : (step target s st c).found = none) :
    Approaching s time m k (HeaderWait.step target s st c) := by
  obtain ⟨t, h', hnext, hwhich⟩ := ha.next? hheader holder
  have ht := htime _ ha.heard t _ (listening_of_next? hnext).2
  have hnow := ha.now
  rcases step_cases target hu.found c with ⟨t', p, hnext', -, hstep⟩ | ⟨hpoll, hstep⟩
  · obtain ⟨rfl, rfl⟩ := Prod.mk.inj (Option.some.inj (hnext'.symm.trans hnext))
    obtain ⟨hturns, -, hheard, hnow'⟩ :=
      stepPush_fields target st t' (.header h')
    rw [hstep] at hnone ⊢
    rcases hwhich with ⟨hlt, hbelow⟩ | ⟨-, rfl⟩
    · have hne : h'.height ≠ target := UInt64.ne_of_lt hbelow
      have hnot : ¬target < h'.height := UInt64.lt_asymm hbelow
      exact ⟨by omega, hturns ▸ ha.turns, by omega,
        by simpa [stepPush, hne, hnot] using ha.listening⟩
    · -- the target itself ends the wait
      simp [stepPush, hheight] at hnone
  · have hdue := hpoll t _ hnext
    have hbefore : st.turns < m := by
      by_contra hge
      have := s.dueAt_mono (Nat.le_of_not_lt hge)
      rw [hu.due] at hdue
      omega
    rw [hstep] at hnone ⊢
    obtain ⟨hheard, hlisten, hnow'⟩ := stepPoll_fields target s st
    have hturns := (hu.turns_stepPoll hu.due hnone).1
    exact ⟨by omega, by omega, hheard ▸ ha.heard, hlisten ▸ ha.listening⟩

lemma length_of_pushed (hheader : s.header? k = some h) (hheight : h.height = target)
    (holder : ∀ j < k, Older target s j)
    (htime : ∀ j ≤ k, ∀ t p, s.push? j = some (t, p) → t ≤ time) (hm : time < s.dueAt m)
    {choices : List Bool} (hnone : (run target s choices).found = none) :
    choices.length ≤ m + k := by
  have hstart : Approaching s time m k (State.start s) := by
    obtain ⟨t, hpush⟩ := push?_of_header? hheader
    refine ⟨Nat.zero_le _, Nat.zero_le _, Nat.zero_le _, ?_⟩
    unfold Setting.push? at hpush
    cases hs : s.pushes with
    | none => simp [hs] at hpush
    | some f => simp [State.start, hs]
  obtain ⟨hu, ha⟩ := run_unfound hstart
    (fun _ _ c hu ha hnone => ha.step hu hheader hheight holder htime hm c hnone) hnone
  have hcount := hu.count
  have hturns := ha.turns
  have hheard := ha.heard
  omega

end

/-- **Progress**: where the world comes up with the target, every run that is long enough has
found it. -/
theorem exists_found_of_brings (hs : s.Brings target) :
    ∃ n, ∀ choices : List Bool, n ≤ choices.length →
      ∃ h, (run target s choices).found = some h := by
  suffices h : ∃ n, ∀ choices : List Bool, (run target s choices).found = none →
      choices.length ≤ n by
    obtain ⟨n, hn⟩ := h
    refine ⟨n + 1, fun choices hlen => ?_⟩
    cases hfound : (run target s choices).found with
    | some h => exact ⟨h, rfl⟩
    | none =>
      have := hn choices hfound
      omega
  cases hs with
  | polled k headers answer has pushes =>
    obtain ⟨h, hmem, hheight⟩ := has
    have hk : ¬Lacks target s k := fun hlacks => hlacks headers answer h hmem hheight
    obtain ⟨j, hj⟩ := pushes (s.dueAt (2 * k + 1))
    exact ⟨_, fun choices hnone => length_of_polled hk hj hnone⟩
  | pushed k h header height older polls =>
    obtain ⟨time, htime⟩ := exists_last_time s k
    obtain ⟨m, hm⟩ := polls time
    exact ⟨_, fun choices hnone => length_of_pushed header height older htime hm hnone⟩

end ChainKeys.HeaderWait
