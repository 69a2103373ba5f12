import ChainKeys.Node

/-!
Waiting for the header of one height, from two sources at once.

Polls ask for the headers up to the wanted one and are answered after some delay; a poll
follows one interval after the answer to the one before. Meanwhile headers may be pushed. The
wait ends with the wanted header, from whichever source has it first. A pushed header past the
wanted one, or the end of the pushes, ends only the listening, and nothing that is pushed
touches the polls.

Time is a number. Where a push and a poll are due at the same time either may go first, and a
run says which.
-/

namespace ChainKeys.HeaderWait

inductive Push
  | header (header : Header)
  | closed
  deriving DecidableEq, Repr

/-- The answer to a poll, and how long it takes to come. -/
structure Reply where
  delay : Nat
  answer : Except TransportError (List Header)

/-- What will happen around a wait. -/
structure Setting where
  interval : Nat
  replies : Nat → Reply
  /-- What is pushed and when, in order, for as long as something is; `none` when there is
  nothing to listen to. -/
  pushes : Option (Nat → Option (Nat × Push))

def Setting.push? (s : Setting) (k : Nat) : Option (Nat × Push) := s.pushes.bind fun f => f k

/-- A poll that went out: when, and from which height up to which. -/
structure Call where
  time : Nat
  low : UInt64
  high : UInt64
  deriving DecidableEq, Repr

inductive Poll
  /-- The next poll goes out at this time. -/
  | idle (due : Nat)
  /-- The last poll is answered at this time. -/
  | asked (due : Nat)
  deriving DecidableEq, Repr

def Poll.due : Poll → Nat
  | idle t | asked t => t

structure State where
  now : Nat
  poll : Poll
  /-- The polls so far. -/
  calls : List Call
  /-- How many pushes were taken up. -/
  heard : Nat
  listening : Bool
  found : Option Header

namespace State

def start (s : Setting) : State := ⟨0, .idle 0, [], 0, s.pushes.isSome, none⟩

/-- What is pushed next, if anyone listens. -/
def next? (s : Setting) (st : State) : Option (Nat × Push) :=
  if st.listening then s.push? st.heard else none

end State

/-- The height below the target, where there is one. -/
def lowEnd (target : UInt64) : UInt64 := if target = 0 then 0 else target - 1

def wanted? (target : UInt64) : Except TransportError (List Header) → Option Header
  | .ok headers => headers.find? fun h => h.height = target
  | .error _ => none

/-- Sends the next poll, or takes up the answer to the last one. -/
def stepPoll (target : UInt64) (s : Setting) (st : State) : State :=
  match st.poll with
  | .idle t =>
    let reply := s.replies st.calls.length
    { st with
      now := t
      poll := .asked (t + reply.delay)
      calls := st.calls ++ [⟨t, lowEnd target, target⟩] }
  | .asked t =>
    let reply := s.replies (st.calls.length - 1)
    match wanted? target reply.answer with
    | some h => { st with now := t, found := some h }
    | none => { st with now := t, poll := .idle (t + s.interval) }

/-- Takes up what is pushed at `time`. -/
def stepPush (target : UInt64) (st : State) (time : Nat) (p : Push) : State :=
  let st := { st with now := max st.now time, heard := st.heard + 1 }
  match p with
  | .header h =>
    if h.height = target then { st with found := some h }
    else if target < h.height then { st with listening := false }
    else st
  | .closed => { st with listening := false }

/-- What happens next. A push that is due together with the poll goes first when `pushFirst`. -/
def step (target : UInt64) (s : Setting) (st : State) (pushFirst : Bool) : State :=
  if st.found.isSome then st
  else
    match st.next? s with
    | some (t, p) =>
      if max st.now t < st.poll.due ∨ (max st.now t = st.poll.due ∧ pushFirst) then
        stepPush target st t p
      else stepPoll target s st
    | none => stepPoll target s st

/-- The state after as many steps as there are choices. -/
def run (target : UInt64) (s : Setting) (choices : List Bool) : State :=
  choices.foldl (step target s) (State.start s)

/-! ### Following a script -/

/-- A setting in which no more than so many things are pushed. -/
structure Script extends Setting where
  pushed : Nat

instance : Coe Script Setting := ⟨Script.toSetting⟩

/-- A node that answers at once, with the given answers and then with no headers, and pushes
what it pushes at the start. -/
def scripted (answers : List (Except TransportError (List Header))) (pushes : Option (List Push)) :
    Script where
  interval := 1
  replies := fun k => ⟨0, answers.getD k (.ok [])⟩
  pushes := pushes.map fun ps k => ps[k]?.map fun p => (0, p)
  pushed := (pushes.getD []).length

def State.isResting (st : State) : Bool :=
  match st.poll with
  | .idle _ => true
  | .asked _ => false

/-- Steps on until a header is found or `limit` polls are answered, pushes first. -/
def followWithin (target : UInt64) (s : Setting) (limit : Nat) : (steps : Nat) → State → State
  | 0, st => st
  | n + 1, st =>
    if st.found.isSome || (limit ≤ st.calls.length && st.isResting) then st
    else followWithin target s limit n (step target s st true)

/-- Each poll takes two steps and every push one. -/
def follow (target : UInt64) (s : Script) (limit : Nat) : State :=
  followWithin target s limit (2 * limit + s.pushed) (State.start s)

end ChainKeys.HeaderWait
