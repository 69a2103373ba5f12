/-!
Repeated application of an operation, by doubling.
-/

namespace ChainKeys

/-- `x` combined with itself `n` times, from the highest binary digit of `n` down. -/
def power {α : Type} (op : α → α → α) (unit x : α) (n : Nat) : α :=
  if n = 0 then unit
  else
    let half := power op unit x (n / 2)
    let twice := op half half
    if n % 2 = 1 then op twice x else twice
termination_by n

end ChainKeys
