import ChainKeys.Home
import ChainKeys.Proofs.Config

/-!
What the file holds after a series of edits: the standard configuration, changed by each edit in
turn. An edit that is refused fails and leaves the file as it was; no other edit fails.
-/

namespace ChainKeys.Home

/-! ### Edits of the configuration on record -/

/-- What an edit makes of the configuration on record. -/
inductive Moves : Edit → Config → Config → Prop
  | keep (c : Config) : Moves (.init false) c c
  | overwrite (c : Config) : Moves (.init true) c .standard
  | set {key value : String} {c c' : Config} (h : Config.Sets key value c c') :
    Moves (.set key value) c c'
  | refuse {key value : String} (h : Config.Refused key value) (c : Config) :
    Moves (.set key value) c c

/-- What a series of edits makes of it. -/
def Follows : Config → List Edit → Config → Prop
  | c, [], c' => c' = c
  | c, e :: edits, c' => ∃ mid, Moves e c mid ∧ Follows mid edits c'

def Edit.Refused : Edit → Prop
  | .init _ => False
  | .set key value => Config.Refused key value

lemma Moves.unique {e : Edit} {c c₁ c₂ : Config} (h₁ : Moves e c c₁) (h₂ : Moves e c c₂) :
    c₁ = c₂ := by
  cases h₁ with
  | keep => cases h₂; rfl
  | overwrite => cases h₂; rfl
  | set h₁ =>
    cases h₂ with
    | set h₂ => exact Except.ok.inj (h₁.set_eq.symm.trans h₂.set_eq)
    | refuse h₂ => exact absurd h₂ h₁.not_refused
  | refuse h₁ =>
    cases h₂ with
    | set h₂ => exact absurd h₁ h₂.not_refused
    | refuse => rfl

lemma Follows.unique {edits : List Edit} {c c₁ c₂ : Config} (h₁ : Follows c edits c₁)
    (h₂ : Follows c edits c₂) : c₁ = c₂ := by
  induction edits generalizing c with
  | nil => exact h₁.trans h₂.symm
  | cons e edits ih =>
    obtain ⟨mid₁, hmove₁, h₁⟩ := h₁
    obtain ⟨mid₂, hmove₂, h₂⟩ := h₂
    obtain rfl := hmove₁.unique hmove₂
    exact ih h₁ h₂

/-! ### Edits of the file -/

variable {h : Home} {c : Config}

end ChainKeys.Home
