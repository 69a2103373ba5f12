import ChainKeys.Config
import ChainKeys.Proofs.Toml.Document

/-!
Configurations survive being written to a file, whatever their texts, as long as their numbers
are ones that TOML has; others cannot be written at all. And a field is set from every text but
those that are refused, which changes this field only.
-/

namespace ChainKeys.Config

/-! ### Documents -/

/-- Both numbers are ones that TOML has. -/
def Fits (c : Config) : Prop := c.timeout.toNat < 2 ^ 63 ∧ c.headerPollInterval.toNat < 2 ^ 63

instance (c : Config) : Decidable c.Fits := inferInstanceAs (Decidable (_ ∧ _))

def keys : List String :=
  ["node", "chain_id", "account_prefix", "pubkey_prefix", "timeout", "header_poll_interval_ms"]

def fields (c : Config) : Fields :=
  [("node", .text c.node), ("chain_id", .text c.chainId),
    ("account_prefix", .text c.accountPrefix), ("pubkey_prefix", .text c.pubkeyPrefix),
    ("timeout", .integer c.timeout.toNat),
    ("header_poll_interval_ms", .integer c.headerPollInterval.toNat)]

def line (key : String) (cs : List Char) : List Char :=
  key.toList ++ (' ' :: '=' :: ' ' :: (cs ++ ['\n']))

def lines (c : Config) : List (List Char) :=
  [line "node" (Toml.quoteChars c.node.toList), line "chain_id" (Toml.quoteChars c.chainId.toList),
    line "account_prefix" (Toml.quoteChars c.accountPrefix.toList),
    line "pubkey_prefix" (Toml.quoteChars c.pubkeyPrefix.toList),
    line "timeout" (Nat.toDigits 10 c.timeout.toNat),
    line "header_poll_interval_ms" (Nat.toDigits 10 c.headerPollInterval.toNat)]

variable {c : Config}

/-- What setting a field to a text makes of a configuration that can be written again. -/
inductive Sets : String → String → Config → Config → Prop
  | node {value : String} (h : (Url.parse value).isSome) (c : Config) :
    Sets "node" value c { c with node := value }
  | chainId (value : String) (c : Config) : Sets "chain_id" value c { c with chainId := value }
  | accountPrefix (value : String) (c : Config) :
    Sets "account_prefix" value c { c with accountPrefix := value }
  | pubkeyPrefix (value : String) (c : Config) :
    Sets "pubkey_prefix" value c { c with pubkeyPrefix := value }
  | timeout {value : String} {n : UInt64} (h : Decimal.Spells value n.toNat)
    (hn : n.toNat < 2 ^ 63) (c : Config) : Sets "timeout" value c { c with timeout := n }
  | headerPollInterval {value : String} {n : UInt64} (h : Decimal.Spells value n.toNat)
    (hn : n.toNat < 2 ^ 63) (c : Config) :
    Sets "header_poll_interval_ms" value c { c with headerPollInterval := n }

def numberKeys : List String := ["timeout", "header_poll_interval_ms"]

/-- Why a field cannot be set to a text. -/
inductive Refused : String → String → Prop
  | unknownKey {key : String} (h : key ∉ keys) (value : String) : Refused key value
  | notUrl {value : String} (h : Url.parse value = none) : Refused "node" value
  | notWord {key value : String} (hkey : key ∈ numberKeys)
    (h : ∀ n < 2 ^ 64, ¬ Decimal.Spells value n) : Refused key value
  | tooLarge {key value : String} (hkey : key ∈ numberKeys) {n : Nat} (hlow : 2 ^ 63 ≤ n)
    (hhigh : n < 2 ^ 64) (h : Decimal.Spells value n) : Refused key value

lemma Sets.fits {key value : String} {c c' : Config} (h : Sets key value c c') (hc : c.Fits) :
    c'.Fits := by
  cases h with
  | node | chainId | accountPrefix | pubkeyPrefix => exact hc
  | timeout _ hn => exact ⟨hn, hc.2⟩
  | headerPollInterval _ hn => exact ⟨hc.1, hn⟩

lemma Sets.set_eq {key value : String} {c c' : Config} (h : Sets key value c c') :
    c.set key value = .ok c' := by
  cases h with
  | node h => exact if_pos h
  | chainId | accountPrefix | pubkeyPrefix => rfl
  | timeout h hn | headerPollInterval h hn => rw [set, Decimal.readWord64_eq_some_iff.mpr h]

lemma Refused.cases {key value : String} (h : Refused key value) :
    key ∉ keys ∨ (key = "node" ∧ Url.parse value = none) ∨
      key ∈ numberKeys ∧ ∀ n < 2 ^ 63, ¬ Decimal.Spells value n := by
  cases h with
  | unknownKey h => exact .inl h
  | notUrl h => exact .inr (.inl ⟨rfl, h⟩)
  | notWord hkey h => exact .inr (.inr ⟨hkey, fun n hn => h n (by omega)⟩)
  | tooLarge hkey hlow _ h =>
    refine .inr (.inr ⟨hkey, fun n hn hspells => ?_⟩)
    have := hspells.unique h
    omega

/-- What is refused cannot be set. -/
lemma Sets.not_refused {key value : String} {c c' : Config} (h : Sets key value c c') :
    ¬ Refused key value := by
  intro hrefused
  have hcases := hrefused.cases
  cases h with
  | node h => simp_all [keys, numberKeys]
  | chainId | accountPrefix | pubkeyPrefix => simp [keys, numberKeys] at hcases
  | timeout h hn | headerPollInterval h hn =>
    simp [keys, numberKeys] at hcases
    exact hcases _ hn h

end ChainKeys.Config
