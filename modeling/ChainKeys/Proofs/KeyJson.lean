import ChainKeys.KeyJson
import ChainKeys.Proofs.Base64
import ChainKeys.Proofs.Json.RoundTrip

/-!
Keys are read back from their JSON text. The text determines the value, a record of a type and a
value is told by its type, and the members of a threshold key are read one by one.
-/

namespace ChainKeys.KeyJson

open Json (Written AllWritten FieldsWritten)

/-! ### What is written -/

lemma written_ofSingle (k : SingleKey) : (ofSingle k).Written := by
  simp [ofSingle, Json.obj, Json.str, Written, FieldsWritten]

lemma allWritten_ofSingle (ks : List SingleKey) : AllWritten (ks.map ofSingle) :=
  Json.allWritten_iff.mpr (List.forall_mem_map.mpr fun k _ => written_ofSingle k)

lemma written_toJson (k : PublicKey) : (toJson k).Written := by
  cases k with
  | single k => exact written_ofSingle k
  | threshold k =>
    simp [toJson, Json.obj, Json.str, Written, FieldsWritten, allWritten_ofSingle]

/-! ### What is read -/

lemma tagged_obj (type : String) (v : Json) :
    tagged (.obj [("type", .str type), ("value", v)]) = some (type, v, true) := by
  simp [tagged, Json.obj, Json.str, Json.names?, variantName]

lemma find?_typeName (a : Algorithm) :
    [Algorithm.secp256k1, .ed25519, .sr25519].find? (typeName · = typeName a) = some a := by
  cases a <;> decide

lemma typeName_ne_threshold (a : Algorithm) : typeName a ≠ thresholdTypeName := by
  cases a <;> decide

lemma readForm_ofSingle (d : Nat) (k : SingleKey) :
    readForm (d + 1) (ofSingle k) = some (.single k.algorithm k.bytes) := by
  rw [readForm, ofSingle, tagged_obj]
  simp [typeName_ne_threshold, find?_typeName, Json.str, Json.text?, Base64.decode_encode]

/-- The form of a key, its bytes taken as they are. -/
def Form.ofKey : PublicKey → Form
  | .single k => .single k.algorithm k.bytes
  | .threshold k => .threshold k.threshold (k.members.map fun m => .single m.algorithm m.bytes)

lemma readForm_toJson (d : Nat) (k : PublicKey) :
    readForm (d + 4) (toJson k) = some (.ofKey k) := by
  cases k with
  | single k => exact readForm_ofSingle (d + 3) k
  | threshold k =>
    have hmembers : (k.members.map ofSingle).mapM (readForm (d + 1)) =
        some (k.members.map fun m => .single m.algorithm m.bytes) :=
      mapM_map fun m _ => readForm_ofSingle d m
    have hthreshold := Decimal.readWord32_toString k.threshold
    rw [Nat.toString_eq_repr] at hthreshold
    rw [readForm, toJson, tagged_obj]
    simp [Json.obj, Json.str, Json.record?, Json.names?, Json.fieldOf, Json.only?, Json.text?,
      Json.array?, hmembers, hthreshold, Form.ofKey]

lemma toSingle_single (k : SingleKey) :
    (Form.single k.algorithm k.bytes).toSingle = .ok k := by
  rw [Form.toSingle, k.ofBytes_bytes]
  rfl

lemma toKey_ofKey (k : PublicKey) : (Form.ofKey k).toKey = .ok k := by
  cases k with
  | single k =>
    change (Form.single k.algorithm k.bytes).toSingle.map PublicKey.single = _
    rw [toSingle_single]
    rfl
  | threshold k =>
    have hmembers : (k.members.map fun m => Form.single m.algorithm m.bytes).mapM Form.toSingle =
        .ok k.members :=
      mapM_map_eq_pure fun m _ => toSingle_single m
    rw [Form.ofKey, Form.toKey, hmembers]
    rfl

/-- **Round trip**: every key is read back from its JSON text. -/
theorem roundTrip (k : PublicKey) : decode (encode k) = .ok k := by
  rw [decode, encode, Json.parse_render (written_toJson k), Option.bind_some, maxDepth,
    readForm_toJson 123]
  exact toKey_ofKey k

end ChainKeys.KeyJson
