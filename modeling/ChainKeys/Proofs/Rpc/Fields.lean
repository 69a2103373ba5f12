import ChainKeys.Proofs.Base64
import ChainKeys.Proofs.Decimal
import ChainKeys.Proofs.Hex
import ChainKeys.Rpc

/-!
The texts in an answer, decoded. Bytes are told by the one base64 text they are written as, a
height by any spelling of its number, an app hash by hexadecimal digits of either case. An answer
is decoded when all its texts spell something, and one text that spells nothing is enough to lose
the whole of it.
-/

namespace ChainKeys.Rpc

/-! ### Single texts -/

lemma decodeBase64_eq_ok_iff {field text : String} {bs : Bytes} :
    decodeBase64 field text = .ok bs ↔ text = Base64.encode bs := by
  rw [← Base64.decode_eq_some_iff, decodeBase64]
  cases Base64.decode text <;> simp

lemma readHeight_eq_ok_iff {text : String} {h : UInt64} :
    readHeight text = .ok h ↔ Decimal.Spells text h.toNat := by
  rw [← Decimal.readWord64_eq_some_iff, readHeight]
  cases Decimal.readWord64 text <;> simp

structure RawOp.Spells (op : RawOp) (o : ProofOp) : Prop where
  type : op.type = o.type
  key : op.key = Base64.encode o.key
  data : op.data = Base64.encode o.data

/-- A missing height is spelled by the empty text. -/
def SpellsHeight (text : String) : Option UInt64 → Prop
  | none => text = ""
  | some h => Decimal.Spells text h.toNat

structure RawQuery.Spells (q : RawQuery) (r : QueryResponse) : Prop where
  code : q.code = r.code
  log : q.log = r.log
  codespace : q.codespace = r.codespace
  key : q.key = Base64.encode r.key
  value : q.value = Base64.encode r.value
  ops : List.Forall₂ RawOp.Spells q.ops r.ops
  height : SpellsHeight q.height r.height

lemma RawOp.decode_eq_ok_iff {op : RawOp} {o : ProofOp} : op.decode = .ok o ↔ op.Spells o := by
  constructor
  · intro h
    obtain ⟨key, hkey, h⟩ := bind_eq_ok h
    obtain ⟨data, hdata, h⟩ := bind_eq_ok h
    obtain rfl := Except.ok.inj h
    exact ⟨rfl, decodeBase64_eq_ok_iff.mp hkey, decodeBase64_eq_ok_iff.mp hdata⟩
  · rintro ⟨htype, hkey, hdata⟩
    rw [RawOp.decode, decodeBase64_eq_ok_iff.mpr hkey, decodeBase64_eq_ok_iff.mpr hdata, htype]
    rfl

/-- The height of an answer, if it has one. -/
def readHeight? (text : String) : Except Error (Option UInt64) :=
  if text = "" then pure none else (readHeight text).map some

lemma readHeight?_eq_ok_iff {text : String} {h : Option UInt64} :
    readHeight? text = .ok h ↔ SpellsHeight text h := by
  unfold readHeight?
  split_ifs with hempty
  · cases h with
    | none => simp [SpellsHeight, hempty, pure, Except.pure]
    | some h =>
      refine iff_of_false (by simp [pure, Except.pure]) fun hspells => ?_
      exact Decimal.Spells.ne_empty hspells hempty
  · constructor
    · intro hread
      obtain ⟨n, hn, rfl⟩ := map_eq_ok hread
      exact readHeight_eq_ok_iff.mp hn
    · intro hspells
      cases h with
      | none => exact absurd hspells hempty
      | some h =>
        rw [readHeight_eq_ok_iff.mpr hspells]
        rfl

lemma RawQuery.decode_eq (q : RawQuery) : q.decode =
    (q.ops.mapM RawOp.decode >>= fun ops => readHeight? q.height >>= fun height =>
      decodeBase64 "key" q.key >>= fun key => decodeBase64 "value" q.value >>= fun value =>
        .ok ⟨q.code, q.log, q.codespace, key, value, ops, height⟩) := by
  unfold RawQuery.decode readHeight?
  split_ifs <;> rfl

lemma forall₂_spells_iff {ops : List RawOp} {os : List ProofOp} :
    ops.mapM RawOp.decode = .ok os ↔ List.Forall₂ RawOp.Spells ops os := by
  simp only [mapM_eq_ok_iff, RawOp.decode_eq_ok_iff]

/-- **Decoding**. A query's answer is decoded as what its texts spell. -/
theorem RawQuery.decode_eq_ok_iff {q : RawQuery} {r : QueryResponse} :
    q.decode = .ok r ↔ q.Spells r := by
  rw [RawQuery.decode_eq]
  constructor
  · intro h
    obtain ⟨ops, hops, h⟩ := bind_eq_ok h
    obtain ⟨height, hheight, h⟩ := bind_eq_ok h
    obtain ⟨key, hkey, h⟩ := bind_eq_ok h
    obtain ⟨value, hvalue, h⟩ := bind_eq_ok h
    obtain rfl := Except.ok.inj h
    exact ⟨rfl, rfl, rfl, decodeBase64_eq_ok_iff.mp hkey, decodeBase64_eq_ok_iff.mp hvalue,
      forall₂_spells_iff.mp hops, readHeight?_eq_ok_iff.mp hheight⟩
  · rintro ⟨hcode, hlog, hcodespace, hkey, hvalue, hops, hheight⟩
    rw [forall₂_spells_iff.mpr hops, readHeight?_eq_ok_iff.mpr hheight,
      decodeBase64_eq_ok_iff.mpr hkey, decodeBase64_eq_ok_iff.mpr hvalue, hcode, hlog, hcodespace]
    rfl

/-- The rendering of an answer: base64 for bytes, decimal digits for the height. -/
def RawQuery.ofResponse (r : QueryResponse) : RawQuery where
  code := r.code
  log := r.log
  codespace := r.codespace
  key := Base64.encode r.key
  value := Base64.encode r.value
  ops := r.ops.map fun o => ⟨o.type, Base64.encode o.key, Base64.encode o.data⟩
  height := (r.height.map fun h => toString h.toNat).getD ""

structure RawHeader.Spells (h : RawHeader) (header : Header) : Prop where
  height : Decimal.Spells h.height header.height.toNat
  appHash : h.appHash.toList.map Hex.digit? = Hex.halves header.appHash

lemma RawHeader.decode_eq_ok_iff {h : RawHeader} {header : Header} :
    h.decode = .ok header ↔ h.Spells header := by
  constructor
  · intro hdecode
    obtain ⟨height, hheight, hdecode⟩ := bind_eq_ok hdecode
    obtain ⟨appHash, happHash, hdecode⟩ := bind_eq_ok hdecode
    obtain rfl := Except.ok.inj hdecode
    exact ⟨readHeight_eq_ok_iff.mp hheight, Hex.decode_eq_ok_iff.mp (mapError_eq_ok happHash)⟩
  · rintro ⟨hheight, happHash⟩
    rw [RawHeader.decode, readHeight_eq_ok_iff.mpr hheight, Hex.decode_eq_ok_iff.mpr happHash]
    rfl

end ChainKeys.Rpc
