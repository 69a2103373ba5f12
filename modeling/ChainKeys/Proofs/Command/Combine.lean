import ChainKeys.Command.Run
import ChainKeys.Proofs.Hex
import ChainKeys.Proofs.Lookup
import ChainKeys.Proofs.Multisig.Combine
import ChainKeys.Proofs.MultisigWire

/-!
Combining named signatures. A signer is told by the address that its name spells, in whichever of
the two forms, and no address may have two signatures. So what is written depends on the
addresses and their signatures alone, neither on the names nor on the order they come in.
-/

namespace ChainKeys

namespace Signatures

lemma get?_put_eq_none {s : Signatures} {a b : Address} {sig : Bytes} :
    (s.put a sig).get? b = none ↔ b ≠ a ∧ s.get? b = none := by
  by_cases h : b = a
  · simp [h, get?_put_self]
  · simp [h, s.get?_put_of_ne h]

/-- A map made of entries has what the entries have. -/
lemma get?_putAll (entries : List (Address × Bytes)) (h : (entries.map Prod.fst).Nodup)
    (a : Address) : (putAll [] entries).get? a = entries.lookup a := by
  by_cases ha : a ∈ entries.map Prod.fst
  · obtain ⟨e, he, rfl⟩ := List.mem_map.mp ha
    rw [get?_putAll_of_mem h he, (lookup_eq_some_iff_mem h).mpr he]
  · rw [get?_putAll_of_notMem ha]
    rw [← isSome_lookup_iff, Option.not_isSome_iff_eq_none] at ha
    exact ha.symm

end Signatures

namespace Command

open Signatures

/-! ### Signers -/

/-- The names of the signers spell these addresses, which have their signatures. -/
def Names (sigs : List NamedSignature) (entries : List (Address × Bytes)) : Prop :=
  List.Forall₂ (fun s e => Address.parse s.signer = .ok e.1 ∧ s.signature = e.2) sigs entries

/-- The same signature under another name of the same address. -/
def Respells (s s' : NamedSignature) : Prop :=
  Address.parse s'.signer = Address.parse s.signer ∧ s'.signature = s.signature

lemma addSignature_eq_ok_iff {sigs out : Signatures} {s : NamedSignature} :
    addSignature sigs s = .ok out ↔
      ∃ a, Address.parse s.signer = .ok a ∧ sigs.get? a = none ∧ out = sigs.put a s.signature := by
  unfold addSignature
  cases Address.parse s.signer with
  | error e => simp
  | ok a =>
    cases hget : sigs.get? a with
    | none => simp [hget, eq_comm]
    | some sig => simp [hget]

/-- Signatures are collected if their signers are different addresses, none of which has one. -/
lemma foldlM_addSignature {start out : Signatures} {sigs : List NamedSignature} :
    sigs.foldlM addSignature start = .ok out ↔
      ∃ entries, Names sigs entries ∧ (entries.map Prod.fst).Nodup ∧
        (∀ e ∈ entries, start.get? e.1 = none) ∧ out = start.putAll entries := by
  induction sigs generalizing start with
  | nil =>
    constructor
    · intro h
      exact ⟨[], .nil, List.nodup_nil, by simp, (Except.ok.inj h).symm⟩
    · rintro ⟨entries, hnames, -, -, rfl⟩
      cases hnames
      rfl
  | cons s sigs ih =>
    rw [List.foldlM_cons]
    constructor
    · intro h
      obtain ⟨mid, hmid, h⟩ := bind_eq_ok h
      obtain ⟨a, ha, hnone, rfl⟩ := addSignature_eq_ok_iff.mp hmid
      obtain ⟨entries, hnames, hnodup, hfree, rfl⟩ := ih.mp h
      simp only [get?_put_eq_none] at hfree
      refine ⟨(a, s.signature) :: entries, .cons ⟨ha, rfl⟩ hnames, ?_, ?_, rfl⟩
      · rw [List.map_cons, List.nodup_cons]
        refine ⟨fun hmem => ?_, hnodup⟩
        obtain ⟨e, he, heq⟩ := List.mem_map.mp hmem
        exact (hfree e he).1 heq
      · exact List.forall_mem_cons.mpr ⟨hnone, fun e he => (hfree e he).2⟩
    · rintro ⟨_, hnames, hnodup, hfree, rfl⟩
      cases hnames with
      | @cons _ e _ entries he hnames =>
        obtain ⟨ha, hsig⟩ := he
        rw [List.map_cons, List.nodup_cons] at hnodup
        obtain ⟨hnone, hfree⟩ := List.forall_mem_cons.mp hfree
        have hadd : addSignature start s = .ok (start.put e.1 e.2) :=
          addSignature_eq_ok_iff.mpr ⟨e.1, ha, hnone, by rw [hsig]⟩
        rw [hadd]
        refine ih.mpr ⟨entries, hnames, hnodup.2, fun e' he' => ?_, rfl⟩
        refine get?_put_eq_none.mpr ⟨fun heq => ?_, hfree e' he'⟩
        exact hnodup.1 (heq ▸ List.mem_map_of_mem he')

lemma readThresholdKey_eq_ok_iff {text : String} {k : ThresholdKey} :
    readThresholdKey text = .ok k ↔ ∃ hrp, KeyText.decode .cosmos text = .ok (hrp, .threshold k) := by
  unfold readThresholdKey readKey
  cases KeyText.decode .cosmos text with
  | error e => simp [bind, Except.bind]
  | ok found =>
    obtain ⟨hrp, p⟩ := found
    cases p with
    | single m => simp [bind, Except.bind]
    | threshold k' => simp [bind, Except.bind, pure, Except.pure]

/-- Names in another order and otherwise spelled have the same entries in another order. -/
lemma Names.respell {sigs mid sigs' : List NamedSignature} {entries : List (Address × Bytes)}
    (h : Names sigs entries) (hperm : mid.Perm sigs) (hspell : List.Forall₂ Respells mid sigs') :
    ∃ entries', Names sigs' entries' ∧ entries'.Perm entries := by
  obtain ⟨entries', hmid, hentries⟩ := List.perm_comp_forall₂ hperm h
  refine ⟨entries', ?_, hentries⟩
  clear hperm hentries h
  induction hspell generalizing entries' with
  | nil => exact hmid
  | cons hs _ ih =>
    cases hmid with
    | cons he hmid => exact .cons ⟨hs.1.trans he.1, hs.2.trans he.2⟩ (ih _ hmid)

lemma Names.signatures {sigs : List NamedSignature} {entries : List (Address × Bytes)}
    (h : Names sigs entries) : sigs.map NamedSignature.signature = entries.map Prod.snd := by
  induction h with
  | nil => rfl
  | cons he _ ih => rw [List.map_cons, List.map_cons, he.2, ih]

/-! ### What is written -/

/-- The lines for a map of signatures. -/
def combined (k : ThresholdKey) (sigs : Signatures) : List String :=
  ["bitarray: " ++ bitRow (MultiSignature.combine k sigs).bits,
    "signatures: " ++ toString (MultiSignature.combine k sigs).signatures.length ++ "/"
      ++ toString k.threshold.toNat,
    "multisig: " ++ Hex.encode (MultiSignature.combine k sigs).toBytes]

lemma combineLines_eq_ok_iff {text : String} {sigs : List NamedSignature} {lines : List String} :
    combineLines text sigs = .ok lines ↔
      ∃ hrp k entries, KeyText.decode .cosmos text = .ok (hrp, .threshold k) ∧
        Names sigs entries ∧ (entries.map Prod.fst).Nodup ∧ combined k (putAll [] entries) = lines := by
  have hbind : combineLines text sigs = (readThresholdKey text >>= fun k =>
      sigs.foldlM addSignature [] >>= fun out => .ok (combined k out)) := rfl
  rw [hbind]
  constructor
  · intro h
    obtain ⟨k, hk, h⟩ := bind_eq_ok h
    obtain ⟨out, hout, h⟩ := bind_eq_ok h
    obtain ⟨hrp, hdecode⟩ := readThresholdKey_eq_ok_iff.mp hk
    obtain ⟨entries, hnames, hnodup, -, rfl⟩ := foldlM_addSignature.mp hout
    exact ⟨hrp, k, entries, hdecode, hnames, hnodup, Except.ok.inj h⟩
  · rintro ⟨hrp, k, entries, hdecode, hnames, hnodup, rfl⟩
    rw [readThresholdKey_eq_ok_iff.mpr ⟨hrp, hdecode⟩,
      foldlM_addSignature.mpr ⟨entries, hnames, hnodup, fun _ _ => rfl, rfl⟩]
    rfl

lemma combined_congr {k : ThresholdKey} {entries entries' : List (Address × Bytes)}
    (h : entries'.Perm entries) (hnodup : (entries.map Prod.fst).Nodup) :
    combined k (putAll [] entries') = combined k (putAll [] entries) := by
  have hnodup' := (h.map Prod.fst).nodup_iff.mpr hnodup
  have hcombine : MultiSignature.combine k (putAll [] entries') =
      MultiSignature.combine k (putAll [] entries) :=
    MultiSignature.combine_congr fun a _ => by
      rw [get?_putAll _ hnodup, get?_putAll _ hnodup', lookup_eq_of_perm h hnodup']
  rw [combined, combined, hcombine]

lemma bitRow_combine (k : ThresholdKey) {entries : List (Address × Bytes)}
    (hnodup : (entries.map Prod.fst).Nodup) :
    (bitRow (MultiSignature.combine k (putAll [] entries)).bits).toList =
      k.members.map fun m =>
        if Address.ofSingle m ∈ entries.map Prod.fst then 'x' else '_' := by
  rw [bitRow, String.toList_ofList, MultiSignature.toList_bits_combine, List.map_map]
  refine List.map_congr_left fun m _ => ?_
  simp only [Function.comp_apply, get?_putAll entries hnodup, isSome_lookup_iff]

lemma signatures_combine_putAll (k : ThresholdKey) {entries : List (Address × Bytes)}
    (hnodup : (entries.map Prod.fst).Nodup) :
    (MultiSignature.combine k (putAll [] entries)).signatures =
      k.members.filterMap fun m => entries.lookup (.ofSingle m) := by
  rw [MultiSignature.signatures_combine]
  exact congrArg (List.filterMap · k.members) (funext fun m => get?_putAll entries hnodup _)

/-- **Combining**. It succeeds just when the text is that of a threshold key and the names of the
signers spell different addresses. The lines then do not depend on the order of the signatures
nor on how the addresses are spelled: they show a mark for each member, telling whether its
address was given, and the message from which the signatures of these members are read back in
member order. -/
theorem combineLines_exact (text : String) (sigs : List NamedSignature) :
    ((∃ lines, combineLines text sigs = .ok lines) ↔
      (∃ hrp k, KeyText.decode .cosmos text = .ok (hrp, .threshold k)) ∧
        ∃ entries, Names sigs entries ∧ (entries.map Prod.fst).Nodup) ∧
    ∀ lines, combineLines text sigs = .ok lines →
      (∀ mid sigs', mid.Perm sigs → List.Forall₂ Respells mid sigs' →
        combineLines text sigs' = .ok lines) ∧
      ∃ hrp k entries row hex bytes,
        KeyText.decode .cosmos text = .ok (hrp, .threshold k) ∧ Names sigs entries ∧
        let found := k.members.filterMap fun m => entries.lookup (.ofSingle m)
        lines = ["bitarray: " ++ row,
          "signatures: " ++ toString found.length ++ "/" ++ toString k.threshold.toNat,
          "multisig: " ++ hex] ∧
        row.toList = (k.members.map fun m =>
          if Address.ofSingle m ∈ entries.map Prod.fst then 'x' else '_') ∧
        Hex.decode hex = .ok bytes ∧
        ((∀ s ∈ sigs, s.signature.length < 2 ^ 64) →
          MultiSignature.decodeSignatures bytes = some found) := by
  simp only [combineLines_eq_ok_iff]
  constructor
  · constructor
    · rintro ⟨lines, hrp, k, entries, hdecode, hnames, hnodup, -⟩
      exact ⟨⟨hrp, k, hdecode⟩, entries, hnames, hnodup⟩
    · rintro ⟨⟨hrp, k, hdecode⟩, entries, hnames, hnodup⟩
      exact ⟨_, hrp, k, entries, hdecode, hnames, hnodup, rfl⟩
  · rintro lines ⟨hrp, k, entries, hdecode, hnames, hnodup, rfl⟩
    have hfound := signatures_combine_putAll k hnodup
    refine ⟨fun mid sigs' hperm hspell => ?_, hrp, k, entries, _, _,
      (MultiSignature.combine k (putAll [] entries)).toBytes, hdecode, hnames, ?_,
      bitRow_combine k hnodup, Hex.decode_encodeLower _, fun hlen => ?_⟩
    · obtain ⟨entries', hnames', hentries⟩ := hnames.respell hperm hspell
      exact ⟨hrp, k, entries', hdecode, hnames',
        (hentries.map Prod.fst).nodup_iff.mpr hnodup, combined_congr hentries hnodup⟩
    · rw [combined, hfound]
    · rw [MultiSignature.toBytes, MultiSignature.decodeSignatures_encodeSignatures, hfound]
      intro sig hsig
      rw [hfound] at hsig
      obtain ⟨m, -, hm⟩ := List.mem_filterMap.mp hsig
      have hmem : sig ∈ sigs.map NamedSignature.signature := by
        rw [hnames.signatures]
        exact List.mem_map_of_mem (lookup_eq_some_iff_mem hnodup |>.mp hm)
      obtain ⟨s, hs, rfl⟩ := List.mem_map.mp hmem
      exact hlen s hs

end Command

end ChainKeys
