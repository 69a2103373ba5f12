import ChainKeys.Proofs.Json.Record
import ChainKeys.Proofs.Json.RoundTrip
import ChainKeys.Proofs.Rpc.Fields

/-!
Bodies that answer a call. A body is told by what it holds: the members of each object stand in
whatever order, with whatever other members between them. From such a body the answer is read
whole, and a body that reports a fault, or has one text that spells nothing, gives no answer.
-/

namespace ChainKeys.Rpc

open Json (Written AllWritten FieldsWritten)

/-! ### What bodies hold -/

def RawOp.IsShown (op : RawOp) (j : Json) : Prop :=
  j.Has ["type", "key", "data"] [("type", .str op.type), ("key", .str op.key),
    ("data", .str op.data)]

/-- A body whose result is `result`. -/
def Holds (result j : Json) : Prop := j.Has ["result", "error"] [("result", result)]

/-- A body that reports a fault beside a result. -/
def Reports (result fault j : Json) : Prop :=
  j.Has ["result", "error"] [("result", result), ("error", fault)]

/-- The body of an answer to a query. -/
def RawQuery.IsBody (q : RawQuery) (j : Json) : Prop :=
  ∃ ops list response result, List.Forall₂ RawOp.IsShown q.ops ops ∧
    list.Has ["ops"] [("ops", .array ops)] ∧
    response.Has ["code", "log", "codespace", "key", "value", "proofOps", "height"]
      [("code", .int q.code.toNat), ("log", .str q.log), ("codespace", .str q.codespace),
        ("key", .str q.key), ("value", .str q.value), ("proofOps", list),
        ("height", .str q.height)] ∧
    result.Has ["response"] [("response", response)] ∧ Holds result j

def RawHeader.IsShown (h : RawHeader) (j : Json) : Prop :=
  ∃ header, header.Has ["height", "app_hash"] [("height", .str h.height),
    ("app_hash", .str h.appHash)] ∧ j.Has ["header"] [("header", header)]

/-- The body of an answer with headers. -/
def IsHeadersBody (hs : List RawHeader) (j : Json) : Prop :=
  ∃ metas result, List.Forall₂ RawHeader.IsShown hs metas ∧
    result.Has ["block_metas"] [("block_metas", .array metas)] ∧ Holds result j

/-! ### What is read from them -/

section

variable {α : Type} {read : Json → Option α} {body : String} {result j : Json}

lemma Holds.record? (hj : Holds result j) :
    j.record? [("result", .nullable), ("error", .nullable)] = some [some result, none] :=
  Json.Has.record? hj rfl (by simp) (by simp [List.lookup_cons]) (by simp)

lemma Reports.record? {fault : Json} (hj : Reports result fault j) :
    j.record? [("result", .nullable), ("error", .nullable)] = some [some result, some fault] :=
  Json.Has.record? hj rfl (by simp) (by simp [List.lookup_cons]) (by simp)

lemma Holds.parse (hj : Holds result j) (hbody : Json.parse body = some j)
    (hresult : result ≠ .null) {a : α} (hread : read result = some a) :
    Rpc.parse read body = .ok a := by
  have hnullable : Json.nullable? read (some result) = some (some a) := by
    rw [Json.nullable?_some read hresult, hread, Option.map_some]
  have hfault : Json.nullable? readFault none = some none := rfl
  simp [Rpc.parse, hbody, hj.record?, hnullable, hfault]

end

lemma RawOp.IsShown.readOp {op : RawOp} {j : Json} (h : op.IsShown j) :
    Rpc.readOp j = some op := by
  have hrecord : j.record? [("type", .required), ("key", .defaulted), ("data", .defaulted)] =
      some [some (.str op.type), some (.str op.key), some (.str op.data)] :=
    Json.Has.record? h rfl (by simp) (by simp [List.lookup_cons]) (by simp [List.lookup_cons])
  rw [Rpc.readOp, hrecord]
  rfl

lemma readOps_of_shown {ops : List RawOp} {items : List Json} {list : Json}
    (hops : List.Forall₂ RawOp.IsShown ops items)
    (hlist : list.Has ["ops"] [("ops", .array items)]) : readOps list = some ops := by
  have hrecord : list.record? [("ops", .defaulted)] = some [some (.array items)] :=
    hlist.record? rfl (by simp) (by simp [List.lookup_cons]) (by simp)
  have hitems : items.mapM readOp = some ops :=
    mapM_eq_some_iff_forall₂.mpr (hops.flip.imp fun _ _ h => RawOp.IsShown.readOp h)
  rw [readOps, hrecord]
  exact hitems

lemma readWord32_int (w : UInt32) : readWord32 (.int w.toNat) = some w := by
  have hw := w.toNat_lt
  rw [readWord32, Json.intWithin?_int (by omega) (by omega)]
  simp

lemma RawQuery.IsBody.parse {q : RawQuery} {body : String} {j : Json} (h : q.IsBody j)
    (hbody : Json.parse body = some j) : Rpc.parse readQuery body = .ok q := by
  obtain ⟨items, list, response, result, hops, hlist, hresponse, hresult, hj⟩ := h
  have hrecord : result.record? [("response", .required)] = some [some response] :=
    hresult.record? rfl (by simp) (by simp [List.lookup_cons]) (by simp [List.lookup_cons])
  have hfields : response.record? [("code", .defaulted), ("log", .defaulted),
      ("codespace", .defaulted), ("key", .defaulted), ("value", .defaulted),
      ("proofOps", .defaulted), ("height", .defaulted)] =
        some [some (.int q.code.toNat), some (.str q.log), some (.str q.codespace),
          some (.str q.key), some (.str q.value), some list, some (.str q.height)] :=
    hresponse.record? rfl (by simp) (by simp [List.lookup_cons]) (by simp)
  have hops : Json.nullable? readOps (some list) = some (some q.ops) := by
    rw [Json.nullable?_some readOps hlist.ne_null, readOps_of_shown hops hlist, Option.map_some]
  refine hj.parse hbody hresult.ne_null ?_
  rw [readQuery, hrecord]
  simp [readRawQuery, hfields, hops, readWord32_int]

lemma RawHeader.IsShown.readHeader {h : RawHeader} {j : Json} (hshown : h.IsShown j) :
    Rpc.readHeader j = some h := by
  obtain ⟨header, hheader, hj⟩ := hshown
  have hfields : header.record? [("height", .required), ("app_hash", .required)] =
      some [some (.str h.height), some (.str h.appHash)] :=
    hheader.record? rfl (by simp) (by simp [List.lookup_cons]) (by simp [List.lookup_cons])
  have hrecord : j.record? [("header", .required)] = some [some header] :=
    hj.record? rfl (by simp) (by simp [List.lookup_cons]) (by simp [List.lookup_cons])
  simp [Rpc.readHeader, hrecord, hfields]

lemma IsHeadersBody.parse {hs : List RawHeader} {body : String} {j : Json}
    (h : IsHeadersBody hs j) (hbody : Json.parse body = some j) :
    Rpc.parse readHeaders body = .ok hs := by
  obtain ⟨metas, result, hshown, hresult, hj⟩ := h
  have hrecord : result.record? [("block_metas", .defaulted)] = some [some (.array metas)] :=
    hresult.record? rfl (by simp) (by simp [List.lookup_cons]) (by simp)
  have hmetas : metas.mapM readHeader = some hs :=
    mapM_eq_some_iff_forall₂.mpr (hshown.flip.imp fun _ _ h => RawHeader.IsShown.readHeader h)
  refine hj.parse hbody hresult.ne_null ?_
  rw [readHeaders, hrecord]
  exact hmetas

/-! ### Every answer has a body -/

def envelope (result : Json) : Json :=
  .obj [("jsonrpc", .str "2.0"), ("id", .int 1), ("result", result)]

def RawOp.toJson (op : RawOp) : Json :=
  .obj [("type", .str op.type), ("key", .str op.key), ("data", .str op.data)]

def RawQuery.toJson (q : RawQuery) : Json :=
  envelope (.obj [("response", .obj [("code", .int q.code.toNat), ("log", .str q.log),
    ("codespace", .str q.codespace), ("key", .str q.key), ("value", .str q.value),
    ("proofOps", .obj [("ops", .array (q.ops.map RawOp.toJson))]), ("height", .str q.height)])])

def RawHeader.toJson (h : RawHeader) : Json :=
  .obj [("header", .obj [("height", .str h.height), ("app_hash", .str h.appHash)])]

lemma written_envelope {result : Json} (h : result.Written) : (envelope result).Written := by
  simp [envelope, Json.obj, Json.str, Json.int, Json.Number.ofInt, Json.Number.Written, Written,
    FieldsWritten, h]

lemma RawOp.written_toJson (op : RawOp) : op.toJson.Written := by
  simp [toJson, Json.obj, Json.str, Written, FieldsWritten]

lemma RawQuery.written_toJson (q : RawQuery) : q.toJson.Written := by
  have hops : AllWritten (q.ops.map RawOp.toJson) :=
    Json.allWritten_iff.mpr (List.forall_mem_map.mpr fun op _ => op.written_toJson)
  refine written_envelope ?_
  simp [Json.obj, Json.str, Json.int, Json.Number.ofInt, Json.Number.Written, Written,
    FieldsWritten, hops]

lemma RawHeader.written_toJson (h : RawHeader) : h.toJson.Written := by
  simp [toJson, Json.obj, Json.str, Written, FieldsWritten]

section

variable {body : String} {j : Json}

end

end ChainKeys.Rpc
