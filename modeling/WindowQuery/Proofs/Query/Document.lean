import WindowQuery.Proofs.Frame.Document
import WindowQuery.Query.Request

/-!
# Requests, read back

The models of a request stay documents, with the keys of each object in order, so
that a request which is read and written again is the same. A model's own keys
are in another order (`QueryModel.entries_ofList_fields`), and it is read from its
document all the same, since fields are found by their names. With this and what
is known of frames, what is written is read again (`documents_roundTrip`).
-/

namespace WindowQuery

open Json (Plain Record)

namespace QueryModel

variable (m : QueryModel)

/-- **A model within a request has its keys in order**, which is not that of its
fields. -/
theorem entries_ofList_fields : (Keyed.ofList m.fields).entries
    = [("format", .string m.format), ("rawSql", .string m.rawSql), ("refId", .string m.refId)] := by
  have hsql : "rawSql" < "refId" := by decide
  have hformat : "format" < "rawSql" := by decide
  show Keyed.insertEntry "format" _ (Keyed.insertEntry "rawSql" _ [_]) = _
  rw [Keyed.insertEntry, if_pos hsql, Keyed.insertEntry, if_pos hformat]

theorem toFreeForm_eq : m.toFreeForm = .object [("format", .string m.format),
    ("rawSql", .string m.rawSql), ("refId", .string m.refId)] :=
  congrArg Json.object m.entries_ofList_fields

theorem plain_toFreeForm : m.toFreeForm.Plain := by
  rw [toFreeForm_eq]
  exact .object (List.forall_mem_cons.2 ⟨.string m.format, List.forall_mem_cons.2
    ⟨.string m.rawSql, List.forall_mem_singleton.2 (.string m.refId)⟩⟩)

/-- The free form of a model has nothing that such a part may not have, and its
keys stay as they are. -/
theorem freeForm?_toFreeForm : Json.freeForm? 3 m.toFreeForm = some m.toFreeForm := by
  have hdepth : 3 + m.toFreeForm.depth ≤ Json.deepest := by
    rw [toFreeForm_eq]
    show 3 + 1 ≤ 127
    decide
  have hentries : Json.canonicalEntries? (Keyed.ofList m.fields).entries
      = some (Keyed.ofList m.fields).entries := by
    rw [entries_ofList_fields]
    rfl
  rw [Json.freeForm?, if_pos hdepth, toFreeForm, Json.canonical?, hentries, Option.map_some,
    Keyed.ofList_entries]

/-- **A model is read from its part of a request.** -/
theorem read_toFreeForm : read m.toFreeForm = .ok m := by
  rw [toFreeForm_eq]
  rfl

end QueryModel

namespace DataQuery

variable (m : QueryModel) (w : TimeWindow)

theorem plain_ofModel : (ofModel m w).toJson.Plain :=
  .object (List.forall_mem_cons.2 ⟨.string m.refId, List.forall_mem_cons.2
    ⟨w.plain_toJson, List.forall_mem_singleton.2 m.plain_toFreeForm⟩⟩)

/-- **A query of a model is read from its document**, two levels deep in a request. -/
theorem ofJson?_ofModel : ofJson? 2 (ofModel m w).toJson = some (ofModel m w) := by
  have hrecord : (ofModel m w).toJson.record? ["refId", "window", "json"] false
      = some ⟨[("refId", .string m.refId), ("window", w.toJson), ("json", m.toFreeForm)], true⟩ :=
    Json.record?_object (by decide) (by simp) false
  rw [ofJson?, hrecord]
  simp [Record.required?, TimeWindow.ofJson?_toJson, QueryModel.freeForm?_toFreeForm, ofModel]

end DataQuery

namespace Request

/-- The request of models with windows. -/
def ofModels (queries : List (QueryModel × TimeWindow)) : Request :=
  ⟨queries.map (fun q => .ofModel q.1 q.2)⟩

variable (queries : List (QueryModel × TimeWindow))

theorem plain_ofModels : (ofModels queries).toJson.Plain := by
  refine .object (List.forall_mem_singleton.2 (.array fun j hj => ?_))
  obtain ⟨q, hq, rfl⟩ := List.mem_map.1 hj
  obtain ⟨⟨m, w⟩, -, rfl⟩ := List.mem_map.1 hq
  exact DataQuery.plain_ofModel m w

theorem ofJson?_ofModels : ofJson? (ofModels queries).toJson = some (ofModels queries) := by
  have hrecord : (ofModels queries).toJson.record? ["queries"] false
      = some ⟨[("queries", .array ((ofModels queries).queries.map DataQuery.toJson))], true⟩ :=
    Json.record?_object (by decide) (by simp) false
  have hqueries : Json.items? (DataQuery.ofJson? 2)
      (.array ((ofModels queries).queries.map DataQuery.toJson))
      = some (ofModels queries).queries := by
    refine Json.items?_map (fun q hq => ?_)
    obtain ⟨⟨m, w⟩, -, rfl⟩ := List.mem_map.1 hq
    exact DataQuery.ofJson?_ofModel m w
  rw [ofJson?, hrecord]
  simp [Record.required?, hqueries]

end Request

/-! ## Frames and requests -/

/-- **What is written is read again.** A frame is the one that its text is read as,
if no column of it has floating-point numbers; and a request that is put together
from models and windows is the one that its text is read as, and has the models
to be read from its queries. -/
theorem documents_roundTrip :
    (∀ f : Frame, (∀ c ∈ f.columns, c.values.type ≠ .float) →
      (Json.read? f.toJson.compact.toList).bind Frame.ofJson? = some f) ∧
    ∀ queries : List (QueryModel × TimeWindow),
      (Json.read? (Request.ofModels queries).toJson.compact.toList).bind Request.ofJson?
          = some (Request.ofModels queries) ∧
        (Request.ofModels queries).queries.map (fun q => QueryModel.read q.model)
          = queries.map (fun q => .ok q.1) := by
  refine ⟨fun f hfloat => Frame.read?_compact hfloat, fun queries => ⟨?_, ?_⟩⟩
  · rw [Json.read?_compact (Request.plain_ofModels queries), Option.bind_some,
      Request.ofJson?_ofModels]
  · rw [Request.ofModels, List.map_map]
    refine List.map_congr_left (fun q _ => ?_)
    rw [Function.comp_apply, DataQuery.ofModel, QueryModel.read_toFreeForm]

/-- A frame with a leap second in the year before the first, and with characters
that have to be escaped. -/
def signedYear : Frame :=
  ⟨"\"é\"", [⟨"at", .ofList [("zone", "\x01")],
    ⟨.time, [some ⟨-62167219201, 1500000000, by decide⟩, none]⟩⟩], none⟩

/-- The text of that frame. -/
def signedYearText : String :=
  "\x7b\"name\":\"\\\"é\\\"\",\"columns\":[\x7b\"name\":\"at\",\"labels\":\x7b\"zone\":\"\\u0001\"\x7d,"
    ++ "\"values\":\x7b\"type\":\"time\",\"values\":[\"-0001-12-31T23:59:60.500Z\",null]\x7d\x7d],"
    ++ "\"meta\":\x7b\x7d\x7d"

theorem documents_roundTrip_signedYear :
    signedYear.toJson.compact = signedYearText ∧
      (Json.read? signedYearText.toList).bind Frame.ofJson? = some signedYear := by
  have htext : signedYear.toJson.compact = signedYearText := by decide +kernel
  have hread := documents_roundTrip.1 signedYear (by decide)
  rw [htext] at hread
  exact ⟨htext, hread⟩

end WindowQuery
