import WindowQuery.Frame.Document
import WindowQuery.Proofs.Instant.Text
import WindowQuery.Proofs.Json.Record

/-!
# Documents of frames, read back

Each part of a frame has two facts: its document is one whose text says all of it,
and it is read from its document. The entries of a column are where both need a
condition. A floating-point number is rounded when it is read, and one that is
not finite is written as `null`, which is how a missing entry is written; no other
entry is (`ColumnType.entryToJson_ne_null`).
-/

namespace WindowQuery

open Json (Plain Record)

/-! ## Instants and windows -/

namespace Instant

theorem plain_toJson (t : Instant) : t.toJson.Plain := .string t.documentText

/-- **An instant is read from its document**, whatever its year and its fraction. -/
theorem ofJson?_toJson (t : Instant) : ofJson? t.toJson = some t := by
  rw [ofJson?, toJson, Json.string?, Option.bind_some, documentText, String.toList_ofList,
    readRelaxed?_documentChars]

end Instant

namespace TimeWindow

theorem plain_toJson (w : TimeWindow) : w.toJson.Plain :=
  .object (List.forall_mem_cons.2 ⟨w.start.plain_toJson,
    List.forall_mem_singleton.2 w.stop.plain_toJson⟩)

theorem ofJson?_toJson (w : TimeWindow) : ofJson? w.toJson = some w := by
  have hrecord : w.toJson.record? ["from", "to"] false
      = some ⟨[("from", w.start.toJson), ("to", w.stop.toJson)], true⟩ :=
    Json.record?_object (by decide) (by simp) false
  rw [ofJson?, hrecord]
  simp [Record.required?, Instant.ofJson?_toJson]

end TimeWindow

/-! ## Columns -/

namespace ColumnType

theorem ofTag?_tag (t : ColumnType) : ofTag? t.tag = some t := by
  cases t <;> decide

variable {t : ColumnType} (hfloat : t ≠ .float)

include hfloat

theorem plain_entryToJson (x : t.Entry) : (t.entryToJson x).Plain := by
  cases t with
  | time => exact Instant.plain_toJson x
  | integer => exact .integer (Int64.le_toInt x) (Int.lt_trans (Int64.toInt_lt x) (by decide))
  | float => exact absurd rfl hfloat
  | string => exact .string x
  | boolean => exact .bool x

theorem entryToJson_ne_null (x : t.Entry) : t.entryToJson x ≠ .null := by
  cases t with
  | float => exact absurd rfl hfloat
  | _ => exact fun h => by cases h

/-- **An entry that is no floating-point number is read from its document.** -/
theorem entryOfJson?_entryToJson (x : t.Entry) : t.entryOfJson? (t.entryToJson x) = some x := by
  cases t with
  | time => exact Instant.ofJson?_toJson x
  | integer => exact Json.word?_toInt x
  | float => exact absurd rfl hfloat
  | string => rfl
  | boolean => rfl

end ColumnType

namespace Values

variable {v : Values} (hfloat : v.type ≠ .float)

include hfloat

theorem plain_toJson : v.toJson.Plain := by
  have hentries : ∀ j ∈ v.entries.map (fun e => e.elim .null v.type.entryToJson), Plain j := by
    intro j hj
    obtain ⟨e, -, rfl⟩ := List.mem_map.1 hj
    cases e with
    | none => exact .null
    | some x => exact ColumnType.plain_entryToJson hfloat x
  refine .object (fun e he => ?_)
  simp only [List.mem_cons, List.not_mem_nil, or_false] at he
  rcases he with rfl | rfl
  · exact .string v.type.tag
  · exact .array hentries

theorem ofJson?_toJson : ofJson? v.toJson = some v := by
  have hrecord : v.toJson.record? ["type", "values"] false
      = some ⟨[("type", .string v.type.tag),
          ("values", .array (v.entries.map (fun e => e.elim .null v.type.entryToJson)))], true⟩ :=
    Json.record?_object (by decide) (by simp) false
  have hentries : Json.items? (Json.nullable? v.type.entryOfJson?)
      (.array (v.entries.map (fun e => e.elim .null v.type.entryToJson))) = some v.entries :=
    Json.items?_map (fun e _ => Json.nullable?_elim (ColumnType.entryOfJson?_entryToJson hfloat)
      (ColumnType.entryToJson_ne_null hfloat) e)
  rw [ofJson?, hrecord]
  simp [Record.required?, Json.choice?, ColumnType.ofTag?_tag, hentries]

end Values

namespace Column

variable {c : Column}

/-- **A column is written with its labels or without**, and without them only if it
has none. -/
theorem toJson_cases (c : Column) :
    (c.labels = .empty ∧ c.toJson = .object [("name", .string c.name),
        ("values", c.values.toJson)]) ∨
      c.toJson = .object [("name", .string c.name),
        ("labels", .object (c.labels.entries.map (fun e => (e.1, .string e.2)))),
        ("values", c.values.toJson)] := by
  unfold toJson
  cases hempty : c.labels.isEmpty with
  | true =>
    refine .inl ⟨?_, rfl⟩
    have hentries : c.labels.entries = [] := List.isEmpty_iff.1 hempty
    rw [← c.labels.ofList_entries, hentries]
    rfl
  | false => exact .inr rfl

variable (hfloat : c.values.type ≠ .float)

include hfloat

theorem plain_toJson : c.toJson.Plain := by
  have hname : Plain (.string c.name) := .string c.name
  have hvalues : c.values.toJson.Plain := Values.plain_toJson hfloat
  have hlabels : ∀ e ∈ c.labels.entries.map (fun e => (e.1, Json.string e.2)), e.2.Plain := by
    intro e he
    obtain ⟨label, -, rfl⟩ := List.mem_map.1 he
    exact .string label.2
  rcases c.toJson_cases with ⟨-, h⟩ | h
  · rw [h]
    exact .object (List.forall_mem_cons.2 ⟨hname, List.forall_mem_singleton.2 hvalues⟩)
  · rw [h]
    exact .object (List.forall_mem_cons.2 ⟨hname, List.forall_mem_cons.2 ⟨.object hlabels,
      List.forall_mem_singleton.2 hvalues⟩⟩)

/-- **A column is read from its document**, its labels left out or not. -/
theorem ofJson?_toJson : ofJson? c.toJson = some c := by
  have hvalues : Values.ofJson? c.values.toJson = some c.values := Values.ofJson?_toJson hfloat
  rcases c.toJson_cases with ⟨hlabels, h⟩ | h
  · have hrecord : c.toJson.record? ["name", "labels", "values"] false
        = some ⟨[("name", .string c.name), ("values", c.values.toJson)], true⟩ := by
      rw [h]
      exact Json.record?_object (by decide) (by simp) false
    rw [ofJson?, hrecord]
    simp [Record.required?, Record.withDefault?, hvalues, ← hlabels]
  · have hrecord : c.toJson.record? ["name", "labels", "values"] false
        = some ⟨[("name", .string c.name),
          ("labels", .object (c.labels.entries.map (fun e => (e.1, .string e.2)))),
          ("values", c.values.toJson)], true⟩ := by
      rw [h]
      exact Json.record?_object (by decide) (by simp) false
    have hlabels : Json.keyed? Json.string?
        (.object (c.labels.entries.map (fun e => (e.1, .string e.2)))) = some c.labels :=
      Json.keyed?_map Json.string?_string c.labels
    rw [ofJson?, hrecord]
    simp [Record.required?, Record.withDefault?, hvalues, hlabels]

end Column

/-! ## Frames -/

namespace Frame

theorem plain_metaToJson (query : Option String) : (metaToJson query).Plain := by
  cases query with
  | none => exact .object (fun e he => by cases he)
  | some sql => exact .object (by simp [Plain.string])

theorem metaOfJson?_metaToJson (query : Option String) :
    metaOfJson? (metaToJson query) = some query := by
  cases query <;> rfl

variable {f : Frame} (hfloat : ∀ c ∈ f.columns, c.values.type ≠ .float)

include hfloat

theorem plain_toJson : f.toJson.Plain := by
  have hcolumns : ∀ j ∈ f.columns.map Column.toJson, Plain j := by
    intro j hj
    obtain ⟨c, hc, rfl⟩ := List.mem_map.1 hj
    exact Column.plain_toJson (hfloat c hc)
  exact .object (List.forall_mem_cons.2 ⟨.string f.name, List.forall_mem_cons.2 ⟨.array hcolumns,
    List.forall_mem_singleton.2 (plain_metaToJson f.query)⟩⟩)

theorem ofJson?_toJson : ofJson? f.toJson = some f := by
  have hrecord : f.toJson.record? ["name", "columns", "meta"] false
      = some ⟨[("name", .string f.name), ("columns", .array (f.columns.map Column.toJson)),
          ("meta", metaToJson f.query)], true⟩ :=
    Json.record?_object (by decide) (by simp) false
  have hcolumns : Json.items? Column.ofJson? (.array (f.columns.map Column.toJson))
      = some f.columns := Json.items?_map (fun c hc => Column.ofJson?_toJson (hfloat c hc))
  rw [ofJson?, hrecord]
  simp [Record.required?, Record.withDefault?, hcolumns,
    metaOfJson?_metaToJson]

/-- **A frame without floating-point numbers is read from its text.** -/
theorem read?_compact : (Json.read? f.toJson.compact.toList).bind ofJson? = some f := by
  rw [Json.read?_compact (plain_toJson hfloat), Option.bind_some, ofJson?_toJson hfloat]

end Frame

end WindowQuery
