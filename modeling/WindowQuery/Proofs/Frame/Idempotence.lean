import WindowQuery.Proofs.Frame.FirstFault
import WindowQuery.Proofs.Frame.Labels

/-!
# Shaping twice

A frame that was shaped is looked at anew when it is shaped again: what it is
then is decided by the types of the columns it has now. `kind_infer` says this
by the columns that play the roles, without their places.

A pivot puts the times first and after them takes types from value columns
only. So it has no column of texts, whatever else it has, and cannot be long
again (`factorColumns_toWide`). A value column of times is no difficulty: the
times of the pivot stand before its series and are found first. The pivot could
still fail to be wide, by having no series at all; where the columns are equally
long and there are rows it has some (`kind_toWide`).
-/

namespace WindowQuery

namespace Pivot

theorem isEmpty_columnsAt {f : Frame} {places : List Nat} (h : ∀ i ∈ places, i < f.columns.length) :
    (columnsAt f places).isEmpty = places.isEmpty := by
  cases places with
  | nil => rfl
  | cons i places =>
    rw [columnsAt, List.filterMap_cons_some (List.getElem?_eq_getElem (h i List.mem_cons_self))]
    rfl

theorem isNone_timeColumn? (f : Frame) : f.timeColumn?.isNone = (Schema.infer f).time.isNone := by
  rw [← timeColumn?_eq]
  cases htime : (Schema.infer f).time with
  | none => rfl
  | some i =>
    have hi : i < f.columns.length := (List.findIdx?_eq_some_iff_getElem.1 htime).1
    rw [Option.bind_some, List.getElem?_eq_getElem hi]
    rfl

/-- **What a frame is, by the columns that play the roles.** -/
theorem kind_infer (f : Frame) : (Schema.infer f).kind =
    if f.timeColumn?.isNone ∨ f.valueColumns.isEmpty then .not
    else if f.factorColumns.isEmpty then .wide
    else .long := by
  rw [isNone_timeColumn?, ← columnsAt_values, ← columnsAt_factors,
    isEmpty_columnsAt (fun _ => lt_of_mem_values), isEmpty_columnsAt (fun _ => lt_of_mem_factors)]
  rfl

/-! ## The roles in a pivot -/

theorem not_isText_of_mem_series {f : Frame} {times : List Instant} {c : Column}
    (hc : c ∈ (distinctKeys f.tuples).flatMap
      (fun k => f.valueColumns.map (seriesOver f times k))) :
    c.isText = false := by
  obtain ⟨k, -, hk⟩ := List.mem_flatMap.1 hc
  obtain ⟨v, hv, rfl⟩ := List.mem_map.1 hk
  have hvalue : (!v.isText) = true := (List.mem_filter.1 hv).2
  exact Bool.eq_false_of_not_eq_true' hvalue

section

variable {f g : Frame} (h : toWide f (Schema.infer f) = .ok g)

include h

/-- **A pivot has no factors.** -/
theorem factorColumns_toWide : g.factorColumns = [] := by
  obtain ⟨name, times, hcolumns⟩ := columns_of_toWide h
  refine List.filter_eq_nil_iff.2 (fun c hc => ?_)
  rw [hcolumns] at hc
  rcases List.mem_cons.1 hc with rfl | hc
  · exact Bool.false_ne_true
  · exact Bool.eq_false_iff.1 (not_isText_of_mem_series hc)

/-- **Its times are those of its first column**, and all others hold values. -/
theorem timeColumn?_toWide : ∃ (name : String) (times : List Instant),
    g.timeColumn? = some (.ofValues name ⟨.time, times.map some⟩) ∧
      g.valueColumns = (distinctKeys f.tuples).flatMap
        (fun k => f.valueColumns.map (seriesOver f times k)) := by
  obtain ⟨name, times, hcolumns⟩ := columns_of_toWide h
  refine ⟨name, times, ?_, ?_⟩
  · rw [Frame.timeColumn?, hcolumns]
    rfl
  · rw [Frame.valueColumns, hcolumns]
    refine List.filter_eq_self.2 (fun c hc => ?_)
    rw [not_isText_of_mem_series hc]
    rfl

/-- **A pivot of rows is wide**, if there is a row and a value column. All columns
behind the times are value columns of the long frame, and these are no texts, so
that no factor is left to make the frame long again. -/
theorem kind_toWide (hvalues : f.valueColumns ≠ []) (htuples : f.tuples ≠ []) :
    (Schema.infer g).kind = .wide := by
  obtain ⟨name, times, htime, hseries⟩ := timeColumn?_toWide h
  obtain ⟨k, hk⟩ := List.exists_mem_of_ne_nil _ htuples
  obtain ⟨v, hv⟩ := List.exists_mem_of_ne_nil _ hvalues
  have hmem : seriesOver f times k v ∈ g.valueColumns := by
    rw [hseries]
    exact List.mem_flatMap.2 ⟨k, mem_distinctKeys.2 hk, List.mem_map_of_mem hv⟩
  have hsome : ¬(g.timeColumn?.isNone ∨ g.valueColumns.isEmpty) := by
    rintro (hnone | hempty)
    · rw [htime] at hnone
      cases hnone
    · rw [List.isEmpty_iff.1 hempty] at hmem
      cases hmem
  rw [kind_infer, if_neg hsome, factorColumns_toWide h]
  rfl

end

theorem valueColumns_ne_nil {f : Frame} (h : (Schema.infer f).kind = .long) :
    f.valueColumns ≠ [] := by
  intro hnil
  rw [kind_infer, if_pos (.inr (List.isEmpty_iff.2 hnil))] at h
  cases h

theorem tuples_ne_nil {f : Frame} (haligned : f.Aligned) (hrows : f.rowCount ≠ 0)
    (hlong : (Schema.infer f).kind = .long) : f.tuples ≠ [] := by
  obtain ⟨timeColumn, htime⟩ := exists_timeColumn_of_long hlong
  intro hnil
  have hlength : f.tuples.length = f.rowCount := by
    rw [Frame.tuples, List.length_map, List.length_range, length_times haligned htime]
  rw [hnil] at hlength
  exact hrows hlength.symm

/-! ## Shaping again -/

/-- A frame that is not long is left as it is. -/
theorem shape_of_not_long {f : Frame} (h : (Schema.infer f).kind ≠ .long) (format : ResultFormat) :
    f.shape format = .ok f := by
  cases format with
  | table => rfl
  | timeSeries =>
    rw [Frame.shape]
    split
    · next hlong => exact absurd hlong h
    · rfl

/-- **A frame that was shaped is left as it is.** It is the frame that it was, or
the pivot of a long frame with rows, which is wide, or what is left of a long
frame without rows, which is no time series. -/
theorem shape_shape {f g : Frame} {format : ResultFormat} (haligned : f.Aligned)
    (h : f.shape format = .ok g) :
    g.shape format = .ok g ∧
      (((format = .table ∨ (Schema.infer f).kind ≠ .long) ∧ g = f) ∨
        (format = .timeSeries ∧ (Schema.infer f).kind = .long ∧
          ((f.rowCount ≠ 0 ∧ (Schema.infer g).kind = .wide) ∨
            (f.rowCount = 0 ∧ g = f.emptied ∧ (Schema.infer g).kind = .not)))) := by
  rcases Frame.shape_eq_ok h with ⟨hsame, rfl⟩ | ⟨rfl, hlong, ⟨hrows, rfl⟩ | ⟨hrows, hwide⟩⟩
  · exact ⟨h, .inl ⟨hsame, rfl⟩⟩
  · exact ⟨rfl, .inr ⟨rfl, hlong, .inr ⟨hrows, rfl, rfl⟩⟩⟩
  · have hkind : (Schema.infer g).kind = .wide :=
      kind_toWide hwide (valueColumns_ne_nil hlong) (tuples_ne_nil haligned hrows hlong)
    have hnot : (Schema.infer g).kind ≠ .long := by
      rw [hkind]
      decide
    exact ⟨shape_of_not_long hnot _, .inr ⟨rfl, hlong, .inl ⟨hrows, hkind⟩⟩⟩

/-- Two series whose value column stands before the times, and further times
among the values. -/
def laterTimes : Frame :=
  ⟨"hosts", [.ofValues "up" ⟨.boolean, [some true, none, some false]⟩,
    .ofValues "time" ⟨.time, [some .epoch, some .epoch, some firstMinute]⟩,
    .ofValues "host" ⟨.string, [some "a", none, none]⟩,
    .ofValues "since" ⟨.time, [some firstMinute, none, some .epoch]⟩], none⟩

/-- Their pivot. -/
def laterTimesWide : Frame :=
  ⟨"hosts", [.ofValues "time" ⟨.time, [some .epoch, some firstMinute]⟩,
    ⟨"up", .ofList [("host", "a")], ⟨.boolean, [some true, none]⟩⟩,
    ⟨"since", .ofList [("host", "a")], ⟨.time, [some firstMinute, none]⟩⟩,
    ⟨"up", .ofList [("host", "")], ⟨.boolean, [none, some false]⟩⟩,
    ⟨"since", .ofList [("host", "")], ⟨.time, [none, some .epoch]⟩⟩], none⟩

/-- The pivot of these rows is wide, and shaping leaves it as it is. -/
theorem shape_shape_laterTimes :
    laterTimes.Aligned ∧ laterTimes.shape .timeSeries = .ok laterTimesWide ∧
      laterTimesWide.shape .timeSeries = .ok laterTimesWide ∧
      (((ResultFormat.timeSeries = .table ∨ (Schema.infer laterTimes).kind ≠ .long) ∧
          laterTimesWide = laterTimes) ∨
        (ResultFormat.timeSeries = .timeSeries ∧ (Schema.infer laterTimes).kind = .long ∧
          ((laterTimes.rowCount ≠ 0 ∧ (Schema.infer laterTimesWide).kind = .wide) ∨
            (laterTimes.rowCount = 0 ∧ laterTimesWide = laterTimes.emptied ∧
              (Schema.infer laterTimesWide).kind = .not)))) := by
  have haligned : laterTimes.Aligned := by
    unfold Frame.Aligned
    decide
  have hwide : laterTimes.shape .timeSeries = .ok laterTimesWide := by decide +kernel
  exact ⟨haligned, hwide, shape_shape haligned hwide⟩

end Pivot

end WindowQuery
