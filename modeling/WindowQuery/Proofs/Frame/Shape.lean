import WindowQuery.Proofs.Frame.Wide

/-!
# What shaping keeps

A frame that is asked for as time series may come back as it is, without
its columns, or pivoted; which of these is decided by its columns alone
(`Frame.shape_eq_ok`). All three keep the name and the SQL. They also keep
what a reader of the frame relies on: columns that were equally long stay
so, and no column appears whose name and type some column did not have
before (`KeepsColumns`). The pivot has this because a series column takes
both from its value column, and fills one slot for each time.
-/

namespace WindowQuery

namespace Frame

/-- **Whether every column has one entry for each row.** -/
def Aligned (f : Frame) : Prop := ∀ c ∈ f.columns, c.values.length = f.rowCount

theorem Aligned.of_length {f : Frame} {n : Nat} (h : ∀ c ∈ f.columns, c.values.length = n) :
    f.Aligned := by
  intro c hc
  unfold rowCount
  cases hcolumns : f.columns with
  | nil => rw [hcolumns] at hc; cases hc
  | cons first rest =>
    exact (h c hc).trans (h first (hcolumns ▸ List.mem_cons_self)).symm

/-- **All that shaping can do** where it succeeds: it leaves a frame that is asked
for as a table or is not long, it empties a long one without rows, and it pivots a
long one with rows. -/
theorem shape_eq_ok {f g : Frame} {format : ResultFormat} (h : f.shape format = .ok g) :
    ((format = .table ∨ (Schema.infer f).kind ≠ .long) ∧ g = f) ∨
      (format = .timeSeries ∧ (Schema.infer f).kind = .long ∧
        ((f.rowCount = 0 ∧ g = f.emptied) ∨
          (f.rowCount ≠ 0 ∧ Pivot.toWide f (Schema.infer f) = .ok g))) := by
  cases format with
  | table => exact .inl ⟨.inl rfl, (Except.ok.inj h).symm⟩
  | timeSeries =>
    cases hkind : (Schema.infer f).kind with
    | long =>
      simp only [shape, hkind] at h
      refine .inr ⟨rfl, rfl, ?_⟩
      split at h
      · next hrows => exact .inl ⟨hrows, (Except.ok.inj h).symm⟩
      · next hrows => exact .inr ⟨hrows, eq_ok_of_mapError_eq_ok h⟩
    | not =>
      simp only [shape, hkind] at h
      exact .inl ⟨.inr (by decide), (Except.ok.inj h).symm⟩
    | wide =>
      simp only [shape, hkind] at h
      exact .inl ⟨.inr (by decide), (Except.ok.inj h).symm⟩

end Frame

/-- **What a frame has of the frame that it was made of.** -/
structure KeepsColumns (f g : Frame) : Prop where
  /-- Its name. -/
  name_eq : g.name = f.name
  /-- Its SQL. -/
  query_eq : g.query = f.query
  /-- Columns that are as long as each other. -/
  aligned : f.Aligned → g.Aligned
  /-- The name and the type of each column. -/
  source : ∀ c ∈ g.columns, ∃ d ∈ f.columns, c.name = d.name ∧ c.values.type = d.values.type

/-- A pivot keeps all of it. -/
theorem Pivot.keepsColumns_toWide {f g : Frame} (h : toWide f (Schema.infer f) = .ok g) :
    KeepsColumns f g := by
  obtain ⟨timeColumn, rowTimes, p, htime, hf, hplaced, rfl⟩ := toWide_infer h
  -- Besides the times there are only columns of values at the points of a series.
  have hcolumn : ∀ c ∈ (distinctKeys (p.placements.toList.map (·.key))).flatMap (fun key =>
      f.valueColumns.map (seriesColumn f.factorColumns p key)), ∃ k, ∃ v ∈ f.valueColumns,
        c = ⟨v.name, labelsOf f.factorColumns k, f.pivotValues p.times.toList k v.values⟩ := by
    intro c hc
    obtain ⟨k, -, hk⟩ := List.mem_flatMap.1 hc
    obtain ⟨v, hv, rfl⟩ := List.mem_map.1 hk
    exact ⟨k, v, hv, hplaced.seriesColumn_eq hf k v⟩
  refine ⟨rfl, rfl, fun _ => .of_length (n := p.times.toList.length) (fun c hc => ?_),
    fun c hc => ?_⟩
  · rcases List.mem_cons.1 hc with rfl | hc
    · exact List.length_map _
    · obtain ⟨k, v, -, rfl⟩ := hcolumn c hc
      exact List.length_map _
  · rcases List.mem_cons.1 hc with rfl | hc
    · have hisTime : timeColumn.isTime = true := List.find?_some htime
      exact ⟨timeColumn, List.mem_of_find?_eq_some htime, rfl, (beq_iff_eq.1 hisTime).symm⟩
    · obtain ⟨k, v, hv, rfl⟩ := hcolumn c hc
      exact ⟨v, List.mem_of_mem_eraseP (List.mem_of_mem_filter hv), rfl, rfl⟩

/-- **Shaping keeps the name, the SQL and the columns**, whatever becomes of the
frame. -/
theorem Frame.keepsColumns_shape {f g : Frame} {format : ResultFormat}
    (h : f.shape format = .ok g) : KeepsColumns f g := by
  rcases shape_eq_ok h with ⟨-, rfl⟩ | ⟨-, -, ⟨-, rfl⟩ | ⟨-, hwide⟩⟩
  · exact ⟨rfl, rfl, id, fun c hc => ⟨c, hc, rfl, rfl⟩⟩
  · exact ⟨rfl, rfl, fun _ c hc => (by cases hc), fun c hc => (by cases hc)⟩
  · exact Pivot.keepsColumns_toWide hwide

end WindowQuery
