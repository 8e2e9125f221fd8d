import WindowQuery.Proofs.Frame.Shape
import WindowQuery.Proofs.Frame.Wide

/-!
# What the labels tell of a series

In the pivot two series are two tuples of factors, and a missing factor is
none of the texts. In the wide frame a series is only known by its labels,
and a label is a text: a missing factor is written as the empty one. So the
labels tell less than the tuples, and what exactly they tell is said here.
Where no two factor columns share a name, two series have the same labels
just if their tuples differ in nothing but missing against empty
(`toWide_labels`).

Such series are there: a missing factor and an empty one at the same time
are no repetition, and give two columns that nothing tells apart
(`not_labels_injective`).
-/

namespace WindowQuery

namespace Pivot

/-- **A tuple as its labels show it**: a missing factor is the empty text. -/
def Key.shown (key : Key) : List String := key.map (fun value => value.getD "")

@[simp] theorem length_shown (key : Key) : key.shown.length = key.length := List.length_map _

/-- The labels put what is shown under the names of the factors. -/
theorem labelsOf_eq (factors : List Column) (key : Key) :
    labelsOf factors key = .ofList ((factors.map Column.name).zip key.shown) := by
  rw [Key.shown, List.zip_map]
  rfl

/-- **Labels under different names tell what is shown**, and no more. -/
theorem labelsOf_inj {factors : List Column} (hnames : (factors.map Column.name).Nodup)
    {k k' : Key} (hk : k.length = factors.length) (hk' : k'.length = factors.length) :
    labelsOf factors k = labelsOf factors k' ↔ k.shown = k'.shown := by
  rw [labelsOf_eq, labelsOf_eq]
  refine Keyed.ofList_zip_inj hnames ?_ ?_
  · rw [length_shown, List.length_map, hk]
  · rw [length_shown, List.length_map, hk']

theorem length_of_mem_tuples {f : Frame} {k : Key} (h : k ∈ f.tuples) :
    k.length = f.factorColumns.length := by
  obtain ⟨r, -, rfl⟩ := List.mem_map.1 h
  exact List.length_map _

/-- **The column of a tuple and a value column**, over some times. -/
def seriesOver (f : Frame) (times : List Instant) (key : Key) (source : Column) : Column :=
  ⟨source.name, labelsOf f.factorColumns key, f.pivotValues times key source.values⟩

/-- The columns of a pivot that succeeds: the times, and one column for each tuple
and value column. -/
theorem columns_of_toWide {f g : Frame} (h : toWide f (Schema.infer f) = .ok g) :
    ∃ (name : String) (times : List Instant),
      g.columns = .ofValues name ⟨.time, times.map some⟩ ::
        (distinctKeys f.tuples).flatMap (fun k => f.valueColumns.map (seriesOver f times k)) := by
  obtain ⟨timeColumn, rowTimes, p, -, hf, hplaced, rfl⟩ := toWide_infer h
  refine ⟨timeColumn.name, p.times.toList, congrArg (List.cons _) ?_⟩
  rw [hplaced.keys_eq hf]
  exact List.flatMap_congr (fun k _ =>
    List.map_congr_left (fun v _ => hplaced.seriesColumn_eq hf k v))

/-- **What tells the series of a pivot apart.** After the times there is one
column for each tuple of the rows and each value column. Two of them from
the same value column have the same labels just if their tuples are shown
alike. -/
theorem toWide_labels {f g : Frame} (hnames : (f.factorColumns.map Column.name).Nodup)
    (h : toWide f (Schema.infer f) = .ok g) :
    ∃ (name : String) (times : List Instant) (series : List Key),
      series.Nodup ∧ (∀ k, k ∈ series ↔ k ∈ f.tuples) ∧
      g.columns = .ofValues name ⟨.time, times.map some⟩ ::
        series.flatMap (fun k => f.valueColumns.map (seriesOver f times k)) ∧
      ∀ k ∈ series, ∀ k' ∈ series, ∀ v ∈ f.valueColumns,
        (seriesOver f times k v).labels = (seriesOver f times k' v).labels
          ↔ k.shown = k'.shown := by
  obtain ⟨name, times, hcolumns⟩ := columns_of_toWide h
  refine ⟨name, times, distinctKeys f.tuples, nodup_distinctKeys _, fun k => mem_distinctKeys,
    hcolumns, ?_⟩
  intro k hk k' hk' v _
  exact labelsOf_inj hnames (length_of_mem_tuples (mem_distinctKeys.1 hk))
    (length_of_mem_tuples (mem_distinctKeys.1 hk'))

/-- Three rows at one time: their factor is a text, missing, and empty. -/
def missingAndEmpty : Frame :=
  ⟨"hosts", [.ofValues "time" ⟨.time, [some .epoch, some .epoch, some .epoch]⟩,
    .ofValues "host" ⟨.string, [some "a", none, some ""]⟩,
    .ofValues "up" ⟨.boolean, [some true, some true, some false]⟩], some "select"⟩

/-- Their wide form. -/
def missingAndEmptyWide : Frame :=
  ⟨"hosts", [.ofValues "time" ⟨.time, [some .epoch]⟩,
    ⟨"up", .ofList [("host", "a")], ⟨.boolean, [some true]⟩⟩,
    ⟨"up", .ofList [("host", "")], ⟨.boolean, [some true]⟩⟩,
    ⟨"up", .ofList [("host", "")], ⟨.boolean, [some false]⟩⟩], some "select"⟩

/-- The series of the three rows, told apart as far as they are shown. -/
theorem toWide_labels_missingAndEmpty :
    (missingAndEmpty.factorColumns.map Column.name).Nodup ∧
    toWide missingAndEmpty (Schema.infer missingAndEmpty) = .ok missingAndEmptyWide ∧
    ∃ (name : String) (times : List Instant) (series : List Key),
      series.Nodup ∧ (∀ k, k ∈ series ↔ k ∈ missingAndEmpty.tuples) ∧
      missingAndEmptyWide.columns = .ofValues name ⟨.time, times.map some⟩ ::
        series.flatMap (fun k =>
          missingAndEmpty.valueColumns.map (seriesOver missingAndEmpty times k)) ∧
      ∀ k ∈ series, ∀ k' ∈ series, ∀ v ∈ missingAndEmpty.valueColumns,
        (seriesOver missingAndEmpty times k v).labels
            = (seriesOver missingAndEmpty times k' v).labels
          ↔ k.shown = k'.shown := by
  have hnames : (missingAndEmpty.factorColumns.map Column.name).Nodup := by decide
  have hwide : toWide missingAndEmpty (Schema.infer missingAndEmpty) = .ok missingAndEmptyWide := by
    decide +kernel
  exact ⟨hnames, hwide, toWide_labels hnames hwide⟩

/-- **A missing factor and an empty one are two series with the same labels**, also
where the columns are equally long and no two factor columns share a name. -/
theorem not_labels_injective :
    ¬∀ f g : Frame, f.Aligned → (Schema.infer f).kind = .long →
      (f.factorColumns.map Column.name).Nodup → toWide f (Schema.infer f) = .ok g →
      ∀ k ∈ f.tuples, ∀ k' ∈ f.tuples, k ≠ k' → ∀ v ∈ f.valueColumns, ∀ c ∈ g.columns,
        ∀ c' ∈ g.columns, (∃ times, c = seriesOver f times k v) →
        (∃ times, c' = seriesOver f times k' v) → c.labels ≠ c'.labels := by
  intro hall
  have haligned : missingAndEmpty.Aligned := by
    unfold Frame.Aligned
    decide
  have hwide : toWide missingAndEmpty (Schema.infer missingAndEmpty) = .ok missingAndEmptyWide := by
    decide +kernel
  refine hall missingAndEmpty missingAndEmptyWide haligned (by decide) (by decide) hwide
    [none] (by decide) [some ""] (by decide) (by decide)
    (.ofValues "up" ⟨.boolean, [some true, some true, some false]⟩) ?_
    ⟨"up", .ofList [("host", "")], ⟨.boolean, [some true]⟩⟩ ?_
    ⟨"up", .ofList [("host", "")], ⟨.boolean, [some false]⟩⟩ ?_
    ⟨[.epoch], ?_⟩ ⟨[.epoch], ?_⟩ rfl
  · exact List.mem_singleton_self _
  · exact .tail _ (.tail _ (.head _))
  · exact .tail _ (.tail _ (.tail _ (.head _)))
  · decide +kernel
  · decide +kernel

end Pivot

end WindowQuery
