import WindowQuery.Proofs.Frame.Shape

/-!
# A pivot that looks where it reads and writes

A pivot gets at columns by their places, at entries by their rows, and it
writes entries into slots. `Pivot.toWide` does all this by look-ups that
answer nothing beyond an end and by writes that do nothing there, so that
by itself it cannot tell whether it ever went too far. `toWideChecked` is
the same pivot with every one of these accesses checked: it stops where one
is beyond the end of a column, of the columns, or of the times.

On a frame whose columns are equally long it never does
(`toWideChecked_infer`). The places are those of the schema that is
inferred, which are places of columns; the rows are those of the time
column; and the slots are those that `Placed` says hold the time of their
row.
-/

namespace WindowQuery

namespace Pivot

/-- Why a pivot stops that looks where it reads and writes. -/
inductive Stop where
  /-- It would go beyond an end. -/
  | beyondEnd
  /-- The frame has no wide form. -/
  | refused (error : ReshapeError)

/-- What stands at a place that has to be there. -/
def read {α : Type} (xs : List α) (i : Nat) : Except Stop α := xs[i]?.elim (.error .beyondEnd) .ok

/-- The factor of a column in a row that has to be there. -/
def readFactor (row : Nat) (c : Column) : Except Stop (Option String) :=
  (read c.values.entries row).map (fun _ => factorAt row c)

/-- The key of a row that has to be there. -/
def readKey (f : Frame) (s : Schema) (row : Nat) : Except Stop Key :=
  (s.factors.mapM (read f.columns)).bind (fun factors => factors.mapM (readFactor row))

/-- Places the rows from a number on. -/
def placeRowsChecked (f : Frame) (s : Schema) (p : Progress) (row : Nat) :
    List (Option Instant) → Except Stop Progress
  | [] => .ok p
  | time :: rest =>
    (readKey f s row).bind (fun key =>
      ((placeRow (fun _ => key) p row time).mapError .refused).bind (fun p' =>
        placeRowsChecked f s p' (row + 1) rest))

/-- Copies an entry from a row to a slot that both have to be there. -/
def copyEntry (v : Values) (slot : Nat) (source : Values) (row : Nat) : Except Stop Values :=
  if slot < v.length ∧ row < source.length then .ok (v.setFrom slot source row)
  else .error .beyondEnd

/-- The column of a series and a value column. -/
def seriesColumnChecked (factors : List Column) (p : Progress) (key : Key) (source : Column) :
    Except Stop Column :=
  ((p.placements.toList.filter (fun q => q.key == key)).foldlM
      (fun v q => copyEntry v q.slot source.values q.row)
      (.nulls source.values.type p.times.size)).map
    (fun v => ⟨source.name, labelsOf factors key, v⟩)

/-- The columns of all series, in order. -/
def seriesChecked (f : Frame) (s : Schema) (p : Progress) : Except Stop (List Column) :=
  (s.factors.mapM (read f.columns)).bind (fun factors =>
    (s.values.mapM (read f.columns)).bind (fun sources =>
      ((distinctKeys (p.placements.toList.map (·.key))).mapM (fun key =>
        sources.mapM (seriesColumnChecked factors p key))).map List.flatten))

/-- **The wide form of a frame**, every access checked. -/
def toWideChecked (f : Frame) (s : Schema) : Except Stop Frame :=
  match s.time with
  | none => .error (.refused .noTimeColumn)
  | some i =>
    (read f.columns i).bind (fun timeColumn =>
      ((times? timeColumn).mapError .refused).bind (fun times =>
        (placeRowsChecked f s ⟨#[], #[]⟩ 0 times).bind (fun p =>
          (seriesChecked f s p).map (fun series =>
            ⟨f.name, .ofValues timeColumn.name ⟨.time, p.times.toList.map some⟩ :: series,
              f.query⟩))))

/-! ## Accesses that are in range -/

theorem read_eq_ok {α : Type} {xs : List α} {i : Nat} (h : i < xs.length) :
    read xs i = .ok xs[i] := by
  rw [read, List.getElem?_eq_getElem h]
  rfl

/-- Places that are all there. -/
theorem mapM_read {α : Type} {xs : List α} {places : List Nat} (h : ∀ i ∈ places, i < xs.length) :
    places.mapM (read xs) = .ok (places.filterMap (fun i => xs[i]?)) := by
  induction places with
  | nil => rfl
  | cons i places ih =>
    have hi : i < xs.length := h i List.mem_cons_self
    rw [List.mapM_cons, read_eq_ok hi, ih (fun j hj => h j (List.mem_cons_of_mem _ hj)),
      List.filterMap_cons_some (List.getElem?_eq_getElem hi)]
    rfl

theorem readFactor_eq_ok {row : Nat} {c : Column} (h : row < c.values.length) :
    readFactor row c = .ok (factorAt row c) := by
  rw [readFactor, read_eq_ok h]
  rfl

theorem lt_of_mem_placesWhere {columns : List Column} {p : Nat → Column → Bool} {i : Nat}
    (h : i ∈ Schema.placesWhere columns p) : i < columns.length := by
  obtain ⟨⟨c, j⟩, hmem, rfl⟩ := List.mem_map.1 h
  exact (List.getElem?_eq_some_iff.1 (List.mem_zipIdx_iff_getElem?.1
    (List.mem_of_mem_filter hmem))).1

theorem lt_of_mem_factors {f : Frame} {i : Nat} (h : i ∈ (Schema.infer f).factors) :
    i < f.columns.length := by
  simp only [Schema.infer] at h
  exact lt_of_mem_placesWhere h

theorem lt_of_mem_values {f : Frame} {i : Nat} (h : i ∈ (Schema.infer f).values) :
    i < f.columns.length := by
  simp only [Schema.infer] at h
  exact lt_of_mem_placesWhere h

theorem mem_of_mem_columnsAt {f : Frame} {places : List Nat} {c : Column}
    (h : c ∈ columnsAt f places) : c ∈ f.columns := by
  obtain ⟨i, -, hi⟩ := List.mem_filterMap.1 h
  exact List.mem_of_getElem? hi

/-- **The key of a row is in range** where the columns of the factors are as long
as there are rows. -/
theorem readKey_eq_ok {f : Frame} {s : Schema} {row : Nat}
    (hs : ∀ i ∈ s.factors, i < f.columns.length)
    (hrow : ∀ c ∈ f.columns, row < c.values.length) : readKey f s row = .ok (keyAt f s row) := by
  rw [readKey, mapM_read hs]
  exact mapM_eq_ok (fun c hc => readFactor_eq_ok (hrow c (mem_of_mem_columnsAt hc)))

/-- **The pass over the rows** looks up keys in range only. -/
theorem placeRowsChecked_eq {f : Frame} {s : Schema} {row : Nat} {times : List (Option Instant)}
    (h : ∀ r, r < row + times.length → readKey f s r = .ok (keyAt f s r)) (p : Progress) :
    placeRowsChecked f s p row times = (placeRows (keyAt f s) p row times).mapError .refused := by
  induction times generalizing row p with
  | nil => rfl
  | cons time rest ih =>
    have hrow : row < row + (time :: rest).length :=
      Nat.lt_add_of_pos_right (Nat.succ_pos rest.length)
    have hrest : ∀ r, r < row + 1 + rest.length → readKey f s r = .ok (keyAt f s r) := fun r hr =>
      h r (by rw [List.length_cons]; omega)
    rw [placeRowsChecked, h row hrow]
    show ((placeRow (keyAt f s) p row time).mapError .refused).bind (fun p' =>
      placeRowsChecked f s p' (row + 1) rest) = _
    rw [funext (ih hrest), bind_mapError]
    rfl

@[simp] theorem length_setFrom (v : Values) (slot : Nat) (source : Values) (row : Nat) :
    (v.setFrom slot source row).length = v.length := by
  unfold Values.setFrom
  split
  · split
    · exact List.length_set
    · rfl
  · rfl

/-- Copies in range change no length, so that those after them are in range
too. -/
theorem foldlM_copyEntry {source v : Values} {qs : List Placement}
    (h : ∀ q ∈ qs, q.slot < v.length ∧ q.row < source.length) :
    qs.foldlM (fun v q => copyEntry v q.slot source q.row) v
      = .ok (qs.foldl (fun v q => v.setFrom q.slot source q.row) v) := by
  induction qs generalizing v with
  | nil => rfl
  | cons q qs ih =>
    rw [List.foldlM_cons, copyEntry, if_pos (h q List.mem_cons_self), List.foldl_cons]
    refine ih (fun q' hq' => ?_)
    rw [length_setFrom]
    exact h q' (List.mem_cons_of_mem _ hq')

/-- **The column of a series** reads and writes in range. -/
theorem seriesColumnChecked_eq {keyOf : Nat → Key} {rowTimes : List Instant} {p : Progress}
    (h : Placed keyOf rowTimes p) {source : Column}
    (hsource : source.values.length = rowTimes.length)
    (factors : List Column) (key : Key) :
    seriesColumnChecked factors p key source = .ok (seriesColumn factors p key source) := by
  rw [seriesColumnChecked, foldlM_copyEntry]
  · rfl
  · intro q hq
    obtain ⟨-, t, hrow, hslot⟩ := h.placed q (List.mem_of_mem_filter hq)
    refine ⟨?_, ?_⟩
    · show q.slot < (List.replicate p.times.size none).length
      rw [List.length_replicate]
      exact (List.getElem?_eq_some_iff.1 hslot).1
    · rw [hsource]
      exact (List.getElem?_eq_some_iff.1 hrow).1

/-- **The columns of all series** read and write in range. -/
theorem seriesChecked_eq {f : Frame} {s : Schema} (hfactors : ∀ i ∈ s.factors, i < f.columns.length)
    (hvalues : ∀ i ∈ s.values, i < f.columns.length) {keyOf : Nat → Key} {rowTimes : List Instant}
    {p : Progress} (h : Placed keyOf rowTimes p)
    (hlength : ∀ c ∈ f.columns, c.values.length = rowTimes.length) :
    seriesChecked f s p = .ok ((distinctKeys (p.placements.toList.map (·.key))).flatMap
      (fun key => (columnsAt f s.values).map (seriesColumn (columnsAt f s.factors) p key))) := by
  have hseries : ∀ key ∈ distinctKeys (p.placements.toList.map (·.key)),
      (columnsAt f s.values).mapM (seriesColumnChecked (columnsAt f s.factors) p key)
        = .ok ((columnsAt f s.values).map (seriesColumn (columnsAt f s.factors) p key)) :=
    fun key _ => mapM_eq_ok (fun source hsource =>
      seriesColumnChecked_eq h (hlength source (mem_of_mem_columnsAt hsource)) _ key)
  rw [seriesChecked, mapM_read hfactors, mapM_read hvalues]
  show Except.map _ ((distinctKeys (p.placements.toList.map (·.key))).mapM fun key =>
    (columnsAt f s.values).mapM (seriesColumnChecked (columnsAt f s.factors) p key)) = _
  rw [mapM_eq_ok hseries]
  rfl

/-! ## The whole pivot -/

theorem length_of_times? {c : Column} {times : List (Option Instant)} (h : times? c = .ok times) :
    times.length = c.values.length := by
  obtain ⟨name, labels, type, entries⟩ := c
  cases type with
  | time => rw [← Except.ok.inj h]; rfl
  | _ => cases h

/-- **No access goes beyond an end** where the columns are equally long: the
pivot that looks finds the same wide form, or the same error. -/
theorem toWideChecked_infer {f : Frame} (h : f.Aligned) :
    toWideChecked f (Schema.infer f) = (toWide f (Schema.infer f)).mapError .refused := by
  have hfactors : ∀ i ∈ (Schema.infer f).factors, i < f.columns.length :=
    fun i hi => lt_of_mem_factors hi
  -- the two pivots are taken step by step, and at each step the places it reads are shown to be
  -- there
  unfold toWideChecked toWide
  cases htime : (Schema.infer f).time with
  | none => rfl
  | some i =>
    have hi : i < f.columns.length := (List.findIdx?_eq_some_iff_getElem.1 htime).1
    show (read f.columns i).bind _ = _
    rw [read_eq_ok hi, Option.bind_some, List.getElem?_eq_getElem hi]
    show ((times? f.columns[i]).mapError Stop.refused).bind _ = Except.mapError _ (Except.bind _ _)
    cases htimes : times? f.columns[i] with
    | error e => rfl
    | ok times =>
      have hlength : ∀ c ∈ f.columns, c.values.length = times.length := fun c hc => by
        rw [length_of_times? htimes, h c hc, h _ (List.getElem_mem hi)]
      have hkeys : ∀ r, r < 0 + times.length →
          readKey f (Schema.infer f) r = .ok (keyAt f (Schema.infer f) r) := fun r hr =>
        readKey_eq_ok hfactors (fun c hc => by rw [hlength c hc]; omega)
      show (placeRowsChecked f _ ⟨#[], #[]⟩ 0 times).bind _ = Except.mapError _ (Except.map _ _)
      rw [placeRowsChecked_eq hkeys]
      cases hrows : placeRows (keyAt f (Schema.infer f)) ⟨#[], #[]⟩ 0 times with
      | error e => rfl
      | ok p =>
        obtain ⟨rowTimes, rfl, hplaced⟩ := (Placed.start _).placeRows hrows
        show (seriesChecked f (Schema.infer f) p).map _ = _
        rw [seriesChecked_eq hfactors (fun i hi => lt_of_mem_values hi) hplaced
          (fun c hc => (hlength c hc).trans (List.length_map _))]
        rfl

end Pivot

end WindowQuery
