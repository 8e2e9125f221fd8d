import WindowQuery.Proofs.Frame.Permitted
import WindowQuery.Proofs.Frame.Reading

/-!
# Columns that find their type

A column whose header gives no type counts its missing cells, takes the type
of its first value, and goes on as a column of that type. One whose header
gives this very type goes on so from the beginning. The two come out alike,
but not quite: where missing values are zeros, the first column has no zero
to put in as long as it has no type, and what it has counted stays missing.
So they differ in the entries before the first value, and only under zeros
(`entriesOf_leadIn`).

Two things have to be seen to before they can be compared. The first value
must not be lost, so it has to convert to the type that it decides
(`isSome_convert?_of_naturalType`). And one of the tables must not fail where
the other succeeds: a column that names series may refuse its first value,
but then no header could have given it the type of that value
(`not_refusedAt_of_resolve`).
-/

namespace WindowQuery

/-! ## Entries before and after the first value -/

/-- **A value converts to its own type.** -/
theorem isSome_convert?_of_naturalType {cell : Cell} {t : ColumnType}
    (h : cell.naturalType = .known t) : (cell.convert? t).isSome = true := by
  cases cell with
  | null => cases h
  | _ =>
    obtain rfl := SemanticType.known.inj h
    rfl

theorem standIn_of_isNull (t : ColumnType) (fill : FillPolicy) {cells : List Cell}
    (h : ∀ c ∈ cells, c.isNull = true) : t.standIn fill cells = t.filler fill none := by
  rw [← filler_latest?, latest?_of_isNull t h]

/-- Only zeros are put in after no value. -/
theorem filler_none_of_ne_zero (t : ColumnType) {fill : FillPolicy} (h : fill ≠ .zero) :
    t.filler fill none = none := by
  cases fill with
  | null => rfl
  | previous => exact ite_self none
  | zero => exact absurd rfl h

/-- **After the lead-in** its length does not count. -/
theorem entryAt_of_le {t : ColumnType} {fill : FillPolicy} {lead i : Nat} (h : lead ≤ i)
    (cells : List Cell) : entryAt t fill lead cells i = entryAt t fill 0 cells i := by
  unfold entryAt
  rw [if_neg (Nat.not_lt.2 h), if_neg (Nat.not_lt_zero i)]

/-- The entries of some cells come before those of the cells after them. -/
theorem entriesOf_append (t : ColumnType) (fill : FillPolicy) (lead : Nat)
    (cells more : List Cell) :
    entriesOf t fill lead (cells ++ more) = entriesOf t fill lead cells ++
      (List.range more.length).map (fun i =>
        entryAt t fill lead (cells ++ more) (cells.length + i)) := by
  unfold entriesOf
  rw [List.length_append, List.range_add, List.map_append, List.map_map]
  refine congrArg₂ (· ++ ·) (List.map_congr_left fun i hi => ?_) rfl
  exact entryAt_append (List.mem_range.1 hi) more

/-- Missing cells under a header with a type all have the same entry. -/
theorem entriesOf_of_isNull (t : ColumnType) (fill : FillPolicy) {cells : List Cell}
    (h : ∀ c ∈ cells, c.isNull = true) :
    entriesOf t fill 0 cells = List.replicate cells.length (t.filler fill none) := by
  unfold entriesOf
  refine List.eq_replicate_iff.2
    ⟨by rw [List.length_map, List.length_range], fun entry hentry => ?_⟩
  obtain ⟨i, hi, rfl⟩ := List.mem_map.1 hentry
  have hlt := List.mem_range.1 hi
  have hnull : cells[i].isNull = true := h _ (List.getElem_mem hlt)
  unfold entryAt
  rw [if_neg (Nat.not_lt_zero i), List.getElem?_eq_getElem hlt, Option.bind_some,
    convert?_of_isNull hnull, Option.none_or]
  exact standIn_of_isNull t fill (fun c hc => h c (List.mem_of_mem_take hc))

/-- **Cells up to the first value**, which decides the type, or cells without a value. -/
theorem isNull_or_firstValue (cells : List Cell) :
    (∀ c ∈ cells, c.isNull = true) ∨
      ∃ nulls cell more t, cells = nulls ++ cell :: more ∧ (∀ c ∈ nulls, c.isNull = true) ∧
        cell.naturalType = .known t := by
  induction cells with
  | nil => exact .inl (fun c hc => by cases hc)
  | cons cell cells ih =>
    cases hcell : cell.naturalType with
    | known t => exact .inr ⟨[], cell, cells, t, rfl, fun c hc => (by cases hc), hcell⟩
    | unknown =>
      have hnull := naturalType_eq_unknown_iff.1 hcell
      rcases ih with hall | ⟨nulls, first, more, t, rfl, hnulls, hfirst⟩
      · exact .inl (List.forall_mem_cons.2 ⟨hnull, hall⟩)
      · exact .inr ⟨cell :: nulls, first, more, t, rfl, List.forall_mem_cons.2 ⟨hnull, hnulls⟩,
          hfirst⟩

/-- The first value decides the type and ends the lead-in, whatever comes after it. -/
theorem columnType_leadIn_split {nulls : List Cell} (h : ∀ c ∈ nulls, c.isNull = true) {cell : Cell}
    {t : ColumnType} (hcell : cell.naturalType = .known t) (more : List Cell) :
    columnType .unknown (nulls ++ cell :: more) = t ∧
      leadIn .unknown (nulls ++ cell :: more) = nulls.length := by
  have hvalue : ∃ c ∈ nulls ++ [cell], c.isNull = false :=
    ⟨cell, List.mem_append_right nulls (List.mem_singleton_self cell),
      not_isNull_of_naturalType hcell⟩
  obtain ⟨htype, hlead⟩ := columnType_leadIn_append (fun _ => hvalue) more
  obtain ⟨htype', hlead'⟩ := columnType_leadIn_concat h hcell
  rw [List.append_cons]
  exact ⟨htype.trans htype', hlead.trans hlead'⟩

/-- **A column that finds its type, beside one that has it.** Its entries before
the first value are missing, and those of the other are what the policy puts
in after no value. Then there is the first value in both, and they go on
alike. -/
theorem entriesOf_leadIn (fill : FillPolicy) (cells : List Cell) :
    ∃ tail : List (Option (columnType .unknown cells).Entry),
      (∀ entry ∈ tail.head?, entry.isSome = true) ∧
      entriesOf (columnType .unknown cells) fill (leadIn .unknown cells) cells
        = List.replicate (leadIn .unknown cells) none ++ tail ∧
      entriesOf (columnType .unknown cells) fill 0 cells
        = List.replicate (leadIn .unknown cells) ((columnType .unknown cells).filler fill none)
          ++ tail := by
  -- without a value all entries are of the lead-in; with one, they are split where it stands
  rcases isNull_or_firstValue cells with hnull | ⟨nulls, cell, more, t, rfl, hnulls, hcell⟩
  · refine ⟨[], fun entry hentry => (by cases hentry), ?_, ?_⟩
    · rw [leadIn_of_isNull hnull, List.append_nil]
      exact entriesOf_of_length_le _ fill (Nat.le_refl _)
    · rw [leadIn_of_isNull hnull, List.append_nil]
      exact entriesOf_of_isNull _ fill hnull
  · obtain ⟨htype, hlead⟩ := columnType_leadIn_split hnulls hcell more
    rw [htype, hlead]
    refine ⟨(List.range (cell :: more).length).map (fun i =>
      entryAt t fill 0 (nulls ++ cell :: more) (nulls.length + i)), ?_, ?_, ?_⟩
    · intro entry hentry
      obtain rfl : entryAt t fill 0 (nulls ++ cell :: more) nulls.length = entry := by
        simpa [List.range_succ_eq_map] using hentry
      obtain ⟨value, hvalue⟩ := Option.isSome_iff_exists.1 (isSome_convert?_of_naturalType hcell)
      simp [entryAt, hvalue]
    · rw [entriesOf_append, entriesOf_of_length_le t fill (Nat.le_refl _)]
      exact congrArg _ (List.map_congr_left fun i _ =>
        entryAt_of_le (Nat.le_add_right nulls.length i) _)
    · rw [entriesOf_append, entriesOf_of_isNull t fill hnulls]

/-! ## Tables that fail alike -/

/-- **Headers fail by the first that is refused**, or by what comes after one that is not. -/
theorem headerFault_cons_iff {h : Header} {headers : List Header} {e : FrameError} :
    HeaderFault (h :: headers) e ↔
      (∃ t, h.Refused t ∧
        e = .typeConflict TypeName.metricName (.declared h.typeName (.known t))) ∨
        (∀ t, ¬h.Refused t) ∧ HeaderFault headers e := by
  constructor
  · rintro ⟨before, after, h', t, heq, hbefore, ht⟩
    cases before with
    | nil =>
      obtain ⟨rfl, -⟩ := List.cons.inj heq
      exact .inl ⟨t, ht, rfl⟩
    | cons first before =>
      obtain ⟨rfl, hrest⟩ := List.cons.inj heq
      exact .inr ⟨hbefore h List.mem_cons_self, .declared before after h' t hrest
        (fun x hx => hbefore x (List.mem_cons_of_mem _ hx)) ht⟩
  · rintro (⟨t, ht, rfl⟩ | ⟨hfree, before, after, h', t, rfl, hbefore, ht⟩)
    · exact .declared [] headers h t rfl (fun x hx => by cases hx) ht
    · exact .declared (h :: before) after h' t rfl (List.forall_mem_cons.2 ⟨hfree, hbefore⟩) ht

/-- One header for another, where neither is refused. -/
theorem headerFault_set_iff {headers : List Header} {j : Nat} {header h : Header}
    (hj : headers[j]? = some header) (hheader : ∀ t, ¬header.Refused t) (hh : ∀ t, ¬h.Refused t)
    {e : FrameError} : HeaderFault (headers.set j h) e ↔ HeaderFault headers e := by
  have hnone : ∀ {x : Header} {p : ColumnType → Prop}, (∀ t, ¬x.Refused t) →
      ¬∃ t, x.Refused t ∧ p t := fun hx ⟨t, ht, _⟩ => hx t ht
  induction headers generalizing j with
  | nil => cases hj
  | cons first headers ih =>
    cases j with
    | zero =>
      obtain rfl := Option.some.inj hj
      rw [List.set_cons_zero, headerFault_cons_iff, headerFault_cons_iff,
        or_iff_right (hnone hheader), or_iff_right (hnone hh), and_iff_right hheader,
        and_iff_right hh]
    | succ j =>
      have hrest : HeaderFault (headers.set j h) e ↔ HeaderFault headers e := ih hj
      rw [List.set_cons_succ, headerFault_cons_iff, headerFault_cons_iff, hrest]

section

variable {headers headers' : List Header} {timeGrouped : Bool} {scans : List Scan}

/-- **Two lists of headers that refuse the same cells**, of the rows of a cursor. -/
def SameRefusals (headers headers' : List Header) (timeGrouped : Bool) (scans : List Scan) : Prop :=
  ∀ before row after, scans = before ++ .ok row :: after → ∀ j t,
    RefusedAt headers timeGrouped before row j t ↔ RefusedAt headers' timeGrouped before row j t

theorem SameRefusals.symm (h : SameRefusals headers headers' timeGrouped scans) :
    SameRefusals headers' headers timeGrouped scans := fun before row after hscans j t =>
  (h before row after hscans j t).symm

/-- Headers that refuse the same cells find the same fault in a scan. -/
theorem SameRefusals.fault (h : SameRefusals headers headers' timeGrouped scans)
    (hlength : headers.length = headers'.length) {before after : List Scan} {scan : Scan}
    (hscans : scans = before ++ scan :: after) {e : FrameError}
    (hfault : Fault headers timeGrouped before scan e) :
    Fault headers' timeGrouped before scan e := by
  cases hfault with
  | scan text => exact .scan text
  | width row hwidth =>
    rw [hlength]
    exact .width row (hlength ▸ hwidth)
  | cell row j t hwidth hrefused hleft =>
    have hrow := h before row after hscans
    exact .cell row j t (hwidth.trans hlength) ((hrow j t).1 hrefused)
      (fun j' hj' t' ht' => hleft j' hj' t' ((hrow j' t').2 ht'))

theorem SameRefusals.faultless (h : SameRefusals headers headers' timeGrouped scans)
    (hlength : headers.length = headers'.length) {first rest : List Scan}
    (hscans : scans = first ++ rest) (hfree : Faultless headers timeGrouped first) :
    Faultless headers' timeGrouped first := by
  intro before scan after hfirst e hfault
  have hcursor : scans = before ++ scan :: (after ++ rest) := by
    rw [hscans, hfirst, List.append_assoc, List.cons_append]
  exact hfree before scan after hfirst e (h.symm.fault hlength.symm hcursor hfault)

/-- **Tables that refuse the same cells fail alike**, where their headers do. -/
theorem SameRefusals.materialize_eq_error (h : SameRefusals headers headers' timeGrouped scans)
    (hlength : headers.length = headers'.length)
    (hheaders : ∀ e, HeaderFault headers e ↔ HeaderFault headers' e) {fill : FillPolicy}
    {e : FrameError} (herror : materialize headers scans timeGrouped fill = .error e) :
    materialize headers' scans timeGrouped fill = .error e := by
  rw [materialize_eq_error_iff] at herror ⊢
  simp only [← hheaders]
  refine herror.imp_right (And.imp_right ?_)
  rintro ⟨before, scan, after, hfirst⟩
  exact ⟨before, scan, after, hfirst.split, h.fault hlength hfirst.split hfirst.fault,
    h.faultless hlength hfirst.split hfirst.faultless⟩

end

/-! ## A type given and a type found -/

section

variable {headers : List Header} {j : Nat} {header : Header} {timeGrouped : Bool}
  {scans : List Scan} {typeName : String}

/-- **No first value is refused whose type a header could have given.** -/
theorem not_refusedAt_of_resolve (hj : headers[j]? = some header)
    (hknown : TypeName.resolve ⟨header.name, typeName⟩ timeGrouped
      = .ok (.known (columnType .unknown (cellsAt scans j))))
    {before after : List Scan} {row : List Cell} (hscans : scans = before ++ .ok row :: after)
    (t : ColumnType) : ¬RefusedAt headers timeGrouped before row j t := by
  intro hrefused
  obtain ⟨header', hheader', hname, -⟩ := hrefused.untyped
  obtain rfl := Option.some.inj (hj.symm.trans hheader')
  obtain ⟨cell, hcell, ht⟩ := hrefused.value
  have hcells : cellsAt scans j = cellsAt before j ++ cell :: cellsAt after j := by
    rw [hscans, ← cellsAt_cons hcell]
    exact List.filterMap_append
  have htype : columnType .unknown (cellsAt scans j) = t := by
    rw [hcells]
    exact (columnType_leadIn_split hrefused.first ht _).1
  rw [htype] at hknown
  have hpermitted : Permitted timeGrouped header.name t := Accumulator.Obeys.ofType hknown
  exact absurd hrefused.barred (Bool.eq_false_iff.1 (hpermitted.metric hname))

/-- **The two lists of headers refuse the same cells.** Only the column that has a
type under one of them could make a difference: there its first value is checked
under the other, and it passes because a header is refused where that would not.
Cells of other columns are refused under both or neither. -/
theorem sameRefusals_set (hj : headers[j]? = some header)
    (hknown : TypeName.resolve ⟨header.name, typeName⟩ timeGrouped
      = .ok (.known (columnType .unknown (cellsAt scans j)))) :
    SameRefusals headers (headers.set j ⟨header.name, typeName⟩) timeGrouped scans := by
  intro before row after hscans i t
  rcases eq_or_ne i j with rfl | hij
  · refine iff_of_false (not_refusedAt_of_resolve hj hknown hscans t) (fun hrefused => ?_)
    obtain ⟨declared, hdeclared, -, hunknown⟩ := hrefused.untyped
    rw [List.getElem?_set_self (List.getElem?_eq_some_iff.1 hj).1] at hdeclared
    obtain rfl := Option.some.inj hdeclared
    rw [hknown] at hunknown
    cases hunknown
  · have hat : (headers.set j ⟨header.name, typeName⟩)[i]? = headers[i]? :=
      List.getElem?_set_ne hij.symm
    constructor
    · intro h
      exact ⟨by rw [hat]; exact h.untyped, h.value, h.barred, h.first⟩
    · intro h
      exact ⟨by rw [← hat]; exact h.untyped, h.value, h.barred, h.first⟩

/-- **The table with the type given**: it fails as the table without fails, and
where that has columns it has the same, but for the one whose type is found. -/
theorem materialize_set (hj : headers[j]? = some header)
    (hunknown : TypeName.resolve header timeGrouped = .ok .unknown)
    (hknown : TypeName.resolve ⟨header.name, typeName⟩ timeGrouped
      = .ok (.known (columnType .unknown (cellsAt scans j)))) (fill : FillPolicy) :
    materialize (headers.set j ⟨header.name, typeName⟩) scans timeGrouped fill =
      (materialize headers scans timeGrouped fill).map (fun columns =>
        columns.set j (.ofValues header.name ⟨columnType .unknown (cellsAt scans j),
          entriesOf (columnType .unknown (cellsAt scans j)) fill 0 (cellsAt scans j)⟩)) := by
  have hsame := sameRefusals_set hj hknown
  have hlength : headers.length = (headers.set j ⟨header.name, typeName⟩).length :=
    List.length_set.symm
  have hfaults : ∀ e, HeaderFault (headers.set j ⟨header.name, typeName⟩) e ↔
      HeaderFault headers e := fun e =>
    headerFault_set_iff hj (Header.not_refused hunknown) (Header.not_refused hknown)
  cases hundeclared : materialize headers scans timeGrouped fill with
  | error e => exact hsame.materialize_eq_error hlength (fun e => (hfaults e).symm) hundeclared
  | ok columns =>
    cases hdeclared :
      materialize (headers.set j ⟨header.name, typeName⟩) scans timeGrouped fill with
    | error e =>
      have herror := hsame.symm.materialize_eq_error hlength.symm hfaults hdeclared
      rw [hundeclared] at herror
      cases herror
    | ok columns' =>
      obtain ⟨-, hcolumns, hat⟩ := materialize_column hundeclared
      obtain ⟨-, hcolumns', hat'⟩ := materialize_column hdeclared
      -- column by column: the one that is exchanged, and the others, whose headers are the same
      refine congrArg Except.ok (List.ext_getElem? fun i => ?_)
      rcases eq_or_ne i j with rfl | hij
      · have hlt : i < headers.length := (List.getElem?_eq_some_iff.1 hj).1
        obtain ⟨declared, hresolve, hvalues⟩ := hat' i _ (List.getElem?_set_self hlt)
        obtain rfl := Except.ok.inj (hknown.symm.trans hresolve)
        rw [hvalues, List.getElem?_set_self (hcolumns ▸ hlt)]
        rfl
      · rw [List.getElem?_set_ne hij.symm]
        cases hheader : headers[i]? with
        | none =>
          have hle : headers.length ≤ i := List.getElem?_eq_none_iff.1 hheader
          rw [List.getElem?_eq_none (hcolumns.trans_le hle),
            List.getElem?_eq_none ((hcolumns'.trans hlength.symm).trans_le hle)]
        | some h =>
          obtain ⟨declared, hresolve, hvalues⟩ := hat i h hheader
          obtain ⟨declared', hresolve', hvalues'⟩ :=
            hat' i h ((List.getElem?_set_ne hij.symm).trans hheader)
          obtain rfl := Except.ok.inj (hresolve.symm.trans hresolve')
          rw [hvalues, hvalues']

end

/-- **A column that finds its type is the column of that type.** The values of both
are of the type of the first value, and of texts if there is none. Each begins
with as many entries as there are missing cells before that value; those are
missing in the column that finds its type, and in the other they are what the
policy puts in after no value, a zero or nothing. All entries after them are the
same, the first of which is there. Whatever else the table holds stays as it is,
and so does the error if it fails, which a table of this column alone never
does. Unless missing values are zeros the two tables are the same. -/
theorem materialize_undeclared {headers : List Header} {j : Nat} {header : Header}
    (hj : headers[j]? = some header) {timeGrouped : Bool}
    (hunknown : TypeName.resolve header timeGrouped = .ok .unknown) {scans : List Scan}
    {typeName : String}
    (hknown : TypeName.resolve ⟨header.name, typeName⟩ timeGrouped
      = .ok (.known (columnType .unknown (cellsAt scans j)))) (fill : FillPolicy) :
    (∃ tail : List (Option (columnType .unknown (cellsAt scans j)).Entry),
      (∀ entry ∈ tail.head?, entry.isSome = true) ∧
      (∀ columns, materialize headers scans timeGrouped fill = .ok columns →
        columns[j]? = some (.ofValues header.name ⟨columnType .unknown (cellsAt scans j),
          List.replicate (leadIn .unknown (cellsAt scans j)) none ++ tail⟩)) ∧
      materialize (headers.set j ⟨header.name, typeName⟩) scans timeGrouped fill =
        (materialize headers scans timeGrouped fill).map (fun columns =>
          columns.set j (.ofValues header.name ⟨columnType .unknown (cellsAt scans j),
            List.replicate (leadIn .unknown (cellsAt scans j))
              ((columnType .unknown (cellsAt scans j)).filler fill none) ++ tail⟩))) ∧
    (fill ≠ .zero → materialize (headers.set j ⟨header.name, typeName⟩) scans timeGrouped fill =
      materialize headers scans timeGrouped fill) ∧
    (headers = [header] → Rectangular 1 scans →
      ∃ columns, materialize headers scans timeGrouped fill = .ok columns) := by
  obtain ⟨tail, hfirst, hfound, hgiven⟩ := entriesOf_leadIn fill (cellsAt scans j)
  have hset := materialize_set hj hunknown hknown fill
  have hcolumn : ∀ columns, materialize headers scans timeGrouped fill = .ok columns →
      columns[j]? = some (.ofValues header.name ⟨columnType .unknown (cellsAt scans j),
        List.replicate (leadIn .unknown (cellsAt scans j)) none ++ tail⟩) := by
    intro columns hcolumns
    obtain ⟨-, -, hat⟩ := materialize_column hcolumns
    obtain ⟨declared, hresolve, hvalues⟩ := hat j header hj
    obtain rfl := Except.ok.inj (hunknown.symm.trans hresolve)
    rw [hvalues, referenceValues, hfound]
  rw [hgiven] at hset
  refine ⟨⟨tail, hfirst, hcolumn, hset⟩, fun hfill => ?_, ?_⟩
  · rw [hset, filler_none_of_ne_zero _ hfill]
    cases hrun : materialize headers scans timeGrouped fill with
    | error e => rfl
    | ok columns =>
      -- what is put in the place of the column is the column that is there
      obtain ⟨hlt, hvalues⟩ := List.getElem?_eq_some_iff.1 (hcolumn columns hrun)
      rw [← hvalues]
      exact congrArg Except.ok (List.set_getElem_self hlt)
  · rintro rfl hrows
    obtain rfl : j = 0 := Nat.lt_one_iff.1 (List.getElem?_eq_some_iff.1 hj).1
    exact exists_materialize_single hunknown hrows fun before row after hscans t =>
      not_refusedAt_of_resolve rfl hknown hscans t

/-- Under zeros the two missing cells before the first number stay missing or not;
the text after it, which is no number, is a zero in both. -/
theorem materialize_undeclared_zeros :
    materialize [⟨"host", "TEXT"⟩, ⟨"v", "INTEGER"⟩]
        [.ok [.text "a", .null], .ok [.null, .null], .ok [.null, .int 5], .ok [.null, .text "x"]]
        false .zero
      = .ok [.ofValues "host" ⟨.string, [some "a", some "", some "", some ""]⟩,
          .ofValues "v" ⟨.integer, [some 0, some 0, some 5, some 0]⟩] ∧
    TypeName.resolve ⟨"v", ""⟩ false = .ok .unknown ∧
    ∃ tail : List (Option Int64), (∀ entry ∈ tail.head?, entry.isSome = true) ∧
      (∀ columns, materialize [⟨"host", "TEXT"⟩, ⟨"v", ""⟩]
          [.ok [.text "a", .null], .ok [.null, .null], .ok [.null, .int 5],
            .ok [.null, .text "x"]] false .zero = .ok columns →
        columns[1]? = some (.ofValues "v" ⟨.integer, [none, none] ++ tail⟩)) := by
  have hunknown : TypeName.resolve ⟨"v", ""⟩ false = .ok .unknown := by decide
  obtain ⟨⟨tail, hfirst, hcolumn, -⟩, -⟩ := materialize_undeclared
    (show [⟨"host", "TEXT"⟩, ⟨"v", ""⟩][1]? = some (Header.mk "v" "") from rfl) hunknown
    (show TypeName.resolve ⟨"v", "INTEGER"⟩ false = .ok (.known (columnType .unknown (cellsAt
      [.ok [.text "a", .null], .ok [.null, .null], .ok [.null, .int 5], .ok [.null, .text "x"]]
      1))) by decide) .zero
  exact ⟨by decide, hunknown, tail, hfirst, hcolumn⟩

end WindowQuery
