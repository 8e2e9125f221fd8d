import Mathlib.Data.List.Forall2
import WindowQuery.Proofs.Instant.RoundTrip
import WindowQuery.Proofs.Store.Temporal

/-!
# Values and their texts

One driver hands out a number as a number, another one as its text or the bytes
of it, and some put blanks around. A column of numbers, times or truth values
must not tell them apart. A cell of a text is trimmed and then goes through a
reader of its own for each type, so the question is what these readers make of a
text that is a number: the reader of numbers gives back the number, the reader
of truth values is the one that the number goes through as well, and the reader
of times tries a date first, which no number is (`readStrict?_of_int?`).

A column with a type looks at a cell only through what it converts to
(`Accumulator.push_congr`). So cells that convert alike leave the same column,
in whatever state it was, and rows of such cells the same result
(`materialize_congr`).
-/

namespace WindowQuery

/-! ## Numbers are no dates -/

namespace Text.Reader

/-- **A number of fixed width** is not there if there are too few digits. -/
theorem run_fixed_of_lt {width : Nat} {cs : List Char}
    (h : ((cs.take width).takeWhile Char.isDigit).length < width) :
    (fixed width).run cs = none := by
  have hdigits : (digits width width).run cs = none := if_neg (Nat.not_le.2 h)
  rw [fixed, StateT.run_bind, hdigits]
  rfl

end Text.Reader

namespace Instant

open Text.Reader

/-- A whole number has a sign in front, or else it is nothing but digits. -/
theorem sign_or_digits_of_int? {cs : List Char} {n : Int} (h : Numeral.int? cs = some n) :
    (∃ c ds, cs = c :: ds ∧ c.isDigit = false) ∨ ∀ c ∈ cs, c.isDigit = true := by
  unfold Numeral.int? at h
  split at h
  · next ds => exact Or.inl ⟨'-', ds, rfl, by decide⟩
  · next ds => exact Or.inl ⟨'+', ds, rfl, by decide⟩
  · obtain ⟨k, hk, -⟩ := Option.map_eq_some_iff.1 h
    exact Or.inr (digits_of_nat? hk).2

/-- **A whole number is no date in the strict notation**, because a dash stands after
the four digits of the year there. -/
theorem readStrict?_of_int? {cs : List Char} {n : Int} (h : Numeral.int? cs = some n) :
    readStrict? cs = none := by
  have hstrict : strict.run cs = none := by
    rcases sign_or_digits_of_int? h with ⟨c, ds, rfl, hc⟩ | hdigits
    · have htaken : ((c :: ds).take 4).takeWhile Char.isDigit = [] :=
        List.takeWhile_cons_of_neg (Bool.eq_false_iff.1 hc)
      rw [strict, StateT.run_bind, run_fixed_of_lt (by rw [htaken]; decide)]
      rfl
    · by_cases hlength : cs.length < 4
      · have htaken : ((cs.take 4).takeWhile Char.isDigit).length < 4 :=
          Nat.lt_of_le_of_lt ((List.takeWhile_prefix _).length_le.trans (List.length_take_le' 4 cs))
            hlength
        rw [strict, StateT.run_bind, run_fixed_of_lt htaken]
        rfl
      · have hfour : (cs.take 4).length = 4 := List.length_take_of_le (Nat.le_of_not_lt hlength)
        have htake : (digits 4 4).run (cs.take 4 ++ cs.drop 4) = some (cs.take 4, cs.drop 4) :=
          run_digits (fun c hc => hdigits c (List.mem_of_mem_take hc)) hfour.ge hfour.le
            (.inl hfour)
        rw [List.take_append_drop] at htake
        have hyear : (fixed 4).run cs = some (Numeral.value (cs.take 4), cs.drop 4) := by
          rw [fixed, run_bind_of_eq htake]
          rfl
        rw [strict, run_bind_of_eq hyear, StateT.run_bind,
          run_dash_digits fun c hc => hdigits c (List.mem_of_mem_drop hc)]
        rfl
  rw [readStrict?, run?, hstrict]
  rfl

/-- So it is read as seconds from the epoch, or not at all. -/
theorem readAbsolute?_of_int? {cs : List Char} {n : Int} (h : Numeral.int? cs = some n) :
    readAbsolute? cs = (Numeral.word? n).bind (fun seconds => ofEpoch? seconds.toInt) := by
  rw [readAbsolute?, readStrict?_of_int? h, Numeral.int64?, h, Option.bind_some]

end Instant

/-! ## Cells of a text -/

namespace Text

/-- **A text with blanks around it.** -/
def Padded (cs text : List Char) : Prop :=
  ∃ before after, (∀ c ∈ before, isBlank c = true) ∧ (∀ c ∈ after, isBlank c = true) ∧
    text = before ++ (cs ++ after)

/-- They are trimmed, and no more than they if the text has no blanks itself. -/
theorem Padded.trim_eq {cs text : List Char} (h : Padded cs text)
    (hcs : ∀ c ∈ cs, isBlank c = false) : trim text = cs := by
  obtain ⟨before, after, hbefore, hafter, rfl⟩ := h
  rw [trim, stripEnds_append hbefore hafter, stripEnds_of_none hcs]

theorem isBlank_of_mem_intText {n : Int} {c : Char} (h : c ∈ (Numeral.intText n).toList) :
    isBlank c = false := by
  rcases Numeral.mem_intText h with hdigit | rfl
  · exact Reader.isBlank_of_isDigit hdigit
  · decide

end Text

namespace Cell

/-- The text of a truth value. -/
def truthText (b : Bool) : String := if b then "true" else "false"

/-- A text and the bytes of it are read as the text that is left between the blanks. -/
theorem readable?_of_text {s : String} {cell : Cell}
    (hcell : cell ∈ [Cell.text s, .bytes s.toUTF8]) :
    cell.readable? = some (Text.trim s.toList) := by
  simp only [List.mem_cons, List.not_mem_nil, or_false] at hcell
  rcases hcell with rfl | rfl
  · rfl
  · show (Text.decode? s.toUTF8).map (fun s => Text.trim s.toList) = _
    rw [Instant.decode?_toUTF8, Option.map_some]

/-- **What a cell that can be read converts to** is what the reader of the type makes of
its text. -/
theorem convert?_of_readable? {cell : Cell} {cs : List Char} (h : cell.readable? = some cs) :
    cell.convert? .time = Instant.readAbsolute? cs ∧
      cell.convert? .integer = Numeral.int64? cs ∧
      cell.convert? .boolean = truth? (String.ofList cs) := by
  cases cell with
  | text s =>
    obtain rfl := Option.some.inj h
    exact ⟨rfl, rfl, rfl⟩
  | bytes b =>
    refine ⟨?_, ?_, ?_⟩
    · show (bytes b).readable?.bind _ = _
      rw [h, Option.bind_some]
    · show (bytes b).readable?.bind _ = _
      rw [h, Option.bind_some]
    · show (bytes b).readable?.bind _ = _
      rw [h, Option.bind_some]
  | null | int _ | float _ | bool _ | time _ => cases h

/-- **The text of a whole number converts as the number does** to numbers, times and
truth values. -/
theorem convert?_of_intText {n : Int64} {cell : Cell}
    (h : cell.readable? = some (Numeral.intText n.toInt).toList) {t : ColumnType}
    (ht : t ∈ [ColumnType.integer, .time, .boolean]) :
    cell.convert? t = (Cell.int n).convert? t := by
  obtain ⟨htime, hinteger, hboolean⟩ := convert?_of_readable? h
  simp only [List.mem_cons, List.not_mem_nil, or_false] at ht
  rcases ht with rfl | rfl | rfl
  · rw [hinteger, Numeral.int64?_intText]
    rfl
  · rw [htime, Instant.readAbsolute?_of_int? (Numeral.int?_intText _), Numeral.word?_toInt]
    rfl
  · rw [hboolean, String.ofList_toList]
    rfl

theorem convert?_of_truthText {b : Bool} {cell : Cell}
    (h : cell.readable? = some (truthText b).toList) :
    cell.convert? .boolean = (Cell.bool b).convert? .boolean := by
  rw [(convert?_of_readable? h).2.2, String.ofList_toList]
  cases b <;> rfl

end Cell

/-! ## Columns -/

/-- **A column with a type sees what a cell converts to**, and nothing else of it. -/
theorem Accumulator.push_congr {t : ColumnType} {c c' : Cell} (h : c.convert? t = c'.convert? t)
    (entries : Array (Option t.Entry)) (last : Option t.Entry) (name : String) (fill : FillPolicy) :
    (decided t entries last).push name c fill = (decided t entries last).push name c' fill := by
  show Except.ok (take t entries last c fill) = Except.ok (take t entries last c' fill)
  rw [take, take, h]

/-- What is known of the type of a column, held against what it has gathered: a type
that is given is there from the beginning and stays. -/
def Accumulator.HasType : SemanticType → Accumulator → Prop
  | .known t, a => ∃ entries last, a = decided t entries last
  | .unknown, _ => True

theorem Accumulator.hasType_ofType (declared : SemanticType) :
    HasType declared (ofType declared) := by
  cases declared with
  | known t => exact ⟨#[], none, rfl⟩
  | unknown => trivial

/-- **No cell changes the type of a column.** -/
theorem Accumulator.HasType.push {declared : SemanticType} {a a' : Accumulator}
    (h : HasType declared a) {name : String} {cell : Cell} {fill : FillPolicy}
    (hpush : a.push name cell fill = .ok a') : HasType declared a' := by
  cases declared with
  | unknown => trivial
  | known t =>
    obtain ⟨entries, last, rfl⟩ := h
    obtain rfl := Except.ok.inj hpush
    unfold take
    split
    · exact ⟨_, _, rfl⟩
    · exact ⟨_, _, rfl⟩

/-- **Two cells that are alike to a column**: the same cell, or two that convert alike
where the type is given. -/
def Cell.Alike (declared : SemanticType) (cells : Cell × Cell) : Prop :=
  cells.1 = cells.2 ∨ ∃ t, declared = .known t ∧ cells.1.convert? t = cells.2.convert? t

/-- Either of them leaves the same column. -/
theorem Accumulator.HasType.push_eq {declared : SemanticType} {a : Accumulator}
    (h : HasType declared a) {cells : Cell × Cell} (hcells : Cell.Alike declared cells)
    (name : String) (fill : FillPolicy) :
    a.push name cells.1 fill = a.push name cells.2 fill := by
  rcases hcells with hsame | ⟨t, rfl, hconvert⟩
  · rw [hsame]
  · obtain ⟨entries, last, rfl⟩ := h
    exact push_congr hconvert entries last name fill

namespace Materializer

variable {timeGrouped : Bool} {headers : List Header}

/-- A column that has the type of its header. -/
def Fits (timeGrouped : Bool) (h : Header) (column : String × Accumulator) : Prop :=
  ∃ declared, TypeName.resolve h timeGrouped = .ok declared ∧ column.2.HasType declared

/-- Two cells that are alike to the column of a header. -/
def Alike (timeGrouped : Bool) (h : Header) (cells : Cell × Cell) : Prop :=
  ∀ declared, TypeName.resolve h timeGrouped = .ok declared → Cell.Alike declared cells

/-- **Rows of cells that are alike leave the same columns**, or are refused at the same
cell; and the columns keep their types. -/
theorem pushCells_congr {columns : List (String × Accumulator)} {row : List (Cell × Cell)}
    (hcolumns : List.Forall₂ (Fits timeGrouped) headers columns)
    (hrow : ∀ x ∈ headers.zip row, Alike timeGrouped x.1 x.2) (fill : FillPolicy) :
    pushCells fill columns (row.map Prod.fst) = pushCells fill columns (row.map Prod.snd) ∧
      List.Forall₂ (Fits timeGrouped) headers (pushCells fill columns (row.map Prod.fst)).1 := by
  induction hcolumns generalizing row with
  | nil => exact ⟨by simp [pushCells], by simp [pushCells]⟩
  | @cons h column headers columns hfits hcolumns ih =>
    obtain ⟨name, a⟩ := column
    cases row with
    | nil => exact ⟨rfl, by simpa [pushCells] using ⟨hfits, hcolumns⟩⟩
    | cons cells row =>
      obtain ⟨declared, hdeclared, htype⟩ := hfits
      have hpush : a.push name cells.1 fill = a.push name cells.2 fill :=
        htype.push_eq (hrow (h, cells) List.mem_cons_self declared hdeclared) name fill
      obtain ⟨hsame, hrest⟩ := ih fun x hx => hrow x (List.mem_cons_of_mem _ hx)
      simp only [List.map_cons, pushCells, ← hpush]
      cases hcell : a.push name cells.1 fill with
      | error e => exact ⟨rfl, .cons ⟨declared, hdeclared, htype⟩ hcolumns⟩
      | ok a' =>
        rw [← hsame]
        exact ⟨rfl, .cons ⟨declared, hdeclared, htype.push hcell⟩ hrest⟩

/-- A scan with two cells in each place. -/
abbrev PairedScan := Except String (List (Cell × Cell))

/-- The scan with the first ones. -/
def PairedScan.left (scan : PairedScan) : Scan := scan.map (List.map Prod.fst)

/-- The scan with the second ones. -/
def PairedScan.right (scan : PairedScan) : Scan := scan.map (List.map Prod.snd)

/-- **One step of a run.** Two scans whose cells are alike under their headers
leave the same columns and the same error, and columns that cells can still be
alike for. -/
theorem pushScan_congr {m : Materializer}
    (hcolumns : List.Forall₂ (Fits timeGrouped) headers m.columns) (scan : PairedScan)
    (hscan : ∀ row, scan = .ok row → ∀ x ∈ headers.zip row, Alike timeGrouped x.1 x.2) :
    m.pushScan scan.left = m.pushScan scan.right ∧
      List.Forall₂ (Fits timeGrouped) headers (m.pushScan scan.left).1.columns := by
  cases scan with
  | error text => exact ⟨rfl, hcolumns⟩
  | ok row =>
    obtain ⟨hsame, hkept⟩ := pushCells_congr hcolumns (hscan row rfl) m.fill
    show m.pushRow (row.map Prod.fst) = m.pushRow (row.map Prod.snd) ∧
      List.Forall₂ (Fits timeGrouped) headers (m.pushRow (row.map Prod.fst)).1.columns
    unfold pushRow
    rw [List.length_map, List.length_map, ← hsame]
    split
    · refine ⟨rfl, ?_⟩
      cases hcells : pushCells m.fill m.columns (row.map Prod.fst) with
      | mk columns refusal =>
        rw [hcells] at hkept
        cases refusal <;> exact hkept
    · exact ⟨rfl, hcolumns⟩

/-- **A whole run** over scans that are alike in all their cells: it ends with the
same columns or the same error, by one step after the other. -/
theorem consume_congr {m : Materializer}
    (hcolumns : List.Forall₂ (Fits timeGrouped) headers m.columns) {scans : List PairedScan}
    (hscans : ∀ row, .ok row ∈ scans → ∀ x ∈ headers.zip row, Alike timeGrouped x.1 x.2) :
    m.consume (scans.map PairedScan.left) = m.consume (scans.map PairedScan.right) := by
  induction scans generalizing m with
  | nil => rfl
  | cons scan scans ih =>
    obtain ⟨hsame, hkept⟩ := pushScan_congr hcolumns scan
      fun row hrow => hscans row (hrow ▸ List.mem_cons_self)
    rw [List.map_cons, List.map_cons, consume, consume, ← hsame]
    cases hstep : m.pushScan scan.left with
    | mk m' failure =>
      rw [hstep] at hkept
      cases failure with
      | some e => rfl
      | none => exact ih hkept fun row hrow => hscans row (List.mem_cons_of_mem _ hrow)

theorem forall₂_fits_start {fill : FillPolicy} {m : Materializer}
    (h : start headers timeGrouped fill = .ok m) :
    List.Forall₂ (Fits timeGrouped) headers m.columns := by
  obtain ⟨-, hlength, hat⟩ := start_columns h
  refine List.forall₂_iff_get.2 ⟨hlength.symm, fun j hj hj' => ?_⟩
  obtain ⟨declared, hdeclared, hcolumn⟩ := hat j headers[j] (List.getElem?_eq_getElem hj)
  rw [List.getElem?_eq_getElem hj'] at hcolumn
  refine ⟨declared, hdeclared, ?_⟩
  rw [List.get_eq_getElem, Option.some.inj hcolumn]
  exact Accumulator.hasType_ofType declared

end Materializer

open Materializer in
/-- **Rows of cells that are alike have the same result**, be it columns or an error. -/
theorem materialize_congr {headers : List Header} {timeGrouped : Bool} {scans : List PairedScan}
    (hscans : ∀ row, .ok row ∈ scans → ∀ x ∈ headers.zip row, Alike timeGrouped x.1 x.2)
    (fill : FillPolicy) :
    materialize headers (scans.map PairedScan.left) timeGrouped fill
      = materialize headers (scans.map PairedScan.right) timeGrouped fill := by
  unfold materialize
  cases hstart : start headers timeGrouped fill with
  | error e => rfl
  | ok m =>
    have hsame := consume_congr (forall₂_fits_start hstart) hscans
    dsimp only [Except.bind]
    rw [hsame]

/-! ## Numbers, truth values and their texts -/

open Text (Padded)

/-- **A number and its text leave the same column.** In a column of numbers, times or
truth values, in whatever state it is and under every policy, a whole number leaves
what its text and the bytes of its text leave, with any blanks around; and so does a
truth value in a column of truth values. In a column of times no such text is a date,
and if the number is out of range all of them are missing. -/
theorem Accumulator.push_printed :
    (∀ (n : Int64) (s : String), Padded (Numeral.intText n.toInt).toList s.toList →
      ∀ cell ∈ [Cell.text s, .bytes s.toUTF8],
        (∀ t ∈ [ColumnType.integer, .time, .boolean], ∀ (entries : Array (Option t.Entry))
          (last : Option t.Entry) (name : String) (fill : FillPolicy),
          (decided t entries last).push name cell fill
            = (decided t entries last).push name (.int n) fill) ∧
        (Instant.readStrict? (Text.trim s.toList) = none) ∧
        (n.toInt < Instant.firstSecond ∨ Instant.lastSecond < n.toInt →
          cell.convert? .time = none ∧ (Cell.int n).convert? .time = none)) ∧
    ∀ (b : Bool) (s : String), Padded (Cell.truthText b).toList s.toList →
      ∀ cell ∈ [Cell.text s, .bytes s.toUTF8], ∀ (entries : Array (Option Bool))
        (last : Option Bool) (name : String) (fill : FillPolicy),
        (decided .boolean entries last).push name cell fill
          = (decided .boolean entries last).push name (.bool b) fill := by
  constructor
  · intro n s hs cell hcell
    -- trimming and decoding lead to the same characters as the number itself
    have htrim := hs.trim_eq fun c => Text.isBlank_of_mem_intText
    have hread := Cell.readable?_of_text hcell
    rw [htrim] at hread
    refine ⟨fun t ht => push_congr (Cell.convert?_of_intText hread ht), ?_, fun hout => ?_⟩
    · rw [htrim]
      exact Instant.readStrict?_of_int? (Numeral.int?_intText _)
    · have hnone : (Cell.int n).convert? .time = none := by
        refine Instant.mk?_eq_none_iff.2 ?_
        rintro ⟨hlow, hhigh, -⟩
        omega
      exact ⟨(Cell.convert?_of_intText hread (by decide)).trans hnone, hnone⟩
  · intro b s hs cell hcell
    have hnone : (Cell.truthText b).toList.any Text.isBlank = false := by cases b <;> decide
    have htrim := hs.trim_eq fun c hc => Bool.eq_false_iff.2 (List.any_eq_false.1 hnone c hc)
    have hread := Cell.readable?_of_text hcell
    rw [htrim] at hread
    exact push_congr (Cell.convert?_of_truthText hread)

/-- The least word, which is no instant, as bytes between a no-break space and a tab in a
column of times that repeats its last value; and a truth value on a line of its own. -/
theorem Accumulator.push_printed_leastWord :
    (decided .time #[some Instant.epoch] (some Instant.epoch)).push "seen"
        (.bytes "\u00a0-9223372036854775808\t".toUTF8) .previous
      = .ok (decided .time #[some Instant.epoch, some Instant.epoch] (some Instant.epoch)) ∧
    (decided .boolean #[] none).push "up" (.text "true\n") .zero
      = .ok (decided .boolean #[some true] (some true)) := by
  have hword : Padded (Numeral.intText Int64.minValue.toInt).toList
      "\u00a0-9223372036854775808\t".toList :=
    ⟨['\u00a0'], ['\t'], List.forall_mem_singleton.2 rfl, List.forall_mem_singleton.2 rfl,
      by decide +kernel⟩
  have htruth : Padded (Cell.truthText true).toList "true\n".toList :=
    ⟨[], ['\n'], List.forall_mem_nil _, List.forall_mem_singleton.2 rfl, by decide +kernel⟩
  obtain ⟨htime, -, hrange⟩ :=
    push_printed.1 _ _ hword _ (List.mem_cons_of_mem _ List.mem_cons_self)
  refine ⟨?_, ?_⟩
  · rw [htime .time (by decide)]
    show Except.ok (take .time _ _ (.int Int64.minValue) .previous) = _
    rw [take, (hrange (Or.inl (by decide))).2]
    rfl
  · rw [push_printed.2 true _ htruth _ List.mem_cons_self]
    rfl

end WindowQuery
