import Mathlib.Algebra.Order.Ring.Nat
import Mathlib.Data.List.Forall2
import Mathlib.Data.List.Induction
import WindowQuery.Frame.TextTable

/-!
# The lines of a table are aligned

A column of a table is as wide as the longest of its texts has bytes, but a text
is filled up by its characters. Each text then has the width of its column,
because it has no more characters than bytes (`fits_of_room_le`), and this is all
that the alignment rests on: a line is put together from texts of known lengths
with gaps between them, so it is as long as these and the gaps, and a column
begins where those before it and their gaps end (`aligned_line`).

The texts may be anything, a line break included, and the columns of a frame
need not be equally long: a column that ends early shows that its entries are
missing. There are as many lines as the first column has entries, and two more.
-/

namespace WindowQuery

namespace TextTable

/-! ## Widths -/

/-- **The texts of a column**: its header, and what stands in the rows. -/
def columnTexts (t : TextTable) (j : Nat) : List String :=
  (t.headers :: t.rows).filterMap (fun texts => texts[j]?)

/-- **A table with a text in each place.** -/
def IsFull (t : TextTable) : Prop := ∀ row ∈ t.rows, row.length = t.headers.length

section

variable {headers : List String} {rows : List (List String)} {row : List String}

theorem widths_concat :
    widths ⟨headers, rows ++ [row]⟩ = List.zipWith max (widths ⟨headers, rows⟩) (row.map room) := by
  unfold widths
  rw [List.foldl_append]
  rfl

theorem columnTexts_concat (j : Nat) :
    columnTexts ⟨headers, rows ++ [row]⟩ j = columnTexts ⟨headers, rows⟩ j ++ row[j]?.toList := by
  have hrow : [row].filterMap (fun texts => texts[j]?) = row[j]?.toList := by
    rw [List.filterMap_cons, List.filterMap_nil]
    cases row[j]? <;> rfl
  rw [columnTexts, ← List.cons_append, List.filterMap_append, hrow]
  rfl

theorem isFull_concat (h : IsFull ⟨headers, rows ++ [row]⟩) :
    IsFull ⟨headers, rows⟩ ∧ row.length = headers.length :=
  ⟨fun r hr => h r (List.mem_append_left [row] hr),
    h row (List.mem_append_right rows List.mem_cons_self)⟩

end

theorem length_widths {t : TextTable} (h : t.IsFull) : t.widths.length = t.headers.length := by
  obtain ⟨headers, rows⟩ := t
  induction rows using List.reverseRecOn with
  | nil => exact List.length_map room
  | append_singleton rows row ih =>
    obtain ⟨hrows, hrow⟩ := isFull_concat h
    rw [widths_concat, List.length_zipWith, List.length_map, ih hrows, hrow, Nat.min_self]

/-- **A width is the room of the longest text**: every text of the column fits in, and
one of them takes all of it. -/
structure IsWidth (texts : List String) (width : Nat) : Prop where
  /-- No text needs more. -/
  enough : ∀ text ∈ texts, room text ≤ width
  /-- One of them needs it. -/
  needed : ∃ text ∈ texts, room text = width

theorem IsWidth.concat {texts : List String} {width : Nat} (h : IsWidth texts width)
    (text : String) : IsWidth (texts ++ [text]) (max width (room text)) where
  enough := fun s hs => by
    rcases List.mem_append.1 hs with hs | hs
    · exact Nat.le_trans (h.enough s hs) (Nat.le_max_left _ _)
    · rw [List.mem_singleton.1 hs]
      exact Nat.le_max_right _ _
  needed := by
    obtain ⟨longest, hmem, hlongest⟩ := h.needed
    rcases Nat.le_total (room text) width with hle | hle
    · exact ⟨longest, List.mem_append_left _ hmem, hlongest.trans (Nat.max_eq_left hle).symm⟩
    · exact ⟨text, List.mem_append_right _ List.mem_cons_self, (Nat.max_eq_right hle).symm⟩

/-- **The widths are those of the columns.** They are the greatest so far when the
rows are gone through, so the induction adds a row at the end. -/
theorem isWidth_widths {t : TextTable} (h : t.IsFull) {j width : Nat}
    (hwidth : t.widths[j]? = some width) : IsWidth (t.columnTexts j) width := by
  obtain ⟨headers, rows⟩ := t
  induction rows using List.reverseRecOn generalizing width with
  | nil =>
    have hmap : (headers.map room)[j]? = some width := hwidth
    rw [List.getElem?_map] at hmap
    obtain ⟨text, htext, rfl⟩ := Option.map_eq_some_iff.1 hmap
    have hcolumn : columnTexts ⟨headers, []⟩ j = [text] := by
      rw [columnTexts, List.filterMap_cons, List.filterMap_nil, htext]
    rw [hcolumn]
    exact ⟨fun s hs => Nat.le_of_eq (congrArg room (List.mem_singleton.1 hs)), text,
      List.mem_cons_self, rfl⟩
  | append_singleton rows row ih =>
    rw [widths_concat, List.getElem?_zipWith_eq_some] at hwidth
    obtain ⟨before, needs, hbefore, hneeds, rfl⟩ := hwidth
    rw [List.getElem?_map] at hneeds
    obtain ⟨text, htext, rfl⟩ := Option.map_eq_some_iff.1 hneeds
    rw [columnTexts_concat, htext]
    exact (ih (isFull_concat h).1 hbefore).concat text

/-- **A text fits where its bytes do.** -/
theorem fits_of_room_le {text : String} {width : Nat} (h : room text ≤ width) :
    text.toList.length ≤ width :=
  Nat.le_trans (Text.length_le_byteLength text.toList) h

/-- Texts that fit in, one for each width. -/
def Fit (widths : List Nat) (texts : List String) : Prop :=
  List.Forall₂ (fun width text => text.toList.length ≤ width) widths texts

/-- **The headers and the rows fit in.** -/
theorem fit_widths {t : TextTable} (h : t.IsFull) {texts : List String}
    (htexts : texts ∈ t.headers :: t.rows) : Fit t.widths texts := by
  have hlength : texts.length = t.headers.length := by
    rcases List.mem_cons.1 htexts with rfl | hrow
    · rfl
    · exact h texts hrow
  refine List.forall₂_iff_get.2 ⟨(length_widths h).trans hlength.symm, fun j hj hj' => ?_⟩
  have hcolumn : texts[j] ∈ t.columnTexts j :=
    List.mem_filterMap.2 ⟨texts, htexts, List.getElem?_eq_getElem hj'⟩
  exact fits_of_room_le ((isWidth_widths h (List.getElem?_eq_getElem hj)).enough _ hcolumn)

/-! ## Lines -/

/-- Where a column begins: behind those before it and a gap for each. -/
def columnStart (widths : List Nat) (j : Nat) : Nat := (widths.take j).sum + 2 * j

/-- **A line in which texts are aligned**: it is as long as all columns and the gaps
between them, and each text stands, whole and filled up with blanks, where its
column begins. -/
structure Aligned (widths : List Nat) (texts : List String) (line : List Char) : Prop where
  /-- How long it is. -/
  length_eq : line.length = widths.sum + 2 * (widths.length - 1)
  /-- There is a text for each column. -/
  full : texts.length = widths.length
  /-- What stands in a column. -/
  cell : ∀ j width text, widths[j]? = some width → texts[j]? = some text →
    text.toList.length ≤ width ∧
      (line.drop (columnStart widths j)).take width =
        text.toList ++ List.replicate (width - text.toList.length) ' '

theorem length_padded {width : Nat} {text : String} (h : text.toList.length ≤ width) :
    (padded width text).length = width := by
  rw [padded, List.length_append, List.length_replicate, Nat.add_sub_of_le h]

section

variable {w v : Nat} {ws : List Nat} {s r : String} {texts : List String}

theorem line_singleton : line [w] [s] = padded w s := List.intercalate_singleton

theorem line_cons_cons :
    line (w :: v :: ws) (s :: r :: texts) = padded w s ++ (gap ++ line (v :: ws) (r :: texts)) := by
  show gap.intercalate (padded w s :: padded v r :: List.zipWith padded ws texts) = _
  rw [List.intercalate_cons_cons, List.append_assoc]
  rfl

theorem columnStart_cons (j : Nat) :
    columnStart (w :: ws) (j + 1) = w + (2 + columnStart ws j) := by
  rw [columnStart, List.take_succ_cons, List.sum_cons, columnStart]
  omega

/-- **A line is as long as its columns and its gaps.** -/
theorem length_line (h : Fit ws texts) : (line ws texts).length = ws.sum + 2 * (ws.length - 1) := by
  induction h with
  | nil => rfl
  | @cons w s ws texts hw hfit ih =>
    cases hfit with
    | nil => rw [line_singleton, length_padded hw, List.sum_singleton]; rfl
    | cons hv hfit =>
      rw [line_cons_cons, List.length_append, List.length_append, length_padded hw, ih,
        List.sum_cons (a := w), List.length_cons (a := w), List.length_cons]
      show w + (2 + _) = _
      omega

theorem take_line (h : Fit (w :: ws) (s :: texts)) :
    (line (w :: ws) (s :: texts)).take w = padded w s := by
  obtain ⟨hw, hfit⟩ := List.forall₂_cons.1 h
  cases hfit with
  | nil => rw [line_singleton, List.take_of_length_le (Nat.le_of_eq (length_padded hw))]
  | cons hv hfit => rw [line_cons_cons, List.take_left' (length_padded hw)]

/-- **Where a column begins, the line of it and those after it does.** -/
theorem drop_line (h : Fit ws texts) {j : Nat} (hj : j < ws.length) :
    (line ws texts).drop (columnStart ws j) = line (ws.drop j) (texts.drop j) := by
  induction j generalizing ws texts with
  | zero => rfl
  | succ j ih =>
    cases h with
    | nil => cases hj
    | @cons w s ws texts hw hfit =>
      have hj' : j < ws.length := Nat.lt_of_succ_lt_succ hj
      have hmore := ih hfit hj'
      cases hfit with
      | nil => cases hj'
      | cons hv hfit =>
        have hskip : ∀ {as bs : List Char} {m : Nat}, as.length = m → ∀ n,
            (as ++ bs).drop (m + n) = bs.drop n := by
          rintro as bs _ rfl n
          exact List.drop_length_add_append n
        have hgap : gap.length = 2 := rfl
        rw [line_cons_cons, columnStart_cons, hskip (length_padded hw), hskip hgap, hmore]
        rfl

end

/-- **Texts that fit in are aligned.** -/
theorem aligned_line {widths : List Nat} {texts : List String} (h : Fit widths texts) :
    Aligned widths texts (line widths texts) := by
  refine ⟨length_line h, h.length_eq.symm, fun j width text hj htext => ?_⟩
  obtain ⟨hlt, rfl⟩ := List.getElem?_eq_some_iff.1 hj
  obtain ⟨hlt', rfl⟩ := List.getElem?_eq_some_iff.1 htext
  have hfit : Fit (widths.drop j) (texts.drop j) := List.forall₂_drop j h
  rw [drop_line h hlt]
  rw [List.drop_eq_getElem_cons hlt, List.drop_eq_getElem_cons hlt'] at hfit ⊢
  exact ⟨(List.forall₂_cons.1 hfit).1, take_line hfit⟩

end TextTable

namespace Frame

/-- The table of a frame has a text in each place. -/
theorem isFull_textTable (f : Frame) : f.textTable.IsFull := by
  intro row hrow
  obtain ⟨i, -, rfl⟩ := List.mem_map.1 hrow
  rw [rowTexts, List.length_map]
  exact (List.length_map _).symm

/-- **A frame shown as an aligned table.** -/
structure ShownAligned (f : Frame) (widths : List Nat) (header : List Char)
    (rows : List (List Char)) : Prop where
  /-- What is shown: the line of the headers, as many dashes, the rows, and their
  number. -/
  shown_eq : f.shown =
    String.join ((header :: List.replicate (widths.sum + 2 * (widths.length - 1)) '-' :: rows).map
        (fun line => String.ofList line ++ "\n")) ++
      "\n" ++ Numeral.natText f.rowCount ++ " rows\n"
  /-- There is a width for each column. -/
  length_widths : widths.length = f.columns.length
  /-- It is the room of the longest text of the column. -/
  isWidth : ∀ j width, widths[j]? = some width →
    TextTable.IsWidth (f.textTable.columnTexts j) width
  /-- The headers are aligned. -/
  header : TextTable.Aligned widths (f.columns.map Column.header) header
  /-- There is a line for each row. -/
  length_rows : rows.length = f.rowCount
  /-- The rows are aligned. -/
  row : ∀ i line, rows[i]? = some line → TextTable.Aligned widths (f.rowTexts i) line

/-- **A frame is shown as an aligned table** if it has any column: all lines are
as long as the columns and the gaps between them, and what stands in a column
begins at the same place of every line and is shown as a whole. A column has room
for the longest of its texts in bytes, and never less than a text has characters;
so nothing is cut, and there may be more room than it needs. -/
theorem exists_shownAligned {f : Frame} (h : f.columns ≠ []) :
    ∃ widths header rows, f.ShownAligned widths header rows := by
  have hfull := f.isFull_textTable
  refine ⟨f.textTable.widths, TextTable.line f.textTable.widths f.textTable.headers,
    f.textTable.rows.map (TextTable.line f.textTable.widths), ?_, ?_,
    fun j width => TextTable.isWidth_widths hfull,
    TextTable.aligned_line (TextTable.fit_widths hfull List.mem_cons_self), ?_,
    fun i line hline => ?_⟩
  · rw [shown, if_neg (fun hempty => h (List.isEmpty_iff.1 hempty)), List.sum_eq_foldl]
    rfl
  · exact (TextTable.length_widths hfull).trans (List.length_map _)
  · rw [List.length_map]
    exact (List.length_map _).trans List.length_range
  · rw [List.getElem?_map] at hline
    obtain ⟨texts, htexts, rfl⟩ := Option.map_eq_some_iff.1 hline
    have hrow : texts = f.rowTexts i := by
      have hrows : ((List.range f.rowCount).map f.rowTexts)[i]? = some texts := htexts
      rw [List.getElem?_map] at hrows
      obtain ⟨k, hk, rfl⟩ := Option.map_eq_some_iff.1 hrows
      obtain ⟨hlt, rfl⟩ := List.getElem?_eq_some_iff.1 hk
      rw [List.getElem_range]
    rw [← hrow]
    exact TextTable.aligned_line
      (TextTable.fit_widths hfull (List.mem_cons_of_mem _ (List.mem_of_getElem? htexts)))

/-- Two columns, the second with a label and one entry fewer. -/
def unequalColumns : Frame :=
  ⟨"response", [.ofValues "größe" ⟨.string, [some "ä", none]⟩,
    ⟨"n", .ofList [("ort", "Köln")], ⟨.integer, [some 5]⟩⟩], none⟩

/-- The widths count bytes, the lines characters. -/
theorem exists_shownAligned_unequalColumns :
    unequalColumns.columns ≠ [] ∧
      unequalColumns.shown =
        "größe    n\x7bort=Köln\x7d \n" ++ "---------------------\n" ++
        "ä        5           \n" ++ "null     null        \n" ++ "\n2 rows\n" ∧
      ∃ widths header rows, unequalColumns.ShownAligned widths header rows :=
  ⟨List.cons_ne_nil _ _, by decide +kernel, exists_shownAligned (List.cons_ne_nil _ _)⟩

end Frame

end WindowQuery
