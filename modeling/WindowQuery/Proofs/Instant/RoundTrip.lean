import WindowQuery.Proofs.Frame.Reading
import WindowQuery.Proofs.Instant.Text
import WindowQuery.TimeWindow

/-!
# Instants through their texts

An instant that is written and read again is the same instant, to the
nanosecond and leap seconds included. Where the text goes in, as an argument
relative to the present or as a cell of a column of times, it is trimmed first
and might be something else: the word `now`, an interval before it, a number of
seconds. A text of an instant has no blanks and none of the letters of `now`, and
the strict notation is tried before the numbers, so none of this happens.

Years beyond four digits are written with a sign, which the strict notation does
not know. Their texts still tell the instants apart, because the notation of
documents reads them all (`text_injective`).
-/

namespace WindowQuery

namespace Instant

variable {t : Instant}

/-! ## Where a text goes in -/

theorem isBlank_of_mem_chars {c : Char} (h : c ∈ t.chars) : Text.isBlank c = false := by
  rcases mem_chars h with hdigit | hsign
  · exact Text.Reader.isBlank_of_isDigit hdigit
  · simp only [List.mem_cons, List.not_mem_nil, or_false] at hsign
    rcases hsign with rfl | rfl | rfl | rfl | rfl | rfl <;> decide

theorem trim_chars (t : Instant) : Text.trim t.chars = t.chars :=
  Text.stripEnds_of_none fun _ => isBlank_of_mem_chars

/-- The text of an instant is not the word `now` in any case, as it ends with a `Z`. -/
theorem map_toLower_chars_ne (t : Instant) : t.chars.map Char.toLower ≠ ['n', 'o', 'w'] := by
  intro h
  have hsplit : (baseText t.reading ++ trimmedFraction t.reading.nanos).map Char.toLower ++ ['z']
      = ['n', 'o'] ++ ['w'] := by
    rw [chars, List.map_append] at h
    exact h
  exact absurd (List.append_inj' hsplit rfl).2 (by decide)

/-- **Relative to the present a text is read as it is anywhere.** -/
theorem read?_chars (now t : Instant) : read? now t.chars = readAbsolute? t.chars := by
  unfold read?
  dsimp only
  rw [trim_chars, if_neg t.map_toLower_chars_ne]
  split
  · next span hspan =>
    have hn : 'n' ∈ t.chars := hspan ▸ List.mem_cons_self
    exact absurd (mem_chars hn) (by decide)
  · rfl

/-- What is read strictly is read so before anything else. -/
theorem readAbsolute?_chars (h0 : 0 ≤ t.reading.date.year) (h1 : t.reading.date.year ≤ 9999) :
    readAbsolute? t.chars = some t := by
  rw [readAbsolute?, readStrict?_chars t h0 h1]

/-- **Different instants have different texts.** -/
theorem text_injective : Function.Injective text := by
  intro t u h
  have hchars : t.chars = u.chars := String.ofList_injective h
  have hread := t.readRelaxed?_chars
  rw [hchars, u.readRelaxed?_chars] at hread
  exact (Option.some.inj hread).symm

/-! ## Cells -/

theorem decode?_toUTF8 (s : String) : Text.decode? s.toUTF8 = some s :=
  dif_pos s.isValidUTF8

/-- **A text of an instant is the time of its cell**, and so are its bytes. -/
theorem toTime?_text (h0 : 0 ≤ t.reading.date.year) (h1 : t.reading.date.year ≤ 9999) {cell : Cell}
    (hcell : cell ∈ [Cell.text t.text, .bytes t.text.toUTF8]) : cell.convert? .time = some t := by
  have htrim : Text.trim t.text.toList = t.chars := by
    rw [text, String.toList_ofList, trim_chars]
  have hread := readAbsolute?_chars h0 h1
  simp only [List.mem_cons, List.not_mem_nil, or_false] at hcell
  rcases hcell with rfl | rfl
  · show readAbsolute? (Text.trim t.text.toList) = some t
    rw [htrim, hread]
  · show ((Text.decode? t.text.toUTF8).map (fun s => Text.trim s.toList)).bind readAbsolute?
      = some t
    rw [decode?_toUTF8, Option.map_some, Option.bind_some, htrim, hread]

/-- **An instant is the one that its text is read as.** If its year has four digits,
its text is read as the instant itself relative to any present, and a cell that
holds the text or its bytes has it in a column of times: a table of that cell
alone has this entry, and in any other table that has columns the entry stands
where the cell does. And whatever their years, different instants have different
texts. -/
theorem text_roundTrip :
    (∀ t : Instant, 0 ≤ t.reading.date.year → t.reading.date.year ≤ 9999 →
      (∀ now, read? now t.text.toList = some t) ∧
      ∀ cell ∈ [Cell.text t.text, .bytes t.text.toUTF8], ∀ (timeGrouped : Bool) (fill : FillPolicy)
        (header : Header), TypeName.resolve header timeGrouped = .ok (.known .time) →
        materialize [header] [.ok [cell]] timeGrouped fill
            = .ok [.ofValues header.name ⟨.time, [some t]⟩] ∧
          ∀ (headers : List Header) (scans : List Scan) (columns : List Column),
            materialize headers scans timeGrouped fill = .ok columns →
            ∀ (i j : Nat) (row : List Cell), headers[j]? = some header →
              scans[i]? = some (.ok row) → row[j]? = some cell →
              ∃ entries : List (Option Instant),
                columns[j]? = some (.ofValues header.name ⟨.time, entries⟩) ∧
                  entries[i]? = some (some t)) ∧
    Function.Injective text := by
  refine ⟨fun t h0 h1 => ⟨fun now => ?_, fun cell hcell timeGrouped fill header hresolve =>
    ⟨?_, fun headers scans columns hcolumns i j row hj hi hrow => ?_⟩⟩, text_injective⟩
  · rw [text, String.toList_ofList, read?_chars, readAbsolute?_chars h0 h1]
  · exact materialize_single_cell hresolve (toTime?_text h0 h1 hcell) fill
  · exact materialize_entry hcolumns hj hresolve hi hrow (toTime?_text h0 h1 hcell)

/-- Half a second into the leap second at the end of 2016, as an argument and as a
cell of bytes. -/
theorem text_roundTrip_leapSecond :
    (⟨1483228799, 1500000000, by decide⟩ : Instant).text = "2016-12-31T23:59:60.5Z" ∧
      (∀ now, read? now "2016-12-31T23:59:60.5Z".toList
        = some ⟨1483228799, 1500000000, by decide⟩) ∧
      materialize [⟨"ended", "TIMESTAMP"⟩] [.ok [.bytes "2016-12-31T23:59:60.5Z".toUTF8]] false
          .null
        = .ok [.ofValues "ended" ⟨.time, [some ⟨1483228799, 1500000000, by decide⟩]⟩] := by
  have htext : (⟨1483228799, 1500000000, by decide⟩ : Instant).text = "2016-12-31T23:59:60.5Z" := by
    decide +kernel
  obtain ⟨hread, hcell⟩ := text_roundTrip.1 ⟨1483228799, 1500000000, by decide⟩ (by decide +kernel)
    (by decide +kernel)
  rw [htext] at hread hcell
  exact ⟨htext, hread,
    (hcell _ (by simp) false .null ⟨"ended", "TIMESTAMP"⟩ (by decide +kernel)).1⟩

end Instant

end WindowQuery
