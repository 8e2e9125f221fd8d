import WindowQuery.Frame.Coercion
import WindowQuery.Proofs.Frame.TypeName
import WindowQuery.Proofs.Instant.Text
import WindowQuery.Proofs.Text.Lenient
import WindowQuery.Store.Table

/-!
# Texts in columns of times

A text in a column of times is read twice. The table reads it as one of the
forms that tables hold, and hands out an instant if it is one of them; what is
left a text is read again when the column of the result is put together, in the
strict notation or as seconds from the epoch. The two must not disagree about a
text that both of them read.

They could only do so over a whole number, as the strict notation comes first in
both. And a whole number is a date in none of the forms, whatever it is: its
year takes the sign and leaves nothing but digits, where a dash has to follow
(`tableDate_of_int?`). So the table only adds to what is read, and changes
nothing (`toTime?_cellOfText`).

Which columns hold times is decided twice as well, by the table and for the
result, from names that differ in case at most; the base name of a type is in
capitals anyway (`TypeName.base_toUpper`).
-/

namespace WindowQuery

/-! ## Whole numbers are no dates -/

namespace Instant

open Text (EndsRun)
open Text.Reader

theorem digits_of_nat? {cs : List Char} {n : Nat} (h : Numeral.nat? cs = some n) :
    cs ≠ [] ∧ ∀ c ∈ cs, c.isDigit = true := by
  unfold Numeral.nat? at h
  split at h
  · next hcs => exact ⟨hcs.1, List.all_eq_true.1 hcs.2⟩
  · cases h

/-- **The year of a whole number** takes its sign and leaves digits, if it leaves
anything. -/
theorem year_of_int? {cs : List Char} {n : Int} (h : Numeral.int? cs = some n) :
    ∃ (y : Int) (rest : List Char),
      year.run cs = some (y, rest) ∧ ∀ c ∈ rest, c.isDigit = true := by
  unfold Numeral.int? at h
  split at h
  · next ds =>
    obtain ⟨m, hm, -⟩ := Option.map_eq_some_iff.1 h
    obtain ⟨k, hk, -⟩ := Option.bind_eq_some_iff.1 hm
    obtain ⟨hne, hdigits⟩ := digits_of_nat? hk
    have hyear := run_year_minus hne hdigits Text.endsRun_nil
    rw [List.append_nil] at hyear
    exact ⟨_, [], hyear, fun c hc => nomatch hc⟩
  · next ds =>
    obtain ⟨k, hk, -⟩ := Option.map_eq_some_iff.1 h
    obtain ⟨hne, hdigits⟩ := digits_of_nat? hk
    have hyear := run_year_plus hne hdigits Text.endsRun_nil
    rw [List.append_nil] at hyear
    exact ⟨_, [], hyear, fun c hc => nomatch hc⟩
  · obtain ⟨k, hk, -⟩ := Option.map_eq_some_iff.1 h
    obtain ⟨hne, hdigits⟩ := digits_of_nat? hk
    -- without a sign the reader takes four digits at most, and the rest are digits as well
    have htaken : cs.take 4 ≠ [] := fun hnil =>
      (List.take_eq_nil_iff.1 hnil).elim (by decide) hne
    have hends : (cs.take 4).length = 4 ∨ EndsRun Char.isDigit (cs.drop 4) := by
      rcases Nat.le_total 4 cs.length with hle | hle
      · exact .inl (List.length_take_of_le hle)
      · right
        rw [List.drop_eq_nil_of_le hle]
        exact Text.endsRun_nil
    have hyear := run_year_plain htaken (fun c hc => hdigits c (List.mem_of_mem_take hc))
      (List.length_take_le 4 cs) hends
    rw [List.take_append_drop] at hyear
    exact ⟨_, _, hyear, fun c hc => hdigits c (List.mem_of_mem_drop hc)⟩

theorem run_dash_digits {cs : List Char} (h : ∀ c ∈ cs, c.isDigit = true) :
    (char '-').run cs = none := by
  cases cs with
  | nil => rfl
  | cons c cs =>
    have hne : (c == '-') = false := beq_eq_false_iff_ne.2 (fun heq =>
      absurd (heq ▸ h c List.mem_cons_self) (by decide))
    have hclass : (charWhere (· == '-')).run (c :: cs) = none :=
      run_charWhere_of_not (p := (· == '-')) hne cs
    rw [char, StateT.run_bind, hclass]
    rfl

/-- **A whole number is no date**, as nothing but digits follows its year. -/
theorem tableDate_of_int? {cs : List Char} {n : Int} (h : Numeral.int? cs = some n) :
    tableDate.run cs = none := by
  obtain ⟨y, rest, hyear, hdigits⟩ := year_of_int? h
  rw [tableDate, run_bind_of_eq hyear, StateT.run_bind, run_dash_digits hdigits]
  rfl

/-- A form that begins with a date is not that of a text without one. -/
theorem run?_of_tableDate {cs : List Char} (h : tableDate.run cs = none)
    (form : Date → Text.Reader Reading) : (tableDate >>= form).run? cs = none := by
  rw [run?, StateT.run_bind, h]
  rfl

/-- **Nothing is read from a whole number** but by the strict notation. -/
theorem readStored?_of_int? {cs : List Char} {n : Int}
    (h : Numeral.int? (Text.trim cs) = some n) : readStored? cs = readStrict? (Text.trim cs) := by
  have hdate := tableDate_of_int? h
  have hforms : [tableSeconds blanks, tableSeconds (char 'T'), tableMinutes, tableDay].findSome?
      (fun form => (form.run? (Text.trim cs)).bind (fun r => ofReading? r 0)) = none := by
    refine List.findSome?_eq_none_iff.2 fun form hform => ?_
    have hnone : form.run? (Text.trim cs) = none := by
      simp only [List.mem_cons, List.not_mem_nil, or_false] at hform
      rcases hform with rfl | rfl | rfl | rfl <;> exact run?_of_tableDate hdate _
    rw [hnone]
    rfl
  unfold readStored?
  dsimp only
  rw [hforms]
  cases readStrict? (Text.trim cs) <;> rfl

/-- **Whatever instant a text has, the forms of tables have no other** for it. -/
theorem readStored?_of_readAbsolute? {cs : List Char} {t : Instant}
    (h : readAbsolute? (Text.trim cs) = some t) :
    readStored? cs = some t ∨ readStored? cs = none := by
  unfold readAbsolute? at h
  split at h
  · next t' hstrict =>
    left
    unfold readStored?
    dsimp only
    rw [hstrict, ← Option.some.inj h]
    rfl
  · next hstrict =>
    obtain ⟨seconds, hseconds, -⟩ := Option.bind_eq_some_iff.1 h
    obtain ⟨n, hn, -⟩ := Option.bind_eq_some_iff.1 hseconds
    exact .inr ((readStored?_of_int? hn).trans hstrict)

end Instant

/-! ## Cells of texts -/

/-- **What a table makes of a text adds to what is read from it**: the instant
that the text has stays, and where it has none the forms of tables are tried. -/
theorem StoredCell.toTime?_cellOfText (s : String) :
    (cellOfText true s).toTime? = (Cell.text s).toTime?.or (Instant.readStored? s.toList) := by
  have hcell : (cellOfText true s).toTime?
      = (Instant.readStored? s.toList).or (Cell.text s).toTime? := by
    rw [cellOfText, if_pos rfl]
    cases Instant.readStored? s.toList <;> rfl
  rw [hcell]
  cases ht : (Cell.text s).toTime? with
  | none => rw [Option.or_none, Option.none_or]
  | some t =>
    rcases Instant.readStored?_of_readAbsolute? ht with h | h
    · rw [h]
    · rw [h, Option.none_or, Option.or_none]

namespace StoredTable

/-- The type of a column is the same by the header that the table keeps. -/
theorem base_keptHeader (h : Header) :
    TypeName.base (keptHeader h).typeName = TypeName.base h.typeName := by
  unfold keptHeader
  dsimp only
  split
  · exact TypeName.base_toUpper h.typeName
  · rfl

theorem name_keptHeader (h : Header) : (keptHeader h).name = h.name := by
  unfold keptHeader
  dsimp only
  split <;> rfl

/-- **A column is one of times to the table** just if the base name of its type is
one of a time. -/
theorem isTemporal_iff (h : Header) :
    isTemporal h = true ↔ TypeName.typeOfBase (TypeName.base h.typeName) = .known .time := by
  have hresolve : TypeName.resolve ⟨"", h.typeName⟩ false
      = .ok (TypeName.typeOfBase (TypeName.base h.typeName)) := by
    have hmetric : ("" : String) ≠ TypeName.metricName := by decide
    rw [TypeName.resolve, if_neg (fun hc => absurd hc.2 Bool.false_ne_true)]
    exact if_neg (fun hc => hmetric hc.1)
  rw [isTemporal, hresolve]
  exact beq_iff_eq

/-- **The table and the result read times alike.** The columns of times are the
same for both, but for one that is a time by its name; and a text that is read as
an instant when it stands in a cell of the result is read as that instant from
the cell that the table hands out for it. Only where there is none does a column
of times have the instant of a form that tables hold. The text is any that there
is, as each is what its bytes are read as. -/
theorem resultSet_times (table : StoredTable) {j : Nat} {h : Header}
    (hheader : table.headers[j]? = some h) :
    table.resultSet.headers[j]? = some (keptHeader h) ∧
      (∀ (timeGrouped : Bool) (t : SemanticType),
        ¬(h.name = TypeName.timeName ∧ timeGrouped = true) →
        TypeName.resolve (keptHeader h) timeGrouped = .ok t →
        (isTemporal h = true ↔ t = .known .time)) ∧
      (∀ (row : List StoredCell) (bytes : ByteArray), row[j]? = some (.text bytes) →
        ∃ cell, (table.cells row)[j]? = some cell ∧
          (∀ t, (Cell.text (Text.decodeLossy bytes)).toTime? = some t → cell.toTime? = some t) ∧
          (isTemporal h = true →
            cell.toTime? = (Cell.text (Text.decodeLossy bytes)).toTime?.or
              (Instant.readStored? (Text.decodeLossy bytes).toList))) ∧
      ∀ s : String, Text.decodeLossy s.toUTF8 = s := by
  refine ⟨?_, fun timeGrouped t hname ht => ?_, fun row bytes hcell => ?_, Text.decodeLossy_toUTF8⟩
  · show (table.headers.map keptHeader)[j]? = _
    rw [List.getElem?_map, hheader]
    rfl
  · rw [← name_keptHeader h] at hname
    rw [isTemporal_iff, ← base_keptHeader, TypeName.typeOfBase_of_resolve hname ht]
  · refine ⟨StoredCell.cellOfText (isTemporal h) (Text.decodeLossy bytes), ?_, fun t ht => ?_,
      fun htemporal => ?_⟩
    · rw [cells, List.getElem?_zipWith, hheader, hcell]
      rfl
    · cases isTemporal h with
      | false => exact ht
      | true => rw [StoredCell.toTime?_cellOfText, ht, Option.some_or]
    · rw [htemporal, StoredCell.toTime?_cellOfText]

/-- A number of seconds with a sign, zeros and blanks, in a column declared in
small letters and with a precision. -/
theorem resultSet_times_signedNumber :
    isTemporal ⟨"seen", "timestamp (6)"⟩ = true ∧
      ∃ cell, (cells ⟨[⟨"seen", "timestamp (6)"⟩], [], none⟩
          [.text "\t-0086400 ".toUTF8])[0]? = some cell ∧
        cell.toTime? = some ⟨-86400, 0, by decide⟩ := by
  obtain ⟨-, htype, hcells, htext⟩ :=
    resultSet_times ⟨[⟨"seen", "timestamp (6)"⟩], [], none⟩ (j := 0) rfl
  have hresolve : TypeName.resolve (keptHeader ⟨"seen", "timestamp (6)"⟩) true
      = .ok (.known .time) := by decide +kernel
  obtain ⟨cell, hcell, htimes, -⟩ := hcells [.text "\t-0086400 ".toUTF8] _ rfl
  rw [htext] at htimes
  exact ⟨(htype true _ (by decide) hresolve).2 rfl, cell, hcell, htimes _ (by decide +kernel)⟩

end StoredTable

end WindowQuery
