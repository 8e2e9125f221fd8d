import WindowQuery.Directive.Catalog
import WindowQuery.Proofs.Instant.Order
import WindowQuery.Proofs.Text.Reader

/-!
# The filter for epoch seconds

The filter compares a column with two whole numbers, the epoch seconds of the
two ends of a window, and leaves out the nanoseconds that they have beyond
these. (An instant within a leap second has the epoch second before that, and
then 10⁹ nanoseconds or more.) For the end of the window this makes no
difference: an epoch second is not after an instant just if it is not after the
one that the instant has. For its start it does: the start comes after its own
epoch second unless it has no nanoseconds beyond it. So the filter keeps the
epoch seconds of the window and, at most, one more, that of its start
(`evaluate_epochFilter`).

What the SQL says of a number is read from its text (`comparisons`), so that
the statement is one about the numerals that are written.
-/

namespace WindowQuery

/-! ## Comparisons in SQL -/

namespace Text.Reader

theorem run_string (s : String) (rest : List Char) :
    (string s).run (s.toList ++ rest) = some ((), rest) := by
  have hprefix : s.toList.isPrefixOf (s.toList ++ rest) = true :=
    List.isPrefixOf_iff_prefix.2 (List.prefix_append _ _)
  show (if s.toList.isPrefixOf (s.toList ++ rest) = true then _ else _) = _
  rw [if_pos hprefix, List.drop_left]

/-- Takes a whole number, all that is a digit or a minus sign. -/
def whole : Reader Int := do
  let taken ← takeWhile (fun c => c.isDigit || c == '-')
  match Numeral.int? taken with
  | some n => return n
  | none => failure

/-- **A whole number is taken from its text** if neither a digit nor a sign follows. -/
theorem run_whole (n : Int) {rest : List Char}
    (h : EndsRun (fun c => c.isDigit || c == '-') rest) :
    whole.run ((Numeral.intText n).toList ++ rest) = some (n, rest) := by
  have hall : ∀ c ∈ (Numeral.intText n).toList, (c.isDigit || c == '-') = true := by
    intro c hc
    rcases Numeral.mem_intText hc with hdigit | rfl
    · rw [hdigit, Bool.true_or]
    · rfl
  have htake : (takeWhile (fun c => c.isDigit || c == '-')).run
      ((Numeral.intText n).toList ++ rest) = some ((Numeral.intText n).toList, rest) := by
    show some (List.takeWhile _ _, List.dropWhile _ _) = _
    rw [takeWhile_run_append hall h, dropWhile_run_append hall h]
  rw [whole, run_bind_of_eq htake, Numeral.int?_intText]
  rfl

/-- Takes two comparisons of a column, from below and from above, and gives the
numbers. -/
def comparisons (column : String) : Reader (Int × Int) := do
  string column
  string " >= "
  let low ← whole
  string " AND "
  string column
  string " <= "
  let high ← whole
  return (low, high)

end Text.Reader

namespace Directive

/-- **What two comparisons of a column say** of a number in its place. -/
def Holds (column sql : String) (e : Int) : Prop :=
  match (Text.Reader.comparisons column).run? sql.toList with
  | some (low, high) => low ≤ e ∧ e ≤ high
  | none => False

open Text.Reader in
/-- **Two comparisons are read back** with their numbers, whatever the column is
called: its name is passed over as a text that is known, so it may hold blanks and
comparisons itself. -/
theorem holds_iff (column : String) (low high e : Int) :
    Holds column (column ++ " >= " ++ Numeral.intText low ++ " AND " ++ column ++ " <= "
      ++ Numeral.intText high) e ↔ low ≤ e ∧ e ≤ high := by
  have hread : (comparisons column).run? (column ++ " >= " ++ Numeral.intText low ++ " AND "
      ++ column ++ " <= " ++ Numeral.intText high).toList = some (low, high) := by
    refine run?_of_run ?_
    have hlow : ∀ rest, whole.run ((Numeral.intText low).toList ++ (" AND ".toList ++ rest))
        = some (low, " AND ".toList ++ rest) :=
      fun _ => run_whole low (Text.endsRun_cons.2 (by decide))
    have hhigh := run_whole high Text.endsRun_nil
    rw [List.append_nil] at hhigh
    simp only [String.toList_append, List.append_assoc]
    rw [comparisons, run_bind_of_eq (run_string _ _), run_bind_of_eq (run_string _ _),
      run_bind_of_eq (hlow _), run_bind_of_eq (run_string _ _), run_bind_of_eq (run_string _ _),
      run_bind_of_eq (run_string _ _), run_bind_of_eq hhigh]
    rfl
  rw [Holds, hread]

end Directive

/-! ## Epoch seconds of a window -/

/-- The epoch second of an instant, without the nanoseconds that the instant has
beyond it. -/
def Instant.secondOf (t : Instant) : Instant :=
  ⟨t.seconds, 0, t.valid.1, t.valid.2.1, Or.inl (by decide)⟩

namespace TimeWindow

/-- **An epoch second of a window**: its instant is one of those from the start to
the end, both included. -/
def Includes (w : TimeWindow) (e : Int) : Prop :=
  ∃ t, Instant.ofEpoch? e = some t ∧ w.start ≤ t ∧ t ≤ w.stop

/-- It comes after the epoch second of the start, unless it is the start, and not
after that of the end. -/
theorem includes_iff {w : TimeWindow} {e : Int} :
    w.Includes e ↔ (w.start.seconds < e ∨ w.start.seconds = e ∧ w.start.nanos = 0) ∧
      e ≤ w.stop.seconds := by
  have hle : ∀ a b : Instant,
      a ≤ b ↔ a.seconds < b.seconds ∨ a.seconds = b.seconds ∧ a.nanos ≤ b.nanos :=
    fun _ _ => Iff.rfl
  constructor
  · rintro ⟨t, ht, hstart, hstop⟩
    obtain ⟨hseconds, hnanos⟩ := Instant.mk?_eq_some_iff.1 ht
    rw [hle] at hstart hstop
    omega
  · rintro ⟨hstart, hstop⟩
    obtain ⟨hfirst, -, -⟩ := w.start.valid
    obtain ⟨-, hlast, -⟩ := w.stop.valid
    refine ⟨⟨e, 0, by omega, by omega, Or.inl (by decide)⟩,
      Instant.mk?_eq_some_iff.2 ⟨rfl, rfl⟩, ?_, ?_⟩ <;> rw [hle] <;> dsimp only <;> omega

end TimeWindow

namespace Directive

/-- **The filter keeps a window that starts with the epoch second of its start.** For
every window and column the directive gives a pair of comparisons, and they hold
for the epoch seconds from that of the start, as an instant without nanoseconds, to
the end of the window. These are the epoch seconds of the window itself and, if
the start has nanoseconds beyond its own epoch second, that one. It is so in a
leap second too, whose instants have the epoch second before it and at least 10⁹
nanoseconds: for a window that starts there the second before is kept. -/
theorem evaluate_epochFilter (column : String) (more : List String) (w : TimeWindow) :
    ∃ f, unixEpochFilter.evaluate (column :: more) w = .ok f ∧ f.fill = none ∧
      ∀ e : Int,
        (Holds column f.sql e ↔ (⟨w.start.secondOf, w.stop⟩ : TimeWindow).Includes e) ∧
        (Holds column f.sql e ↔ w.Includes e ∨
          (e = w.start.seconds ∧ 0 < w.start.nanos ∧ e ≤ w.stop.seconds)) := by
  refine ⟨_, rfl, rfl, fun e => ?_⟩
  have hholds := holds_iff column w.start.seconds w.stop.seconds e
  have hseconds : w.start.secondOf.seconds = w.start.seconds := rfl
  have hnanos : w.start.secondOf.nanos = 0 := rfl
  constructor
  · refine hholds.trans ?_
    rw [TimeWindow.includes_iff, hseconds, hnanos]
    dsimp only
    omega
  · refine hholds.trans ?_
    rw [TimeWindow.includes_iff]
    omega

/-- **An epoch second before the window is kept**: the window starts half a second
after it. -/
theorem epochFilter_before_start :
    ∃ f, unixEpochFilter.evaluate ["ts"]
        ⟨⟨1609502400, 500000000, by decide⟩, ⟨1611576000, 0, by decide⟩⟩ = .ok f ∧
      Holds "ts" f.sql 1609502400 ∧
      ¬TimeWindow.Includes
        ⟨⟨1609502400, 500000000, by decide⟩, ⟨1611576000, 0, by decide⟩⟩ 1609502400 := by
  refine ⟨_, rfl, (holds_iff "ts" 1609502400 1611576000 1609502400).2 (by decide), ?_⟩
  rw [TimeWindow.includes_iff]
  decide

end Directive

end WindowQuery
