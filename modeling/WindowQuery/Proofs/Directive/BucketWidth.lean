import WindowQuery.Directive.Catalog
import WindowQuery.Proofs.Interval.Seconds

/-!
# The width of buckets

The grouping directive writes its interval into the SQL twice, as a number of
seconds. Both times it is the same plain decimal numeral, and the numeral is
close to the interval (`evaluate_timeGroup_width`). It need not be the interval:
the seconds and the nanoseconds beyond them are put together as a binary
number, and what is written is the shortest decimal of that one. An interval of
up to fifteen digits is written exactly if the binary number is the one nearest
to it, as it would be after one rounding; but there are two, and the second one
may start from what the first one got wrong. So an interval of 1118 milliseconds
becomes a bucket that is a tenth of a femtosecond too narrow
(`timeGroup_width_inexact`). Beyond seventeen digits no interval is written
exactly.
-/

namespace WindowQuery

namespace Directive

open Binary64 (IsNearest IsShortest HasDigits)

/-- A grouping that evaluates has a column and an interval, which its SQL is made of. -/
theorem evaluate_timeGroup_eq_ok {arguments : List String} {w : TimeWindow} {f : Fragment}
    (h : timeGroup.evaluate arguments w = .ok f) :
    ∃ (column width : String) (more : List String) (i : Interval),
      arguments = column :: width :: more ∧ interval? width = some i ∧
        f.sql = bucketSql column i.inSeconds := by
  have hgroup : evaluateGroup arguments = .ok f := h
  unfold evaluateGroup at hgroup
  split at hgroup
  · next column width more =>
    cases hwidth : interval? width with
    | none =>
      rw [hwidth] at hgroup
      cases hgroup
    | some i =>
      rw [hwidth] at hgroup
      obtain rfl := Except.ok.inj hgroup
      exact ⟨column, width, more, i, rfl, hwidth, rfl⟩
  · cases hgroup

/-- **A bucket is as wide as its interval, but for rounding.** Whatever the grouping
directive makes SQL of has a column and an interval; the SQL divides and multiplies by one
text, a plain decimal numeral of a positive number close to the interval. The number
is the shortest decimal of the interval rounded twice, and is the interval just if that is
its own shortest decimal. Up to fifteen digits this says that rounding twice is
rounding once; whole seconds and what is less than a second are always exact, what has more
than seventeen digits is never. -/
theorem evaluate_timeGroup_width {arguments : List String} {w : TimeWindow} {f : Fragment}
    (h : timeGroup.evaluate arguments w = .ok f) :
    ∃ (column width : String) (more : List String) (i : Interval) (q : ℚ) (m : ℕ),
      arguments = column :: width :: more ∧ interval? width = some i ∧
      f.sql = "floor(extract(epoch from " ++ column ++ ")/" ++ i.inSeconds ++ ")*"
        ++ i.inSeconds ++ " as time" ∧
      Numeral.decimal? i.inSeconds.toList = some q ∧ 0 < q ∧
      |q * 10 ^ 9 - i.nanos| < (i.nanos : ℚ) / 2 ^ 51 ∧
      i.RoundsTwice m ∧ IsShortest m q ∧
      (q * 10 ^ 9 = i.nanos ↔ IsShortest m (i.nanos / 10 ^ 9)) ∧
      (HasDigits 15 (i.nanos : ℚ) → (q * 10 ^ 9 = i.nanos ↔ IsNearest (i.nanos / 10 ^ 9) m)) ∧
      (i.nanos % 1000000000 = 0 ∨ i.nanos < 1000000000 → q * 10 ^ 9 = i.nanos) ∧
      (q * 10 ^ 9 = i.nanos → HasDigits 17 (i.nanos : ℚ)) := by
  obtain ⟨column, width, more, i, rfl, hwidth, hsql⟩ := evaluate_timeGroup_eq_ok h
  obtain ⟨q, m, hq, hrounds, hshortest, hdigits⟩ := i.decimal?_inSeconds
  have hbillion : (10 : ℚ) ^ 9 ≠ 0 := by norm_num
  have hexact : q * 10 ^ 9 = i.nanos ↔ q = i.seconds := (eq_div_iff hbillion).symm
  have hclose := hrounds.abs_sub_lt hshortest
  have hpos := i.le_seconds
  obtain ⟨hlow, hhigh⟩ := abs_lt.1 hclose
  have hnanos : (i.nanos : ℚ) = i.seconds * 10 ^ 9 := (div_mul_cancel₀ _ hbillion).symm
  -- all that is asked of `q` is what rounding twice says of it, in nanoseconds instead of seconds
  refine ⟨column, width, more, i, q, m, rfl, hwidth, hsql, hq, by linarith, ?_, hrounds, hshortest,
    ?_, fun hfew => ?_, fun hi => ?_, fun h => ?_⟩
  · rw [hnanos, abs_lt]
    constructor <;> linarith
  · exact hexact.trans ⟨fun heq => (heq ▸ hshortest : IsShortest m i.seconds), hshortest.unique⟩
  · exact hexact.trans (hrounds.eq_seconds_iff hshortest hfew)
  · exact hexact.2 ((hrounds.eq_seconds_iff hshortest (Interval.hasDigits_nanos hi)).2
      (hrounds.isNearest_seconds hi))
  · rw [← h]
    exact (Binary64.hasDigits_mul_iff 9).2 hdigits

/-- A minute and a half, which is written as ninety and is exactly that. -/
theorem timeGroup_width_ninety :
    ∃ f q, timeGroup.evaluate ["ts", "1.5m", "NULL"] ⟨Instant.epoch, Instant.epoch⟩ = .ok f ∧
      f.sql = "floor(extract(epoch from ts)/90)*90 as time" ∧
      Numeral.decimal? "90".toList = some q ∧ q * 10 ^ 9 = 90000000000 := by
  have hwidth : interval? "1.5m" = some ⟨90000000000, by decide, by decide⟩ := by decide +kernel
  have htext : Interval.inSeconds ⟨90000000000, by decide, by decide⟩ = "90" := by decide +kernel
  have heval : timeGroup.evaluate ["ts", "1.5m", "NULL"] ⟨Instant.epoch, Instant.epoch⟩
      = .ok ⟨bucketSql "ts" "90", some .null⟩ := by
    rw [← htext]
    show evaluateGroup ["ts", "1.5m", "NULL"] = _
    rw [evaluateGroup, hwidth]
    decide +kernel
  obtain ⟨column, width, more, i, q, m, harguments, hi, -, hq, -, -, -, -, -, -, hexact, -⟩ :=
    evaluate_timeGroup_width heval
  obtain ⟨rfl, rfl, rfl⟩ : "ts" = column ∧ "1.5m" = width ∧ ["NULL"] = more := by
    simpa using harguments
  obtain rfl := Option.some.inj (hwidth.symm.trans hi)
  rw [htext] at hq
  exact ⟨_, q, heval, by decide +kernel, hq, by simpa using hexact (Or.inl (by decide))⟩

/-- **An interval that is not written exactly**: 1118 milliseconds. -/
theorem timeGroup_width_inexact :
    ∃ i f q, interval? "1118ms" = some i ∧ i.nanos = 1118000000 ∧
      timeGroup.evaluate ["ts", "1118ms"] ⟨Instant.epoch, Instant.epoch⟩ = .ok f ∧
      f.sql = "floor(extract(epoch from ts)/1.1179999999999999)*1.1179999999999999 as time" ∧
      Numeral.decimal? "1.1179999999999999".toList = some q ∧ q * 10 ^ 9 ≠ i.nanos := by
  have hwidth : interval? "1118ms" = some ⟨1118000000, by decide, by decide⟩ := by decide +kernel
  have htext : Interval.inSeconds ⟨1118000000, by decide, by decide⟩ = "1.1179999999999999" := by
    decide +kernel
  have heval : timeGroup.evaluate ["ts", "1118ms"] ⟨Instant.epoch, Instant.epoch⟩
      = .ok ⟨bucketSql "ts" "1.1179999999999999", none⟩ := by
    rw [← htext]
    show evaluateGroup ["ts", "1118ms"] = _
    rw [evaluateGroup, hwidth]
    rfl
  refine ⟨_, _, 11179999999999999 / 10 ^ 16, hwidth, rfl, heval, by decide +kernel,
    by decide +kernel, ?_⟩
  norm_num

end Directive

end WindowQuery
