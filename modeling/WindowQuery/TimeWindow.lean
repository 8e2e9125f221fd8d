import WindowQuery.Instant.Reader

/-!
# Time windows

A window is a pair of instants that a query is run for. Its ends may be
given relative to the present: `now`, or `now-` and an interval; or else
as an RFC 3339 text or as seconds from the epoch.
-/

namespace WindowQuery

/-- **The time range of a query.** -/
structure TimeWindow where
  /-- Its start. -/
  start : Instant
  /-- Its end. -/
  stop : Instant
deriving DecidableEq

namespace TimeWindow

/-- Whether the start is not after the end. -/
def Ordered (w : TimeWindow) : Prop := w.start ≤ w.stop

instance (w : TimeWindow) : Decidable w.Ordered := inferInstanceAs (Decidable (_ ≤ _))

/-- A window whose start is not after its end. -/
def mk? (start stop : Instant) : Option TimeWindow :=
  if start ≤ stop then some ⟨start, stop⟩ else none

/-- The nanoseconds from its start to its end. -/
def span (w : TimeWindow) : Int := w.stop.sinceEpoch - w.start.sinceEpoch

/-- **The window that ends at an instant and has the given span** in
nanoseconds; with a negative span it starts after its end. -/
def last? (stop : Instant) (span : Int64) : Option TimeWindow :=
  (Instant.ofSinceEpoch? (stop.sinceEpoch - span.toInt)).map (fun start => ⟨start, stop⟩)

end TimeWindow

namespace Instant

/-- **Reads an instant relative to the present**; blanks around it are
skipped. What begins with `now-` is never read as anything else. -/
def read? (now : Instant) (text : List Char) : Option Instant :=
  let cs := Text.trim text
  if cs.map Char.toLower = ['n', 'o', 'w'] then some now
  else match cs with
    | 'n' :: 'o' :: 'w' :: '-' :: span => (Interval.read? span).bind now.back?
    | _ => readAbsolute? cs

end Instant

end WindowQuery
