import WindowQuery.Proofs.Frame.ColumnWise
import WindowQuery.Proofs.Frame.TypeName

/-!
# Types that the names of columns permit

Two names of columns restrict the type: `metric` is neither a number nor a
time, and `time` is a time where the query groups by time. Whether a column
keeps to this is decided at two moments. A header that gives a type is
checked before the first row; one that gives none lets the first value
decide, and that is checked when the value comes.

`Accumulator.Obeys` is what holds in between. A column without a type must
not be one of the times of a grouped query, because those get their type
from the name alone and no later check knows that the query groups. With
that, every cell keeps the rules (`Accumulator.Obeys.push`), and so every
column of a result does (`permitted_of_materialize`).
-/

namespace WindowQuery

/-- **Whether a column may have a type**, by its name. -/
structure Permitted (timeGrouped : Bool) (name : String) (t : ColumnType) : Prop where
  /-- What names series is neither a number nor a time. -/
  metric : name = TypeName.metricName → TypeName.isBarred t = false
  /-- The times of a grouped query are times. -/
  time : name = TypeName.timeName → timeGrouped = true → t = .time

section

variable {timeGrouped : Bool} {name : String}

/-- Any type that is not barred may stand where the times of a grouped query do
not. -/
theorem Permitted.of_not_time {t : ColumnType} (htime : ¬(name = TypeName.timeName ∧
    timeGrouped = true)) (hmetric : ¬(name = TypeName.metricName ∧ TypeName.isBarred t = true)) :
    Permitted timeGrouped name t where
  metric := fun hname => Bool.eq_false_iff.2 (fun hbarred => hmetric ⟨hname, hbarred⟩)
  time := fun hname hgrouped => absurd ⟨hname, hgrouped⟩ htime

/-- **Whether a column that is gathering cells keeps to the rules.** Without a
type yet it must not be one of the times of a grouped query. -/
def Accumulator.Obeys (timeGrouped : Bool) (name : String) : Accumulator → Prop
  | undecided _ => ¬(name = TypeName.timeName ∧ timeGrouped = true)
  | decided t _ _ => Permitted timeGrouped name t

namespace Accumulator.Obeys

/-- **A header that is accepted** begins a column that keeps to the rules. -/
theorem ofType {header : Header} {declared : SemanticType}
    (h : TypeName.resolve header timeGrouped = .ok declared) :
    (Accumulator.ofType declared).Obeys timeGrouped header.name := by
  rw [TypeName.resolve_eq] at h
  split at h
  · next htime =>
    obtain rfl := Except.ok.inj h
    exact ⟨fun hmetric => absurd (htime.1.symm.trans hmetric) (by decide), fun _ _ => rfl⟩
  · next htime =>
    split at h
    · split at h
      · cases h
      · next hmetric =>
        obtain rfl := Except.ok.inj h
        exact .of_not_time htime hmetric
    · obtain rfl := Except.ok.inj h
      exact htime

theorem take {t : ColumnType} (h : Permitted timeGrouped name t)
    (entries : Array (Option t.Entry)) (last : Option t.Entry) (cell : Cell) (fill : FillPolicy) :
    (Accumulator.take t entries last cell fill).Obeys timeGrouped name := by
  unfold Accumulator.take
  cases cell.convert? t with
  | some entry => exact h
  | none => exact h

/-- **A cell that is accepted** keeps the rules. Only the first value of a column
without a type can change its type, and that is where the type of a metric is
checked again. -/
theorem push {a a' : Accumulator} (h : a.Obeys timeGrouped name) {cell : Cell}
    {fill : FillPolicy} (hpush : a.push name cell fill = .ok a') :
    a'.Obeys timeGrouped name := by
  cases a with
  | decided t entries last =>
    obtain rfl := Except.ok.inj hpush
    exact take h entries last cell fill
  | undecided nulls =>
    cases hcell : cell.naturalType with
    | unknown =>
      simp only [Accumulator.push, hcell] at hpush
      obtain rfl := Except.ok.inj hpush
      exact h
    | known t =>
      simp only [Accumulator.push, hcell, TypeName.checkFirstValue] at hpush
      split at hpush
      · cases hpush
      · next hmetric =>
        obtain rfl := Except.ok.inj hpush
        exact take (.of_not_time h hmetric) _ _ cell fill

/-- **A run of cells** keeps the rules. -/
theorem pushAll {a a' : Accumulator} (h : a.Obeys timeGrouped name) {cells : List Cell}
    {fill : FillPolicy} (hpush : a.pushAll name fill cells = .ok a') :
    a'.Obeys timeGrouped name := by
  induction cells generalizing a with
  | nil =>
    obtain rfl := Except.ok.inj hpush
    exact h
  | cons cell cells ih =>
    obtain ⟨a₁, hcell, hpush⟩ := exists_of_bind_eq_ok hpush
    exact ih (h.push hcell) hpush

/-- A finished column has a type that its name permits; one that never had a
value is one of texts, and those are never barred. -/
theorem finish {a : Accumulator} (h : a.Obeys timeGrouped name) :
    Permitted timeGrouped name a.finish.type := by
  cases a with
  | undecided nulls => exact .of_not_time h (fun hbarred => by cases hbarred.2)
  | decided t entries last => exact h

end Accumulator.Obeys

end

/-- **Every column of a result has a type that its name permits.** -/
theorem permitted_of_materialize {headers : List Header} {rows : List Scan} {timeGrouped : Bool}
    {fill : FillPolicy} {columns : List Column}
    (h : materialize headers rows timeGrouped fill = .ok columns) {column : Column}
    (hcolumn : column ∈ columns) : Permitted timeGrouped column.name column.values.type := by
  obtain ⟨m, m', hstart, hrun, rfl⟩ := exists_of_materialize_eq_ok h
  obtain ⟨-, hlength, hat⟩ := Materializer.start_columns hstart
  obtain ⟨-, hlength', hall⟩ := Materializer.consume_columns hrun
  obtain ⟨⟨name, a'⟩, hmem, rfl⟩ := List.mem_map.1 hcolumn
  obtain ⟨j, hj'⟩ := List.mem_iff_getElem?.1 hmem
  have hlt : j < headers.length := by
    rw [← hlength, ← hlength']
    exact (List.getElem?_eq_some_iff.1 hj').1
  obtain ⟨declared, hresolve, hj⟩ := hat j headers[j] (List.getElem?_eq_getElem hlt)
  obtain ⟨a'', hpush, hj''⟩ := hall j _ _ hj
  obtain ⟨rfl, rfl⟩ := Prod.mk.inj (Option.some.inj (hj'.symm.trans hj''))
  exact ((Accumulator.Obeys.ofType hresolve).pushAll hpush).finish

end WindowQuery
