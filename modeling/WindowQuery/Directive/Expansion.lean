import WindowQuery.Directive.Catalog

/-!
# Expansion

Every directive of a text is replaced by its fragment. Cutting the text up
comes first: a list that is not closed is reported before anything wrong
with a directive, wherever they stand. Then the first directive that is
unknown or cannot be evaluated is reported. The last fill policy that a
directive chooses is that of the text.
-/

namespace WindowQuery

/-- **A text with its directives replaced.** -/
structure Expansion where
  /-- The SQL. -/
  sql : String
  /-- The fill policy that it chooses. -/
  fill : Option FillPolicy
  /-- Whether it groups by time. -/
  timeGrouped : Bool
deriving DecidableEq

namespace Expansion

/-- The expansion of no text. -/
def empty : Expansion := ⟨"", none, false⟩

/-- **One expansion after another**: the texts are joined, and the later
choice of a fill policy counts. -/
def append (a b : Expansion) : Expansion :=
  ⟨a.sql ++ b.sql, b.fill.or a.fill, a.timeGrouped || b.timeGrouped⟩

instance : Append Expansion := ⟨append⟩

/-- The expansion of a use of a directive. -/
def ofInvocation (w : TimeWindow) (i : Directive.Invocation) : Except DirectiveError Expansion :=
  match Directive.ofName? i.name with
  | none => .error (.unknown i.name)
  | some d => (d.evaluate (i.arguments d.takesSeveral) w).map (fun f =>
      ⟨f.sql, f.fill, d == .timeGroup⟩)

/-- **The expansion of a token.** -/
def ofToken (w : TimeWindow) : Directive.Token → Except DirectiveError Expansion
  | .literal text => .ok ⟨text, none, false⟩
  | .directive use => ofInvocation w use

/-- The expansion of tokens; the first error ends it. -/
def ofTokens (w : TimeWindow) : List Directive.Token → Except DirectiveError Expansion
  | [] => .ok empty
  | t :: rest =>
    (ofToken w t).bind (fun e => (ofTokens w rest).map (fun more => e ++ more))

end Expansion

/-- **Expands a text in a window.** -/
def expand (text : String) (w : TimeWindow) : Except DirectiveError Expansion :=
  (Directive.tokenize text).bind (Expansion.ofTokens w)

end WindowQuery
