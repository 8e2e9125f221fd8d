import WindowQuery.Text.Numeral

/-!
# Errors of directives

What can be wrong with the directives of a text. Any of it ends the
expansion: there is no text that is expanded in part.
-/

namespace WindowQuery

/-- **Why a text cannot be expanded.** -/
inductive DirectiveError where
  /-- No directive has the name. -/
  | unknown (name : String)
  /-- An argument that the directive needs is not there. -/
  | missingArgument (directive argument : String)
  /-- The directive takes no arguments and has some. -/
  | unexpectedArguments (directive : String)
  /-- The grouping directive has fewer than two arguments. -/
  | missingGroupArguments (directive : String)
  /-- An argument is no interval. -/
  | invalidInterval (text : String)
  /-- The argument list of the directive at an offset is not closed. -/
  | unterminated (name : String) (offset : Nat)
deriving DecidableEq

namespace DirectiveError

/-- The message for an error. -/
def message : DirectiveError → String
  | unknown name => "undefined macro: $" ++ name
  | missingArgument directive argument =>
    "missing " ++ argument ++ " argument for macro " ++ directive
  | unexpectedArguments directive => "macro " ++ directive ++ " should have no arguments"
  | missingGroupArguments directive =>
    "macro " ++ directive ++ " needs time column and interval and optional fill value"
  | invalidInterval text => "error parsing interval " ++ text
  | unterminated name offset =>
    "unterminated argument list for macro $" ++ name ++ " at offset " ++ Numeral.natText offset

end DirectiveError

end WindowQuery
