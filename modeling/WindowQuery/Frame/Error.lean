import WindowQuery.Frame.Cell

/-!
# Errors of frames

What can go wrong between the rows of a database and a frame. A value that
does not convert to the type of its column is none of it: the fill policy
stands in.
-/

namespace WindowQuery

/-- Why a column may not have the type that it has. -/
inductive TypeConflict where
  /-- The type that its header names. -/
  | declared (typeName : String) (type : SemanticType)
  /-- The type of its first value. -/
  | firstValue (type : ColumnType)
deriving DecidableEq

/-- The reason in words. -/
def TypeConflict.message : TypeConflict → String
  | declared typeName type =>
    "column type " ++ typeName ++ " resolves to " ++ type.name ++ ", metric must be a string"
  | firstValue type => "first value is " ++ type.name ++ ", metric must be a string"

/-- Why a frame has no wide form. -/
inductive ReshapeError where
  /-- No column is its time column. -/
  | noTimeColumn
  /-- Its time column holds something else. -/
  | notATime (name : String) (type : ColumnType)
  /-- A row has no time. -/
  | nullTime (row : Nat)
  /-- A row is earlier than the one before it. -/
  | unsorted (row : Nat)
  /-- A row repeats the time and the factors of an earlier one. -/
  | duplicate (factors : List (Option String)) (row : Nat)
deriving DecidableEq

/-- The error in words. -/
def ReshapeError.message : ReshapeError → String
  | noTimeColumn => "frame has no time column"
  | notATime name type => "time column '" ++ name ++ "' has type " ++ type.name
  | nullTime row => "null value in time column at row " ++ Numeral.natText row
  | unsorted row => "time column is not sorted ascending at row " ++ Numeral.natText row
  | duplicate factors row =>
    "duplicate entry for series " ++ ",".intercalate (factors.map (·.getD "")) ++ " at row "
      ++ Numeral.natText row

/-- **Why there is no frame.** -/
inductive FrameError where
  /-- A column has a type that its name forbids. -/
  | typeConflict (column : String) (conflict : TypeConflict)
  /-- A row could not be read. -/
  | rowScan (row : Nat) (text : String)
  /-- A row does not have one cell for each column. -/
  | rowWidth (row expected actual : Nat)
  /-- The frame has no wide form. -/
  | reshape (error : ReshapeError)
deriving DecidableEq

namespace FrameError

/-- The message for a row that could not be read. -/
def scanMessage (text : String) : String := "could not scan row: " ++ text

/-- The message for an error. -/
def message : FrameError → String
  | typeConflict column conflict =>
    "type conflict for column '" ++ column ++ "': " ++ conflict.message
  | rowScan row text => "row " ++ Numeral.natText row ++ ": " ++ scanMessage text
  | rowWidth row expected actual =>
    "row " ++ Numeral.natText row ++ " has " ++ Numeral.natText actual ++ " values, expected "
      ++ Numeral.natText expected
  | reshape error => "failed to reshape frame: " ++ error.message

end FrameError

end WindowQuery
