import SqlInterchange.Document.Parse

/-! # Failures

An error is reported to the caller and logged; it says what went wrong in the terms of this
library. What can go wrong beside that is a fault: a connection or a callback that breaks down, a
pipeline that runs twice, a catalog that cannot be read. Faults are neither reported nor logged,
they end the operation. A refusal by the database is, as long as nobody has made an error of it,
a failure of its own kind. -/
namespace SqlInterchange

/-- The state of a run of statements. -/
inductive RunState where
  /-- The run has not begun. -/
  | pending
  /-- The run is under way. -/
  | running
  /-- The run has ended and all its statements are executed. -/
  | succeeded
  /-- The run has ended before. -/
  | failed
deriving DecidableEq

/-- The name of a state. -/
def RunState.name : RunState → Text
  | pending => "pending".toList
  | running => "running".toList
  | succeeded => "succeeded".toList
  | failed => "failed".toList

/-- The message of the fault that a pipeline in this state is run again. -/
def RunState.notPendingMessage (s : RunState) : Text :=
  "Pipeline already ".toList ++ s.name ++ ['.']

/-- What the database refused to do. -/
structure ExecutionError where
  /-- What was being done. -/
  message : Text
  /-- The statement refused; empty if it is the transaction that failed. -/
  statement : Text
  /-- The database's own words. -/
  detail : Text
  /-- How many statements of the call had succeeded. -/
  executed : Int
deriving DecidableEq

/-- An error that the caller is told of. -/
inductive Error where
  /-- Nothing can be executed on what the caller passed. -/
  | unusableBackend (typeName : Text) (supported : List Text)
  /-- A source is no document. -/
  | parse (error : ParseError)
  /-- The database refused. -/
  | execution (error : ExecutionError)
  /-- A callback stopped the operation with an error of its own. -/
  | stopped (message : Text)

/-- The message of an error. -/
def Error.message : Error → Text
  | unusableBackend typeName _ =>
    "Cannot execute statements against '".toList ++ typeName ++ "'.".toList
  | parse error => error.message
  | execution error => error.message
  | stopped message => message

/-- What goes wrong beside errors. -/
inductive Fault where
  /-- The connection broke down. -/
  | connection (message : Text)
  /-- A callback broke down. -/
  | callback (message : Text)
  /-- A pipeline in this state was run again. -/
  | notPending (state : RunState)
  /-- A row of the catalog has no such column. -/
  | missingColumn (column : Text)
  /-- A name in the catalog is no text. -/
  | nameNotText (name : Value)
  /-- A definition in the catalog is no text. -/
  | definitionNotText (definition : Value)
  /-- A document has an integer of this many digits. -/
  | integerTooLong (digits : Nat)

/-- Why an operation ends without a result. -/
inductive Failure where
  /-- An error. -/
  | error (error : Error)
  /-- The database refused, in its own words. -/
  | rejected (detail : Text)
  /-- Something else. -/
  | fault (fault : Fault)

/-- A refusal of a source as a failure of an operation. -/
def Refusal.toFailure : Refusal → Failure
  | invalid e => .error (.parse e)
  | integerTooLong digits => .fault (.integerTooLong digits)

end SqlInterchange
