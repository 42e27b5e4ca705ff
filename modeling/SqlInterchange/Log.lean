import SqlInterchange.Failure

/-! # The log

What the library says of its work to whoever reads the log. -/
namespace SqlInterchange

/-- What is logged. -/
inductive LogEntry where
  /-- An entry of a document is not compiled because its table is reserved. -/
  | reservedTableSkipped (part table : Text)
  /-- A document is compiled to so many statements of each group. -/
  | documentCompiled (main deferred : Nat) (batchInsertSize : Int)
  /-- A run of so many statements begins. -/
  | phaseStarted (phase backend : Text) (statements : Nat)
  /-- A run has ended well. -/
  | phaseFinished (phase backend : Text) (executed : Nat)
  /-- The definition of a table could not be read and is kept as a further statement. -/
  | unparsedTableDefinition (table : Text)
  /-- A row without any value is not exported. -/
  | emptyRowSkipped (table : Text)
  /-- An export is done: tables taken and statements made. -/
  | exportFinished (tables statements : Nat)
  /-- An operation has failed. -/
  | operationFailed (operation : Text) (error : Error)

end SqlInterchange
