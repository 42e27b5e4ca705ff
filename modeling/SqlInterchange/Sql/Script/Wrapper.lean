import SqlInterchange.Sql.Script

/-! # Transaction wrappers

Dumps of a database open a transaction of their own with their first statement and commit it with
their last one. An import already runs in a transaction, so it drops the two. -/
namespace SqlInterchange.Script

/-- Whether a text is over, a line feed at its end aside. -/
def isOver (t : Text) : Bool := t.isEmpty || t == ['\n']

/-- What follows blanks and a word, in any letter case. -/
def stripNextWord? (word : String) (t : Text) : Option Text :=
  (Text.stripBlanks? t).bind (Text.stripWord? word.toList)

/-- Whether the rest of a statement is nothing, or the word `TRANSACTION`. -/
def isTransactionEnd (t : Text) : Bool :=
  isOver t || (stripNextWord? "TRANSACTION" t).any isOver

/-- The kinds of transaction that `BEGIN` may name. -/
def transactionKinds : List String := ["DEFERRED", "IMMEDIATE", "EXCLUSIVE"]

/-- Whether a statement does nothing but open a transaction. -/
def opensTransaction (statement : Text) : Bool :=
  (Text.stripWord? "BEGIN".toList statement).any fun rest =>
    isTransactionEnd rest ||
      transactionKinds.any fun kind => (stripNextWord? kind rest).any isTransactionEnd

/-- Whether a statement does nothing but commit a transaction. -/
def commitsTransaction (statement : Text) : Bool :=
  ["COMMIT", "END"].any fun word => (Text.stripWord? word.toList statement).any isTransactionEnd

/-- The statements without one that opens a transaction at the start and without one that commits
it at the end. -/
def unwrap (statements : List Text) : List Text :=
  let inner := if statements.head?.any opensTransaction then statements.tail else statements
  if inner.getLast?.any commitsTransaction then inner.dropLast else inner

end SqlInterchange.Script
