import SqlInterchange.Backend.Registry

/-! # Scripted connections

A connection without a database behind it, which answers as it is told: statements with a given
text in them break it down or are refused, others answer given rows. It keeps account of
transactions as its kind does. With it imports and exports can be rehearsed, failures included. -/
namespace SqlInterchange.Scripted

/-- How a connection keeps account of transactions. -/
inductive Kind where
  /-- Not at all. -/
  | recording
  /-- As the engine does: words that begin or end a transaction count in any statement. -/
  | engine
  /-- As the toolkit does: only its own transactions count. -/
  | toolkit
deriving DecidableEq

/-- The answer to statements with a given text in them. -/
structure Answer where
  /-- The text. -/
  part : Text
  /-- The columns of the answer; without columns it has no rows. -/
  columns? : Option (List Text)
  /-- The values of the rows, in the order of the columns. -/
  rows : List (List Value)

/-- A connection and what it is told. -/
structure Script where
  /-- How it keeps account of transactions. -/
  kind : Kind
  /-- The texts that are refused. -/
  failOn : List Text
  /-- The texts that break it down. -/
  crashOn : List Text
  /-- The answers; the first that fits counts. -/
  answers : List Answer
  /-- Whether a transaction is open. -/
  inTransaction : Bool

/-- Breaks down or refuses if told so. -/
def Script.check (s : Script) (statement : Text) : Except Failure Unit :=
  if s.crashOn.any (Text.occursIn · statement) then
    .error (.fault (.connection ("crash: ".toList ++ statement)))
  else if s.failOn.any (Text.occursIn · statement) then
    .error (.rejected ("rejected: ".toList ++ statement))
  else .ok ()

/-- The rows of an answer. -/
def Answer.result (a : Answer) : List Row :=
  match a.columns? with
  | none => []
  | some columns => a.rows.map fun cells => .ofList (columns.zip cells)

/-- The rows that answer a statement. -/
def Script.result (s : Script) (statement : Text) : List Row :=
  ((s.answers.find? fun a => Text.occursIn a.part statement).map Answer.result).getD []

/-- A letter as a capital; the dotless small `i` has a capital in ASCII too. -/
def capital (c : Char) : Char := if c = '\u0131' then 'I' else c.toUpper

/-- The first word of a statement, in capitals. -/
def firstWord (statement : Text) : Text :=
  ((Text.trimStart statement).takeWhile (!Text.isBlank ·)).map capital

/-- What the engine makes of a word that begins or ends a transaction. -/
def Script.account (s : Script) (statement : Text) : Except Failure Unit × Script :=
  let word := firstWord statement
  let refused := fun detail : String => (.error (.rejected detail.toList), s)
  if word = "BEGIN".toList then
    if s.inTransaction then refused "cannot start a transaction within a transaction"
    else (.ok (), { s with inTransaction := true })
  else if word = "COMMIT".toList ∨ word = "END".toList then
    if s.inTransaction then (.ok (), { s with inTransaction := false })
    else refused "cannot commit - no transaction is active"
  else if word = "ROLLBACK".toList then
    if s.inTransaction then (.ok (), { s with inTransaction := false })
    else refused "cannot rollback - no transaction is active"
  else (.ok (), s)

/-- The word that begins or ends a transaction. -/
def word : Control → Text
  | .start => "BEGIN".toList
  | .commit => "COMMIT".toList
  | .rollback => "ROLLBACK".toList

/-- Checks a statement, then lets the engine account for it. -/
def Script.checkAndAccount (s : Script) (statement : Text) : Except Failure Unit × Script :=
  match s.check statement with
  | .ok () => s.account statement
  | .error f => (.error f, s)

/-- Begins or ends a transaction of the toolkit. A rollback ends it even if it is refused. -/
def Script.controlToolkit (s : Script) (control : Control) : Except Failure Unit × Script :=
  let ended := { s with inTransaction := false }
  match control, s.check (word control) with
  | .start, .ok () => (.ok (), { s with inTransaction := true })
  | .commit, .ok () => (.ok (), ended)
  | .rollback, answer => (answer, ended)
  | _, .error f => (.error f, s)

/-- Begins or ends a transaction. -/
def Script.control (control : Control) (s : Script) : Except Failure Unit × Script :=
  match s.kind with
  | .recording => (s.check (word control), s)
  | .engine => s.checkAndAccount (word control)
  | .toolkit => s.controlToolkit control

/-- Executes a statement. -/
def Script.submit (statement : Text) (s : Script) : Except Failure (List Row) × Script :=
  let (answer, s) :=
    if s.kind = .engine then s.checkAndAccount statement else (s.check statement, s)
  (answer.map fun () => s.result statement, s)

/-- The scripted connection. -/
def connection : Connection Script := ⟨Script.inTransaction, Script.control, Script.submit⟩

/-- A backend that makes each unit of work a transaction of its own. -/
def recording : Backend Script :=
  { connection with
    name := "RecordingBackend".toList, joinsOpen := false, endsOnlyIfOpen := false }

/-- What a caller passes to work on a scripted connection of a kind. -/
def handle : Kind → Handle (Backend Script) (Connection Script)
  | .recording => .backend recording
  | .engine => .value "Connection".toList [Registry.engineType] connection
  | .toolkit => .value "Connection".toList [Registry.toolkitType] connection

end SqlInterchange.Scripted
