import SqlInterchange.Backend

/-! # Reading a database

For an export the catalog and the tables of a database are read, all in one unit of work and in
the order of the catalog. A refusal to answer is an error. For a wipe the catalog alone is read. -/
namespace SqlInterchange.Walk

variable {σ ρ α : Type}

/-- The error of a refused question. -/
def readError (statement detail : Text) : ExecutionError :=
  { message := "Failed to read from database: ".toList ++ detail
    statement, detail, executed := 0 }

variable (b : Backend σ) (o : Options)

/-- The rows that answer a question. -/
def ask (statement : Text) : Activity (σ × ρ) (List Row) := do
  match ← b.execute statement with
  | .ok rows => return rows
  | .error detail => Activity.fail (.error (.execution (readError statement detail)))

/-- A result that may be a fault instead. -/
def orFault (result : Except Fault α) : Activity (σ × ρ) α :=
  Activity.ofExcept (result.mapError .fault)

/-- The entries of the catalog to take. -/
def catalog : Activity (σ × ρ) (List Catalog.Entry) := do
  orFault (Catalog.entries o (← ask b Catalog.query))

/-- The definitions of some entries, with remarks. -/
def definitions (remarks : Remarks) :
    List Catalog.Entry → Activity (σ × ρ) (List Catalog.Definition)
  | [] => pure []
  | entry :: rest => do
    let d ← orFault entry.definition?
    Activity.logAll (remarks.onDefinition d)
    return d :: (← definitions remarks rest)

/-- The rows of some tables, with remarks. -/
def contents (remarks : Remarks) : List Text → Activity (σ × ρ) (List (Text × List Row))
  | [] => pure []
  | table :: rest => do
    let rows ← ask b (Catalog.tableQuery table)
    Activity.logAll (remarks.onRows table rows)
    return (table, rows) :: (← contents remarks rest)

/-- Reads what an export needs. -/
def snapshot (remarks : Remarks) : Activity (σ × ρ) Snapshot :=
  b.unitOfWork do
    let entries ← catalog b o
    let ds ← if o.isDataOnly then pure [] else definitions remarks entries
    let cs ← if o.isStructureOnly then pure [] else contents b remarks (Catalog.tables entries)
    return ⟨entries, ds, cs⟩

/-- Logs the end of an export. -/
def finish (s : Snapshot) (count : Nat) : Activity (σ × ρ) Unit :=
  Activity.log (.exportFinished (Catalog.tables s.entries).length count)

/-- A database as a script. -/
def script : Activity (σ × ρ) ScriptExport := do
  let s ← snapshot b o .forScript
  let result := s.toScript
  finish s result.count
  return result

/-- A database as a document. -/
def document : Activity (σ × ρ) DocumentExport := do
  let s ← snapshot b o .forDocument
  let result := s.toDocument (!o.isDataOnly) (!o.isStructureOnly)
  finish s result.count
  return result

/-- The statements that drop the tables to take. -/
def drops : Activity (σ × ρ) (List Text) :=
  b.unitOfWork do
    return (Catalog.tables (← catalog b o)).map TableDefinition.renderDrop

end SqlInterchange.Walk
