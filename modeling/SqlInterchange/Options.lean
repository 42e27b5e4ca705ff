import SqlInterchange.Value.Display

/-! # Options

What a caller may choose for an import, an export or a wipe. Choices come as values of any kind
and are checked when options are made and whenever they are changed, so that options, once there,
hold choices that go together: a batch holds at least one row, and not both halves of a document
are left out. -/
namespace SqlInterchange

/-- Choices that have not been checked. -/
structure Choices where
  /-- Whether to leave out the shape of tables. -/
  dataOnly : Value
  /-- Whether to leave out the rows. -/
  structureOnly : Value
  /-- The tables to take, null for all. -/
  tableFilter : Value
  /-- The most rows of one insert. -/
  batchInsertSize : Value

/-- Options: choices that go together. -/
structure Options where
  /-- Whether to leave out the shape of tables; any value that counts as set says so. -/
  dataOnly : Value
  /-- Whether to leave out the rows; any value that counts as set says so. -/
  structureOnly : Value
  /-- The tables to take, if not all. -/
  tableFilter? : Option (List Value)
  /-- The most rows of one insert. -/
  batchInsertSize : Int
  /-- A batch holds at least one row. -/
  one_le_batchInsertSize : 1 ≤ batchInsertSize
  /-- Something is left to take. -/
  not_both : ¬(dataOnly.isTruthy = true ∧ structureOnly.isTruthy = true)

/-- What keeps choices from being options. -/
inductive OptionError where
  /-- An option has a value that it cannot have. -/
  | unusable (option : Text) (value : Value) (reason : Text)
  /-- There is no option of this name. -/
  | unknown (option : Text)
  /-- A table filter cannot be taken apart into names. -/
  | noItems (typeName : Text)

/-- The message of an error about the value of an option. -/
def OptionError.unusableMessage (option : Text) (value : Value) (reason : Text) : Text :=
  "Invalid value for option '".toList ++ option ++ "': ".toList ++ value.quoted ++ " (".toList ++
    reason ++ ").".toList

namespace Choices

/-- The choices of a caller who makes none. -/
def standard : Choices := ⟨.bool false, .bool false, .null, .int 250⟩

/-- The options that say whom to tell of success, failure and progress. What they are set to is
the caller's own matter. -/
def callbackNames : List String := ["success_callback", "error_callback", "progress_callback"]

/-- The choices after one of them is made. -/
def choose? (c : Choices) (option : Text) (value : Value) : Option Choices :=
  if option = "data_only".toList then some { c with dataOnly := value }
  else if option = "structure_only".toList then some { c with structureOnly := value }
  else if option = "table_filter".toList then some { c with tableFilter := value }
  else if option = "batch_insert_size".toList then some { c with batchInsertSize := value }
  else if (callbackNames.map String.toList).contains option then some c
  else none

/-- The choices after some of them are made, in order; the first that is none is an error. -/
def chooseAll (c : Choices) : List (Text × Value) → Except OptionError Choices
  | [] => .ok c
  | (option, value) :: fields =>
    match c.choose? option value with
    | none => .error (.unknown option)
    | some c => c.chooseAll fields

end Choices

namespace Options

/-- A number of rows for a batch. -/
def checkBatchInsertSize (v : Value) : Except OptionError { n : Int // 1 ≤ n } :=
  match v with
  | .int n =>
    if h : 1 ≤ n then .ok ⟨n, h⟩
    else .error (.unusable "batch_insert_size".toList v "must be at least 1".toList)
  | _ => .error (.unusable "batch_insert_size".toList v "must be an integer".toList)

/-- The tables to take, taken apart. -/
def checkTableFilter (v : Value) : Except OptionError (Option (List Value)) :=
  match v with
  | .null => .ok none
  | v =>
    match v.items? with
    | some items => .ok (some items)
    | none => .error (.noItems v.typeName)

/-- The options of some choices, checked in the order: size of batches, halves left out, tables to
take. -/
def ofChoices (c : Choices) : Except OptionError Options := do
  let ⟨size, hsize⟩ ← checkBatchInsertSize c.batchInsertSize
  if h : c.dataOnly.isTruthy = true ∧ c.structureOnly.isTruthy = true then
    .error (.unusable "structure_only".toList (.bool true)
      "cannot be combined with data_only".toList)
  else
    let filter? ← checkTableFilter c.tableFilter
    .ok ⟨c.dataOnly, c.structureOnly, filter?, size, hsize, h⟩

/-- The choices that options hold. -/
def toChoices (o : Options) : Choices :=
  ⟨o.dataOnly, o.structureOnly, (o.tableFilter?.map .list).getD .null, .int o.batchInsertSize⟩

/-- The options of a caller who chooses nothing. -/
def standard : Options :=
  ⟨.bool false, .bool false, none, 250, by decide, by simp [Value.isTruthy]⟩

/-- A batch may be a single row. -/
theorem one_le_single : (1 : Int) ≤ 1 := Int.le_refl 1

/-- The options with the fields chosen and the others standard. -/
def ofFields (fields : List (Text × Value)) : Except OptionError Options := do
  ofChoices (← Choices.standard.chooseAll fields)

/-- The options with the fields chosen anew and the others kept. -/
def merged (o : Options) (fields : List (Text × Value)) : Except OptionError Options := do
  ofChoices (← o.toChoices.chooseAll fields)

/-- Whether the shape of tables is left out. -/
def isDataOnly (o : Options) : Bool := o.dataOnly.isTruthy

/-- Whether the rows are left out. -/
def isStructureOnly (o : Options) : Bool := o.structureOnly.isTruthy

/-- Whether a table is among those to take. -/
def includesTable (o : Options) (name : Text) : Bool :=
  match o.tableFilter? with
  | none => true
  | some items => items.any fun v => v.text? == some name

end Options
end SqlInterchange
