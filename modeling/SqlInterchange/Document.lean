import SqlInterchange.Value

/-! # Documents

A document describes the shape of tables, further schema statements, and changes of rows: rows to
insert, to update and to delete, each kind by table. Either half may be missing. As a value, and
so as JSON, a document is an object with the fields `structure` and `data`; updates and deletes
are left out when there are none. -/
namespace SqlInterchange

/-- The shape of tables and further schema statements. -/
structure Schema where
  /-- Each table and the clause that lists its columns, in the order of their making. -/
  tables : OrderedMap Text
  /-- Further schema statements, in order. -/
  otherSql : List Text

/-- One change of rows. -/
structure Update where
  /-- The columns to change and the values they get. -/
  assignments : Row
  /-- The values of the rows to change; without any, all rows change. -/
  conditions : Row

/-- Changes of rows, by table. -/
structure Changes where
  /-- The rows to insert. -/
  inserts : OrderedMap (List Row)
  /-- The changes of rows. -/
  updates : OrderedMap (List Update)
  /-- The values of the rows to delete. -/
  deletes : OrderedMap (List Row)

/-- A document. -/
structure Document where
  /-- The shape of tables, if the document tells it. -/
  schema? : Option Schema
  /-- The changes of rows, if the document tells them. -/
  changes? : Option Changes

namespace Document

/-! ## Documents as values -/

/-- A map as an object. -/
def objectOf {α : Type} (f : α → Value) (m : OrderedMap α) : Value := .object (m.map f).entries

/-- A row as an object. -/
def rowValue (row : Row) : Value := .object row.entries

/-- Rows as a list of objects. -/
def rowsValue (rows : List Row) : Value := .list (rows.map rowValue)

/-- An update as an object. -/
def updateValue (u : Update) : Value :=
  .object [("set".toList, rowValue u.assignments), ("where".toList, rowValue u.conditions)]

/-- The shape of tables as an object. -/
def schemaValue (s : Schema) : Value :=
  .object [("tables".toList, objectOf .text s.tables),
    ("otherSQL".toList, .list (s.otherSql.map .text))]

/-- The changes of rows as an object. -/
def changesValue (c : Changes) : Value :=
  .object (("inserts".toList, objectOf rowsValue c.inserts) ::
    (if c.updates.isEmpty then []
      else [("updates".toList, objectOf (fun us => .list (us.map updateValue)) c.updates)]) ++
    (if c.deletes.isEmpty then [] else [("deletes".toList, objectOf rowsValue c.deletes)]))

/-- A document as a value. -/
def toValue (d : Document) : Value :=
  .object ((d.schema?.map fun s => ("structure".toList, schemaValue s)).toList ++
    (d.changes?.map fun c => ("data".toList, changesValue c)).toList)

end Document
end SqlInterchange
