import SqlInterchange.Document

/-! # The shape of a document

Which values are documents. A value is checked as a whole: what is wrong with it is a list of
problems, each with its place, in the order of the fields of a document and then of the value. A
value without problems gives a document with the same entries in the same order. -/
namespace SqlInterchange.Shape

/-- What is wrong at a place. -/
inductive Defect where
  /-- A part with fixed fields is not an object. -/
  | notAnObject
  /-- A map is not an object. -/
  | notAMap
  /-- A list is something else. -/
  | notAList
  /-- A value is not a text. -/
  | notAText
  /-- A value is not a truth value. -/
  | notABool
  /-- A value is not an integer. -/
  | notAnInteger
  /-- A value is not a floating point number. -/
  | notAFloat
  /-- A field that must be there is not. -/
  | missing
  /-- A map that must have an entry has none. -/
  | tooShort
  /-- A part has a field that it cannot have. -/
  | unknownField
deriving DecidableEq

/-- A place in a value: the names of fields and the numbers of items on the way to it. -/
abbrev Location := List Text

/-- Something wrong, and where. -/
structure Problem where
  /-- The place. -/
  location : Location
  /-- What is wrong there. -/
  defect : Defect
deriving DecidableEq

/-- The result of a check: what was found, or all that is wrong. -/
abbrev Checked (α : Type) := Except (List Problem) α

variable {α β γ : Type}

/-- One thing wrong at a place. -/
def reject (location : Location) (defect : Defect) : Checked α := .error [⟨location, defect⟩]

/-- Two checks side by side; the problems of both count. -/
def both (f : α → β → γ) : Checked α → Checked β → Checked γ
  | .ok a, .ok b => .ok (f a b)
  | .ok _, .error qs => .error qs
  | .error ps, .ok _ => .error ps
  | .error ps, .error qs => .error (ps ++ qs)

/-- The checks of all items of a list, side by side. -/
def each (check : α → Checked β) : List α → Checked (List β)
  | [] => .ok []
  | a :: as => both List.cons (check a) (each check as)

/-! ## The parts -/

/-- A text. -/
def text (location : Location) : Value → Checked Text
  | .text t => .ok t
  | _ => reject location .notAText

/-- A scalar; any other value fails to be each kind of scalar. -/
def scalar (location : Location) (v : Value) : Checked Value :=
  if v.isScalar then .ok v
  else
    .error [⟨location ++ ["bool".toList], .notABool⟩, ⟨location ++ ["int".toList], .notAnInteger⟩,
      ⟨location ++ ["float".toList], .notAFloat⟩, ⟨location ++ ["str".toList], .notAText⟩]

/-- A list whose items pass a check. -/
def list (check : Location → Value → Checked α) (location : Location) : Value → Checked (List α)
  | .list items =>
    each (fun (v, i) => check (location ++ [Decimal.digits i]) v) items.zipIdx
  | _ => reject location .notAList

/-- A map whose values pass a check. -/
def map (check : Location → Value → Checked α) (location : Location) :
    Value → Checked (OrderedMap α)
  | .object fields =>
    (each (fun (name, v) => (check (location ++ [name]) v).map (name, ·)) fields).map
      OrderedMap.ofList
  | _ => reject location .notAMap

/-- A row that may be empty. -/
def fields (location : Location) (v : Value) : Checked Row := map scalar location v

/-- A row with at least one field. -/
def row (location : Location) (v : Value) : Checked Row := do
  let r ← fields location v
  if r.isEmpty then reject location .tooShort else .ok r

/-- The problem of each field that is not among the known ones. -/
def onlyFields (known : List String) (location : Location) (fs : List (Text × Value)) :
    Checked Unit :=
  (each (fun (name, _) =>
    if (known.map String.toList).contains name then .ok ()
    else reject (location ++ [name]) .unknownField) fs).map fun _ => ()

/-- A field that may be missing, checked at its place if it is there. -/
def optional (name : String) (default : α) (check : Location → Value → Checked α)
    (location : Location) (fs : List (Text × Value)) : Checked α :=
  match fs.lookup name.toList with
  | none => .ok default
  | some v => check (location ++ [name.toList]) v

/-- A field that must be there. -/
def required (name : String) (check : Location → Value → Checked α) (location : Location)
    (fs : List (Text × Value)) : Checked α :=
  match fs.lookup name.toList with
  | none => reject (location ++ [name.toList]) .missing
  | some v => check (location ++ [name.toList]) v

/-- A part with fixed fields: the check of its fields, then the problem of each other field. -/
def part (known : List String) (check : Location → List (Text × Value) → Checked α)
    (location : Location) : Value → Checked α
  | .object fs => both (fun a () => a) (check location fs) (onlyFields known location fs)
  | _ => reject location .notAnObject

/-- A part that may be null. -/
def nullable (check : Location → Value → Checked α) (location : Location) :
    Value → Checked (Option α)
  | .null => .ok none
  | v => (check location v).map some

/-! ## The document -/

/-- The shape of tables. -/
def schema : Location → Value → Checked Schema :=
  part ["tables", "otherSQL"] fun location fs =>
    both Schema.mk (optional "tables" .empty (map text) location fs)
      (optional "otherSQL" [] (list text) location fs)

/-- One change of rows. -/
def update : Location → Value → Checked Update :=
  part ["set", "where"] fun location fs =>
    both Update.mk (required "set" row location fs) (optional "where" .empty fields location fs)

/-- The changes of rows. -/
def changes : Location → Value → Checked Changes :=
  part ["inserts", "updates", "deletes"] fun location fs =>
    both (fun inserts (updates, deletes) => ⟨inserts, updates, deletes⟩)
      (optional "inserts" .empty (map (list row)) location fs)
      (both Prod.mk (optional "updates" .empty (map (list update)) location fs)
        (optional "deletes" .empty (map (list row)) location fs))

/-- A document. -/
def document : Value → Checked Document :=
  part ["structure", "data"] (fun location fs =>
    both Document.mk (optional "structure" none (nullable schema) location fs)
      (optional "data" none (nullable changes) location fs)) []

end SqlInterchange.Shape
