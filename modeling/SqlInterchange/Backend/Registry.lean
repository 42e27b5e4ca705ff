import SqlInterchange.Backend

/-! # The registry of backends

A caller passes a backend, or a connection of a type that a way of driving it is registered for.
The first registered type that the connection is of decides; registering a type again changes the
way and not the type's place. -/
namespace SqlInterchange

/-- A type of connections. Types of one name are told apart by a mark. -/
structure ConnectionType where
  /-- The name, with the module it is defined in. -/
  name : Text
  /-- What tells the type from others of its name. -/
  mark : Nat
deriving DecidableEq

/-- What a caller passes to execute statements on: `β` are the backends, `κ` what is known of
other values. -/
inductive Handle (β κ : Type) where
  /-- A backend. -/
  | backend (b : β)
  /-- Nothing. -/
  | nothing
  /-- A value of a named type, with all the types that it is of. -/
  | value (typeName : Text) (types : List ConnectionType) (connection : κ)

/-- The ways to make a backend of a connection, by the type of the connection, in the order in
which the types were first registered. -/
structure Registry (β κ : Type) where
  /-- The types and the way registered for each. -/
  entries : List (ConnectionType × (κ → β))
  /-- No type is there twice. -/
  nodup : (entries.map Prod.fst).Nodup

/-- A registration of a way for a type. -/
inductive Registration (β κ : Type) where
  /-- The way is there and is registered. -/
  | direct (type : ConnectionType) (wrap : κ → β)
  /-- The definition of the way is decorated with its registration. -/
  | decorating (type : ConnectionType) (wrap : κ → β)

namespace Registry

variable {β κ : Type}

/-- Nothing is registered. -/
def empty : Registry β κ := ⟨[], .nil⟩

/-- Whether one text is not after another in the order of their characters. -/
def notAfter : Text → Text → Bool
  | [], _ => true
  | _ :: _, [] => false
  | c :: cs, d :: ds => c < d || (c == d && notAfter cs ds)

/-- The names of the types that a way is registered for, sorted. -/
def types (r : Registry β κ) : List Text := (r.entries.map (·.1.name)).mergeSort notAfter

/-- Registers the way for a type. -/
def register (r : Registry β κ) (type : ConnectionType) (wrap : κ → β) : Registry β κ :=
  ⟨OrderedMap.write type wrap r.entries, OrderedMap.nodup_write r.nodup⟩

/-- Registers the way for a type and hands the way back, so that it can be defined with it. -/
def decorate (r : Registry β κ) (type : ConnectionType) (wrap : κ → β) : Registry β κ × (κ → β) :=
  (r.register type wrap, wrap)

/-- The registry after a registration. -/
def perform (r : Registry β κ) : Registration β κ → Registry β κ
  | .direct type wrap => r.register type wrap
  | .decorating type wrap => (r.decorate type wrap).1

/-- The registry after some registrations, in order. -/
def after (history : List (Registration β κ)) : Registry β κ := history.foldl perform empty

/-- The way registered for the first type among those given. -/
def find? (r : Registry β κ) (types : List ConnectionType) : Option (κ → β) :=
  (r.entries.find? fun entry => types.contains entry.1).map Prod.snd

/-- The name of the type of a handle, as errors give it. -/
def typeName : Handle β κ → Text
  | .backend _ => []
  | .nothing => "NoneType".toList
  | .value typeName _ _ => typeName

/-- The backend for a handle: the handle itself, or the way of its type. -/
def adapt (r : Registry β κ) (handle : Handle β κ) : Except Error β :=
  match handle with
  | .backend b => .ok b
  | .nothing => .error (.unusableBackend (typeName handle) r.types)
  | .value _ types connection =>
    match r.find? types with
    | some wrap => .ok (wrap connection)
    | none => .error (.unusableBackend (typeName handle) r.types)

/-- The type of connections of the engine's own driver. -/
def engineType : ConnectionType := ⟨"sqlite3.Connection".toList, 0⟩

/-- The type of connections of the toolkit. -/
def toolkitType : ConnectionType := ⟨"sqlalchemy.engine.base.Connection".toList, 0⟩

/-- The registry at the start. -/
def standard {σ : Type} : Registry (Backend σ) (Connection σ) :=
  after [.direct engineType Backend.engine, .direct toolkitType Backend.toolkit]

end Registry
end SqlInterchange
