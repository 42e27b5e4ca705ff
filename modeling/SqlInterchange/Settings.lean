import SqlInterchange.Options

/-! # Settings

All that a caller sets for an operation: the options, and whom to tell of its result, of an error
and of its progress. Whom to tell is the caller's own matter and is kept as it is set; the options
are checked when settings are made and whenever they are changed. -/
namespace SqlInterchange

/-- Whom to tell, as it is set; null for nobody. -/
structure Audience where
  /-- Whom to tell of a result. -/
  success : Value
  /-- Whom to tell of an error. -/
  error : Value
  /-- Whom to tell of each statement that has succeeded. -/
  progress : Value

namespace Audience

/-- Nobody is told of anything. -/
def nobody : Audience := ⟨.null, .null, .null⟩

/-- The audience after one choice; a choice of something else leaves it as it is. -/
def choose (a : Audience) (option : Text) (value : Value) : Audience :=
  if option = "success_callback".toList then { a with success := value }
  else if option = "error_callback".toList then { a with error := value }
  else if option = "progress_callback".toList then { a with progress := value }
  else a

/-- The audience after some choices, in order. -/
def chooseAll (a : Audience) (fields : List (Text × Value)) : Audience :=
  fields.foldl (fun a field => a.choose field.1 field.2) a

end Audience

/-- What a caller sets for an operation. -/
structure Settings where
  /-- The options. -/
  options : Options
  /-- Whom to tell. -/
  audience : Audience

namespace Settings

/-- The settings with the fields chosen and the others standard. -/
def ofFields (fields : List (Text × Value)) : Except OptionError Settings := do
  .ok ⟨← Options.ofFields fields, Audience.nobody.chooseAll fields⟩

/-- The settings with the fields chosen anew and the others kept. -/
def merged (s : Settings) (fields : List (Text × Value)) : Except OptionError Settings := do
  .ok ⟨← s.options.merged fields, s.audience.chooseAll fields⟩

end Settings
end SqlInterchange
