import Codename.Check.Basic
import Codename.Session.Config
import Codename.Session.Selection
import Codename.Session.Source
import Codename.Substitution.Basic

/-!
# Sessions

A session works on texts with the mappings of a catalog. It loads the catalog when it is first
needed, and the mapping of a schema when that is first needed; what was loaded is kept, and a load
that failed is tried again the next time. One schema of the catalog is selected and stands in where
none is named.

## Main definitions

* `State` — what a session has loaded and selected.
* `Problem` — why a call fails.
* `Service` — what a session works with.
* `Service.catalog`, `Service.select`, `Service.mapping`, `Service.encrypt`, `Service.annotate`,
  `Service.check` — the calls.
-/

namespace Codename.Session

/-- What a session has loaded and selected. -/
structure State where
  catalog? : Option Catalog := none
  /-- The mappings that were loaded, by the names of their schemas. -/
  mappings : KeyedList Mapping := ∅
  selected? : Option Catalog.Entry := none

/-- Why a call fails. -/
inductive Problem where
  | unknownSchema (name : String)
  | mappingUnavailable (schema reason : String)
  | catalogUnavailable (reason : String)
  | nothingSelected
  | invalidMapping (use : Mapping.NameUse)
  | selectionFailed (reason : String)
  deriving Repr, DecidableEq

def Problem.message : Problem → String
  | .unknownSchema name => s!"Can not find encryption table with name {name}"
  | .mappingUnavailable schema reason => s!"Failed to load mapping for {schema}: {reason}"
  | .catalogUnavailable reason => s!"Failed to load encryption tables: {reason}"
  | .nothingSelected => "No encryption table selected"
  | .invalidMapping use => s!"Invalid mapping: {use.message}"
  | .selectionFailed reason => s!"Selection store error: {reason}"

/-- The problem behind a problem, in its own words. -/
def Problem.cause? : Problem → Option String
  | .invalidMapping use => some use.message
  | _ => none

/-- A call of a session: it changes the state and gives an answer or a problem. -/
abbrev Call (m : Type → Type) := ExceptT Problem (StateT State m)

/-- What a session works with. -/
structure Service (m : Type → Type) where
  source : Source m
  selections : SelectionStore m

namespace Service

variable {m : Type → Type} [Monad m]

/-- The service of a configuration. Without a state file the selection is remembered for the one
session only, which needs no store of its own: see `SelectionStore.forgetful`. -/
def ofConfig (host : Files.Host m) (config : Config) : Service m where
  source := .ofFiles host config.catalog
  selections :=
    match config.stateFile? with
    | some path => .ofFile host path
    | none => .forgetful

variable (service : Service m)

/-- Selects a schema and has it remembered. That it cannot be remembered is no problem. -/
def setSelected (entry : Catalog.Entry) : Call m Unit := do
  modify fun state => { state with selected? := some entry }
  let _ ← service.selections.save entry

/-- The name of the remembered schema. A store that cannot be read remembers none. -/
def remembered : Call m (Option String) := do
  match ← service.selections.load with
  | .ok (some entry) => return some entry.name
  | _ => return none

/-- The catalog. When it is loaded, the remembered schema or the default is selected. -/
def catalog : Call m Catalog := do
  match (← get).catalog? with
  | some catalog => return catalog
  | none =>
    match ← service.source.loadCatalog with
    | .error reason => throw (.catalogUnavailable reason)
    | .ok catalog =>
      match catalog.initial? (← service.remembered) with
      | some entry => service.setSelected entry
      | none => pure ()
      modify fun state => { state with catalog? := some catalog }
      return catalog

def find (catalog : Catalog) (name : String) : Call m Catalog.Entry :=
  match catalog.find? name with
  | some entry => return entry
  | none => throw (.unknownSchema name)

/-- The mapping of a schema. It is kept under the name of the schema once it was loaded. -/
def load (entry : Catalog.Entry) : Call m Mapping := do
  match (← get).mappings.get? entry.name with
  | some mapping => return mapping
  | none =>
    match ← service.source.loadDocument entry with
    | .error reason => throw (.mappingUnavailable entry.name reason)
    | .ok document =>
      match Mapping.ofDocument document with
      | .error use => throw (.invalidMapping use)
      | .ok mapping =>
        modify fun state => { state with mappings := state.mappings.insert entry.name mapping }
        return mapping

/-- Selects the schema of a name, then loads its mapping. The selection stays if the load fails. -/
def select (name : String) : Call m Mapping := do
  let entry ← find (← service.catalog) name
  service.setSelected entry
  service.load entry

/-- The name of the schema that a call means: the one that it names, or else the selected one. -/
def schemaName (schema : Option String) : Call m String := do
  match schema with
  | some name => return name
  | none =>
    match (← get).selected? with
    | some entry => return entry.name
    | none => throw .nothingSelected

/-- The mapping of a schema, or of the selected one. Once it is loaded, the schema is selected. -/
def mapping (schema : Option String) : Call m Mapping := do
  let catalog ← service.catalog
  let entry ← find catalog (← schemaName schema)
  let mapping ← service.load entry
  service.setSelected entry
  return mapping

def encrypt (schema : Option String) (text : String) : Call m String :=
  return (← service.mapping schema).encrypt text

def annotate (schema : Option String) (text : String) : Call m String :=
  return (← service.mapping schema).annotate text

/-- Checks a text. The empty text passes without any mapping. -/
def check (schema : Option String) (options : Check.Options) (text : String) :
    Call m Check.Outcome := do
  if text.isEmpty then
    return if options.listNames then .listed .passed else .flag true
  else
    return (← service.mapping schema).check options text

end Service

end Codename.Session
