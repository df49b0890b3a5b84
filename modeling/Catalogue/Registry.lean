import Catalogue.Schema.Basic

/-!
# Registry

Schemas by entity type. A schema is registered ready, or as the name of a class that a factory
turns into a schema when it is first asked for. What was made once is kept until the type is
registered anew; a failure is not kept.

Schemas and mappers are told apart by identity: `Handle` pairs an object with a number that no
other object of its kind has. A mapper is an object of its own, made once for a schema.
-/

namespace Catalogue

universe u

/-- An object with an identity. -/
structure Handle (α : Type u) where
  /-- The number of the object among the objects of its kind. -/
  serial : Nat
  /-- The object. -/
  value : α

/-- The schema that a mapper works by. -/
abbrev Mapper := Handle (Handle Schema)

/-- Where the schema of an entity type comes from. -/
inductive SchemaSource where
  /-- A schema. -/
  | ready (schema : Schema)
  /-- A class for the factory. -/
  | named (className : String)

/-- Why a registration or a lookup fails. -/
inductive RegistryError where
  /-- A class was registered for no entity type. -/
  | missingEntityType (className : String)
  /-- Nothing is registered for the entity type. -/
  | unregistered (entityType : String)
  /-- The factory makes nothing of the class. -/
  | instantiation (className entityType : String)
  /-- The schema is for another entity type. -/
  | entityTypeMismatch (registered configured : String)
deriving DecidableEq, Repr

/-- The message of an error. -/
def RegistryError.message : RegistryError → String
  | .missingEntityType className =>
    "configuration class `" ++ className ++ "` was registered without an entity type"
  | .unregistered entityType => "no configuration registered for `" ++ entityType ++ "`"
  | .instantiation className entityType =>
    "configuration class `" ++ className ++ "` could not be instantiated for `" ++ entityType ++ "`"
  | .entityTypeMismatch registered configured =>
    "configuration for `" ++ configured ++ "` cannot be registered as `" ++ registered ++ "`"

/-- What a factory was asked for. -/
structure FactoryCall where
  /-- The entity type that a schema was needed for. -/
  entityType : String
  /-- The class. -/
  className : String
deriving DecidableEq, Repr

/-- Makes schemas of classes. The answer may depend on what was asked before, oldest first. -/
abbrev Factory := List FactoryCall → String → Option Schema

/-- What is known of one entity type. -/
structure Registration where
  /-- The class, if the schema was not given ready. -/
  className : Option String
  /-- The schema, once it is there. -/
  schema : Option (Handle Schema)
  /-- The mapper, once it was asked for. -/
  mapper : Option Mapper := none

/-- Schemas by entity type. -/
structure Registry where
  /-- The registrations, with ascending entity types. -/
  entries : List (String × Registration) := []
  /-- What the factory was asked for, oldest first. -/
  requests : List FactoryCall := []
  /-- The number of schemas so far. -/
  schemas : Nat := 0
  /-- The number of mappers so far. -/
  mappers : Nat := 0

namespace Registry

/-- Writes a registration, at its place in the order of the entity types. -/
def put (key : String) (entry : Registration) :
    List (String × Registration) → List (String × Registration)
  | [] => [(key, entry)]
  | (k, e) :: rest =>
    if key < k then (key, entry) :: (k, e) :: rest
    else if key = k then (key, entry) :: rest
    else (k, e) :: put key entry rest

theorem get?_put (key : String) (entry : Registration) (entries : List (String × Registration))
    (other : String) :
    Dict.get? (put key entry entries) other =
      if key = other then some entry else Dict.get? entries other := by
  induction entries with
  | nil => rfl
  | cons first rest ih =>
    obtain ⟨k, e⟩ := first
    rw [put]
    split
    case isTrue => rfl
    case isFalse =>
      split
      case isTrue h =>
        subst h
        by_cases hother : key = other <;> simp [Dict.get?_cons, hother]
      case isFalse h =>
        rw [Dict.get?_cons, Dict.get?_cons, ih]
        by_cases hk : k = other
        · rw [if_pos hk, if_pos hk, if_neg (hk ▸ h)]
        · rw [if_neg hk, if_neg hk]

/-- The registered entity types, ascending. -/
def entityTypes (r : Registry) : List String :=
  r.entries.map Prod.fst

/-- What is registered for an entity type. -/
def find? (r : Registry) (entityType : String) : Option Registration :=
  Dict.get? r.entries entityType

/-- Whether something is registered for an entity type. -/
def isRegistered (r : Registry) (entityType : String) : Bool :=
  (r.find? entityType).isSome

/-- The registry with a schema in place of what was registered for its entity type. -/
def withSchema (r : Registry) (schema : Schema) : Registry :=
  { r with
    entries := put schema.entityType ⟨none, some ⟨r.schemas, schema⟩, none⟩ r.entries
    schemas := r.schemas + 1 }

/-- Registers a schema or a class, in place of what was registered for the entity type. A schema
has an entity type, which must be the given one if one is given; a class needs one. -/
def register (r : Registry) : SchemaSource → Option String → Except RegistryError Registry
  | .ready schema, none => .ok (r.withSchema schema)
  | .ready schema, some entityType =>
    if entityType = schema.entityType then .ok (r.withSchema schema)
    else .error (.entityTypeMismatch entityType schema.entityType)
  | .named className, some entityType =>
    .ok { r with entries := put entityType ⟨some className, none, none⟩ r.entries }
  | .named className, none => .error (.missingEntityType className)

/-- Asks the factory for the schema of a class. -/
def create (factory : Option Factory) (entityType className : String) (r : Registry) :
    Except RegistryError Schema × Registry :=
  match factory with
  | none => (.error (.instantiation className entityType), r)
  | some make =>
    let asked := { r with requests := r.requests ++ [⟨entityType, className⟩] }
    match make r.requests className with
    | none => (.error (.instantiation className entityType), asked)
    | some schema =>
      if schema.entityType = entityType then (.ok schema, asked)
      else (.error (.entityTypeMismatch entityType schema.entityType), asked)

/-- The schema of a registration, which is made and kept if it is not there yet. -/
def schemaOf (factory : Option Factory) (entityType : String) (entry : Registration)
    (r : Registry) : Except RegistryError (Handle Schema) × Registry :=
  match entry.schema with
  | some handle => (.ok handle, r)
  | none =>
    match create factory entityType (entry.className.getD "") r with
    | (.error e, asked) => (.error e, asked)
    | (.ok schema, asked) =>
      let handle : Handle Schema := ⟨asked.schemas, schema⟩
      (.ok handle,
        { asked with
          entries := put entityType { entry with schema := some handle } asked.entries
          schemas := asked.schemas + 1 })

/-- The schema of an entity type, or none if nothing is registered for it. -/
def resolve (factory : Option Factory) (entityType : String) (r : Registry) :
    Except RegistryError (Option (Handle Schema)) × Registry :=
  match r.find? entityType with
  | none => (.ok none, r)
  | some entry =>
    match schemaOf factory entityType entry r with
    | (result, after) => (result.map some, after)

/-- The mapper of an entity type, which is made and kept if it is not there yet. -/
def mapper (factory : Option Factory) (entityType : String) (r : Registry) :
    Except RegistryError Mapper × Registry :=
  match r.find? entityType with
  | none => (.error (.unregistered entityType), r)
  | some entry =>
    match entry.mapper with
    | some mapper => (.ok mapper, r)
    | none =>
      match schemaOf factory entityType entry r with
      | (.error e, after) => (.error e, after)
      | (.ok handle, after) =>
        let mapper : Mapper := ⟨after.mappers, handle⟩
        (.ok mapper,
          { after with
            entries :=
              put entityType { entry with schema := some handle, mapper := some mapper }
                after.entries
            mappers := after.mappers + 1 })

end Registry

end Catalogue
