import Catalogue.Value

/-!
# Entities

An entity has a type and values in named fields; a field without a value is unset. An accessor
reads a property of an entity and may write it. Most accessors are for one field, but a property may
be computed from several fields, be written to several, or not be written at all.
-/

namespace Catalogue

/-- An object of the application, seen by its fields. -/
structure Entity where
  /-- The name of the type. -/
  type : String
  /-- The fields that are set. -/
  fields : Dict Value
deriving Inhabited

namespace Entity

/-- The value of a field, if it is set. -/
def get? (e : Entity) (field : String) : Option Value :=
  Dict.get? e.fields field

/-- Sets a field. -/
def set (e : Entity) (field : String) (value : Value) : Entity :=
  { e with fields := Dict.insert e.fields field value }

@[simp] theorem type_set (e : Entity) (field : String) (value : Value) :
    (e.set field value).type = e.type := rfl

theorem get?_set (e : Entity) (field : String) (value : Value) (other : String) :
    (e.set field value).get? other = if field = other then some value else e.get? other :=
  Dict.get?_insert e.fields field value other

end Entity

/-- How a property of an entity is read and written. Either may compute with the whole entity. -/
structure Accessor where
  /-- The value of the property, if the entity has one. -/
  read : Entity → Option Value
  /-- The entity with the property written, if the property can be written at all. -/
  setter : Option (Entity → Value → Entity)

namespace Accessor

/-- Reads and writes one field. -/
def field (name : String) : Accessor :=
  { read := fun e => e.get? name, setter := some fun e value => e.set name value }

/-- The entity with the property written, or as it is if the property cannot be written. -/
def write (a : Accessor) (e : Entity) (value : Value) : Entity :=
  match a.setter with
  | some set => set e value
  | none => e

/-- Whether writing has an effect. -/
def writable (a : Accessor) : Bool :=
  a.setter.isSome

@[simp] theorem read_field (name : String) (e : Entity) : (field name).read e = e.get? name := rfl

@[simp] theorem write_field (name : String) (e : Entity) (value : Value) :
    (field name).write e value = e.set name value := rfl

theorem write_of_not_writable {a : Accessor} (h : a.writable = false) (e : Entity) (value : Value) :
    a.write e value = e := by
  have hnone : a.setter = none := by simpa [writable] using h
  simp [write, hnone]

/-- Accessors of different fields read differently. -/
@[simp] theorem field_inj {name other : String} : field name = field other ↔ name = other := by
  refine ⟨fun h => ?_, congrArg field⟩
  have hread : (field other).read ⟨"", [(name, .null)]⟩ = some .null := by
    rw [← h]
    simp [Entity.get?, Dict.get?_cons]
  rw [read_field, Entity.get?, Dict.get?_cons] at hread
  split at hread
  case isTrue heq => exact heq
  case isFalse => exact absurd hread nofun

end Accessor

end Catalogue
