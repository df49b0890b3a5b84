import Catalogue.Registry
import Mathlib.Order.Basic

/-!
# Calls of a registry

A registry is called (`Registry.Call`) to register and to look up, and each call leaves a registry
for the next one (`Registry.after`). A call that registers writes one entry and asks nobody
(`Registry.run_of_registers`). What a lookup does is told by the entry that it finds : the schema
that it gets (`Registry.found`) is the one that is kept, or what the factory makes of the class; it
is kept if there is one (`Registry.run_of_found_ok`), and a failure is not
(`Registry.run_of_found_error`). No call changes what is kept for another entity type
(`Registry.find?_run_of_ne`).
-/

namespace Catalogue

/-- What is kept of a source when it is registered; a schema that is given ready has this
number. -/
def SchemaSource.registration (serial : Nat) : SchemaSource → Registration
  | .ready schema => ⟨none, some ⟨serial, schema⟩, none⟩
  | .named className => ⟨some className, none, none⟩

/-- The mapper that is kept, if any, works by the schema that is kept. -/
def Registration.Fits (entry : Registration) : Prop :=
  ∀ mapper, entry.mapper = some mapper → entry.schema = some mapper.value

namespace Registry

/-! ## Calls and what they leave -/

/-- A call of a registry. -/
inductive Call where
  /-- Registers a source, for an entity type if one is given. -/
  | register (source : SchemaSource) (given : Option String)
  /-- Looks up the schema of an entity type. -/
  | resolve (entityType : String)
  /-- Looks up the mapper of an entity type. -/
  | mapper (entityType : String)

/-- What a call answers. -/
inductive Answer where
  /-- The source is registered. -/
  | registered
  /-- The schema, if one is registered. -/
  | schema (found : Option (Handle Schema))
  /-- The mapper. -/
  | mapper (mapper : Mapper)

/-- The schema of an answer. -/
def Answer.schema? : Answer → Option (Handle Schema)
  | .registered => none
  | .schema found => found
  | .mapper made => some made.value

namespace Call

/-- Makes a call. A registration that fails leaves the registry as it is. -/
def run (factory : Option Factory) (r : Registry) : Call → Except RegistryError Answer × Registry
  | .register source given =>
    match r.register source given with
    | .ok after => (.ok .registered, after)
    | .error e => (.error e, r)
  | .resolve entityType =>
    match r.resolve factory entityType with
    | (.ok found, after) => (.ok (.schema found), after)
    | (.error e, after) => (.error e, after)
  | .mapper entityType =>
    match r.mapper factory entityType with
    | (.ok made, after) => (.ok (.mapper made), after)
    | (.error e, after) => (.error e, after)

/-- The entity type that a call registers, and its source. A schema has an entity type, and cannot
be registered for another one; a class has none. -/
def registers? : Call → Option (String × SchemaSource)
  | .register (.ready schema) none => some (schema.entityType, .ready schema)
  | .register (.ready schema) (some entityType) =>
    if entityType = schema.entityType then some (entityType, .ready schema) else none
  | .register (.named className) (some entityType) => some (entityType, .named className)
  | _ => none

/-- The entity type that a call looks up. -/
def lookup? : Call → Option String
  | .register _ _ => none
  | .resolve entityType => some entityType
  | .mapper entityType => some entityType

/-- The entity type that a call registers or looks up. -/
def about? (c : Call) : Option String :=
  (c.registers?.map Prod.fst).or c.lookup?

/-- The answer to a lookup that finds nothing registered. -/
def absent : Call → Except RegistryError Answer
  | .register _ _ => .ok .registered
  | .resolve _ => .ok (.schema none)
  | .mapper entityType => .error (.unregistered entityType)

/-- The answer to a lookup that gets a schema, from the mapper that is kept, or a new one with this
number. -/
def reply (serial : Nat) (kept : Option Mapper) (handle : Handle Schema) : Call → Answer
  | .register _ _ => .registered
  | .resolve _ => .schema (some handle)
  | .mapper _ => .mapper (kept.getD ⟨serial, handle⟩)

/-- What is kept after a lookup that gets a schema. -/
def keep (serial : Nat) (entry : Registration) (handle : Handle Schema) : Call → Registration
  | .register _ _ => entry
  | .resolve _ => { entry with schema := some handle }
  | .mapper _ =>
    { entry with schema := some handle, mapper := some (entry.mapper.getD ⟨serial, handle⟩) }

end Call

/-- The registry after calls. -/
def after (factory : Option Factory) (r : Registry) (calls : List Call) : Registry :=
  calls.foldl (fun r c => (c.run factory r).2) r

theorem after_append (factory : Option Factory) (r : Registry) (calls later : List Call) :
    after factory r (calls ++ later) = after factory (after factory r calls) later :=
  List.foldl_append

theorem after_append_singleton (factory : Option Factory) (r : Registry) (calls : List Call)
    (c : Call) :
    after factory r (calls ++ [c]) = (c.run factory (after factory r calls)).2 :=
  after_append factory r calls [c]

/-! ## Asking the factory -/

/-- What the factory's answer for a class is to an entity type. -/
def fit (entityType className : String) : Option Schema → Except RegistryError Schema
  | none => .error (.instantiation className entityType)
  | some schema =>
    if schema.entityType = entityType then .ok schema
    else .error (.entityTypeMismatch entityType schema.entityType)

/-- What an entity type gets for a class after these requests. -/
def supplied (factory : Option Factory) (requests : List FactoryCall)
    (entityType className : String) : Except RegistryError Schema :=
  fit entityType className (factory.bind fun make => make requests className)

theorem entityType_of_fit {entityType className : String} {made : Option Schema} {schema : Schema}
    (h : fit entityType className made = .ok schema) : schema.entityType = entityType := by
  unfold fit at h
  split at h
  · exact nomatch h
  · split at h
    case isTrue htype => exact Except.ok.inj h ▸ htype
    case isFalse => exact nomatch h

/-- The requests by which an entity type asks for a class : one if there is a factory. -/
def inquiry (factory : Option Factory) (entityType className : String) : List FactoryCall :=
  if factory.isSome then [⟨entityType, className⟩] else []

/-- The registry after requests. -/
def asked (r : Registry) (requests : List FactoryCall) : Registry :=
  { r with requests := r.requests ++ requests }

theorem create_eq (factory : Option Factory) (entityType className : String) (r : Registry) :
    create factory entityType className r =
      (supplied factory r.requests entityType className,
        r.asked (inquiry factory entityType className)) := by
  cases factory with
  | none => simp [create, supplied, fit, asked, inquiry]
  | some make =>
    simp only [create, supplied, fit, asked, inquiry, Option.bind_some, Option.isSome_some, if_true]
    cases make r.requests className with
    | none => rfl
    | some schema =>
      dsimp only
      split <;> rfl

/-- The schema that a lookup gets from an entry : the one that is kept, or a new one. -/
def found (factory : Option Factory) (r : Registry) (entityType : String) (entry : Registration) :
    Except RegistryError (Handle Schema) :=
  match entry.schema with
  | some handle => .ok handle
  | none =>
    (supplied factory r.requests entityType (entry.className.getD "")).map (Handle.mk r.schemas)

/-- The requests by which a lookup gets it. -/
def inquiries (factory : Option Factory) (entityType : String) (entry : Registration) :
    List FactoryCall :=
  match entry.schema with
  | some _ => []
  | none => inquiry factory entityType (entry.className.getD "")

/-! ## What a call does to the entries -/

section

variable {factory : Option Factory} {r : Registry} {c : Call} {t : String} {entry : Registration}

theorem schemaOf_of_kept {handle : Handle Schema} (h : entry.schema = some handle) :
    schemaOf factory t entry r = (.ok handle, r) := by
  rw [schemaOf, h]

theorem schemaOf_of_error {e : RegistryError} (h : r.found factory t entry = .error e) :
    schemaOf factory t entry r = (.error e, r.asked (inquiries factory t entry)) := by
  unfold found at h
  unfold schemaOf inquiries
  cases hschema : entry.schema with
  | some handle => simp [hschema] at h
  | none =>
    simp only [hschema, create_eq] at h ⊢
    cases hs : supplied factory r.requests t (entry.className.getD "") with
    | error e' =>
      rw [hs] at h
      obtain rfl : e' = e := Except.error.inj h
      rfl
    | ok schema => exact nomatch hs ▸ h

theorem schemaOf_of_new {handle : Handle Schema} (hnone : entry.schema = none)
    (h : r.found factory t entry = .ok handle) :
    schemaOf factory t entry r =
      (.ok handle,
        { r.asked (inquiries factory t entry) with
          entries := put t { entry with schema := some handle } r.entries
          schemas := r.schemas + 1 }) := by
  unfold found at h
  unfold schemaOf inquiries
  simp only [hnone, create_eq] at h ⊢
  cases hs : supplied factory r.requests t (entry.className.getD "") with
  | error e => exact nomatch hs ▸ h
  | ok schema =>
    rw [hs] at h
    obtain rfl : ⟨r.schemas, schema⟩ = handle := Except.ok.inj h
    rfl

theorem fst_schemaOf (factory : Option Factory) (t : String) (entry : Registration) (r : Registry) :
    (schemaOf factory t entry r).1 = r.found factory t entry := by
  cases hschema : entry.schema with
  | some handle => rw [schemaOf_of_kept hschema, found, hschema]
  | none =>
    cases h : r.found factory t entry with
    | error e => rw [schemaOf_of_error h]
    | ok handle => rw [schemaOf_of_new hschema h]

theorem mappers_schemaOf (factory : Option Factory) (t : String) (entry : Registration)
    (r : Registry) : (schemaOf factory t entry r).2.mappers = r.mappers := by
  cases hschema : entry.schema with
  | some handle => rw [schemaOf_of_kept hschema]
  | none =>
    cases h : r.found factory t entry with
    | error e => rw [schemaOf_of_error h]; rfl
    | ok handle => rw [schemaOf_of_new hschema h]; rfl

/-- Whatever a lookup gets, it asks by the requests of its entry. -/
theorem requests_schemaOf (factory : Option Factory) (t : String) (entry : Registration)
    (r : Registry) :
    (schemaOf factory t entry r).2.requests = r.requests ++ inquiries factory t entry := by
  cases hschema : entry.schema with
  | some handle => simp [schemaOf_of_kept hschema, inquiries, hschema]
  | none =>
    cases h : r.found factory t entry with
    | error e => rw [schemaOf_of_error h]; rfl
    | ok handle => rw [schemaOf_of_new hschema h]; rfl

theorem entries_schemaOf (factory : Option Factory) (t : String) (entry : Registration)
    (r : Registry) :
    ∃ writes : List Registration,
      (schemaOf factory t entry r).2.entries = writes.foldr (put t) r.entries := by
  cases hschema : entry.schema with
  | some handle => exact ⟨[], by rw [schemaOf_of_kept hschema]; rfl⟩
  | none =>
    cases h : r.found factory t entry with
    | error e => exact ⟨[], by rw [schemaOf_of_error h]; rfl⟩
    | ok handle =>
      exact ⟨[{ entry with schema := some handle }], by rw [schemaOf_of_new hschema h]; rfl⟩

/-! ## Registrations -/

/-- A call that registers writes the entry of its source and asks for nothing. -/
theorem run_of_registers {source : SchemaSource} (h : c.registers? = some (t, source)) :
    (c.run factory r).1 = .ok .registered ∧
      (c.run factory r).2.requests = r.requests ∧
      (c.run factory r).2.entries = put t (source.registration r.schemas) r.entries := by
  cases c with
  | resolve | mapper => exact nomatch h
  | register given name =>
    cases given with
    | named className =>
      cases name with
      | none => exact nomatch h
      | some name =>
        obtain ⟨rfl, rfl⟩ : name = t ∧ .named className = source := by
          simpa [Call.registers?] using h
        exact ⟨rfl, rfl, rfl⟩
    | ready schema =>
      cases name with
      | none =>
        obtain ⟨rfl, rfl⟩ : schema.entityType = t ∧ .ready schema = source := by
          simpa [Call.registers?] using h
        exact ⟨rfl, rfl, rfl⟩
      | some name =>
        simp only [Call.registers?] at h
        split at h
        case isFalse => exact nomatch h
        case isTrue htype =>
          obtain ⟨rfl, rfl⟩ : name = t ∧ .ready schema = source := by simpa using h
          subst htype
          simp [Call.run, register, withSchema, SchemaSource.registration]

/-- A call that neither registers nor looks up fails and changes nothing. -/
theorem run_of_refused (factory : Option Factory) (r : Registry)
    (hregisters : c.registers? = none) (hlookup : c.lookup? = none) :
    ∃ e, c.run factory r = (.error e, r) := by
  cases c with
  | resolve | mapper => exact nomatch hlookup
  | register given name =>
    cases given with
    | named className =>
      cases name with
      | none => exact ⟨_, rfl⟩
      | some name => exact nomatch hregisters
    | ready schema =>
      cases name with
      | none => exact nomatch hregisters
      | some name =>
        simp only [Call.registers?, ite_eq_right_iff] at hregisters
        have hne : name ≠ schema.entityType := fun h => nomatch hregisters h
        exact ⟨_, by simp [Call.run, register, hne]; rfl⟩

/-! ## Lookups -/

theorem resolve_of_error (hentry : r.find? t = some entry) {e : RegistryError} {next : Registry}
    (h : schemaOf factory t entry r = (.error e, next)) :
    r.resolve factory t = (.error e, next) := by
  simp only [resolve, hentry, h]
  rfl

theorem resolve_of_ok (hentry : r.find? t = some entry) {handle : Handle Schema} {next : Registry}
    (h : schemaOf factory t entry r = (.ok handle, next)) :
    r.resolve factory t = (.ok (some handle), next) := by
  simp only [resolve, hentry, h]
  rfl

theorem mapper_of_kept (hentry : r.find? t = some entry) {made : Mapper}
    (hmapper : entry.mapper = some made) : r.mapper factory t = (.ok made, r) := by
  simp only [mapper, hentry, hmapper]

theorem mapper_of_error (hentry : r.find? t = some entry) (hmapper : entry.mapper = none)
    {e : RegistryError} {next : Registry} (h : schemaOf factory t entry r = (.error e, next)) :
    r.mapper factory t = (.error e, next) := by
  simp only [mapper, hentry, hmapper, h]

theorem mapper_of_new (hentry : r.find? t = some entry) (hmapper : entry.mapper = none)
    {handle : Handle Schema} {next : Registry}
    (h : schemaOf factory t entry r = (.ok handle, next)) :
    r.mapper factory t =
      (.ok ⟨next.mappers, handle⟩,
        { next with
          entries :=
            put t { entry with schema := some handle, mapper := some ⟨next.mappers, handle⟩ }
              next.entries
          mappers := next.mappers + 1 }) := by
  simp only [mapper, hentry, hmapper, h]

/-- A lookup of a type that is not registered finds nothing and changes nothing. -/
theorem run_of_absent (hc : c.lookup? = some t) (h : r.find? t = none) :
    c.run factory r = (c.absent, r) := by
  cases c with
  | register => exact nomatch hc
  | resolve name =>
    obtain rfl : name = t := Option.some.inj hc
    simp only [Call.run, resolve, h]
    rfl
  | mapper name =>
    obtain rfl : name = t := Option.some.inj hc
    simp only [Call.run, mapper, h]
    rfl

/-- A lookup that gets no schema changes nothing but what was asked for. -/
theorem run_of_found_error (hc : c.lookup? = some t) (hentry : r.find? t = some entry)
    (hfits : entry.Fits) {e : RegistryError} (h : r.found factory t entry = .error e) :
    c.run factory r = (.error e, r.asked (inquiries factory t entry)) := by
  have hschema : entry.schema = none := by
    cases hschema : entry.schema with
    | none => rfl
    | some handle => simp [found, hschema] at h
  have hmapper : entry.mapper = none := by
    cases hmapper : entry.mapper with
    | none => rfl
    | some made => exact nomatch hschema.symm.trans (hfits made hmapper)
  cases c with
  | register => exact nomatch hc
  | resolve name =>
    obtain rfl : name = t := Option.some.inj hc
    simp only [Call.run, resolve_of_error hentry (schemaOf_of_error h)]
  | mapper name =>
    obtain rfl : name = t := Option.some.inj hc
    simp only [Call.run, mapper_of_error hentry hmapper (schemaOf_of_error h)]

/-- A lookup that gets a schema answers with it, and keeps it. -/
theorem run_of_found_ok (hc : c.lookup? = some t) (hentry : r.find? t = some entry)
    (hfits : entry.Fits) {handle : Handle Schema} (h : r.found factory t entry = .ok handle) :
    (c.run factory r).1 = .ok (c.reply r.mappers entry.mapper handle) ∧
      (c.run factory r).2.find? t = some (c.keep r.mappers entry handle) := by
  cases c with
  | register => exact nomatch hc
  | resolve name =>
    obtain rfl : name = t := Option.some.inj hc
    cases hschema : entry.schema with
    | some kept =>
      obtain rfl : kept = handle := by simpa [found, hschema] using h
      simp only [Call.run, resolve_of_ok hentry (schemaOf_of_kept hschema)]
      refine ⟨rfl, ?_⟩
      rw [Call.keep, ← hschema]
      exact hentry
    | none =>
      simp only [Call.run, resolve_of_ok hentry (schemaOf_of_new hschema h)]
      rw [find?, get?_put, if_pos rfl]
      exact ⟨rfl, rfl⟩
  | mapper name =>
    obtain rfl : name = t := Option.some.inj hc
    cases hmapper : entry.mapper with
    | some made =>
      have hschema := hfits made hmapper
      obtain rfl : made.value = handle := by simpa [found, hschema] using h
      simp only [Call.run, mapper_of_kept hentry hmapper, Call.keep, ← hschema, hmapper]
      refine ⟨rfl, hentry.trans ?_⟩
      rw [Option.getD_some, ← hmapper]
    | none =>
      cases hschema : entry.schema with
      | some kept =>
        obtain rfl : kept = handle := by simpa [found, hschema] using h
        simp only [Call.run, mapper_of_new hentry hmapper (schemaOf_of_kept hschema)]
        rw [find?, get?_put, if_pos rfl, Call.keep, hmapper]
        exact ⟨rfl, rfl⟩
      | none =>
        simp only [Call.run, mapper_of_new hentry hmapper (schemaOf_of_new hschema h)]
        rw [find?, get?_put, if_pos rfl, Call.keep, hmapper]
        exact ⟨rfl, rfl⟩

/-- A lookup asks by the requests of the entry that it finds. -/
theorem requests_run_of_entry (hc : c.lookup? = some t) (hentry : r.find? t = some entry)
    (hfits : entry.Fits) :
    (c.run factory r).2.requests = r.requests ++ inquiries factory t entry := by
  cases c with
  | register => exact nomatch hc
  | resolve name =>
    obtain rfl : name = t := Option.some.inj hc
    rw [← requests_schemaOf]
    rcases h : schemaOf factory name entry r with ⟨e | handle, next⟩
    · simp only [Call.run, resolve_of_error hentry h]
    · simp only [Call.run, resolve_of_ok hentry h]
  | mapper name =>
    obtain rfl : name = t := Option.some.inj hc
    cases hmapper : entry.mapper with
    | some made =>
      simp only [Call.run, mapper_of_kept hentry hmapper, inquiries, hfits made hmapper,
        List.append_nil]
    | none =>
      rw [← requests_schemaOf]
      rcases h : schemaOf factory name entry r with ⟨e | handle, next⟩
      · simp only [Call.run, mapper_of_error hentry hmapper h]
      · simp only [Call.run, mapper_of_new hentry hmapper h]

/-- A lookup writes nothing but the entry of its entity type. -/
theorem entries_run_of_lookup? (factory : Option Factory) (r : Registry) (hc : c.lookup? = some t) :
    ∃ writes : List Registration,
      (c.run factory r).2.entries = writes.foldr (put t) r.entries := by
  cases hentry : r.find? t with
  | none => exact ⟨[], by rw [run_of_absent hc hentry]; rfl⟩
  | some entry =>
    obtain ⟨writes, hwrites⟩ := entries_schemaOf factory t entry r
    cases c with
    | register => exact nomatch hc
    | resolve name =>
      obtain rfl : name = t := Option.some.inj hc
      refine ⟨writes, hwrites ▸ ?_⟩
      rcases h : schemaOf factory name entry r with ⟨e | handle, next⟩
      · simp only [Call.run, resolve_of_error hentry h]
      · simp only [Call.run, resolve_of_ok hentry h]
    | mapper name =>
      obtain rfl : name = t := Option.some.inj hc
      cases hmapper : entry.mapper with
      | some made => exact ⟨[], by simp only [Call.run, mapper_of_kept hentry hmapper]; rfl⟩
      | none =>
        rcases h : schemaOf factory name entry r with ⟨e | handle, next⟩
        · rw [h] at hwrites
          exact ⟨writes, by simp only [Call.run, mapper_of_error hentry hmapper h, ← hwrites]⟩
        · rw [h] at hwrites
          refine ⟨{ entry with schema := some handle, mapper := some ⟨next.mappers, handle⟩ } ::
            writes, ?_⟩
          simp only [Call.run, mapper_of_new hentry hmapper h, List.foldr_cons, ← hwrites]

/-! ## Any call -/

/-- Whatever a call writes is the entry of the type that it registers or looks up. -/
theorem entries_run (factory : Option Factory) (r : Registry) (c : Call) :
    ∃ writes : List (String × Registration),
      (∀ w ∈ writes, c.about? = some w.1) ∧
        (c.run factory r).2.entries = writes.foldr (fun w => put w.1 w.2) r.entries := by
  cases hregisters : c.registers? with
  | some registered =>
    obtain ⟨t, source⟩ := registered
    refine ⟨[(t, source.registration r.schemas)], ?_, (run_of_registers hregisters).2.2⟩
    simp [Call.about?, hregisters]
  | none =>
    cases hlookup : c.lookup? with
    | none =>
      obtain ⟨e, he⟩ := run_of_refused factory r hregisters hlookup
      exact ⟨[], by simp, by rw [he]; rfl⟩
    | some t =>
      obtain ⟨writes, hwrites⟩ := entries_run_of_lookup? factory r hlookup
      refine ⟨writes.map (Prod.mk t), ?_, ?_⟩
      · simp [Call.about?, hregisters, hlookup]
      · rw [hwrites, List.foldr_map]

/-- No call changes what is kept for a type that it neither registers nor looks up. -/
theorem find?_run_of_ne (h : c.about? ≠ some t) : (c.run factory r).2.find? t = r.find? t := by
  obtain ⟨writes, habout, hentries⟩ := entries_run factory r c
  rw [find?, hentries, find?]
  clear hentries
  induction writes with
  | nil => rfl
  | cons w writes ih =>
    have hne : w.1 ≠ t := fun he => h (he ▸ habout w List.mem_cons_self)
    rw [List.foldr_cons, get?_put, if_neg hne]
    exact ih fun w hw => habout w (List.mem_cons_of_mem _ hw)

theorem mem_entityTypes_iff : t ∈ r.entityTypes ↔ r.find? t ≠ none :=
  (not_iff_comm.mp (Dict.get?_eq_none_iff r.entries t).symm).symm

theorem mem_keys_put {key other : String} {entries : List (String × Registration)}
    (h : other ∈ (put key entry entries).map Prod.fst) :
    other = key ∨ other ∈ entries.map Prod.fst := by
  by_contra hnot
  obtain ⟨hne, hother⟩ := not_or.mp hnot
  refine (Dict.get?_eq_none_iff _ _).mp ?_ h
  rw [get?_put, if_neg (Ne.symm hne)]
  exact (Dict.get?_eq_none_iff _ _).mpr hother

/-- An entry that is written at its place leaves the entity types ascending. -/
theorem pairwise_put {entries : List (String × Registration)}
    (h : (entries.map Prod.fst).Pairwise (· < ·)) (key : String) (entry : Registration) :
    ((put key entry entries).map Prod.fst).Pairwise (· < ·) := by
  induction entries with
  | nil => simp [put]
  | cons first rest ih =>
    obtain ⟨k, e⟩ := first
    obtain ⟨hk, hrest⟩ := List.pairwise_cons.mp h
    rw [put]
    split
    case isTrue hlt =>
      refine List.pairwise_cons.mpr ⟨fun other hother => ?_, h⟩
      rcases List.mem_cons.mp hother with rfl | hother
      · exact hlt
      · exact String.lt_trans hlt (hk other hother)
    case isFalse hlt =>
      split
      case isTrue heq => exact heq ▸ List.pairwise_cons.mpr ⟨hk, hrest⟩
      case isFalse hne =>
        refine List.pairwise_cons.mpr ⟨fun other hother => ?_, ih hrest⟩
        rcases mem_keys_put hother with rfl | hother
        · exact Std.lt_of_le_of_ne (String.not_lt.mp hlt) (Ne.symm hne)
        · exact hk other hother

/-- Every call leaves the entity types ascending. -/
theorem pairwise_run (h : r.entityTypes.Pairwise (· < ·)) (factory : Option Factory) (c : Call) :
    (c.run factory r).2.entityTypes.Pairwise (· < ·) := by
  obtain ⟨writes, -, hentries⟩ := entries_run factory r c
  rw [entityTypes, hentries]
  clear hentries
  induction writes with
  | nil => exact h
  | cons w writes ih => exact pairwise_put ih w.1 w.2

end

end Registry

end Catalogue
