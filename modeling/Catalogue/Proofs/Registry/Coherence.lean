import Catalogue.Proofs.Registry.Kept

/-!
# Schemas and mappers agree

Let the factory answer for a class always alike (`Factory.ofClasses`). Then what a lookup of a
registered type gets depends on the source that was registered last and on nothing else
(`Registry.map_value_found`), so looking up a schema and looking up a mapper agree in whatever order
it is done (`Registry.Agree`) : both fail for one cause, or the mapper works by the very schema that
is found. A call that fails changes no answer (`Registry.run_of_error`). `Registry.lookups_agree`
has this for every registry that calls can reach.
-/

namespace Catalogue

/-- The factory that always makes the same of a class. -/
def Factory.ofClasses (classes : String → Option Schema) : Factory :=
  fun _ className => classes className

/-- The schema that an entity type gets from a source, if classes are made like this. -/
def SchemaSource.outcome (classes : Option (String → Option Schema)) (entityType : String) :
    SchemaSource → Except RegistryError Schema
  | .ready schema => .ok schema
  | .named className => Registry.fit entityType className (classes.bind fun make => make className)

namespace Registry

/-- Looking up a schema and looking up a mapper agree : the mapper works by the schema that is
found, or both fail alike. -/
inductive Agree :
    Except RegistryError (Option (Handle Schema)) → Except RegistryError Mapper → Prop
  | found (mapper : Mapper) : Agree (.ok (some mapper.value)) (.ok mapper)
  | failed (e : RegistryError) : Agree (.error e) (.error e)

/-! ## The answers of lookups -/

section

variable {factory : Option Factory} {r : Registry} {c : Call} {t : String} {entry : Registration}

theorem resolve_of_absent (h : r.find? t = none) : r.resolve factory t = (.ok none, r) := by
  rw [resolve, h]

theorem mapper_of_absent (h : r.find? t = none) :
    r.mapper factory t = (.error (.unregistered t), r) := by
  rw [mapper, h]

theorem snd_run_resolve (factory : Option Factory) (r : Registry) (t : String) :
    ((Call.resolve t).run factory r).2 = (r.resolve factory t).2 := by
  rw [Call.run]
  split
  case h_1 h => rw [h]
  case h_2 h => rw [h]

theorem snd_run_mapper (factory : Option Factory) (r : Registry) (t : String) :
    ((Call.mapper t).run factory r).2 = (r.mapper factory t).2 := by
  rw [Call.run]
  split
  case h_1 h => rw [h]
  case h_2 h => rw [h]

/-- A lookup that finds an entry never finds its type unregistered. -/
theorem found_ne_unregistered {name : String} :
    r.found factory t entry ≠ .error (.unregistered name) := by
  intro h
  cases hschema : entry.schema with
  | some handle => simp [found, hschema] at h
  | none =>
    simp only [found, hschema, supplied, fit] at h
    split at h
    · cases h
    · split at h <;> cases h

/-- What looking up a schema answers. -/
theorem resolve_fst_of_entry (hentry : r.find? t = some entry) :
    (r.resolve factory t).1 = (r.found factory t entry).map some := by
  rw [← fst_schemaOf]
  rcases h : schemaOf factory t entry r with ⟨e | handle, next⟩
  · rw [resolve_of_error hentry h]
    rfl
  · rw [resolve_of_ok hentry h]
    rfl

/-- What looking up a mapper answers. -/
theorem mapper_fst_of_entry (hentry : r.find? t = some entry) (hfits : entry.Fits) :
    (r.mapper factory t).1 =
      (r.found factory t entry).map fun handle => entry.mapper.getD ⟨r.mappers, handle⟩ := by
  cases hmapper : entry.mapper with
  | some made =>
    rw [mapper_of_kept hentry hmapper, found, hfits made hmapper]
    rfl
  | none =>
    rw [← fst_schemaOf, ← mappers_schemaOf factory t entry r]
    rcases h : schemaOf factory t entry r with ⟨e | handle, next⟩
    · rw [mapper_of_error hentry hmapper h]
      rfl
    · rw [mapper_of_new hentry hmapper h]
      rfl

/-- Looking up a schema finds nothing just where nothing is registered. -/
theorem resolve_eq_none_iff :
    (r.resolve factory t).1 = .ok none ↔ r.find? t = none := by
  cases hentry : r.find? t with
  | none => exact iff_of_true (congrArg Prod.fst (resolve_of_absent hentry)) rfl
  | some entry =>
    refine iff_of_false (fun h => ?_) nofun
    rw [resolve_fst_of_entry hentry] at h
    cases hfound : r.found factory t entry with
    | error e => exact nomatch hfound ▸ h
    | ok given => exact nomatch hfound ▸ h

/-- Looking up a mapper takes a type for unregistered just where nothing is registered. -/
theorem mapper_eq_unregistered_iff (hfits : ∀ entry, r.find? t = some entry → entry.Fits) :
    (r.mapper factory t).1 = .error (.unregistered t) ↔ r.find? t = none := by
  cases hentry : r.find? t with
  | none => exact iff_of_true (congrArg Prod.fst (mapper_of_absent hentry)) rfl
  | some entry =>
    refine iff_of_false (fun h => ?_) nofun
    rw [mapper_fst_of_entry hentry (hfits entry hentry)] at h
    cases hfound : r.found factory t entry with
    | error e =>
      rw [hfound] at h
      obtain rfl : e = .unregistered t := Except.error.inj h
      exact found_ne_unregistered hfound
    | ok given => exact nomatch hfound ▸ h

/-- Lookups agree whenever they find the same. -/
theorem agree_of_found {next : Registry} {kept : Registration} (hentry : r.find? t = some entry)
    (hkept : next.find? t = some kept) (hfits : kept.Fits)
    (h : next.found factory t kept = r.found factory t entry) :
    Agree (r.resolve factory t).1 (next.mapper factory t).1 := by
  rw [resolve_fst_of_entry hentry, mapper_fst_of_entry hkept hfits, h]
  cases hfound : r.found factory t entry with
  | error e => exact .failed e
  | ok handle =>
    have hvalue := value_of_found hfits (h.trans hfound) next.mappers
    have hagree := Agree.found (kept.mapper.getD ⟨next.mappers, handle⟩)
    rwa [hvalue] at hagree

end

/-! ## Factories that always answer alike -/

section

variable {classes : Option (String → Option Schema)} {r : Registry} {c : Call} {t : String}
  {source : SchemaSource} {entry : Registration}

theorem supplied_ofClasses (requests : List FactoryCall) (t className : String) :
    supplied (classes.map Factory.ofClasses) requests t className =
      (SchemaSource.named className).outcome classes t := by
  cases classes <;> rfl

/-- What is found depends on nothing but the source of the entry. -/
theorem map_value_found (hkeeps : entry.Keeps (classes.map Factory.ofClasses) t source) :
    (r.found (classes.map Factory.ofClasses) t entry).map Handle.value =
      source.outcome classes t := by
  cases hschema : entry.schema with
  | none =>
    obtain ⟨className, rfl, hclass⟩ := hkeeps.exists_named hschema
    simp only [found, hschema, hclass, supplied_ofClasses]
    cases SchemaSource.outcome classes t (.named className) <;> rfl
  | some handle =>
    have hsupplies := hkeeps.supplies handle hschema
    simp only [found, hschema]
    cases source with
    | ready schema => exact congrArg Except.ok hsupplies.1
    | named className =>
      obtain ⟨requests, hs⟩ := hsupplies
      exact hs.symm.trans (supplied_ofClasses requests t className)

/-- What was asked for does not change what is found. -/
theorem found_asked (new : List FactoryCall) :
    (r.asked new).found (classes.map Factory.ofClasses) t entry =
      r.found (classes.map Factory.ofClasses) t entry := by
  simp only [found, supplied_ofClasses]
  rfl

/-- The next lookup of a type finds what the last one found. -/
theorem found_run (hc : c.lookup? = some t) (hentry : r.find? t = some entry)
    (hkeeps : entry.Keeps (classes.map Factory.ofClasses) t source) :
    ∃ kept, (c.run (classes.map Factory.ofClasses) r).2.find? t = some kept ∧ kept.Fits ∧
      (c.run (classes.map Factory.ofClasses) r).2.found (classes.map Factory.ofClasses) t kept =
        r.found (classes.map Factory.ofClasses) t entry := by
  cases hfound : r.found (classes.map Factory.ofClasses) t entry with
  | error e =>
    rw [run_of_found_error hc hentry hkeeps.fits hfound]
    exact ⟨entry, hentry, hkeeps.fits, (found_asked _).trans hfound⟩
  | ok handle =>
    refine ⟨_, (run_of_found_ok hc hentry hkeeps.fits hfound).2,
      (keeps_keep hkeeps hfound r.mappers c).fits, ?_⟩
    rw [found, schema_keep hc]

/-- A call succeeds in registering if and only if it registers a type. -/
theorem registers?_ne_none_iff (factory : Option Factory) (r : Registry) (c : Call) :
    c.registers? ≠ none ↔ (c.run factory r).1 = .ok .registered := by
  constructor
  · intro h
    obtain ⟨registered, hregisters⟩ := Option.ne_none_iff_exists'.mp h
    exact (run_of_registers hregisters).1
  · intro hrun hregisters
    cases c with
    | register source given =>
      obtain ⟨cause, he⟩ := run_of_refused factory r hregisters rfl
      simp [he] at hrun
    | resolve | mapper =>
      simp only [Call.run] at hrun
      split at hrun <;> simp at hrun

/-- A call that fails leaves the registry as it was, apart from what was asked for. -/
theorem run_of_error {factory : Option Factory}
    (hfits : ∀ t entry, r.find? t = some entry → entry.Fits) {e : RegistryError}
    (h : (c.run factory r).1 = .error e) :
    ∃ new, (c.run factory r).2 = r.asked new := by
  have hasked : r = r.asked [] := by rw [asked, List.append_nil]
  cases hregisters : c.registers? with
  | some registered => simp [(run_of_registers hregisters).1] at h
  | none =>
    cases hlookup : c.lookup? with
    | none =>
      obtain ⟨cause, hrun⟩ := run_of_refused factory r hregisters hlookup
      exact ⟨[], by rw [hrun, ← hasked]⟩
    | some t =>
      cases hentry : r.find? t with
      | none => exact ⟨[], by rw [run_of_absent hlookup hentry, ← hasked]⟩
      | some entry =>
        have hfit := hfits t entry hentry
        cases hfound : r.found factory t entry with
        | error cause => exact ⟨_, by rw [run_of_found_error hlookup hentry hfit hfound]⟩
        | ok handle => simp [(run_of_found_ok hlookup hentry hfit hfound).1] at h

/-- What was asked for does not change the answer of any lookup. -/
theorem lookups_asked (hfits : ∀ t entry, r.find? t = some entry → entry.Fits)
    (new : List FactoryCall) (t : String) :
    ((r.asked new).resolve (classes.map Factory.ofClasses) t).1 =
        (r.resolve (classes.map Factory.ofClasses) t).1 ∧
      ((r.asked new).mapper (classes.map Factory.ofClasses) t).1 =
        (r.mapper (classes.map Factory.ofClasses) t).1 := by
  cases hentry : r.find? t with
  | none =>
    have hasked : (r.asked new).find? t = none := hentry
    rw [resolve_of_absent hasked, resolve_of_absent hentry, mapper_of_absent hasked,
      mapper_of_absent hentry]
    exact ⟨rfl, rfl⟩
  | some entry =>
    have hasked : (r.asked new).find? t = some entry := hentry
    have hfit := hfits t entry hentry
    rw [resolve_fst_of_entry hasked, resolve_fst_of_entry hentry,
      mapper_fst_of_entry hasked hfit, mapper_fst_of_entry hentry hfit, found_asked]
    exact ⟨rfl, rfl⟩

/-! ## Any calls -/

/-- After any calls, the registered types are ascending, and are those that calls have registered.
For every type, what looking up its schema gives is given by the source that was registered last,
and is a schema for this type; nothing is found, and there is no mapper, if and only if the type is
not registered. For a registered type, looking up the schema and looking up the mapper agree, also
one after the other in either order. A call that fails changes no answer. -/
theorem lookups_agree (classes : Option (String → Option Schema)) (calls : List Call) :
    let factory := classes.map Factory.ofClasses
    let r := after factory {} calls
    r.entityTypes.Pairwise (· < ·) ∧
      (∀ t, t ∈ r.entityTypes ↔ ∃ c ∈ calls, ∃ source, c.registers? = some (t, source)) ∧
      (∀ c : Call, c.registers? ≠ none ↔ (c.run factory r).1 = .ok .registered) ∧
      (∀ t,
        (r.resolve factory t).1.map (Option.map Handle.value) =
            (lastRegistered t calls).elim (.ok none) (fun source =>
              (source.outcome classes t).map some) ∧
          (∀ handle, (r.resolve factory t).1 = .ok (some handle) → handle.value.entityType = t) ∧
          ((r.resolve factory t).1 = .ok none ↔ t ∉ r.entityTypes) ∧
          ((r.mapper factory t).1 = .error (.unregistered t) ↔ t ∉ r.entityTypes) ∧
          (t ∈ r.entityTypes →
            Agree (r.resolve factory t).1 (r.mapper factory t).1 ∧
              Agree (r.resolve factory t).1 ((r.resolve factory t).2.mapper factory t).1 ∧
              Agree ((r.mapper factory t).2.resolve factory t).1 (r.mapper factory t).1)) ∧
      (∀ (c : Call) e, (c.run factory r).1 = .error e →
        (c.run factory r).2.entityTypes = r.entityTypes ∧
          ∀ t, ((c.run factory r).2.resolve factory t).1 = (r.resolve factory t).1 ∧
            ((c.run factory r).2.mapper factory t).1 = (r.mapper factory t).1) := by
  intro factory r
  have hfits : ∀ t entry, r.find? t = some entry → entry.Fits := fun t entry => fits_after
  have habsent (t : String) : t ∉ r.entityTypes ↔ r.find? t = none := by
    rw [mem_entityTypes_iff, not_ne_iff]
  have hnone (t : String) : (r.resolve factory t).1 = .ok none ↔ t ∉ r.entityTypes :=
    resolve_eq_none_iff.trans (habsent t).symm
  have hunregistered (t : String) :
      (r.mapper factory t).1 = .error (.unregistered t) ↔ t ∉ r.entityTypes :=
    (mapper_eq_unregistered_iff (hfits t)).trans (habsent t).symm
  refine ⟨pairwise_after factory calls, mem_entityTypes_after_iff factory calls,
    registers?_ne_none_iff factory r, fun t => ?_, fun c e he => ?_⟩
  · rcases entry_after factory calls t with ⟨hlast, hentry⟩ | ⟨source, entry, hlast, hentry, hkeeps⟩
    · refine ⟨?_, ?_, hnone t, hunregistered t, fun h => absurd h ((habsent t).mpr hentry)⟩
      · rw [resolve_of_absent hentry, hlast]
        rfl
      · rw [resolve_of_absent hentry]
        exact nofun
    · obtain ⟨afterSchema, hschema, hschemaFits, hschemaFound⟩ :=
        found_run (c := .resolve t) rfl hentry hkeeps
      obtain ⟨afterMapper, hmapper, -, hmapperFound⟩ :=
        found_run (c := .mapper t) rfl hentry hkeeps
      rw [snd_run_resolve] at hschema hschemaFound
      rw [snd_run_mapper] at hmapper hmapperFound
      refine ⟨?_, fun handle h => ?_, hnone t, hunregistered t, fun _ => ⟨?_, ?_, ?_⟩⟩
      · rw [resolve_fst_of_entry hentry, hlast, Option.elim_some, ← map_value_found hkeeps]
        cases r.found factory t entry <;> rfl
      · rw [resolve_fst_of_entry hentry] at h
        cases hfound : r.found factory t entry with
        | error e => exact nomatch hfound ▸ h
        | ok given =>
          rw [hfound] at h
          obtain rfl : given = handle := Option.some.inj (Except.ok.inj h)
          exact (supplies_of_found hkeeps hfound).entityType
      · exact agree_of_found hentry hentry hkeeps.fits rfl
      · exact agree_of_found hentry hschema hschemaFits hschemaFound
      · exact agree_of_found hmapper hentry hkeeps.fits hmapperFound.symm
  · obtain ⟨new, hnew⟩ := run_of_error hfits he
    rw [hnew]
    exact ⟨rfl, fun t => lookups_asked hfits new t⟩

end

end Registry

end Catalogue
