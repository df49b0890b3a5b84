import Catalogue.Proofs.Registry.Calls
import Mathlib.Data.List.Induction
import Mathlib.Data.Option.Basic

/-!
# What a registry keeps

After any calls, an entity type has an entry if and only if it was registered, and the entry belongs
to the source that was registered last (`Registry.lastRegistered`) : its schema, if there is one,
comes from this source, and its mapper works by this schema (`Registration.Keeps`). A single call
keeps this (`Registry.keeps_run`), so it holds after all (`Registry.keeps_after`).
-/

namespace Catalogue

/-- The class of a source. -/
def SchemaSource.className? : SchemaSource → Option String
  | .ready _ => none
  | .named className => some className

/-- A source can give this schema to an entity type : it is the schema, or what the factory made of
the class at some time. -/
def SchemaSource.Supplies (factory : Option Factory) (entityType : String) :
    SchemaSource → Schema → Prop
  | .ready given, schema => schema = given ∧ given.entityType = entityType
  | .named className, schema =>
    ∃ requests, Registry.supplied factory requests entityType className = .ok schema

theorem SchemaSource.Supplies.entityType {factory : Option Factory} {t : String}
    {source : SchemaSource} {schema : Schema} (h : source.Supplies factory t schema) :
    schema.entityType = t := by
  cases source with
  | ready given => exact h.1 ▸ h.2
  | named className => exact h.elim fun _ => Registry.entityType_of_fit

/-- What is kept for an entity type belongs to this source. -/
structure Registration.Keeps (factory : Option Factory) (entityType : String)
    (source : SchemaSource) (entry : Registration) : Prop where
  className_eq : entry.className = source.className?
  ready : ∀ schema, source = .ready schema → entry.schema ≠ none
  supplies : ∀ handle, entry.schema = some handle →
    source.Supplies factory entityType handle.value
  fits : entry.Fits

/-- An entry without a schema is the entry of a class. -/
theorem Registration.Keeps.exists_named {factory : Option Factory} {t : String}
    {source : SchemaSource} {entry : Registration} (hkeeps : entry.Keeps factory t source)
    (h : entry.schema = none) :
    ∃ className, source = .named className ∧ entry.className.getD "" = className := by
  cases source with
  | ready schema => exact absurd h (hkeeps.ready schema rfl)
  | named className => exact ⟨className, rfl, by rw [hkeeps.className_eq]; rfl⟩

namespace Registry

variable {factory : Option Factory} {r : Registry} {c : Call} {t : String} {source : SchemaSource}
  {entry : Registration}

/-! ## The last registration -/

/-- The source that a call registers for this entity type. -/
def Call.source? (t : String) (c : Call) : Option SchemaSource :=
  (c.registers?.filter fun registered => registered.1 = t).map Prod.snd

/-- The source that was registered last for an entity type. -/
def lastRegistered (t : String) (calls : List Call) : Option SchemaSource :=
  calls.reverse.findSome? (Call.source? t)

theorem Call.source?_eq_some_iff : c.source? t = some source ↔ c.registers? = some (t, source) := by
  rw [source?, Option.map_eq_some_iff]
  constructor
  · rintro ⟨⟨name, given⟩, hfilter, rfl⟩
    obtain ⟨hregisters, hname⟩ := Option.filter_eq_some_iff.mp hfilter
    obtain rfl : name = t := by simpa using hname
    exact hregisters
  · intro h
    exact ⟨(t, source), by simp [h], rfl⟩

theorem Call.about?_ne (hsource : c.source? t = none) (hlookup : c.lookup? ≠ some t) :
    c.about? ≠ some t := by
  intro habout
  rcases Option.or_eq_some_iff.mp habout with h | ⟨-, h⟩
  · obtain ⟨⟨name, source⟩, hregisters, rfl⟩ := Option.map_eq_some_iff.mp h
    rw [source?_eq_some_iff.mpr hregisters] at hsource
    exact nomatch hsource
  · exact hlookup h

theorem lastRegistered_append (t : String) (calls later : List Call) :
    lastRegistered t (calls ++ later) = (lastRegistered t later).or (lastRegistered t calls) := by
  rw [lastRegistered, List.reverse_append, List.findSome?_append]
  rfl

theorem lastRegistered_singleton (t : String) (c : Call) : lastRegistered t [c] = c.source? t := by
  rw [lastRegistered, List.reverse_singleton, List.findSome?_singleton]

theorem lastRegistered_eq_none_iff {calls : List Call} :
    lastRegistered t calls = none ↔ ∀ c ∈ calls, c.source? t = none := by
  simp [lastRegistered, List.findSome?_eq_none_iff]

/-- A type is registered once some call registers it. -/
theorem lastRegistered_ne_none_iff {calls : List Call} :
    lastRegistered t calls ≠ none ↔ ∃ c ∈ calls, ∃ source, c.registers? = some (t, source) := by
  simp only [ne_eq, lastRegistered_eq_none_iff, not_forall, ← Call.source?_eq_some_iff,
    Option.ne_none_iff_exists', exists_prop]

/-! ## The entry of a source -/

theorem Call.entityType_of_registers? {schema : Schema}
    (h : c.registers? = some (t, .ready schema)) : schema.entityType = t := by
  unfold registers? at h
  split at h
  · cases h
    rfl
  · split at h
    case isTrue htype =>
      cases h
      exact htype.symm
    case isFalse => exact nomatch h
  · cases h
  · exact nomatch h

/-- What is kept at first belongs to the source. -/
theorem keeps_registration (h : c.registers? = some (t, source)) (serial : Nat) :
    (source.registration serial).Keeps factory t source := by
  cases source with
  | named className =>
    exact { className_eq := rfl, ready := nofun, supplies := nofun, fits := nofun }
  | ready schema =>
    refine { className_eq := rfl, ready := nofun, supplies := ?_, fits := nofun }
    rintro handle ⟨⟩
    exact ⟨rfl, Call.entityType_of_registers? h⟩

/-- A schema that is found comes from the source. -/
theorem supplies_of_found (hkeeps : entry.Keeps factory t source) {handle : Handle Schema}
    (h : r.found factory t entry = .ok handle) : source.Supplies factory t handle.value := by
  cases hschema : entry.schema with
  | some kept =>
    obtain rfl : kept = handle := by simpa [found, hschema] using h
    exact hkeeps.supplies kept hschema
  | none =>
    obtain ⟨className, rfl, hclass⟩ := hkeeps.exists_named hschema
    simp only [found, hschema, hclass] at h
    cases hs : supplied factory r.requests t className with
    | error e =>
      rw [hs] at h
      cases h
    | ok schema =>
      rw [hs] at h
      obtain rfl : ⟨r.schemas, schema⟩ = handle := Except.ok.inj h
      exact ⟨r.requests, hs⟩

theorem schema_keep (hc : c.lookup? = some t) (serial : Nat) (entry : Registration)
    (handle : Handle Schema) : (c.keep serial entry handle).schema = some handle := by
  cases c with
  | register => exact nomatch hc
  | resolve | mapper => rfl

/-- A mapper that is kept works by the schema that is found. -/
theorem value_of_found (hfits : entry.Fits) {handle : Handle Schema}
    (h : r.found factory t entry = .ok handle) (serial : Nat) :
    (entry.mapper.getD ⟨serial, handle⟩).value = handle := by
  cases hmapper : entry.mapper with
  | none => rfl
  | some made => simpa [found, hfits made hmapper] using h

/-- What a lookup keeps belongs to the source of the entry that it finds. -/
theorem keeps_keep (hkeeps : entry.Keeps factory t source) {handle : Handle Schema}
    (h : r.found factory t entry = .ok handle) (serial : Nat) (c : Call) :
    (c.keep serial entry handle).Keeps factory t source := by
  have hsupplies := supplies_of_found hkeeps h
  have hvalue := value_of_found hkeeps.fits h
  cases c with
  | register => exact hkeeps
  | resolve =>
    refine { hkeeps with ready := nofun, supplies := ?_, fits := ?_ }
    · rintro _ ⟨⟩
      exact hsupplies
    · intro made hmade
      have hmapper : entry.mapper = some made := hmade
      have hmade := hvalue serial
      rw [hmapper] at hmade
      exact congrArg some hmade.symm
  | mapper =>
    refine { hkeeps with ready := nofun, supplies := ?_, fits := ?_ }
    · rintro _ ⟨⟩
      exact hsupplies
    · rintro _ ⟨⟩
      exact congrArg some (hvalue serial).symm

/-! ## Any calls -/

/-- A call leaves what is kept to the source that was registered last. -/
theorem keeps_run {last : Option SchemaSource}
    (h : Option.Rel (Registration.Keeps factory t) last (r.find? t)) (c : Call) :
    Option.Rel (Registration.Keeps factory t) ((c.source? t).or last)
      ((c.run factory r).2.find? t) := by
  cases hregisters : c.source? t with
  | some source =>
    rw [Call.source?_eq_some_iff] at hregisters
    rw [find?, (run_of_registers hregisters).2.2, get?_put, if_pos rfl]
    exact .some (keeps_registration hregisters r.schemas)
  | none =>
    rw [Option.none_or]
    by_cases hlookup : c.lookup? = some t
    case neg => rwa [find?_run_of_ne (Call.about?_ne hregisters hlookup)]
    case pos =>
      generalize hentry : r.find? t = kept at h
      cases h with
      | none =>
        rw [run_of_absent hlookup hentry, hentry]
        exact .none
      | some hkeeps =>
        rename_i source entry
        cases hfound : r.found factory t entry with
        | error e =>
          rw [run_of_found_error hlookup hentry hkeeps.fits hfound]
          exact hentry ▸ .some hkeeps
        | ok handle =>
          rw [(run_of_found_ok hlookup hentry hkeeps.fits hfound).2]
          exact .some (keeps_keep hkeeps hfound r.mappers c)

/-- After any calls, what is kept for an entity type belongs to the source that was registered last,
and nothing is kept for a type that was never registered. -/
theorem keeps_after (factory : Option Factory) (calls : List Call) (t : String) :
    Option.Rel (Registration.Keeps factory t) (lastRegistered t calls)
      ((after factory {} calls).find? t) := by
  induction calls using List.reverseRecOn with
  | nil => exact .none
  | append_singleton calls c ih =>
    rw [after_append_singleton, lastRegistered_append, lastRegistered_singleton]
    exact keeps_run ih c

/-- An entity type was never registered and has no entry, or it has the entry of a source. -/
theorem entry_after (factory : Option Factory) (calls : List Call) (t : String) :
    (lastRegistered t calls = none ∧ (after factory {} calls).find? t = none) ∨
      ∃ source entry, lastRegistered t calls = some source ∧
        (after factory {} calls).find? t = some entry ∧ entry.Keeps factory t source := by
  have hkept := keeps_after factory calls t
  generalize lastRegistered t calls = last at hkept ⊢
  generalize (after factory {} calls).find? t = kept at hkept ⊢
  cases hkept with
  | none => exact .inl ⟨rfl, rfl⟩
  | some hkeeps => exact .inr ⟨_, _, rfl, rfl, hkeeps⟩

theorem fits_after {calls : List Call} (h : (after factory {} calls).find? t = some entry) :
    entry.Fits := by
  rcases entry_after factory calls t with ⟨-, hnone⟩ | ⟨source, kept, -, hkept, hkeeps⟩
  · exact nomatch hnone.symm.trans h
  · obtain rfl : kept = entry := Option.some.inj (hkept.symm.trans h)
    exact hkeeps.fits

/-- A type is registered if some call has registered it. -/
theorem mem_entityTypes_after_iff (factory : Option Factory) (calls : List Call) (t : String) :
    t ∈ (after factory {} calls).entityTypes ↔
      ∃ c ∈ calls, ∃ source, c.registers? = some (t, source) := by
  rw [mem_entityTypes_iff, ← lastRegistered_ne_none_iff]
  rcases entry_after factory calls t with ⟨hlast, hkept⟩ | ⟨source, entry, hlast, hkept, -⟩
  · simp [hlast, hkept]
  · simp [hlast, hkept]

/-- After any calls, the registered types are ascending. -/
theorem pairwise_after (factory : Option Factory) (calls : List Call) :
    (after factory {} calls).entityTypes.Pairwise (· < ·) := by
  induction calls using List.reverseRecOn with
  | nil => exact .nil
  | append_singleton calls c ih =>
    rw [after_append_singleton]
    exact pairwise_run ih factory c

end Registry

end Catalogue
