import Catalogue.Proofs.Registry.Kept

/-!
# The numbers of schemas and mappers

A registry tells its schemas apart by number, and its mappers likewise (`Handle`). That it may do so
rests on its counters : a call changes what is kept for one entity type only, and what it keeps
there of a kind (`Registry.Kind`) was kept there before, or is an object made by this call, with a
number that the counter has passed by it (`Registry.Kind.Makes`). So after any calls the numbers
given out are below the counter, an object that is made has a number that no earlier one has
(`Registry.Kind.Counted.lt_of_new`), and one number stands for one object of one entity type
(`Registry.Kind.Counted.eq_of_serial_eq`). `Registry.eq_of_answers` has this for what lookups
answer.
-/

namespace Catalogue

universe u

namespace Registry

/-- A kind of objects with an identity that a registry keeps for its entity types. -/
structure Kind (α : Type u) where
  /-- The object of a registration. -/
  kept : Registration → Option (Handle α)
  /-- The number of objects so far. -/
  count : Registry → Nat

namespace Kind

/-- The schemas. -/
def schemas : Kind Schema :=
  ⟨Registration.schema, Registry.schemas⟩

/-- The mappers. -/
def mappers : Kind (Handle Schema) :=
  ⟨Registration.mapper, Registry.mappers⟩

variable {α : Type u} {k : Kind α} {r next last : Registry} {t : String} {about : Option String}
  {object : Handle α} {entry : Registration}

/-- The registry keeps an object for an entity type. -/
def Holds (k : Kind α) (r : Registry) (t : String) (object : Handle α) : Prop :=
  ∃ entry, r.find? t = some entry ∧ k.kept entry = some object

/-- The next registry keeps what this one keeps, or objects made in between, all of them for this
entity type. -/
def Makes (k : Kind α) (about : Option String) (r next : Registry) : Prop :=
  k.count r ≤ k.count next ∧
    ∀ t object, k.Holds next t object → k.Holds r t object ∨
      (about = some t ∧ k.count r ≤ object.serial ∧ object.serial < k.count next)

theorem Makes.refl (k : Kind α) (about : Option String) (r : Registry) : k.Makes about r r :=
  ⟨Nat.le_refl _, fun _ _ h => .inl h⟩

theorem Makes.trans (h : k.Makes about r next) (hlater : k.Makes about next last) :
    k.Makes about r last := by
  refine ⟨Nat.le_trans h.1 hlater.1, fun t object hlast => ?_⟩
  rcases hlater.2 t object hlast with hnext | ⟨habout, hge, hlt⟩
  · exact (h.2 t object hnext).imp_right fun ⟨habout, hge, hlt⟩ =>
      ⟨habout, hge, Nat.lt_of_lt_of_le hlt hlater.1⟩
  · exact .inr ⟨habout, Nat.le_trans h.1 hge, hlt⟩

/-- An entry is written whose object was kept before, or is new. -/
theorem makes_of_put (hentries : next.entries = put t entry r.entries)
    (hcount : k.count r ≤ k.count next)
    (hkept : ∀ object, k.kept entry = some object → k.Holds r t object ∨
      (k.count r ≤ object.serial ∧ object.serial < k.count next)) :
    k.Makes (some t) r next := by
  refine ⟨hcount, ?_⟩
  rintro name object ⟨found, hfound, hobject⟩
  rw [find?, hentries, get?_put] at hfound
  split at hfound
  case isTrue hname =>
    subst hname
    obtain rfl : entry = found := Option.some.inj hfound
    exact (hkept object hobject).imp_right fun h => ⟨rfl, h⟩
  case isFalse => exact .inl ⟨found, hfound, hobject⟩

end Kind

/-! ## One call -/

section

variable {factory : Option Factory} {r next last : Registry} {c : Call} {t : String}
  {about : Option String} {entry : Registration} {handle : Handle Schema}

/-- The next registry keeps what this one keeps, or schemas and mappers made in between. -/
structure Extends (about : Option String) (r next : Registry) : Prop where
  schemas : Kind.schemas.Makes about r next
  mappers : Kind.mappers.Makes about r next

theorem Extends.refl (about : Option String) (r : Registry) : Extends about r r :=
  ⟨.refl _ about r, .refl _ about r⟩

theorem Extends.trans (h : Extends about r next) (hlater : Extends about next last) :
    Extends about r last :=
  ⟨h.schemas.trans hlater.schemas, h.mappers.trans hlater.mappers⟩

theorem extends_withSchema (r : Registry) (schema : Schema) :
    Extends (some schema.entityType) r (r.withSchema schema) where
  schemas := by
    refine Kind.makes_of_put rfl (Nat.le_succ _) fun object hobject => .inr ?_
    obtain rfl : ⟨r.schemas, schema⟩ = object := Option.some.inj hobject
    exact ⟨Nat.le_refl _, Nat.lt_succ_self _⟩
  mappers := Kind.makes_of_put rfl (Nat.le_refl _) nofun

/-- The schema of an entry that is got is kept, and no mapper is made for it. -/
theorem extends_schemaOf (hentry : r.find? t = some entry)
    (h : schemaOf factory t entry r = (.ok handle, next)) :
    Extends (some t) r next ∧ Kind.schemas.Holds next t handle := by
  cases hschema : entry.schema with
  | some kept =>
    obtain ⟨rfl, rfl⟩ : kept = handle ∧ r = next := by
      simpa [schemaOf_of_kept hschema] using h
    exact ⟨.refl _ r, entry, hentry, hschema⟩
  | none =>
    have hfound : r.found factory t entry = .ok handle := by rw [← fst_schemaOf, h]
    rw [schemaOf_of_new hschema hfound] at h
    have hserial : handle.serial = r.schemas := by
      simp only [found, hschema] at hfound
      cases hs : supplied factory r.requests t (entry.className.getD "") with
      | error e =>
        rw [hs] at hfound
        cases hfound
      | ok schema =>
        rw [hs] at hfound
        obtain rfl : ⟨r.schemas, schema⟩ = handle := Except.ok.inj hfound
        rfl
    obtain rfl := (Prod.mk.inj h).2
    refine ⟨⟨?_, ?_⟩, ?_⟩
    · refine Kind.makes_of_put rfl (Nat.le_succ _) fun object hobject => .inr ?_
      obtain rfl : handle = object := Option.some.inj hobject
      exact ⟨Nat.le_of_eq hserial.symm, Nat.lt_succ_of_le (Nat.le_of_eq hserial)⟩
    · exact Kind.makes_of_put rfl (Nat.le_refl _) fun object hobject => .inl ⟨entry, hentry, hobject⟩
    · exact ⟨_, by rw [find?, get?_put, if_pos rfl], rfl⟩

/-- A schema that is not got leaves what is kept. -/
theorem extends_schemaOf_of_error {e : RegistryError}
    (h : schemaOf factory t entry r = (.error e, next)) : Extends about r next := by
  have hfound : r.found factory t entry = .error e := by rw [← fst_schemaOf, h]
  rw [schemaOf_of_error hfound] at h
  obtain rfl := (Prod.mk.inj h).2
  exact ⟨.refl _ about r, .refl _ about r⟩

theorem extends_resolve (factory : Option Factory) (r : Registry) (t : String) :
    Extends (some t) r ((Call.resolve t).run factory r).2 := by
  cases hentry : r.find? t with
  | none =>
    rw [run_of_absent rfl hentry]
    exact .refl _ r
  | some entry =>
    rcases h : schemaOf factory t entry r with ⟨e | handle, next⟩
    · simpa only [Call.run, resolve_of_error hentry h] using extends_schemaOf_of_error h
    · simpa only [Call.run, resolve_of_ok hentry h] using (extends_schemaOf hentry h).1

theorem extends_mapper (factory : Option Factory) (r : Registry) (t : String) :
    Extends (some t) r ((Call.mapper t).run factory r).2 := by
  cases hentry : r.find? t with
  | none =>
    rw [run_of_absent rfl hentry]
    exact .refl _ r
  | some entry =>
    cases hmapper : entry.mapper with
    | some made =>
      simp only [Call.run, mapper_of_kept hentry hmapper]
      exact .refl _ r
    | none =>
      rcases h : schemaOf factory t entry r with ⟨e | handle, next⟩
      · simpa only [Call.run, mapper_of_error hentry hmapper h] using extends_schemaOf_of_error h
      · simp only [Call.run, mapper_of_new hentry hmapper h]
        obtain ⟨hnext, hhandle⟩ := extends_schemaOf hentry h
        refine hnext.trans ⟨?_, ?_⟩
        · refine Kind.makes_of_put rfl (Nat.le_refl _) fun object hobject => .inl ?_
          obtain rfl : handle = object := Option.some.inj hobject
          exact hhandle
        · refine Kind.makes_of_put rfl (Nat.le_succ _) fun object hobject => .inr ?_
          obtain rfl : ⟨next.mappers, handle⟩ = object := Option.some.inj hobject
          exact ⟨Nat.le_refl _, Nat.lt_succ_self _⟩

/-- A call makes objects for the entity type that it registers or looks up, if it makes any. -/
theorem extends_run (factory : Option Factory) (r : Registry) (c : Call) :
    Extends c.about? r (c.run factory r).2 := by
  cases c with
  | resolve t => exact extends_resolve factory r t
  | mapper t => exact extends_mapper factory r t
  | register source given =>
    cases source with
    | named className =>
      cases given with
      | none => exact .refl _ r
      | some t =>
        exact ⟨Kind.makes_of_put rfl (Nat.le_refl _) nofun,
          Kind.makes_of_put rfl (Nat.le_refl _) nofun⟩
    | ready schema =>
      cases given with
      | none => exact extends_withSchema r schema
      | some t =>
        by_cases ht : t = schema.entityType
        · subst ht
          simpa [Call.about?, Call.registers?, Call.lookup?, Call.run, register] using
            extends_withSchema r schema
        · have hregisters : (Call.register (.ready schema) (some t)).registers? = none := if_neg ht
          obtain ⟨e, hrun⟩ := run_of_refused factory r hregisters rfl
          rw [hrun]
          exact .refl _ r

end

/-! ## Any calls -/

namespace Kind

variable {α : Type u} {k : Kind α} {factory : Option Factory} {calls : List Call} {c : Call}
  {t t' : String} {object object' : Handle α}

/-- Every call makes objects of this kind for the entity type that it registers or looks up, if it
makes any. -/
def Counted (k : Kind α) (factory : Option Factory) : Prop :=
  ∀ (r : Registry) (c : Call), k.Makes c.about? r (c.run factory r).2

/-- An object was kept for an entity type after some of the calls. -/
def Seen (k : Kind α) (factory : Option Factory) (calls : List Call) (t : String)
    (object : Handle α) : Prop :=
  ∃ before, before <+: calls ∧ k.Holds (after factory {} before) t object

theorem not_seen_nil : ¬k.Seen factory [] t object := by
  rintro ⟨before, hbefore, entry, hentry, -⟩
  obtain rfl := List.prefix_nil.mp hbefore
  exact nomatch hentry

theorem seen_append_singleton_iff :
    k.Seen factory (calls ++ [c]) t object ↔
      k.Seen factory calls t object ∨ k.Holds (after factory {} (calls ++ [c])) t object := by
  constructor
  · rintro ⟨before, hbefore, hholds⟩
    rcases List.prefix_concat_iff.mp hbefore with rfl | hprefix
    · exact .inr hholds
    · exact .inl ⟨before, hprefix, hholds⟩
  · rintro (⟨before, hprefix, hholds⟩ | hholds)
    · exact ⟨before, hprefix.trans (List.prefix_append calls [c]), hholds⟩
    · exact ⟨_, List.prefix_rfl, hholds⟩

/-- What was kept after some of the calls and one more was kept after some of the calls, or was
made by the last one. -/
theorem Counted.seen_cases (hk : k.Counted factory)
    (h : k.Seen factory (calls ++ [c]) t object) :
    k.Seen factory calls t object ∨
      (c.about? = some t ∧ k.Holds (after factory {} (calls ++ [c])) t object ∧
        k.count (after factory {} calls) ≤ object.serial ∧
        object.serial < k.count (after factory {} (calls ++ [c]))) := by
  rcases seen_append_singleton_iff.mp h with hseen | hholds
  · exact .inl hseen
  · have hmakes := hk (after factory {} calls) c
    rw [← after_append_singleton] at hmakes
    exact (hmakes.2 t object hholds).imp (fun hbefore => ⟨calls, List.prefix_rfl, hbefore⟩)
      fun ⟨habout, hserial⟩ => ⟨habout, hholds, hserial⟩

/-- The numbers that were given out are below the counter. -/
theorem Counted.serial_lt (hk : k.Counted factory) (h : k.Seen factory calls t object) :
    object.serial < k.count (after factory {} calls) := by
  induction calls using List.reverseRecOn with
  | nil => exact absurd h not_seen_nil
  | append_singleton calls c ih =>
    rcases hk.seen_cases h with hseen | ⟨-, -, -, hlt⟩
    · refine Nat.lt_of_lt_of_le (ih hseen) ?_
      rw [after_append_singleton]
      exact (hk (after factory {} calls) c).1
    · exact hlt

/-- An object that is made has a number that no earlier one has. -/
theorem Counted.lt_of_new (hk : k.Counted factory)
    (hkept : k.Holds (after factory {} (calls ++ [c])) t object)
    (hnew : ¬k.Holds (after factory {} calls) t object)
    (hearlier : k.Seen factory calls t' object') : object'.serial < object.serial := by
  have hmakes := hk (after factory {} calls) c
  rw [← after_append_singleton] at hmakes
  obtain ⟨-, hge, -⟩ := (hmakes.2 t object hkept).resolve_left hnew
  exact Nat.lt_of_lt_of_le (hk.serial_lt hearlier) hge

/-- One number stands for one object of one entity type. -/
theorem Counted.eq_of_serial_eq (hk : k.Counted factory) (h : k.Seen factory calls t object)
    (h' : k.Seen factory calls t' object') (hserial : object.serial = object'.serial) :
    t = t' ∧ object = object' := by
  induction calls using List.reverseRecOn with
  | nil => exact absurd h not_seen_nil
  | append_singleton calls c ih =>
    rcases hk.seen_cases h with hseen | ⟨habout, hholds, hge, -⟩
    · rcases hk.seen_cases h' with hseen' | ⟨-, -, hge', -⟩
      · exact ih hseen hseen'
      · exact absurd (hk.serial_lt hseen) (Nat.not_lt.mpr (hserial ▸ hge'))
    · rcases hk.seen_cases h' with hseen' | ⟨habout', hholds', -, -⟩
      · exact absurd (hk.serial_lt hseen') (Nat.not_lt.mpr (hserial ▸ hge))
      · -- Both were made by the last call, which writes one entry.
        obtain rfl := Option.some.inj (habout.symm.trans habout')
        obtain ⟨entry, hentry, hobject⟩ := hholds
        obtain ⟨entry', hentry', hobject'⟩ := hholds'
        obtain rfl := Option.some.inj (hentry.symm.trans hentry')
        exact ⟨rfl, Option.some.inj (hobject.symm.trans hobject')⟩

end Kind

/-! ## What lookups answer -/

section

variable {factory : Option Factory} {calls : List Call} {t t' : String} {answer answer' : Answer}

theorem counted_schemas (factory : Option Factory) : Kind.schemas.Counted factory :=
  fun r c => (extends_run factory r c).schemas

theorem counted_mappers (factory : Option Factory) : Kind.mappers.Counted factory :=
  fun r c => (extends_run factory r c).mappers

/-- One of the calls was a lookup of an entity type, with this answer. -/
def Answers (factory : Option Factory) (calls : List Call) (t : String) (answer : Answer) : Prop :=
  ∃ before c, before ++ [c] <+: calls ∧ c.lookup? = some t ∧
    (c.run factory (after factory {} before)).1 = .ok answer

/-- The schema and the mapper of an answer are kept after the lookup. -/
theorem seen_of_answers (h : Answers factory calls t answer) :
    (∀ handle, answer.schema? = some handle → Kind.schemas.Seen factory calls t handle) ∧
      ∀ made, answer = .mapper made → Kind.mappers.Seen factory calls t made := by
  obtain ⟨before, c, hbefore, hlookup, hrun⟩ := h
  cases hentry : (after factory {} before).find? t with
  | none =>
    rw [run_of_absent hlookup hentry] at hrun
    cases c with
    | register => exact nomatch hlookup
    | resolve =>
      obtain rfl : Answer.schema none = answer := Except.ok.inj hrun
      exact ⟨nofun, nofun⟩
    | mapper => exact nomatch hrun
  | some entry =>
    have hfits := fits_after hentry
    cases hfound : (after factory {} before).found factory t entry with
    | error e => exact nomatch (run_of_found_error hlookup hentry hfits hfound) ▸ hrun
    | ok handle =>
      obtain ⟨hreply, hkeep⟩ := run_of_found_ok hlookup hentry hfits hfound
      obtain rfl := Except.ok.inj (hreply.symm.trans hrun)
      rw [← after_append_singleton] at hkeep
      have hvalue := value_of_found hfits hfound (after factory {} before).mappers
      cases c with
      | register => exact nomatch hlookup
      | resolve =>
        refine ⟨?_, nofun⟩
        rintro _ ⟨⟩
        exact ⟨_, hbefore, _, hkeep, rfl⟩
      | mapper =>
        constructor
        · intro given hgiven
          obtain rfl : handle = given := by simpa [Call.reply, Answer.schema?, hvalue] using hgiven
          exact ⟨_, hbefore, _, hkeep, rfl⟩
        · rintro _ ⟨⟩
          exact ⟨_, hbefore, _, hkeep, rfl⟩

/-- Lookups that answer with schemas of one number are about one entity type and answer with one
schema, and likewise for mappers. -/
theorem eq_of_answers (h : Answers factory calls t answer) (h' : Answers factory calls t' answer') :
    (∀ handle handle', answer.schema? = some handle → answer'.schema? = some handle' →
        handle.serial = handle'.serial → t = t' ∧ handle = handle') ∧
      ∀ made made', answer = .mapper made → answer' = .mapper made' →
        made.serial = made'.serial → t = t' ∧ made = made' := by
  obtain ⟨hschema, hmapper⟩ := seen_of_answers h
  obtain ⟨hschema', hmapper'⟩ := seen_of_answers h'
  exact ⟨fun handle handle' hgiven hgiven' =>
      (counted_schemas factory).eq_of_serial_eq (hschema handle hgiven) (hschema' handle' hgiven'),
    fun made made' hgiven hgiven' =>
      (counted_mappers factory).eq_of_serial_eq (hmapper made hgiven) (hmapper' made' hgiven')⟩

end

end Registry

end Catalogue
