import Catalogue.Proofs.Registry.Kept

/-!
# What a registry asks its factory for

A call is told by its result and by what the factory was asked for during the call
(`Registry.Event`). Since a type was registered last, what is kept for it is what past events have
given (`Registry.Follows`), which one more call carries on (`Registry.follows_event`). So every
lookup of the type asks the factory once, until one obtains a schema, and none does so afterwards;
all lookups give one schema and one mapper (`Registry.asks_until_obtained`). The factory may answer
whatever it likes, each time anew.
-/

namespace Catalogue

namespace Registry

/-! ## Events -/

/-- A call, its result, and what the factory was asked for. -/
structure Event where
  /-- The call. -/
  call : Call
  /-- Its result. -/
  result : Except RegistryError Answer
  /-- The requests to the factory during the call, oldest first. -/
  requests : List FactoryCall

/-- What a call of this registry is. -/
def Call.event (factory : Option Factory) (r : Registry) (c : Call) : Event :=
  ⟨c, (c.run factory r).1, (c.run factory r).2.requests.drop r.requests.length⟩

/-- What calls of this registry are, one after the other. -/
def events (factory : Option Factory) : Registry → List Call → List Event
  | _, [] => []
  | r, c :: calls => c.event factory r :: events factory (c.run factory r).2 calls

namespace Event

/-- A lookup of this entity type gives this schema, itself or in a mapper. -/
def Gives (t : String) (handle : Handle Schema) (e : Event) : Prop :=
  e.call.lookup? = some t ∧ ∃ answer, e.result = .ok answer ∧ answer.schema? = some handle

/-- A lookup of this entity type obtains a schema. -/
def Obtains (t : String) (e : Event) : Prop :=
  ∃ handle, e.Gives t handle

/-- A lookup of this entity type gives this mapper. -/
def GivesMapper (t : String) (mapper : Mapper) (e : Event) : Prop :=
  e.call.lookup? = some t ∧ e.result = .ok (.mapper mapper)

end Event

variable {factory : Option Factory} {r : Registry} {c : Call} {t : String} {source : SchemaSource}
  {entry : Registration}

theorem events_append_singleton (factory : Option Factory) (r : Registry) (calls : List Call)
    (c : Call) :
    events factory r (calls ++ [c]) =
      events factory r calls ++ [c.event factory (after factory r calls)] := by
  induction calls generalizing r with
  | nil => rfl
  | cons first calls ih =>
    rw [List.cons_append, events, ih]
    rfl

/-! ## Requests -/

/-- A registration asks for nothing. -/
theorem requests_event_of_registers? (h : c.registers? = some (t, source)) :
    (c.event factory r).requests = [] := by
  rw [Call.event, (run_of_registers h).2.1, List.drop_length]

/-- A lookup asks by the requests of the entry that it finds. -/
theorem requests_event_of_entry (hc : c.lookup? = some t) (hentry : r.find? t = some entry)
    (hfits : entry.Fits) : (c.event factory r).requests = inquiries factory t entry := by
  rw [Call.event, requests_run_of_entry hc hentry hfits, List.drop_left]

theorem entityType_of_mem_inquiries {request : FactoryCall}
    (h : request ∈ inquiries factory t entry) : request.entityType = t := by
  unfold inquiries inquiry at h
  split at h
  · exact nomatch h
  · split at h
    · rw [List.mem_singleton.mp h]
    · exact nomatch h

/-- A call adds its requests to those before it, and only a lookup asks for its entity type. -/
theorem requests_run (hfits : ∀ t entry, r.find? t = some entry → entry.Fits) (c : Call) :
    (c.run factory r).2.requests = r.requests ++ (c.event factory r).requests ∧
      ∀ request ∈ (c.event factory r).requests, c.lookup? = some request.entityType := by
  have hnone : (c.run factory r).2.requests = r.requests →
      (c.run factory r).2.requests = r.requests ++ (c.event factory r).requests ∧
        ∀ request ∈ (c.event factory r).requests, c.lookup? = some request.entityType := by
    intro h
    rw [Call.event, h, List.drop_length, List.append_nil]
    exact ⟨rfl, nofun⟩
  cases hregisters : c.registers? with
  | some registered => exact hnone (run_of_registers hregisters).2.1
  | none =>
    cases hlookup : c.lookup? with
    | none =>
      obtain ⟨e, he⟩ := run_of_refused factory r hregisters hlookup
      rw [← hlookup]
      exact hnone (by rw [he])
    | some t =>
      cases hentry : r.find? t with
      | none =>
        rw [← hlookup]
        exact hnone (by rw [run_of_absent hlookup hentry])
      | some entry =>
        have hfit := hfits t entry hentry
        rw [requests_event_of_entry hlookup hentry hfit]
        refine ⟨requests_run_of_entry hlookup hentry hfit, fun request hrequest => ?_⟩
        rw [entityType_of_mem_inquiries hrequest]

/-! ## What is kept since a registration -/

/-- What is kept for an entity type is what events since its last registration have given. -/
structure Follows (factory : Option Factory) (t : String) (source : SchemaSource)
    (past : List Event) (entry : Registration) : Prop where
  keeps : entry.Keeps factory t source
  pending : entry.schema = none ↔
    (∃ className, source = .named className) ∧ ∀ e ∈ past, ¬e.Obtains t
  schema : ∀ e ∈ past, ∀ handle, e.Gives t handle → entry.schema = some handle
  mapper : ∀ e ∈ past, ∀ mapper, e.GivesMapper t mapper → entry.mapper = some mapper

theorem follows_registration (h : c.registers? = some (t, source)) (serial : Nat) :
    Follows factory t source [] (source.registration serial) where
  keeps := keeps_registration h serial
  pending := by
    cases source with
    | ready schema => simp [SchemaSource.registration]
    | named className => simp [SchemaSource.registration]
  schema _ he := nomatch he
  mapper _ he := nomatch he

/-- An event that gives nothing for the type changes nothing. -/
theorem Follows.append {past : List Event} (h : Follows factory t source past entry) {e : Event}
    (hschema : ¬e.Obtains t) (hmapper : ∀ mapper, ¬e.GivesMapper t mapper) :
    Follows factory t source (past ++ [e]) entry where
  keeps := h.keeps
  pending := by
    rw [h.pending, List.forall_mem_append, List.forall_mem_singleton, and_iff_left hschema]
  schema := by
    rw [List.forall_mem_append, List.forall_mem_singleton]
    exact ⟨h.schema, fun handle hgives => absurd ⟨handle, hgives⟩ hschema⟩
  mapper := by
    rw [List.forall_mem_append, List.forall_mem_singleton]
    exact ⟨h.mapper, fun mapper hgives => absurd hgives (hmapper mapper)⟩

/-- A lookup that gets a schema gives just this one, and the mapper that it keeps. -/
theorem gives_of_found_ok (hc : c.lookup? = some t) (hentry : r.find? t = some entry)
    (hfits : entry.Fits) {handle : Handle Schema} (h : r.found factory t entry = .ok handle) :
    (∀ other, (c.event factory r).Gives t other ↔ other = handle) ∧
      ∀ mapper, (c.event factory r).GivesMapper t mapper →
        (c.keep r.mappers entry handle).mapper = some mapper := by
  have hrun : (c.run factory r).1 = .ok (c.reply r.mappers entry.mapper handle) :=
    (run_of_found_ok hc hentry hfits h).1
  have hreply : (c.reply r.mappers entry.mapper handle).schema? = some handle := by
    cases c with
    | register => exact nomatch hc
    | resolve => rfl
    | mapper => exact congrArg some (value_of_found hfits h r.mappers)
  refine ⟨fun other => ⟨?_, ?_⟩, fun mapper => ?_⟩
  · rintro ⟨-, answer, hanswer, hother⟩
    obtain rfl : _ = answer := Except.ok.inj (hrun.symm.trans hanswer)
    exact Option.some.inj (hother.symm.trans hreply)
  · rintro rfl
    exact ⟨hc, _, hrun, hreply⟩
  · rintro ⟨-, hmapper⟩
    have hanswer := Except.ok.inj (hrun.symm.trans hmapper)
    cases c with
    | register => exact nomatch hc
    | resolve => exact nomatch hanswer
    | mapper => exact congrArg some (Answer.mapper.inj hanswer)

/-- A lookup keeps a schema and a mapper that are there already. -/
theorem keep_of_kept {handle : Handle Schema} (h : r.found factory t entry = .ok handle)
    (serial : Nat) (c : Call) :
    (∀ other, entry.schema = some other → (c.keep serial entry handle).schema = some other) ∧
      ∀ mapper, entry.mapper = some mapper →
        (c.keep serial entry handle).mapper = some mapper := by
  have hschema : ∀ other, entry.schema = some other → some handle = some other := by
    intro other hother
    simp only [found, hother] at h
    rw [Except.ok.inj h]
  cases c with
  | register => exact ⟨fun _ h => h, fun _ h => h⟩
  | resolve => exact ⟨hschema, fun _ h => h⟩
  | mapper =>
    refine ⟨hschema, fun made hmade => ?_⟩
    rw [Call.keep, hmade]
    rfl

/-- What is kept after a call that does not register the type follows from this call too. -/
theorem follows_event {past : List Event} (hentry : r.find? t = some entry)
    (h : Follows factory t source past entry) (hc : c.source? t = none) :
    ∃ kept, (c.run factory r).2.find? t = some kept ∧
      Follows factory t source (past ++ [c.event factory r]) kept := by
  by_cases hlookup : c.lookup? = some t
  case neg =>
    rw [find?_run_of_ne (Call.about?_ne hc hlookup)]
    exact ⟨entry, hentry, h.append (fun ⟨_, hgives⟩ => hlookup hgives.1)
      fun _ hgives => hlookup hgives.1⟩
  case pos =>
    have hfits := h.keeps.fits
    cases hfound : r.found factory t entry with
    | error e =>
      have hrun := run_of_found_error hlookup hentry hfits hfound
      refine ⟨entry, by rw [hrun]; exact hentry, h.append ?_ ?_⟩
      · rintro ⟨handle, -, answer, hanswer, -⟩
        exact nomatch (congrArg Prod.fst hrun).symm.trans hanswer
      · rintro mapper ⟨-, hanswer⟩
        exact nomatch (congrArg Prod.fst hrun).symm.trans hanswer
    | ok handle =>
      obtain ⟨hgives, hmapper⟩ := gives_of_found_ok hlookup hentry hfits hfound
      obtain ⟨hkeptSchema, hkeptMapper⟩ := keep_of_kept hfound r.mappers c
      have hschema := schema_keep hlookup r.mappers entry handle
      refine ⟨_, (run_of_found_ok hlookup hentry hfits hfound).2,
        { keeps := keeps_keep h.keeps hfound r.mappers c, pending := ?_, schema := ?_,
          mapper := ?_ }⟩
      · rw [hschema]
        refine iff_of_false nofun fun hpending => ?_
        exact hpending.2 _ (List.mem_append_right _ (List.mem_singleton_self _))
          ⟨handle, (hgives handle).mpr rfl⟩
      · rw [List.forall_mem_append, List.forall_mem_singleton]
        exact ⟨fun e he other hother => hkeptSchema other (h.schema e he other hother),
          fun other hother => (hgives other).mp hother ▸ hschema⟩
      · rw [List.forall_mem_append, List.forall_mem_singleton]
        exact ⟨fun e he mapper hgiven => hkeptMapper mapper (h.mapper e he mapper hgiven), hmapper⟩

/-- Since it was registered, what is kept for an entity type follows from the events. -/
theorem follows_events (h : c.registers? = some (t, source)) (factory : Option Factory)
    (r : Registry) {since : List Call} (hsince : ∀ later ∈ since, later.source? t = none) :
    ∃ entry, (after factory (c.run factory r).2 since).find? t = some entry ∧
      Follows factory t source (events factory (c.run factory r).2 since) entry := by
  induction since using List.reverseRecOn with
  | nil =>
    refine ⟨_, ?_, follows_registration h r.schemas⟩
    rw [after, List.foldl_nil, find?, (run_of_registers h).2.2, get?_put, if_pos rfl]
  | append_singleton since next ih =>
    obtain ⟨hbefore, hnext⟩ := List.forall_mem_append.mp hsince
    obtain ⟨entry, hentry, hfollows⟩ := ih hbefore
    rw [after_append_singleton, events_append_singleton]
    exact follows_event hentry hfollows (hnext next (List.mem_singleton_self next))

/-- While nothing was obtained, a lookup gets what the factory makes of the class now. -/
theorem event_of_pending (hlookup : c.lookup? = some t) (hentry : r.find? t = some entry)
    (hkeeps : entry.Keeps factory t source) (hpending : entry.schema = none) {className : String}
    (hsource : source = .named className) :
    (c.event factory r).requests = inquiry factory t className ∧
      match factory.bind fun make => make r.requests className with
      | none => (c.event factory r).result = .error (.instantiation className t)
      | some schema =>
        if schema.entityType = t then
          ∃ handle, handle.value = schema ∧ (c.event factory r).Gives t handle
        else (c.event factory r).result = .error (.entityTypeMismatch t schema.entityType) := by
  subst hsource
  have hclass : entry.className.getD "" = className := by rw [hkeeps.className_eq]; rfl
  refine ⟨?_, ?_⟩
  · simp only [requests_event_of_entry hlookup hentry hkeeps.fits, inquiries, hpending, hclass]
  · have hfound : r.found factory t entry =
        (supplied factory r.requests t className).map (Handle.mk r.schemas) := by
      simp only [found, hpending, hclass]
    cases hmade : factory.bind fun make => make r.requests className with
    | none =>
      simp only [supplied, hmade, fit] at hfound
      exact congrArg Prod.fst (run_of_found_error hlookup hentry hkeeps.fits hfound)
    | some schema =>
      simp only [supplied, hmade, fit] at hfound
      dsimp only
      split
      case isTrue htype =>
        rw [if_pos htype] at hfound
        exact ⟨⟨r.schemas, schema⟩, rfl,
          ((gives_of_found_ok hlookup hentry hkeeps.fits hfound).1 _).mpr rfl⟩
      case isFalse htype =>
        rw [if_neg htype] at hfound
        exact congrArg Prod.fst (run_of_found_error hlookup hentry hkeeps.fits hfound)

/-- Once something was obtained, a lookup asks for nothing and gives what is kept. -/
theorem event_of_kept (hlookup : c.lookup? = some t) (hentry : r.find? t = some entry)
    (hfits : entry.Fits) {handle : Handle Schema} (hschema : entry.schema = some handle) :
    (c.event factory r).requests = [] ∧
      ∀ other, (c.event factory r).Gives t other ↔ other = handle := by
  have hfound : r.found factory t entry = .ok handle := by rw [found, hschema]
  refine ⟨?_, (gives_of_found_ok hlookup hentry hfits hfound).1⟩
  rw [requests_event_of_entry hlookup hentry hfits, inquiries, hschema]

/-- Once a mapper was given, a lookup gives no other. -/
theorem eq_of_givesMapper (hlookup : c.lookup? = some t) (hentry : r.find? t = some entry)
    (hfits : entry.Fits) {mapper other : Mapper} (hmapper : entry.mapper = some mapper)
    (hgives : (c.event factory r).GivesMapper t other) : other = mapper := by
  have hfound : r.found factory t entry = .ok mapper.value := by rw [found, hfits mapper hmapper]
  have hother := (gives_of_found_ok hlookup hentry hfits hfound).2 other hgives
  rw [(keep_of_kept hfound r.mappers c).2 mapper hmapper] at hother
  exact (Option.some.inj hother).symm

/-! ## One request until a schema is obtained -/

/-- Let a type be registered, and then not registered again. Registering asks the factory for
nothing. The next call asks it only for the type that it looks up, and changes what is kept for no
other type than the one that it is about. A lookup of the type asks for its class exactly once while
nothing was obtained : an answer that is no schema, or one for another type, makes it fail and is
not kept, any other is what it gives. If a schema was registered or obtained, no lookup of the type
asks, and each gives it. All lookups give one schema, and all that give a mapper give one mapper. -/
theorem asks_until_obtained (factory : Option Factory) (before : List Call) {opening : Call}
    (hopening : opening.registers? = some (t, source)) {since : List Call}
    (hsince : ∀ later ∈ since, ∀ other, later.registers? ≠ some (t, other)) (c : Call) :
    let start := after factory {} (before ++ [opening])
    let past := events factory start since
    let now := after factory start since
    let next := c.event factory now
    (opening.event factory (after factory {} before)).requests = [] ∧
      (c.run factory now).2.requests = now.requests ++ next.requests ∧
      (∀ request ∈ next.requests, c.lookup? = some request.entityType) ∧
      (∀ other, c.about? ≠ some other → (c.run factory now).2.find? other = now.find? other) ∧
      (c.lookup? = some t →
        (∀ className, source = .named className → (∀ e ∈ past, ¬e.Obtains t) →
          next.requests = inquiry factory t className ∧
            match factory.bind fun make => make now.requests className with
            | none => next.result = .error (.instantiation className t)
            | some schema =>
              if schema.entityType = t then
                ∃ handle, handle.value = schema ∧ next.Gives t handle
              else next.result = .error (.entityTypeMismatch t schema.entityType)) ∧
        ((∃ schema, source = .ready schema) ∨ (∃ e ∈ past, e.Obtains t) →
          next.requests = [] ∧ next.Obtains t) ∧
        (∀ e ∈ past, ∀ handle other, e.Gives t handle → next.Gives t other → other = handle) ∧
        (∀ e ∈ past, ∀ mapper other, e.GivesMapper t mapper → next.GivesMapper t other →
          other = mapper)) := by
  intro start past now next
  have hsource : ∀ later ∈ since, later.source? t = none := by
    intro later hlater
    rw [Option.eq_none_iff_forall_ne_some]
    exact fun other hother => hsince later hlater other (Call.source?_eq_some_iff.mp hother)
  have hnow : now = after factory {} (before ++ [opening] ++ since) := (after_append ..).symm
  have hfits : ∀ t entry, now.find? t = some entry → entry.Fits := by
    intro t entry hentry
    rw [hnow] at hentry
    exact fits_after hentry
  obtain ⟨entry, hentry, hfollows⟩ :=
    follows_events hopening factory (after factory {} before) hsource
  rw [← after_append_singleton] at hentry hfollows
  have hentryFits := hfollows.keeps.fits
  obtain ⟨hrequests, hlookups⟩ := requests_run hfits c
  refine ⟨requests_event_of_registers? hopening, hrequests, hlookups,
    fun other hother => find?_run_of_ne hother, fun hlookup => ⟨?_, ?_, ?_, ?_⟩⟩
  · intro className hclass hpast
    exact event_of_pending hlookup hentry hfollows.keeps
      (hfollows.pending.mpr ⟨⟨className, hclass⟩, hpast⟩) hclass
  · intro h
    have hschema : entry.schema ≠ none := by
      intro hnone
      obtain ⟨⟨className, rfl⟩, hpast⟩ := hfollows.pending.mp hnone
      rcases h with ⟨schema, hready⟩ | ⟨e, he, hobtains⟩
      · exact nomatch hready
      · exact hpast e he hobtains
    obtain ⟨handle, hhandle⟩ := Option.ne_none_iff_exists'.mp hschema
    obtain ⟨hnone, hgives⟩ : next.requests = [] ∧ ∀ other, next.Gives t other ↔ other = handle :=
      event_of_kept hlookup hentry hentryFits hhandle
    exact ⟨hnone, handle, (hgives handle).mpr rfl⟩
  · intro e he handle other hgiven hother
    have hschema := hfollows.schema e he handle hgiven
    exact ((event_of_kept hlookup hentry hentryFits hschema).2 other).mp hother
  · intro e he mapper other hgiven hother
    exact eq_of_givesMapper hlookup hentry hentryFits (hfollows.mapper e he mapper hgiven) hother

/-- A factory that first makes nothing, then a schema for another type, then the right one : three
lookups ask it, and the fourth one has what the third one obtained. -/
theorem asks_until_obtained_notes :
    let schema (entityType : String) : Schema := { entityType := entityType, fields := [] }
    let factory : Option Factory := some fun requests _ =>
      match requests.length with
      | 0 => none
      | 1 => some (schema "Task")
      | _ => some (schema "Note")
    let opening := Call.register (.named "notes") (some "Note")
    let since := [Call.resolve "Note", .mapper "Note", .register (.ready (schema "Task")) none,
      .mapper "Note"]
    let start := after factory {} [opening]
    let now := after factory start since
    opening.registers? = some ("Note", .named "notes") ∧
      (∀ later ∈ since, ∀ other, later.registers? ≠ some ("Note", other)) ∧
      now.requests = List.replicate 3 ⟨"Note", "notes"⟩ ∧
      ((Call.resolve "Note").event factory now).requests = [] ∧
      ((Call.resolve "Note").event factory now).Gives "Note" ⟨1, schema "Note"⟩ := by
  intro schema factory opening since start now
  have hopening : opening.registers? = some ("Note", .named "notes") := rfl
  have hsince : ∀ later ∈ since, ∀ other, later.registers? ≠ some ("Note", other) := by
    simp [since, Call.registers?, schema]
  have hrequests : now.requests = List.replicate 3 ⟨"Note", "notes"⟩ := by
    unfold now start since opening factory schema
    rfl
  have hobtains : ∃ e ∈ events factory start since, e.Gives "Note" ⟨1, schema "Note"⟩ := by
    refine ⟨_, List.mem_of_getElem? (i := 3) rfl, rfl, .mapper ⟨0, 1, schema "Note"⟩, ?_, rfl⟩
    unfold start opening factory schema
    rfl
  obtain ⟨e, he, hgives⟩ := hobtains
  obtain ⟨-, -, -, -, hlookup⟩ := asks_until_obtained factory [] hopening hsince (.resolve "Note")
  obtain ⟨-, hkept, hone, -⟩ := hlookup rfl
  obtain ⟨hnext, other, hother⟩ := hkept (.inr ⟨e, he, _, hgives⟩)
  obtain rfl := hone e he _ other hgives hother
  exact ⟨hopening, hsince, hrequests, hnext, hother⟩

end Registry

end Catalogue
