import Catalogue.Proofs.Collection.DocumentId
import Catalogue.Proofs.Collection.Refresh
import Mathlib.Data.List.Induction

/-!
# A refresh done again

`Collection.refreshAll_again` : on a backend that keeps one document for each id, a second refresh
leaves the documents as the first one left them, with the same places and contents, and gives the
same count. The listed entities may share ids, and ids of different kinds may have one text : then
the last of the entities is what stays, at the place of the first.

What a refresh does to the documents is to merge a list of entries into them that does not depend
on the documents (`Collection.addAll_merges`), and a merge done again changes nothing
(`Dict.merge_merge_self`).
-/

namespace Catalogue

/-- Entries that were merged before are merged without a trace. -/
theorem Dict.merge_merge_self {α : Type} (d e : Dict α) : (d.merge e).merge e = d.merge e := by
  induction e using List.reverseRecOn with
  | nil => rfl
  | append_singleton e entry ih =>
    obtain ⟨k, a⟩ := entry
    have hlast (d : Dict α) : d.merge (e ++ [(k, a)]) = (d.merge e).insert k a :=
      d.merge_append e [(k, a)]
    have hkeys : ∀ key ∈ Dict.keys e, key ∈ (d.merge e).keys := fun key h =>
      Dict.mem_keys_merge.mpr (.inr h)
    rw [hlast, hlast, Dict.insert_merge_insert hkeys, ih]

/-! ## Backends and entities -/

variable {σ : Type}

/-- Storing a document under an id succeeds. It replaces the document under the id, or comes after
all others if there is none. -/
structure Backend.Upserts (b : Backend σ) (index : String) (documents : σ → Dict Document) :
    Prop where
  answer_eq : ∀ state id document, (b.perform (.index index (some id) document) state).1 = .ok ()
  documents_eq : ∀ state id document,
    documents (b.perform (.index index (some id) document) state).2 =
      Dict.insert (documents state) id document

theorem Store.upserts (index : String) : Store.backend.Upserts index Store.documents :=
  ⟨fun _ _ _ => rfl, fun _ _ _ => rfl⟩

/-- A value that is neither null nor a number without a JSON form is not null in JSON. -/
theorem Value.toJson_ne_null {value : Value} (hnull : value.isNull = false)
    (hfinite : ∀ x, value = .float x → x.isFinite) : value.toJson ≠ .null := by
  cases value with
  | null => exact absurd hnull nofun
  | float x => simp [toJson, hfinite x rfl]
  | _ => simp [toJson]

namespace Schema

/-- The entity is of the type of the schema and has an id that its document can go by. -/
structure Identified (s : Schema) (e : Entity) : Prop where
  type_eq : e.type = s.entityType
  id_eq : ∃ id, s.idOf e = some id ∧ id.isNull = false ∧ ∀ x, id = .float x → x.isFinite

theorem Identified.exists_text {s : Schema} {e : Entity} (h : s.Identified e) :
    ∃ d text, s.toDocument e = .ok d ∧
      (Dict.get? d Document.idKey).bind Document.idText? = some text := by
  obtain ⟨id, hid, hnull, hfinite⟩ := h.id_eq
  obtain ⟨d, hd, htext⟩ := s.exists_toDocument h.type_eq
  rw [addedId, (s.storedId_eq_some_iff e id).mpr ⟨hid, hnull⟩] at htext
  cases hsome : Document.idText? id.toJson with
  | none => exact absurd ((idText?_eq_none_iff _).mp hsome) (Value.toJson_ne_null hnull hfinite)
  | some text => exact ⟨d, text, hd, htext.trans hsome⟩

end Schema

namespace Collection

variable {c : Collection} {b : Backend σ} {documents : σ → Dict Document}

/-- Adding entities that have ids merges one entry for each that belongs in the index into the
documents, whatever the documents are. -/
theorem addAll_merges (hb : b.Upserts c.name documents) {entities : List Entity}
    (h : ∀ e ∈ entities, c.schema.shouldIndex e = true → c.schema.Identified e) :
    ∃ entries, List.Forall₂ (fun e entry => c.Stores e (.index c.name (some entry.1) entry.2))
        (entities.filter c.schema.shouldIndex) entries ∧
      ∀ session, ((c.addAll b entities).run.run session).1 = .ok entries.length ∧
        documents ((c.addAll b entities).run.run session).2.state =
          Dict.merge (documents session.state) entries := by
  induction entities with
  | nil => exact ⟨[], .nil, fun session => ⟨rfl, rfl⟩⟩
  | cons e entities ih =>
    obtain ⟨entries, hentries, hrun⟩ := ih fun e' he' => h e' (List.mem_cons_of_mem e he')
    cases hbelongs : c.schema.shouldIndex e with
    | false =>
      rw [List.filter_cons_of_neg (by simp [hbelongs])]
      refine ⟨entries, hentries, fun session => ?_⟩
      rw [c.addAll_declined b hbelongs]
      exact hrun session
    | true =>
      obtain ⟨d, text, hd, htext⟩ := (h e List.mem_cons_self hbelongs).exists_text
      have hstoring : c.storing d = .index c.name (some text) (d.erase Document.idKey) := by
        rw [storing, htext]
      rw [List.filter_cons_of_pos hbelongs]
      refine ⟨(text, d.erase Document.idKey) :: entries,
        .cons (hstoring ▸ c.stores_storing hd) hentries, fun session => ?_⟩
      have hanswer : (b.perform (c.storing d) session.state).1 = .ok () := by
        rw [hstoring, hb.answer_eq]
      have hinsert : documents (session.told b (c.storing d)).state =
          Dict.insert (documents session.state) text (d.erase Document.idKey) := by
        rw [Session.told, hstoring, hb.documents_eq]
      obtain ⟨hcount, hmerged⟩ := hrun (session.told b (c.storing d))
      rw [c.addAll_added b hbelongs hd hanswer]
      refine ⟨?_, ?_⟩
      · simp only [hcount]
        rfl
      · refine hmerged.trans ?_
        rw [hinsert]
        rfl

/-- A refresh merges the documents of the entities that belong in the index, in their order, into
any documents that are there, and counts these entities. A second refresh gives the same count and
leaves the documents as they are. -/
theorem refreshAll_again (c : Collection) (b : Backend σ) (documents : σ → Dict Document)
    (hb : b.Upserts c.name documents)
    (h : ∀ e ∈ c.schema.listing.getD [], c.schema.shouldIndex e = true → c.schema.Identified e)
    (session : Session σ) :
    let accepted := (c.schema.listing.getD []).filter c.schema.shouldIndex
    let once := (c.refreshAll b).run.run session
    let again := (c.refreshAll b).run.run once.2
    (∃ entries,
      List.Forall₂ (fun e entry => c.Stores e (.index c.name (some entry.1) entry.2)) accepted
        entries ∧
      documents once.2.state = Dict.merge (documents session.state) entries) ∧
    once.1 = .ok accepted.length ∧ again.1 = .ok accepted.length ∧
      documents again.2.state = documents once.2.state := by
  intro accepted once again
  obtain ⟨entries, hentries, hrun⟩ := addAll_merges hb h
  have hlength : accepted.length = entries.length := hentries.length_eq
  obtain ⟨honce, (hmerged : documents once.2.state = _)⟩ := hrun session
  obtain ⟨hagain, hmergedAgain⟩ := hrun once.2
  rw [hmerged, Dict.merge_merge_self] at hmergedAgain
  exact ⟨⟨entries, hentries, hmerged⟩, hlength ▸ honce, hlength ▸ hagain,
    hmergedAgain.trans hmerged.symm⟩

/-- Notes of which three share the text of their ids, and one does not belong in the index. -/
theorem refreshAll_again_notes :
    let c : Collection :=
      { schema :=
          { entityType := "Note", fields := [{ name := "title", kind := .string }]
            id := some (Accessor.field "number")
            belongs := some fun e => (e.get? "title").isSome
            listing := some [
              ⟨"Note", [("title", .str "Tide"), ("number", .int 7)]⟩,
              ⟨"Note", [("title", .str "Ebb"), ("number", .bool true)]⟩,
              ⟨"Draft", [("number", .str "7")]⟩,
              ⟨"Note", [("title", .str "Flood"), ("number", .str "7")]⟩,
              ⟨"Note", [("title", .str "Neap"), ("number", .int 7)]⟩] } }
    let session : Session Store :=
      { state := { documents := [("true", []), ("8", [("title", .str "Surf")])] } }
    let once := (c.refreshAll Store.backend).run.run session
    let again := (c.refreshAll Store.backend).run.run once.2
    once.1 = .ok 4 ∧ again.1 = .ok 4 ∧
      once.2.state.documents.keys = ["true", "8", "7"] ∧
      again.2.state.documents = once.2.state.documents := by
  intro c session once again
  have h : ∀ e ∈ c.schema.listing.getD [], c.schema.shouldIndex e = true →
      c.schema.Identified e := by
    simp only [c, Option.getD_some, List.forall_mem_cons]
    refine ⟨fun _ => ⟨rfl, _, rfl, rfl, nofun⟩, fun _ => ⟨rfl, _, rfl, rfl, nofun⟩,
      fun hbelongs => absurd hbelongs (by decide), fun _ => ⟨rfl, _, rfl, rfl, nofun⟩,
      fun _ => ⟨rfl, _, rfl, rfl, nofun⟩, nofun⟩
  obtain ⟨-, honce, hagain, hsame⟩ :=
    c.refreshAll_again Store.backend Store.documents (Store.upserts c.name) h session
  exact ⟨honce, hagain, by decide +kernel, hsame⟩

end Collection

end Catalogue
