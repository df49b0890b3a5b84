import Catalogue.Proofs.Collection.Calls
import Catalogue.Proofs.Collection.History
import Catalogue.Proofs.Paging.StoreStream
import Mathlib.Data.List.Forall2

/-!
# A collection is a dictionary of entities

A collection over a store goes through any additions and removals like a dictionary from ids to
entities. `Collection.documents_afterUpdates` : the store has the stored fields of what
`Schema.live` has, in the same order. `Collection.search_afterUpdates` : so a search for everything
gives the latest version of each id that was not removed, in the order in which the ids came.
-/

namespace Catalogue

/-- An entity that a collection can give back : it has a text as its id, and its values come back
from their documents. -/
structure Schema.Storable (s : Schema) (e : Entity) : Prop where
  type_eq : e.type = s.entityType
  id_eq : ∃ i, i ≠ "" ∧ s.idOf e = some (.str i)
  keeps : ∀ f ∈ s.fields, ∀ value, e.get? f.name = some value → (s.property f).Keeps value

/-- The two entities have the same id and the same declared fields, set or not. -/
def Schema.SameDeclared (s : Schema) (e row : Entity) : Prop :=
  row.type = e.type ∧ s.idOf row = s.idOf e ∧ ∀ f ∈ s.fields, row.get? f.name = e.get? f.name

namespace Collection

variable {σ : Type} (c : Collection)

/-! ## Updates of the store -/

/-- The session after an update, whether it succeeds or not. -/
def afterUpdate (b : Backend σ) (session : Session σ) : Update → Session σ
  | .add e => ((c.add b e).run.run session).2
  | .remove e => ((c.remove b e).run.run session).2

/-- The session after updates one by one. -/
def afterUpdates (b : Backend σ) (session : Session σ) (updates : List Update) : Session σ :=
  updates.foldl (c.afterUpdate b) session

theorem afterUpdates_append_singleton (b : Backend σ) (session : Session σ)
    (updates : List Update) (u : Update) :
    c.afterUpdates b session (updates ++ [u]) =
      c.afterUpdate b (c.afterUpdates b session updates) u := by
  rw [afterUpdates, List.foldl_append]
  rfl

variable {c} {e : Entity} {i : String}

theorem storing_document (hs : c.schema.Direct) (hid : c.schema.idOf e = some (.str i)) :
    c.storing (c.schema.document e) = .index c.name (some i) (c.schema.storedFields e) := by
  have hstored : c.schema.storedId e = some (.str i) :=
    (c.schema.storedId_eq_some_iff e (.str i)).mpr ⟨hid, rfl⟩
  have hnone : Dict.get? (c.schema.storedFields e) Document.idKey = none :=
    Schema.get?_storedFields_eq_none e hs.idKey_not_mem
  have hdocument : c.schema.document e =
      c.schema.storedFields e ++ [(Document.idKey, .str i)] := by
    rw [Schema.document, hstored]
    rfl
  have hget : Dict.get? (c.schema.document e) Document.idKey = some (.str i) := by
    rw [hdocument, Dict.get?_append, hnone, Option.none_or, Dict.get?_cons, if_pos rfl]
  have herase : Dict.erase (c.schema.document e) Document.idKey = c.schema.storedFields e := by
    rw [hdocument, Dict.erase_append_singleton ((Dict.get?_eq_none_iff _ _).mp hnone)]
  rw [storing, hget, herase]
  rfl

theorem documentId_eq_ok (hne : i ≠ "") (hid : c.schema.idOf e = some (.str i)) :
    c.schema.documentId e = .ok i := by
  simp [Schema.documentId, hid, Value.toText?, Option.filter, hne]

/-- One update changes the store as it changes the dictionary. -/
theorem documents_afterUpdate (hs : c.schema.Direct) {u : Update}
    (hu : c.schema.Storable u.entity) {live : Dict Entity} {session : Session Store}
    (h : session.state.documents = live.mapValues c.schema.storedFields) :
    (c.afterUpdate Store.backend session u).state.documents =
      Dict.mapValues c.schema.storedFields (c.schema.liveStep live u) := by
  obtain ⟨htype, ⟨i, hne, hid⟩, -⟩ := hu
  have hkey := (c.schema.key?_eq_some_iff u.entity i).mpr hid
  cases u with
  | add e =>
    simp only [Update.entity] at htype hid hkey
    rw [Schema.liveStep, hkey]
    by_cases haccepts : c.schema.shouldIndex e = true
    · have hdocument := Schema.toDocument_eq_ok hs.idKey_not_mem htype
      rw [afterUpdate, c.add_eq Store.backend haccepts hdocument, storing_document hs hid]
      simp only [if_pos haccepts, Dict.mapValues_insert, ← h]
      rfl
    · simp only [if_neg haccepts, ← h]
      rw [afterUpdate, c.add_declined Store.backend (Bool.not_eq_true _ ▸ haccepts)]
  | remove e =>
    simp only [Update.entity] at hid hkey
    rw [Schema.liveStep, hkey, afterUpdate, c.remove_eq Store.backend
      (documentId_eq_ok hne hid)]
    simp only
    rw [Dict.mapValues_filter c.schema.storedFields live fun key => key ≠ i, ← h]
    rfl

/-- A history changes the store as it changes the dictionary. -/
theorem documents_afterUpdates (hs : c.schema.Direct) {updates : List Update}
    (hu : ∀ u ∈ updates, c.schema.Storable u.entity) {session : Session Store}
    (h : session.state.documents = []) :
    (c.afterUpdates Store.backend session updates).state.documents =
      Dict.mapValues c.schema.storedFields (c.schema.live updates) := by
  induction updates using List.reverseRecOn with
  | nil => exact h
  | append_singleton updates u ih =>
    rw [afterUpdates_append_singleton, Schema.live_append_singleton]
    refine documents_afterUpdate hs (hu u (by simp)) (ih fun v hv => hu v ?_)
    exact List.mem_append_left _ hv

/-! ## Rows of a search -/

/-- The entity that a search gives for a stored document. -/
def rowOf (c : Collection) (entry : String × Document) : Entity :=
  match c.entityOf (Store.hit entry) with
  | .ok row => row
  | .error _ => c.schema.blank

/-- A stored document gives back the entity that it was made from. -/
theorem entityOf_hit (hs : c.schema.Direct) (he : c.schema.Storable e)
    (hid : c.schema.idOf e = some (.str i)) :
    ∃ row, c.entityOf (Store.hit (i, c.schema.storedFields e)) = .ok row ∧
      c.schema.SameDeclared e row := by
  have hstored : c.schema.storedId e = some (.str i) :=
    (c.schema.storedId_eq_some_iff e (.str i)).mpr ⟨hid, rfl⟩
  have hkey : Dict.get? (Store.hit (i, c.schema.storedFields e)).toDocument Document.idKey =
      (c.schema.storedId e).map Value.toJson := by
    rw [hstored]
    rfl
  have hplain : ∀ id, c.schema.storedId e = some id → Value.ofJson id.toJson = id := by
    intro id h
    obtain rfl := Option.some.inj (hstored.symm.trans h)
    rfl
  obtain ⟨row, hrow, hrestores⟩ :=
    Schema.restores_of_document hs (fun _ _ => rfl) hkey he.keeps hplain
  refine ⟨row, by rw [entityOf, hrow]; rfl, ?_, ?_, fun f hf => ?_⟩
  · rw [hrestores.1, he.type_eq]
  · rw [hrestores.idOf_eq hs hstored, hid]
  · rw [hrestores.2, if_pos (List.mem_map.mpr ⟨f, hf, rfl⟩)]

/-- A search for everything starts at the first page, with pages of the size that the settings say,
and its rows are the entities of the hits. -/
theorem search_empty (c : Collection) :
    ∃ pager, c.search Query.empty = .ok pager ∧ pager.pageNumber = 1 ∧
      pager.pageSize = c.settings.effectivePageSize none ∧ pager.plan.row = c.entityOf :=
  ⟨_, rfl, rfl, rfl, rfl⟩

/-- Whatever a history leaves in the store can be read back. -/
theorem entityOf_hit_of_mem (hs : c.schema.Direct) {updates : List Update}
    (hu : ∀ u ∈ updates, c.schema.Storable u.entity) :
    ∀ entry ∈ c.schema.live updates, ∃ row,
      c.entityOf (Store.hit (entry.1, c.schema.storedFields entry.2)) = .ok row ∧
        c.schema.SameDeclared entry.2 row := by
  rintro ⟨i, e⟩ hentry
  have hget := Dict.get?_of_mem (c.schema.nodup_keys_live updates) hentry
  obtain ⟨before, after, rfl, ⟨-, hid⟩, -⟩ := (c.schema.get?_live_eq_some_iff updates i e).mp hget
  exact entityOf_hit hs (hu (.add e) (by simp)) hid

theorem entityOf_hit_eq_rowOf (hs : c.schema.Direct) {updates : List Update}
    (hu : ∀ u ∈ updates, c.schema.Storable u.entity) {session : Session Store}
    (hempty : session.state.documents = []) :
    ∀ entry ∈ (c.afterUpdates Store.backend session updates).state.documents,
      c.entityOf (Store.hit entry) = .ok (c.rowOf entry) := by
  rw [documents_afterUpdates hs hu hempty]
  intro entry hentry
  obtain ⟨stored, hstored, rfl⟩ := List.mem_map.mp hentry
  obtain ⟨row, hrow, -⟩ := entityOf_hit_of_mem hs hu stored hstored
  rw [rowOf, hrow]

/-- After any additions and removals a search for everything gives one row for each id that is still
there, in the order in which the ids came to stay, and the row has the id and the declared fields of
the latest version. The store may report its size in any way ; the number of ids is bounded because
sizes have 64 bits, and that of their pages because the numbers of pages have. -/
theorem search_afterUpdates (c : Collection) (hs : c.schema.Direct) (updates : List Update)
    (hu : ∀ u ∈ updates, c.schema.Storable u.entity) (session : Session Store)
    (hempty : session.state.documents = []) (hlen : (c.schema.live updates).length < sizeBound)
    (hpages :
      (c.schema.live updates).length / c.settings.effectivePageSize none + 2 < sizeBound) :
    let live := c.schema.live updates
    live.keys.Nodup ∧ (∀ i e, (i, e) ∈ live ↔ c.schema.Latest updates i e) ∧
      c.schema.InOrder updates live.keys ∧
      ∃ pager rows, c.search Query.empty = .ok pager ∧
        List.Forall₂ (fun entry row => c.schema.SameDeclared entry.2 row) live rows ∧
        ∀ n, ∃ rest, ((pager.stream.items Store.backend n).run.run
            (c.afterUpdates Store.backend session updates)).1 =
          .ok ((rows.map (fun row => some (Except.ok row)) ++ [none]).take n, rest) := by
  intro live
  have hdocuments := documents_afterUpdates hs hu hempty
  have hstore : (c.afterUpdates Store.backend session updates).state.documents.length =
      live.length := by
    rw [hdocuments, Dict.mapValues, List.length_map]
  have hrows := entityOf_hit_of_mem hs hu
  obtain ⟨pager, hpager, hnumber, hsize, hrow⟩ := c.search_empty
  refine ⟨c.schema.nodup_keys_live updates, fun i e => ?_, c.schema.inOrder_live updates, pager,
    live.map fun entry => c.rowOf (entry.1, c.schema.storedFields entry.2), hpager, ?_,
    fun n => ?_⟩
  · rw [← c.schema.get?_live_eq_some_iff updates i e]
    exact ⟨Dict.get?_of_mem (c.schema.nodup_keys_live updates), Dict.mem_of_get?⟩
  · rw [List.forall₂_map_right_iff, List.forall₂_same]
    intro entry hentry
    obtain ⟨row, hrow, hsame⟩ := hrows entry hentry
    rwa [rowOf, hrow]
  · have hgives := RowStream.gives_stream pager
      (c.afterUpdates Store.backend session updates).state hnumber (hstore ▸ hlen)
      (by rwa [hstore, hsize]) (hrow ▸ entityOf_hit_eq_rowOf hs hu hempty)
    have hmap : (c.afterUpdates Store.backend session updates).state.documents.map c.rowOf =
        live.map fun entry => c.rowOf (entry.1, c.schema.storedFields entry.2) := by
      rw [hdocuments, Dict.mapValues, List.map_map]
      rfl
    exact hmap ▸ hgives.items _ n

/-- Two notes, of which the first one is removed and comes back with another text. -/
theorem search_afterUpdates_notes :
    let c : Collection :=
      { schema :=
          { entityType := "Note"
            declaredAnalyzers := [("list", .commaSeparated)]
            fields := [
              { name := "title", kind := .string },
              { name := "tags", kind := .string, analyzerName := "list" }]
            id := some (Accessor.field "number") } }
    let note (number title : String) : Entity :=
      ⟨"Note", [("number", .str number), ("title", .str title), ("tags", .list [.str "sea"])]⟩
    let updates := [Update.add (note "1" "Tide"), .add (note "2" "Ebb"), .remove (note "1" ""),
      .add (note "1" "Flow")]
    let session : Session Store := { state := { totals := .omitted } }
    ∃ pager rows, c.search Query.empty = .ok pager ∧
      List.Forall₂ c.schema.SameDeclared [note "2" "Ebb", note "1" "Flow"] rows ∧
      ∀ n, ∃ rest, ((pager.stream.items Store.backend n).run.run
          (c.afterUpdates Store.backend session updates)).1 =
        .ok ((rows.map (fun row => some (Except.ok row)) ++ [none]).take n, rest) := by
  intro c note updates session
  have hs : c.schema.Direct := by
    refine ⟨by decide, by decide, by decide, ?_, ?_, rfl⟩
    · intro f hf
      simp only [c, List.mem_cons, List.not_mem_nil, or_false] at hf
      rcases hf with rfl | rfl <;> rfl
    · intro a ha
      exact ⟨"number", (Option.some.inj ha).symm⟩
  have hnote : ∀ number title, number ≠ "" → c.schema.Storable (note number title) := by
    intro number title hne
    refine ⟨rfl, ⟨number, hne, rfl⟩, fun f hf value hv => ?_⟩
    simp only [c, List.mem_cons, List.not_mem_nil, or_false] at hf
    rcases hf with rfl | rfl
    · obtain rfl := Option.some.inj hv
      rfl
    · obtain rfl := Option.some.inj hv
      refine Property.keeps_of_restorable (Or.inr ⟨["sea"], Or.inr ⟨by decide, ?_⟩, rfl⟩)
      decide +kernel
  have hu : ∀ u ∈ updates, c.schema.Storable u.entity := by
    intro u hmem
    simp only [updates, List.mem_cons, List.not_mem_nil, or_false] at hmem
    rcases hmem with rfl | rfl | rfl | rfl <;> exact hnote _ _ (by decide)
  have hlive : c.schema.live updates = [("2", note "2" "Ebb"), ("1", note "1" "Flow")] := rfl
  have hlen : (c.schema.live updates).length < sizeBound := by
    rw [hlive]
    decide
  have hpages :
      (c.schema.live updates).length / c.settings.effectivePageSize none + 2 < sizeBound := by
    rw [hlive]
    decide
  obtain ⟨-, -, -, pager, rows, hpager, hrows, hitems⟩ :=
    c.search_afterUpdates hs updates hu session rfl hlen hpages
  rw [hlive] at hrows
  exact ⟨pager, rows, hpager, List.forall₂_map_left_iff.mpr hrows, hitems⟩

end Collection

end Catalogue
