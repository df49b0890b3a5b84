import Catalogue.Backend.Response
import Catalogue.Proofs.Lists

/-!
# Answers of a backend, exactly

`Response.WrittenAs` says which JSON describes a response. Records stand as objects, among other
keys, or as lists of their first fields (`Json.Record.Fields`), and a field that may be left out has
its default where it is not there (`Json.Record.Defaulted`). From this the forms of a hit, of the
counts of shards, of a total, of a page and of the whole answer are put together, one relation for
each.

Each reader reads what its relation describes and nothing else (`Hit.ofJson?_eq_some_iff` and the
ones after it). So an answer gives the response that it describes, with all hits in order, or it is
malformed as a whole : one hit in which a field has the wrong kind is enough (`Response.Spoilt`).
-/

namespace Catalogue

/-! ## Records -/

namespace Json

section Forms

variable {α : Type}

/-- The value is written by `write`. -/
def Is (write : α → Json) (a : α) (value : Json) : Prop :=
  value = write a

/-- The value is an integer from `0` up to but not including `bound`. -/
def IsBelow (bound n : Nat) (value : Json) : Prop :=
  value = .int n ∧ n < bound

/-- The value is a number, taken as a floating point number. -/
inductive IsNumber : Binary64 → Json → Prop
  | int (n : Int) : IsNumber (Binary64.ofInt n) (.int n)
  | float (x : Binary64) : IsNumber x (.float x)

/-- The value is null, or it has the form. -/
inductive OrNull (Form : α → Json → Prop) : Option α → Json → Prop
  | null : OrNull Form none .null
  | value {a : α} {value : Json} (h : Form a value) : OrNull Form (some a) value

/-- The value is a list whose items have the form, in order. -/
def IsListOf (Form : α → Json → Prop) (members : List α) (value : Json) : Prop :=
  ∃ items, value = .arr items ∧ List.Forall₂ Form members items

end Forms

theorem str?_eq_some_iff (value : Json) (s : String) : value.str? = some s ↔ Is .str s value := by
  cases value <;> simp [str?, Is]

theorem bool?_eq_some_iff (value : Json) (b : Bool) : value.bool? = some b ↔ Is .bool b value := by
  cases value <;> simp [bool?, Is]

theorem obj?_eq_some_iff (value : Json) (entries : Object) :
    value.obj? = some entries ↔ Is .obj entries value := by
  cases value <;> simp [obj?, Is]

theorem natBelow?_eq_some_iff (bound : Nat) (value : Json) (n : Nat) :
    value.natBelow? bound = some n ↔ IsBelow bound n value := by
  cases value with
  | int k =>
    simp only [natBelow?, IsBelow, Json.int.injEq, Option.ite_none_right_eq_some, Option.some.injEq]
    omega
  | _ => simp [natBelow?, IsBelow]

theorem float?_eq_some_iff (value : Json) (x : Binary64) :
    value.float? = some x ↔ IsNumber x value := by
  constructor
  · intro h
    cases value with
    | int n =>
      obtain rfl := Option.some.inj h
      exact .int n
    | float y =>
      obtain rfl := Option.some.inj h
      exact .float y
    | _ => cases h
  · rintro (_ | _) <;> rfl

namespace Record

/-- The fields of a record with the fields `names`, as they are written : an object is taken as it
is, and the items of a list belong to the first names. -/
inductive Fields (names : List String) : Json → Object → Prop
  | keyed (entries : Object) : Fields names (.obj entries) entries
  | listed {items : List Json} (h : items.length ≤ names.length) :
    Fields names (.arr items) (names.zip items)

/-- The value, where there is one, has the form, and where there is none, the default is
described. -/
inductive Defaulted {α : Type} (Form : α → Json → Prop) (default : α) : α → Option Json → Prop
  | leftOut : Defaulted Form default default none
  | present {a : α} {value : Json} (h : Form a value) : Defaulted Form default a (some value)

@[simp] theorem defaulted_none_iff {α : Type} {Form : α → Json → Prop} {default a : α} :
    Defaulted Form default a none ↔ a = default :=
  ⟨fun h => by cases h; rfl, fun h => h ▸ .leftOut⟩

@[simp] theorem defaulted_some_iff {α : Type} {Form : α → Json → Prop} {default a : α}
    {value : Json} : Defaulted Form default a (some value) ↔ Form a value :=
  ⟨fun h => by cases h; assumption, .present⟩

theorem map_get?_zip {names : List String} (hnames : names.Nodup) {items : List Json}
    (h : items.length ≤ names.length) :
    names.map (fun name => Dict.get? (names.zip items) name) =
      items.map some ++ List.replicate (names.length - items.length) none := by
  induction names generalizing items with
  | nil =>
    obtain rfl := List.length_eq_zero_iff.mp (Nat.le_zero.mp h)
    rfl
  | cons name rest ih =>
    obtain ⟨hname, hrest⟩ := List.nodup_cons.mp hnames
    cases items with
    | nil => simp [List.replicate_succ, List.map_const']
    | cons item items =>
      -- The first item is not found under a later name.
      have hlater : rest.map (fun other => Dict.get? ((name, item) :: rest.zip items) other) =
          rest.map (fun other => Dict.get? (rest.zip items) other) :=
        List.map_congr_left fun other hother => by
          have hne : name ≠ other := fun heq => hname (heq ▸ hother)
          rw [Dict.get?_cons, if_neg hne]
      rw [List.zip_cons_cons, List.map_cons, hlater, ih hrest (Nat.le_of_succ_le_succ h),
        Dict.get?_cons, if_pos rfl, List.map_cons, List.length_cons, List.length_cons,
        Nat.add_sub_add_right, List.cons_append]

/-- A record is read from its fields, whichever way they are written. -/
theorem read?_bind_eq_some_iff {α : Type} {names : List String} (hnames : names.Nodup) {json : Json}
    {read : Record → Option α} {a : α} :
    (read? names json).bind read = some a ↔ ∃ fields, Fields names json fields ∧
      read ⟨json.arr?.isSome, names.map fun name => Dict.get? fields name⟩ = some a := by
  constructor
  · intro h
    cases json with
    | obj entries => exact ⟨entries, .keyed entries, h⟩
    | arr items =>
      by_cases hlength : items.length ≤ names.length
      · refine ⟨names.zip items, .listed hlength, ?_⟩
        rw [read?, if_pos hlength] at h
        rw [map_get?_zip hnames hlength]
        exact h
      · rw [read?, if_neg hlength] at h
        cases h
    | _ => cases h
  · rintro ⟨fields, hfields, h⟩
    cases hfields with
    | keyed => exact h
    | listed hlength =>
      rw [map_get?_zip hnames hlength] at h
      rw [read?, if_pos hlength]
      exact h

section Readers

variable {α : Type} {read : Json → Option α} {Form : α → Json → Prop}
  (hread : ∀ value a, read value = some a ↔ Form a value)
include hread

theorem withDefault_eq_some_iff (r : Record) (i : Nat) (default a : α) :
    r.withDefault i read default = some a ↔ Defaulted Form default a (r.field? i) := by
  unfold withDefault
  cases r.field? i with
  | none => rw [defaulted_none_iff, Option.some.injEq, eq_comm]
  | some value => rw [defaulted_some_iff, hread]

theorem nullable_eq_some_iff (hnull : read .null = none) (value : Json) (a : Option α) :
    nullable read value = some a ↔ OrNull Form a value := by
  have hvalue (h : value ≠ .null) : nullable read value = (read value).map some := by
    cases value <;> first | rfl | exact absurd rfl h
  constructor
  · intro h
    by_cases heq : value = .null
    · subst heq
      cases h
      exact .null
    · rw [hvalue heq] at h
      obtain ⟨b, hb, rfl⟩ := Option.map_eq_some_iff.mp h
      exact .value ((hread value b).mp hb)
  · rintro (_ | h)
    · rfl
    · have hsome := (hread value _).mpr h
      have hne : value ≠ .null := by
        rintro rfl
        rw [hnull] at hsome
        cases hsome
      rw [hvalue hne, hsome, Option.map_some]

/-- Only an object leaves out a field without a default. -/
theorem optional_eq_some_iff (hnull : read .null = none) (r : Record) (i : Nat) (a : Option α) :
    r.optional i read = some a ↔ (r.positional = true → r.field? i ≠ none) ∧
      Defaulted (OrNull Form) none a (r.field? i) := by
  have hsome := withDefault_eq_some_iff (nullable_eq_some_iff hread hnull) r i none a
  rw [← hsome, optional, withDefault]
  cases r.field? i with
  | none => cases r.positional <;> simp
  | some value => simp

theorem arr?_bind_mapM_eq_some_iff (value : Json) (members : List α) :
    value.arr?.bind (fun items => items.mapM read) = some members ↔ IsListOf Form members value := by
  have hitems (items : List Json) :
      items.mapM read = some members ↔ List.Forall₂ Form members items := by
    rw [mapM_eq_some_iff_forall₂]
    simp only [hread]
  cases value <;> simp [arr?, IsListOf, hitems]

end Readers

end Record

end Json

open Json Json.Record

/-! ## Hits -/

namespace Hit

/-- The fields describe the hit. -/
structure HeldBy (hit : Hit) (fields : Object) : Prop where
  id : Defaulted (Is .str) "" hit.id (Dict.get? fields "_id")
  score : Defaulted (OrNull IsNumber) none hit.score (Dict.get? fields "_score")
  source : Defaulted (Is .obj) [] hit.source (Dict.get? fields "_source")

/-- The JSON describes the hit. -/
def WrittenAs (hit : Hit) (json : Json) : Prop :=
  ∃ fields, Fields ["_id", "_score", "_source"] json fields ∧ hit.HeldBy fields

theorem ofJson?_eq_some_iff (json : Json) (hit : Hit) :
    ofJson? json = some hit ↔ hit.WrittenAs json := by
  rw [ofJson?, Option.bind_eq_bind, read?_bind_eq_some_iff (by decide)]
  refine exists_congr fun fields => and_congr_right fun _ => ?_
  simp only [Option.bind_eq_bind, Option.bind_eq_some_iff, withDefault_eq_some_iff str?_eq_some_iff,
    withDefault_eq_some_iff (nullable_eq_some_iff float?_eq_some_iff rfl),
    withDefault_eq_some_iff obj?_eq_some_iff]
  constructor
  · rintro ⟨id, hid, score, hscore, source, hsource, ⟨⟩⟩
    exact ⟨hid, hscore, hsource⟩
  · rintro ⟨hid, hscore, hsource⟩
    exact ⟨_, hid, _, hscore, _, hsource, rfl⟩

/-- What is written describes the hit. -/
theorem writtenAs_toJson (hit : Hit) : hit.WrittenAs hit.toJson := by
  refine ⟨_, .keyed _, .present rfl, .present ?_, .present rfl⟩
  cases hit.score with
  | none => exact .null
  | some x => exact .value (.float x)

/-- An object whose id is not a text, or whose stored fields are not an object. -/
inductive Spoilt : Json → Prop
  | id {entries : Object} {value : Json} (hvalue : Dict.get? entries "_id" = some value)
      (hkind : value.str? = none) : Spoilt (.obj entries)
  | source {entries : Object} {value : Json} (hvalue : Dict.get? entries "_source" = some value)
      (hkind : value.obj? = none) : Spoilt (.obj entries)

theorem Spoilt.not_writtenAs {json : Json} (h : Spoilt json) (hit : Hit) : ¬hit.WrittenAs json := by
  rintro ⟨fields, hfields, hheld⟩
  cases h with
  | id hvalue hkind =>
    cases hfields
    have hid := hheld.id
    rw [hvalue, defaulted_some_iff, ← str?_eq_some_iff, hkind] at hid
    cases hid
  | source hvalue hkind =>
    cases hfields
    have hsource := hheld.source
    rw [hvalue, defaulted_some_iff, ← obj?_eq_some_iff, hkind] at hsource
    cases hsource

end Hit

/-! ## Counts -/

namespace ShardCounts

/-- The fields describe the counts. -/
structure HeldBy (counts : ShardCounts) (fields : Object) : Prop where
  total : Defaulted (IsBelow Word.bound32) 0 counts.total (Dict.get? fields "total")
  successful : Defaulted (IsBelow Word.bound32) 0 counts.successful (Dict.get? fields "successful")
  skipped : Defaulted (IsBelow Word.bound32) 0 counts.skipped (Dict.get? fields "skipped")
  failed : Defaulted (IsBelow Word.bound32) 0 counts.failed (Dict.get? fields "failed")

/-- The JSON describes the counts. -/
def WrittenAs (counts : ShardCounts) (json : Json) : Prop :=
  ∃ fields, Fields ["total", "successful", "skipped", "failed"] json fields ∧ counts.HeldBy fields

theorem ofJson?_eq_some_iff (json : Json) (counts : ShardCounts) :
    ofJson? json = some counts ↔ counts.WrittenAs json := by
  rw [ofJson?, Option.bind_eq_bind, read?_bind_eq_some_iff (by decide)]
  refine exists_congr fun fields => and_congr_right fun _ => ?_
  simp only [Option.bind_eq_bind, Option.bind_eq_some_iff,
    withDefault_eq_some_iff (natBelow?_eq_some_iff _)]
  constructor
  · rintro ⟨total, htotal, successful, hsuccessful, skipped, hskipped, failed, hfailed, ⟨⟩⟩
    exact ⟨htotal, hsuccessful, hskipped, hfailed⟩
  · rintro ⟨htotal, hsuccessful, hskipped, hfailed⟩
    exact ⟨_, htotal, _, hsuccessful, _, hskipped, _, hfailed, rfl⟩

end ShardCounts

namespace MatchCount

/-- The JSON describes the total : a number is exact, and an object says by its relation whether its
number is. -/
inductive WrittenAs : MatchCount → Json → Prop
  | number {n : Nat} (h : n < Word.bound64) : WrittenAs ⟨n, true⟩ (.int n)
  | related {n : Nat} {relation : String} {entries : Object} (h : n < Word.bound64)
      (hvalue : Dict.get? entries "value" = some (.int n))
      (hrelation : Dict.get? entries "relation" = some (.str relation)) :
    WrittenAs ⟨n, relation == "eq"⟩ (.obj entries)

theorem ofJson?_eq_some_iff (json : Json) (m : MatchCount) :
    ofJson? json = some m ↔ m.WrittenAs json := by
  constructor
  · intro h
    unfold ofJson? at h
    split at h
    · split at h
      case h_1 value relation hvalue hrelation =>
        obtain ⟨n, hn, rfl⟩ := Option.map_eq_some_iff.mp h
        obtain ⟨rfl, hbound⟩ := (natBelow?_eq_some_iff _ _ _).mp hn
        exact .related hbound hvalue hrelation
      case h_2 => cases h
    · obtain ⟨n, hn, rfl⟩ := Option.map_eq_some_iff.mp h
      obtain ⟨rfl, hbound⟩ := (natBelow?_eq_some_iff _ _ _).mp hn
      exact .number hbound
  · have hread {n : Nat} (h : n < Word.bound64) :
        Json.natBelow? Word.bound64 (.int n) = some n := (natBelow?_eq_some_iff _ _ _).mpr ⟨rfl, h⟩
    rintro (h | ⟨h, hvalue, hrelation⟩)
    · rw [ofJson?, hread h, Option.map_some]
      exact nofun
    · simp only [ofJson?, hvalue, hrelation, hread h, Option.map_some]

/-- A text, a number that is negative or not an integer, or an object without a number or without a
relation. -/
inductive Spoilt : Json → Prop
  | text (s : String) : Spoilt (.str s)
  | negative {n : Int} (h : n < 0) : Spoilt (.int n)
  | float (x : Binary64) : Spoilt (.float x)
  | noValue {entries : Object} (h : Dict.get? entries "value" = none) : Spoilt (.obj entries)
  | noRelation {entries : Object} (h : Dict.get? entries "relation" = none) : Spoilt (.obj entries)

theorem Spoilt.not_writtenAs {json : Json} (h : Spoilt json) (m : MatchCount) :
    ¬m.WrittenAs json := by
  rintro (_ | ⟨-, hvalue, hrelation⟩)
  · cases h
    omega
  · cases h with
    | noValue hnone => cases hvalue.symm.trans hnone
    | noRelation hnone => cases hrelation.symm.trans hnone

end MatchCount

/-! ## Pages -/

namespace HitList

/-- The fields describe the hits and their total. -/
structure HeldBy (page : HitList) (fields : Object) : Prop where
  total : Defaulted (OrNull MatchCount.WrittenAs) none page.total (Dict.get? fields "total")
  hits : Defaulted (IsListOf Hit.WrittenAs) [] page.hits (Dict.get? fields "hits")

/-- The JSON describes the hits and their total. Only an object may leave out the total. -/
def WrittenAs (page : HitList) (json : Json) : Prop :=
  ∃ fields, Fields ["total", "hits"] json fields ∧ json ≠ .arr [] ∧ page.HeldBy fields

theorem ofJson?_eq_some_iff (json : Json) (page : HitList) :
    ofJson? json = some page ↔ page.WrittenAs json := by
  rw [ofJson?, Option.bind_eq_bind, read?_bind_eq_some_iff (by decide)]
  refine exists_congr fun fields => and_congr_right fun hfields => ?_
  have hgiven : (json.arr?.isSome = true → Dict.get? fields "total" ≠ none) ↔ json ≠ .arr [] := by
    cases hfields with
    | keyed => simp [arr?]
    | @listed items => cases items <;> simp [arr?, Dict.get?_cons]
  simp only [Option.bind_eq_bind, Option.bind_eq_some_iff,
    optional_eq_some_iff MatchCount.ofJson?_eq_some_iff rfl,
    withDefault_eq_some_iff (arr?_bind_mapM_eq_some_iff Hit.ofJson?_eq_some_iff)]
  constructor
  · rintro ⟨total, ⟨hlisted, htotal⟩, hits, hhits, ⟨⟩⟩
    exact ⟨hgiven.mp hlisted, htotal, hhits⟩
  · rintro ⟨hlisted, htotal, hhits⟩
    exact ⟨_, ⟨hgiven.mpr hlisted, htotal⟩, _, hhits, rfl⟩

/-- An object with a hit or a total that is spoilt. -/
inductive Spoilt : Json → Prop
  | hit {entries : Object} {items : List Json} {item : Json}
      (hitems : Dict.get? entries "hits" = some (.arr items)) (hmem : item ∈ items)
      (h : Hit.Spoilt item) : Spoilt (.obj entries)
  | total {entries : Object} {value : Json} (hvalue : Dict.get? entries "total" = some value)
      (h : MatchCount.Spoilt value) : Spoilt (.obj entries)

theorem Spoilt.not_writtenAs {json : Json} (h : Spoilt json) (page : HitList) :
    ¬page.WrittenAs json := by
  rintro ⟨fields, hfields, -, hheld⟩
  cases h with
  | hit hitems hmem hspoilt =>
    cases hfields
    have hhits := hheld.hits
    rw [hitems, defaulted_some_iff] at hhits
    obtain ⟨_, ⟨⟩, hall⟩ := hhits
    obtain ⟨i, hi, rfl⟩ := List.getElem_of_mem hmem
    exact hspoilt.not_writtenAs _ (hall.get (hall.length_eq ▸ hi) hi)
  | total hvalue hspoilt =>
    cases hfields
    have htotal := hheld.total
    rw [hvalue, defaulted_some_iff] at htotal
    generalize page.total = found at htotal
    cases htotal with
    | null => cases hspoilt
    | value hwritten => exact hspoilt.not_writtenAs _ hwritten

end HitList

/-! ## Answers -/

namespace Response

/-- The fields describe the response. Without a total it is the number of hits, and not exact. -/
structure HeldBy (response : Response) (fields : Object) : Prop where
  took : Defaulted (IsBelow Word.bound64) 0 response.took (Dict.get? fields "took")
  timedOut : Defaulted (Is .bool) false response.timedOut (Dict.get? fields "timed_out")
  shards : Defaulted ShardCounts.WrittenAs {} response.shards (Dict.get? fields "_shards")
  page : ∃ total, Defaulted HitList.WrittenAs {} ⟨total, response.hits⟩ (Dict.get? fields "hits") ∧
    ⟨response.total, response.totalIsExact⟩ = total.getD ⟨response.hits.length, false⟩

/-- The JSON describes the response. -/
def WrittenAs (response : Response) (json : Json) : Prop :=
  ∃ fields, Fields ["took", "timed_out", "_shards", "hits"] json fields ∧ response.HeldBy fields

theorem ofJson?_eq_some_iff (json : Json) (response : Response) :
    ofJson? json = some response ↔ response.WrittenAs json := by
  rw [ofJson?, Option.bind_eq_bind, read?_bind_eq_some_iff (by decide)]
  refine exists_congr fun fields => and_congr_right fun _ => ?_
  simp only [Option.bind_eq_bind, Option.bind_eq_some_iff,
    withDefault_eq_some_iff (natBelow?_eq_some_iff _), withDefault_eq_some_iff bool?_eq_some_iff,
    withDefault_eq_some_iff ShardCounts.ofJson?_eq_some_iff,
    withDefault_eq_some_iff HitList.ofJson?_eq_some_iff]
  constructor
  · rintro ⟨took, htook, timedOut, htimedOut, shards, hshards, page, hpage, ⟨⟩⟩
    exact ⟨htook, htimedOut, hshards, page.total, hpage, rfl⟩
  · rintro ⟨htook, htimedOut, hshards, total, hpage, htotal⟩
    refine ⟨_, htook, _, htimedOut, _, hshards, _, hpage, ?_⟩
    rw [← htotal]

/-- An object whose page has a hit or a total that is spoilt. -/
inductive Spoilt : Json → Prop
  | page {entries : Object} {value : Json} (hvalue : Dict.get? entries "hits" = some value)
      (h : HitList.Spoilt value) : Spoilt (.obj entries)

theorem Spoilt.not_writtenAs {json : Json} (h : Spoilt json) (response : Response) :
    ¬response.WrittenAs json := by
  rintro ⟨fields, hfields, hheld⟩
  obtain ⟨hvalue, hspoilt⟩ := h
  cases hfields
  obtain ⟨total, hpage, -⟩ := hheld.page
  rw [hvalue, defaulted_some_iff] at hpage
  exact hspoilt.not_writtenAs _ hpage

theorem ofJson_eq_ok_iff (json : Json) (response : Response) :
    ofJson json = .ok response ↔ response.WrittenAs json := by
  rw [← ofJson?_eq_some_iff, ofJson]
  cases ofJson? json <;> simp

/-- What describes no response is malformed. -/
theorem ofJson_eq_error {json : Json} (h : ∀ response : Response, ¬response.WrittenAs json) :
    ∃ text, ofJson json = .error (.malformedResponse text) := by
  have hnone : ofJson? json = none :=
    Option.eq_none_iff_forall_ne_some.mpr fun response heq =>
      h response ((ofJson?_eq_some_iff json response).mp heq)
  exact ⟨_, by rw [ofJson, hnone]⟩

/-- An answer gives the response that it describes, with all hits in order, and it is malformed as a
whole if it describes none. It describes none as soon as one hit or the total is spoilt. -/
theorem ofJson_writtenAs (json : Json) :
    (∀ response, ofJson json = .ok response ↔ response.WrittenAs json) ∧
    ((∀ response : Response, ¬response.WrittenAs json) →
      ∃ text, ofJson json = .error (.malformedResponse text)) ∧
    (Spoilt json → ∃ text, ofJson json = .error (.malformedResponse text)) :=
  ⟨ofJson_eq_ok_iff json, ofJson_eq_error, fun h => ofJson_eq_error h.not_writtenAs⟩

/-- A page of two hits without a total, with keys that no field has, and the same page with a number
for the id of the second hit. -/
theorem ofJson_secondId :
    ofJson (.single "hits" (.obj [("max_score", .null), ("hits", .arr
        [.single "_id" (.str "a"), .obj [("_index", .str "users"), ("_id", .str "b")]])])) =
      .ok ⟨[⟨"a", none, []⟩, ⟨"b", none, []⟩], 2, false, 0, false, {}⟩ ∧
    ∃ text, ofJson (.single "hits" (.obj [("max_score", .null), ("hits", .arr
        [.single "_id" (.str "a"), .obj [("_index", .str "users"), ("_id", .int 7)]])])) =
      .error (.malformedResponse text) := by
  constructor
  · have hfirst : Hit.WrittenAs ⟨"a", none, []⟩ (.single "_id" (.str "a")) :=
      ⟨_, .keyed _, .present rfl, .leftOut, .leftOut⟩
    have hsecond : Hit.WrittenAs ⟨"b", none, []⟩
        (.obj [("_index", .str "users"), ("_id", .str "b")]) :=
      ⟨_, .keyed _, .present rfl, .leftOut, .leftOut⟩
    have hpage : IsListOf Hit.WrittenAs [⟨"a", none, []⟩, ⟨"b", none, []⟩] (.arr
        [.single "_id" (.str "a"), .obj [("_index", .str "users"), ("_id", .str "b")]]) :=
      ⟨_, rfl, .cons hfirst (.cons hsecond .nil)⟩
    exact ((ofJson_writtenAs _).1 _).mpr ⟨_, .keyed _, .leftOut, .leftOut, .leftOut, none,
      .present ⟨_, .keyed _, nofun, .leftOut, .present hpage⟩, rfl⟩
  · have hsecond : Hit.Spoilt (.obj [("_index", .str "users"), ("_id", .int 7)]) := .id rfl rfl
    exact (ofJson_writtenAs _).2.2 (.page rfl (.hit rfl (by simp) hsecond))

end Response

end Catalogue
