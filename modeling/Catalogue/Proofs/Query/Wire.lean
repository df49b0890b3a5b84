import Catalogue.Query.Compile
import Catalogue.Query.Wire
import Mathlib.Data.List.Forall2

/-!
# Predicates in JSON, exactly

`Predicate.WrittenAs` says which JSON describes a predicate : one key names its kind, and a comparison
has its three parts under their keys, other keys beside them, and its operator in one of two forms.
This is what reading accepts, and it describes the predicate that is read
(`Predicate.ofJson?_eq_some_iff`). What is written describes the predicate too
(`Predicate.writtenAs_toJson`), so it is read as this predicate.

Written JSON is the canonical form of all JSON that describes the same predicate
(`Predicate.canonical?`) : it has one form for operators and no other keys, at every depth, and a
fragment for the backend stays as it is, whatever it looks like.
-/

namespace Catalogue

/-! ## Operators -/

namespace Operator

/-- The JSON describes the operator : its text, or an object with null under its text. -/
inductive WrittenAs (operator : Operator) : Json → Prop
  | text : WrittenAs operator (.str operator.text)
  | key : WrittenAs operator (.single operator.text .null)

theorem eq_text_of_ofText? {text : String} {operator : Operator} (h : ofText? text = some operator) :
    text = operator.text := by
  unfold ofText? at h
  split at h <;> cases h <;> rfl

theorem ofJson?_eq_some_iff (json : Json) (operator : Operator) :
    ofJson? json = some operator ↔ operator.WrittenAs json := by
  constructor
  · intro h
    unfold ofJson? at h
    split at h
    · rw [eq_text_of_ofText? h]
      exact .text
    · rw [eq_text_of_ofText? h]
      exact .key
    · cases h
  · rintro (_ | _)
    · exact ofText?_text operator
    · exact ofText?_text operator

end Operator

/-! ## Predicates -/

namespace Predicate

/-- The JSON describes the predicate. -/
inductive WrittenAs : Predicate → Json → Prop
  | compare {field : String} {operator : Operator} {value : Json} {entries : List (String × Json)}
      {operatorJson : Json} (hfield : Dict.get? entries "field" = some (.str field))
      (hoperator : Dict.get? entries "operator" = some operatorJson)
      (hwritten : operator.WrittenAs operatorJson)
      (hvalue : Dict.get? entries "value" = some value) :
    WrittenAs (.compare field operator value) (.single "compare" (.obj entries))
  | and {children : List Predicate} {items : List Json} (h : List.Forall₂ WrittenAs children items) :
    WrittenAs (.and children) (.single "and" (.arr items))
  | or {children : List Predicate} {items : List Json} (h : List.Forall₂ WrittenAs children items) :
    WrittenAs (.or children) (.single "or" (.arr items))
  | not {child : Predicate} {json : Json} (h : WrittenAs child json) :
    WrittenAs (.not child) (.single "not" json)
  | raw (fragment : Json) : WrittenAs (.raw fragment) (.single "raw" fragment)

theorem childrenToJson_eq_map (children : List Predicate) :
    childrenToJson children = children.map toJson := by
  induction children with
  | nil => rfl
  | cons child rest ih => rw [childrenToJson, ih, List.map_cons]

/-- What is written describes the predicate. -/
theorem writtenAs_toJson (p : Predicate) : p.WrittenAs p.toJson := by
  have hchildren {children : List Predicate} (ih : ∀ child ∈ children, child.WrittenAs child.toJson) :
      List.Forall₂ WrittenAs children (childrenToJson children) := by
    rw [childrenToJson_eq_map, List.forall₂_map_right_iff]
    exact List.forall₂_same.mpr ih
  induction p with
  | compare field operator value =>
    rw [toJson]
    exact .compare rfl rfl .text rfl
  | and children ih =>
    rw [toJson]
    exact .and (hchildren ih)
  | or children ih =>
    rw [toJson]
    exact .or (hchildren ih)
  | not child ih =>
    rw [toJson]
    exact .not ih
  | raw fragment =>
    rw [toJson]
    exact .raw fragment

/-! ### Reading -/

theorem comparisonOfJson?_eq_some_iff (body : Json) (p : Predicate) :
    comparisonOfJson? body = some p ↔
      ∃ entries field operatorJson operator value, body = .obj entries ∧
        Dict.get? entries "field" = some (.str field) ∧
        Dict.get? entries "operator" = some operatorJson ∧
        Dict.get? entries "value" = some value ∧
        Operator.ofJson? operatorJson = some operator ∧ p = .compare field operator value := by
  constructor
  · intro h
    unfold comparisonOfJson? at h
    split at h
    · split at h
      case h_1 entries _ _ _ field operatorJson value hfield hoperator hvalue =>
        obtain ⟨operator, hread, rfl⟩ := Option.map_eq_some_iff.mp h
        exact ⟨entries, field, operatorJson, operator, value, rfl, hfield, hoperator, hvalue, hread,
          rfl⟩
      case h_2 => cases h
    · cases h
  · rintro ⟨entries, field, operatorJson, operator, value, rfl, hfield, hoperator, hvalue, hread, rfl⟩
    simp only [comparisonOfJson?, hfield, hoperator, hvalue, hread, Option.map_some]

theorem ofItems?_eq_some_iff (items : List Json) (children : List Predicate) :
    ofItems? items = some children ↔
      List.Forall₂ (fun child item => ofJson? item = some child) children items := by
  induction items generalizing children with
  | nil => cases children <;> simp [ofItems?]
  | cons item rest ih =>
    cases hitem : ofJson? item with
    | none => cases children <;> simp [ofItems?, hitem]
    | some child =>
      cases hrest : ofItems? rest with
      | none => cases children <;> simp [ofItems?, hitem, hrest, ← ih]
      | some others => cases children <;> simp [ofItems?, hitem, hrest, ← ih]

theorem childrenOfJson?_eq_some_iff (body : Json) (children : List Predicate) :
    childrenOfJson? body = some children ↔ ∃ items, body = .arr items ∧
      List.Forall₂ (fun child item => ofJson? item = some child) children items := by
  cases body with
  | arr items => simp [childrenOfJson?, ofItems?_eq_some_iff]
  | _ => simp [childrenOfJson?]

/-- Reading accepts nothing but JSON that describes a predicate, and this is what is read. -/
theorem writtenAs_of_ofJson? {json : Json} {p : Predicate} (h : ofJson? json = some p) :
    p.WrittenAs json := by
  -- A list is no predicate, but its members may be the children of one.
  suffices hboth : (∀ p, ofJson? json = some p → p.WrittenAs json) ∧
      ∀ children, childrenOfJson? json = some children →
        ∃ items, json = .arr items ∧ List.Forall₂ WrittenAs children items from hboth.1 p h
  clear h p
  induction json with
  | arr items ih =>
    refine ⟨fun p h => by simp [ofJson?] at h, fun children h => ?_⟩
    obtain ⟨_, ⟨⟩, h⟩ := (childrenOfJson?_eq_some_iff _ _).mp h
    have hall : List.Forall₂ (fun item child => (∀ p, ofJson? item = some p → p.WrittenAs item) ∧
        ofJson? item = some child) items children :=
      (List.forall₂_and_left _ _).mpr ⟨fun item hitem => (ih item hitem).1, h.flip⟩
    exact ⟨items, rfl, (hall.imp fun item child ⟨hread, hchild⟩ => hread child hchild).flip⟩
  | obj entries ih =>
    refine ⟨fun p h => ?_, fun children h => by simp [childrenOfJson?] at h⟩
    rw [ofJson?] at h
    unfold ofEntries? at h
    split at h
    case h_1 body =>
      obtain ⟨entries, field, operatorJson, operator, value, rfl, hfield, hoperator, hvalue, hread,
        rfl⟩ := (comparisonOfJson?_eq_some_iff body p).mp h
      exact .compare hfield hoperator ((Operator.ofJson?_eq_some_iff _ _).mp hread) hvalue
    case h_2 body =>
      obtain ⟨children, hread, rfl⟩ := Option.map_eq_some_iff.mp h
      obtain ⟨items, rfl, hitems⟩ := (ih _ List.mem_cons_self).2 children hread
      exact .and hitems
    case h_3 body =>
      obtain ⟨children, hread, rfl⟩ := Option.map_eq_some_iff.mp h
      obtain ⟨items, rfl, hitems⟩ := (ih _ List.mem_cons_self).2 children hread
      exact .or hitems
    case h_4 body =>
      obtain ⟨child, hread, rfl⟩ := Option.map_eq_some_iff.mp h
      exact .not ((ih _ List.mem_cons_self).1 child hread)
    case h_5 fragment =>
      cases h
      exact .raw fragment
    case h_6 => cases h
  | _ => exact ⟨fun p h => by simp [ofJson?] at h, fun children h => by simp [childrenOfJson?] at h⟩

/-- Reading accepts all JSON that describes a predicate. -/
theorem ofJson?_of_writtenAs {json : Json} {p : Predicate} (h : p.WrittenAs json) :
    ofJson? json = some p := by
  have hchildren {children : List Predicate} {items : List Json}
      (ih : ∀ child ∈ children, ∀ {json}, child.WrittenAs json → ofJson? json = some child)
      (h : List.Forall₂ WrittenAs children items) :
      childrenOfJson? (.arr items) = some children := by
    have hall := (List.forall₂_and_left _ _).mpr ⟨ih, h⟩
    exact (childrenOfJson?_eq_some_iff _ _).mpr
      ⟨items, rfl, hall.imp fun child item ⟨hread, hwritten⟩ => hread hwritten⟩
  induction p generalizing json with
  | compare field operator value =>
    cases h with
    | compare hfield hoperator hwritten hvalue =>
      rw [Json.single, ofJson?, ofEntries?, comparisonOfJson?_eq_some_iff]
      exact ⟨_, field, _, operator, value, rfl, hfield, hoperator, hvalue,
        (Operator.ofJson?_eq_some_iff _ _).mpr hwritten, rfl⟩
  | and children ih =>
    cases h with
    | and hitems => rw [Json.single, ofJson?, ofEntries?, hchildren ih hitems, Option.map_some]
  | or children ih =>
    cases h with
    | or hitems => rw [Json.single, ofJson?, ofEntries?, hchildren ih hitems, Option.map_some]
  | not child ih =>
    cases h with
    | not hchild => rw [Json.single, ofJson?, ofEntries?, ih hchild, Option.map_some]
  | raw fragment =>
    cases h
    rw [Json.single, ofJson?, ofEntries?]

/-- Reading accepts exactly what describes a predicate. -/
theorem ofJson?_eq_some_iff (json : Json) (p : Predicate) :
    ofJson? json = some p ↔ p.WrittenAs json :=
  ⟨writtenAs_of_ofJson?, ofJson?_of_writtenAs⟩

/-- What is written is read as the same predicate. -/
theorem ofJson?_toJson (p : Predicate) : ofJson? p.toJson = some p :=
  ofJson?_of_writtenAs (writtenAs_toJson p)

theorem toJson_injective : Function.Injective toJson := fun p q h => by
  have hread := q.ofJson?_toJson
  rw [← h, ofJson?_toJson] at hread
  exact Option.some.inj hread

/-- The canonical form of JSON that describes a predicate : what is written for this predicate. -/
def canonical? (json : Json) : Option Json :=
  (ofJson? json).map toJson

/-- A predicate that is written and read again is the same one, and compiles alike. JSON that is read
and written again takes its canonical form, which describes the same predicate, is a form of its own,
and is the same for all JSON that describes this predicate. Reading accepts exactly what describes a
predicate. -/
theorem ofJson?_canonical :
    (∀ p : Predicate, ofJson? p.toJson = some p ∧
      (ofJson? p.toJson).map compile = some p.compile) ∧
    (∀ json p, ofJson? json = some p → ∃ form, canonical? json = some form ∧
      ofJson? form = some p ∧ canonical? form = some form ∧
      ∀ other, ofJson? other = some p ↔ canonical? other = some form) ∧
    ∀ json p, ofJson? json = some p ↔ p.WrittenAs json := by
  refine ⟨fun p => ?_, fun json p h => ⟨p.toJson, ?_, p.ofJson?_toJson, ?_, fun other => ?_⟩,
    ofJson?_eq_some_iff⟩
  · rw [ofJson?_toJson]
    exact ⟨rfl, rfl⟩
  · rw [canonical?, h, Option.map_some]
  · rw [canonical?, ofJson?_toJson, Option.map_some]
  · rw [canonical?, Option.map_eq_some_iff]
    exact ⟨fun hother => ⟨p, hother, rfl⟩, fun ⟨q, hother, hq⟩ => toJson_injective hq ▸ hother⟩

example : canonical? (.single "not" (.single "compare" (.obj [("note", .str "a"), ("value", .int 1),
    ("operator", .single "=" .null), ("field", .str "x")]))) =
      some (not (eq "x" (.int 1))).toJson := by rfl

end Predicate

end Catalogue
