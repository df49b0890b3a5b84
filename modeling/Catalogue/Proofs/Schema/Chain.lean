import Catalogue.Proofs.Value.Json
import Catalogue.Schema.Field

/-!
# What a property restores

On its way into a document a value goes through the conversion of its field, then the analyzer,
then JSON, and it comes back the other way round. `Property.Keeps` says that this brings the value
back. `Property.Restorable` names values by what they are, not by what becomes of them : plain
values where nothing is converted, instants that their own format reads back, and for lists that
are kept as one text the lists of texts that a join and a cut restore. Only where functions of the
application are involved is there nothing to go by but what becomes of a value.

`Property.keeps_of_restorable` : what is restorable is kept.
-/

namespace Catalogue

/-! ## Texts with separators -/

/-- A join and a cut at the separator restore the texts. The list without texts and the list of one
empty text are both stored as the empty text, which is read as the former. -/
def Text.Rejoins (separator : List Char) (texts : List (List Char)) : Prop :=
  texts = [] ∨ Text.join separator texts ≠ [] ∧
    Text.split separator (Text.join separator texts) = texts

namespace Analyzer

theorem mapM_toText?_str (texts : List String) :
    (texts.map Value.str).mapM Value.toText? = some texts := by
  induction texts with
  | nil => rfl
  | cons text rest ih => simp [List.mapM_cons, ih, Value.toText?]

theorem toIndex_delimited_texts (separator : String) (filters : List Json) (texts : List String) :
    (delimited separator filters).toIndex (.list (texts.map .str)) =
      .str (String.ofList (Text.join separator.toList (texts.map String.toList))) := by
  rw [toIndex, mapM_toText?_str]

theorem ofIndex_delimited_join {separator : String} (filters : List Json) {texts : List String}
    (h : Text.Rejoins separator.toList (texts.map String.toList)) :
    (delimited separator filters).ofIndex
        (.str (String.ofList (Text.join separator.toList (texts.map String.toList)))) =
      .list (texts.map .str) := by
  rcases h with h | ⟨hne, hsplit⟩
  · rw [List.map_eq_nil_iff] at h
    subst h
    simp [ofIndex, Text.join]
  · have hs : String.ofList (Text.join separator.toList (texts.map String.toList)) ≠ "" := by
      intro he
      exact hne (by simpa using congrArg String.toList he)
    rw [ofIndex, if_neg hs, String.toList_ofList, hsplit, List.map_map]
    simp [Function.comp_def]

section Plain

variable {a : Analyzer} (happlication : ∀ own, a = .application own → False)
  (hdelimited : ∀ separator filters, a = .delimited separator filters → False) (value : Value)

include happlication hdelimited

/-- Analyzers of the backend and those given by settings leave values alone on the way in. -/
theorem toIndex_of_plain : a.toIndex value = value := by
  cases a with
  | application own => exact (happlication own rfl).elim
  | delimited separator filters => exact (hdelimited separator filters rfl).elim
  | _ => rfl

/-- Analyzers of the backend and those given by settings leave values alone on the way out. -/
theorem ofIndex_of_plain : a.ofIndex value = value := by
  cases a with
  | application own => exact (happlication own rfl).elim
  | delimited separator filters => exact (hdelimited separator filters rfl).elim
  | _ => rfl

end Plain

end Analyzer

/-! ## Instants -/

/-- The format of a field reads an instant back from what it writes for it. -/
def DateFormat.ReadsBack (format : Option String) (t : Instant) : Prop :=
  (Conversion.readers format).findSome?
    (·.read? (((DateFormat.alternatives format).headD .rfc3339).write t)) = some t

/-- What a format writes is a text or an integer, and JSON keeps it. -/
theorem DateFormat.ofJson_write (t : Instant) (format : DateFormat) :
    Value.ofJson (format.write t).toJson = format.write t := by
  cases format with
  | rfc3339 => rfl
  | epochMillis => exact Value.ofJson_int _
  | epochSecond => exact Value.ofJson_int _
  | percent text => rfl

namespace Conversion

/-- Null and lists, which no conversion changes but one of the application. -/
def Ignores (value : Value) : Prop :=
  value = .null ∨ ∃ items, value = .list items

section Ignores

variable {c : Conversion} (hc : ∀ toIndex ofIndex, c = .application toIndex ofIndex → False)
  {value : Value} (hvalue : Ignores value) (format : Option String)

include hc hvalue

theorem toIndex_of_ignores : c.toIndex format value = value := by
  cases c with
  | application toIndex ofIndex => exact (hc toIndex ofIndex rfl).elim
  | _ => rcases hvalue with rfl | ⟨items, rfl⟩ <;> rfl

theorem ofIndex_of_ignores : c.ofIndex format value = value := by
  cases c with
  | application toIndex ofIndex => exact (hc toIndex ofIndex rfl).elim
  | _ => rcases hvalue with rfl | ⟨items, rfl⟩ <;> rfl

end Ignores

/-- What an alternative wrote is read by all alternatives in turn. -/
theorem ofIndex_write (format : Option String) (t : Instant) (writer : DateFormat) :
    Conversion.date.ofIndex format (writer.write t) = readDate format (writer.write t) := by
  cases writer <;> rfl

theorem ofIndex_toIndex_date {format : Option String} {t : Instant}
    (h : DateFormat.ReadsBack format t) :
    Conversion.date.ofIndex format
      (Value.ofJson (Conversion.date.toIndex format (.date t)).toJson) = .date t := by
  unfold DateFormat.ReadsBack at h
  rw [toIndex, DateFormat.ofJson_write, ofIndex_write, readDate, h]

end Conversion

/-! ## Properties -/

namespace Property

/-- The value comes back from the document as it went in. -/
def Keeps (p : Property) (value : Value) : Prop :=
  p.ofWire (p.toWire value) = value

/-- The values that a property is meant to restore. The other conversions leave null and lists
alone, so under a separator they do not matter. What functions of the application restore, only
these can tell. -/
def Restorable (p : Property) (value : Value) : Prop :=
  match p.analyzer, p.conversion with
  | .application _, _ => p.Keeps value
  | _, .application _ _ => p.Keeps value
  | .delimited separator _, _ =>
    value = .null ∨ ∃ texts : List String,
      Text.Rejoins separator.toList (texts.map String.toList) ∧ value = .list (texts.map .str)
  | _, .identity => value.isPlain
  | _, .date => ∃ t, value = .date t ∧ DateFormat.ReadsBack p.dateFormat t

theorem keeps_of_delimited {p : Property}
    (hc : ∀ toIndex ofIndex, p.conversion = .application toIndex ofIndex → False)
    {separator : String} {filters : List Json} (hp : p.analyzer = .delimited separator filters)
    {value : Value}
    (h : value = .null ∨ ∃ texts : List String,
      Text.Rejoins separator.toList (texts.map String.toList) ∧ value = .list (texts.map .str)) :
    p.Keeps value := by
  have hignores : Conversion.Ignores value := h.imp_right fun ⟨texts, _, heq⟩ => ⟨_, heq⟩
  unfold Keeps ofWire toWire
  rw [Conversion.toIndex_of_ignores hc hignores, hp]
  rcases h with rfl | ⟨texts, htexts, rfl⟩
  · exact Conversion.ofIndex_of_ignores hc hignores _
  · rw [Analyzer.toIndex_delimited_texts, Value.toJson, Value.ofJson,
      Analyzer.ofIndex_delimited_join filters htexts,
      Conversion.ofIndex_of_ignores hc hignores]

theorem keeps_of_restorable {p : Property} {value : Value} (h : p.Restorable value) :
    p.Keeps value := by
  unfold Restorable at h
  split at h
  case h_1 => exact h
  case h_2 => exact h
  case h_3 separator filters hp hc => exact keeps_of_delimited hc hp h
  case h_4 hc happlication hdelimited =>
    unfold Keeps ofWire toWire
    rw [hc, Analyzer.toIndex_of_plain happlication hdelimited,
      Analyzer.ofIndex_of_plain happlication hdelimited]
    exact Value.ofJson_toJson h
  case h_5 hc happlication hdelimited =>
    obtain ⟨t, rfl, ht⟩ := h
    unfold Keeps ofWire toWire
    rw [hc, Analyzer.toIndex_of_plain happlication hdelimited,
      Analyzer.ofIndex_of_plain happlication hdelimited]
    exact Conversion.ofIndex_toIndex_date ht

end Property

end Catalogue
