import Catalogue.Proofs.Lists
import Catalogue.Proofs.Schema.Chain
import Catalogue.Proofs.Text.Split

/-!
# Lists kept as one text

An analyzer with a separator joins the texts of a list of scalars on the way into a document, and
cuts a text on the way out.

`Analyzer.toIndex_ofIndex_str` : a text that is cut and joined again is the same text, for every
separator. `Analyzer.returnsTexts_iff` : a list that is joined and cut again is the list of its
texts exactly if these are separable and are not one single empty text. That no text has the
separator in it is enough for the separators that do not overlap themselves, and for no others.

All other values pass. What such an analyzer puts into a document is never a list of scalars, and
so it is the same again after a way out and in (`Analyzer.toIndex_ofIndex_of_not_joinable`).
-/

namespace Catalogue

namespace Text

variable {sep : List Char}

theorem join_eq_nil_iff (hs : sep ≠ []) (pieces : List (List Char)) :
    join sep pieces = [] ↔ pieces = [] ∨ pieces = [[]] := by
  match pieces with
  | [] => simp [join]
  | [piece] => simp [join]
  | piece :: next :: rest => simp [join, hs]

/-- The texts that a join and a cut restore are the separable ones, other than one empty text. -/
theorem rejoins_iff (hs : sep ≠ []) (texts : List (List Char)) :
    Rejoins sep texts ↔ texts ≠ [[]] ∧ Separable sep texts := by
  rw [Rejoins, Ne, join_eq_nil_iff hs, not_or]
  rcases eq_or_ne texts [] with rfl | hne
  · simp [separable_nil]
  · simp [hne, split_join_iff hs hne]

end Text

namespace Analyzer

variable (separator : String) (filters : List Json)

/-! ## From a text to a list and back -/

/-- The pieces that a stored text stands for : the empty text stands for none. -/
def pieces (s : String) : List String :=
  if s = "" then [] else (Text.split separator.toList s.toList).map String.ofList

theorem ofIndex_str (s : String) :
    (delimited separator filters).ofIndex (.str s) = .list ((pieces separator s).map .str) := by
  rw [ofIndex, pieces]
  split
  · rfl
  · rw [List.map_map]
    rfl

theorem toIndex_pieces (s : String) :
    (delimited separator filters).toIndex (.list ((pieces separator s).map .str)) = .str s := by
  rw [toIndex_delimited_texts, pieces]
  split
  case isTrue h => simp [h, Text.join]
  case isFalse =>
    rw [List.map_map, show String.toList ∘ String.ofList = id from funext fun _ => String.toList_ofList,
      List.map_id, Text.join_split, String.ofList_toList]

theorem not_isInfix_of_mem_pieces (hs : separator ≠ "") (s : String) :
    ∀ piece ∈ pieces separator s, ¬ separator.toList <:+: piece.toList := by
  have hsep : separator.toList ≠ [] := by simpa using hs
  intro piece hp
  rw [pieces] at hp
  split at hp
  · exact absurd hp List.not_mem_nil
  · obtain ⟨chars, hchars, rfl⟩ := List.mem_map.mp hp
    rw [String.toList_ofList]
    exact (Text.separable_split hsep s.toList).not_isInfix hsep chars hchars

/-- Cutting a text loses nothing : the pieces, joined again, are the text. None of the pieces has a
separator in it that is not empty. -/
theorem toIndex_ofIndex_str (s : String) :
    (delimited separator filters).toIndex ((delimited separator filters).ofIndex (.str s)) =
      .str s ∧
    ∃ texts : List String, (delimited separator filters).ofIndex (.str s) = .list (texts.map .str) ∧
      ∀ text ∈ texts, separator.toList <:+: text.toList → separator = "" := by
  refine ⟨?_, pieces separator s, ofIndex_str separator filters s, fun text ht hin => ?_⟩
  · rw [ofIndex_str, toIndex_pieces]
  · by_contra hs
    exact not_isInfix_of_mem_pieces separator hs s text ht hin

/-! ## From a list to a text and back -/

/-- A list comes back from the document as the list of these texts. -/
def ReturnsTexts (a : Analyzer) (items : List Value) (texts : List String) : Prop :=
  a.ofIndex (a.toIndex (.list items)) = .list (texts.map .str)

theorem returnsTexts_iff_rejoins {items : List Value} {texts : List String}
    (h : items.map Value.toText? = texts.map some) :
    (delimited separator filters).ReturnsTexts items texts ↔
      Text.Rejoins separator.toList (texts.map String.toList) := by
  have hjoin : (delimited separator filters).toIndex (.list items) =
      .str (String.ofList (Text.join separator.toList (texts.map String.toList))) := by
    rw [toIndex, (mapM_eq_some_iff _ _ _).mpr h]
  rw [ReturnsTexts, hjoin]
  refine ⟨fun hback => ?_, ofIndex_delimited_join filters⟩
  rw [ofIndex_str, Value.list.injEq] at hback
  have htexts : pieces separator _ = texts :=
    List.map_injective_iff.mpr (fun _ _ => Value.str.inj) hback
  rw [pieces] at htexts
  split at htexts
  · exact .inl (by rw [← htexts, List.map_nil])
  case isFalse hne =>
    refine .inr ⟨fun hnil => hne (by rw [hnil, String.ofList_nil]), ?_⟩
    conv_rhs => rw [← htexts]
    simp [Function.comp_def]

/-- For a separator that is not empty, a list of scalars comes back as the list of its texts exactly
if the separator, put after a text but the last, stands there first at the end of the text, if the
last text does not have it, and if the texts are not one single empty text.

That no text has the separator is enough, with this one exception, exactly for the separators that
do not overlap themselves, and so for all of one character. -/
theorem returnsTexts_iff {separator : String} (hs : separator ≠ "") (filters : List Json) :
    (∀ items texts, items.map Value.toText? = texts.map some →
      ((delimited separator filters).ReturnsTexts items texts ↔
        texts ≠ [""] ∧ Text.Separable separator.toList (texts.map String.toList))) ∧
    ((∀ items texts, items.map Value.toText? = texts.map some → texts ≠ [""] →
        (∀ text ∈ texts, ¬ separator.toList <:+: text.toList) →
        (delimited separator filters).ReturnsTexts items texts) ↔
      ¬ Text.OverlapsItself separator.toList) ∧
    (separator.length = 1 → ¬ Text.OverlapsItself separator.toList) := by
  have hsep : separator.toList ≠ [] := by simpa using hs
  have hsingle (texts : List String) : texts.map String.toList = [[]] ↔ texts = [""] := by
    rw [← List.map_injective_iff.mpr (fun _ _ => String.toList_inj.mp) |>.eq_iff]
    rfl
  have hiff : ∀ items texts, items.map Value.toText? = texts.map some →
      ((delimited separator filters).ReturnsTexts items texts ↔
        texts ≠ [""] ∧ Text.Separable separator.toList (texts.map String.toList)) := by
    intro items texts h
    rw [returnsTexts_iff_rejoins separator filters h, Text.rejoins_iff hsep, Ne, hsingle]
  refine ⟨hiff, ⟨fun hall hover => ?_, fun hover items texts h hne hfree => ?_⟩, fun hlen => ?_⟩
  · -- the piece that is cut too early, with one more text after it
    obtain ⟨piece, hpiece, hearly⟩ := Text.exists_cut_early hover
    have htexts : ([.str (String.ofList piece), .str ""] : List Value).map Value.toText? =
        [String.ofList piece, ""].map some := rfl
    have hback := hall _ _ htexts (by simp) fun text ht => by
      rcases List.mem_pair.mp ht with rfl | rfl
      · rwa [String.toList_ofList]
      · simpa using hsep
    obtain ⟨-, hseparable⟩ := (hiff _ _ htexts).mp hback
    rw [List.map_cons, Text.separable_cons _ _ (by simp), String.toList_ofList] at hseparable
    exact hearly hseparable.1
  · refine (hiff items texts h).mpr ⟨hne, Text.separable_of_not_isInfix hover fun piece hp => ?_⟩
    obtain ⟨text, ht, rfl⟩ := List.mem_map.mp hp
    exact hfree text ht
  · obtain ⟨c, hc⟩ := List.length_eq_one_iff.mp (String.length_toList.trans hlen)
    rw [hc]
    exact Text.not_overlapsItself_singleton c

/-- A dash at the end of a text and a separator of two dashes : the cut comes one dash too early,
though no text has two dashes. -/
theorem not_returnsTexts_dashes :
    "--" ≠ "" ∧
    [Value.str "a-", .int 5].map Value.toText? = ["a-", "5"].map some ∧
    (∀ text ∈ ["a-", "5"], ¬ "--".toList <:+: text.toList) ∧
    ¬ (delimited "--" []).ReturnsTexts [.str "a-", .int 5] ["a-", "5"] := by
  have htexts : [Value.str "a-", .int 5].map Value.toText? = ["a-", "5"].map some := by
    decide +kernel
  refine ⟨by decide, htexts, by decide, fun hback => ?_⟩
  have hseparable := (((returnsTexts_iff (by decide) []).1 _ _ htexts).mp hback).2
  exact (hseparable.inner "a-".toList (by decide)).not_before 1 (by decide) (by decide)

/-! ## What is not one text -/

end Analyzer

namespace Value

/-- The value is a list whose items all have a text, which a separator can join. -/
def Joinable : Value → Prop
  | .list items => ∀ item ∈ items, item.toText? ≠ none
  | _ => False

theorem joinable_ofJson_toJson_iff (value : Value) :
    (ofJson value.toJson).Joinable ↔ value.Joinable := by
  cases value with
  | int n => rw [toJson, ofJson_int]
  | float x => by_cases h : x.isFinite <;> simp [toJson, h, ofJson, Joinable]
  | list items =>
    rw [ofJson_toJson_list, Joinable, Joinable, List.forall_mem_map]
    exact forall₂_congr fun item _ => (toText?_ofJson_toJson_eq_none_iff item).not
  | _ => simp [toJson, ofJson, Joinable]

end Value

namespace Analyzer

variable (separator : String) (filters : List Json)

theorem not_joinable_toIndex (value : Value) :
    ¬ ((delimited separator filters).toIndex value).Joinable := by
  cases value with
  | list items =>
    rw [toIndex]
    split
    · exact id
    case _ h =>
      obtain ⟨item, hi, hnone⟩ := (mapM_eq_none_iff _ _).mp h
      exact fun hj => hj item hi hnone
  | _ => exact id

/-- What does not become one text on its way in is the same after a way out and in. -/
theorem toIndex_ofIndex_of_not_joinable {value : Value} (h : ¬ value.Joinable) :
    (delimited separator filters).toIndex ((delimited separator filters).ofIndex value) = value := by
  cases value with
  | str s => rw [ofIndex_str, toIndex_pieces]
  | list items =>
    have hnone : items.mapM Value.toText? = none := by
      rw [mapM_eq_none_iff]
      simpa [Value.Joinable] using h
    show (delimited separator filters).toIndex (.list items) = .list items
    rw [toIndex, hnone]
  | _ => rfl

end Analyzer

end Catalogue
