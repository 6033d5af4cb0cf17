/-!
# Stable sorting

Lists are sorted by insertion, along the structure of the list, so that a sorted list
is computed wherever its items are.  Items of which each may stand before the other
keep their order.
-/

namespace ReactiveLint.StableSort

variable {A : Type _}

/-- Puts an item before the first one that it may stand before. -/
def insert (before : A → A → Bool) (item : A) : List A → List A
  | [] => [item]
  | next :: rest =>
      if before item next then item :: next :: rest
      else next :: insert before item rest

def sort (before : A → A → Bool) : List A → List A
  | [] => []
  | item :: rest => insert before item (sort before rest)

end ReactiveLint.StableSort
