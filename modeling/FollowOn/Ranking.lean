import FollowOn.Portfolio

namespace FollowOn

/-!
# Ranking of companies

Companies are served in the order of their projected exit multiple, the
greatest first; equal multiples go by id, in the order of code points. Nothing
else is compared. Companies that agree in both keep the order in which they were
given, because the sort is stable.
-/

/-- Compare two companies; the one to be served first is the lesser. -/
def Company.comparePriority (left right : Company) : Ordering :=
  (compare right.exitMultiple left.exitMultiple).then
    (compare left.id right.id)

/-- A company with its place in the list in which it was given. -/
abbrev Placed := Company × Nat

/-- One company has no lower priority than another, wherever they stand. -/
def Placed.precedes (left right : Placed) : Bool :=
  (left.1.comparePriority right.1).isLE

/-- Companies with their places, in the order in which they are served. -/
def rankPlaced (companies : List Company) : List Placed :=
  companies.zipIdx.mergeSort Placed.precedes

/-- Companies in the order in which they are served. -/
def ranked (companies : List Company) : List Company :=
  (rankPlaced companies).map Prod.fst

/-- Places in the list of the companies as they are ranked. -/
def rankedPlaces (companies : List Company) : List Nat :=
  (rankPlaced companies).map Prod.snd

/-- Ids of the companies as they are ranked. -/
def rankedIds (companies : List Company) : List String :=
  (ranked companies).map Company.id

/-- Ranking neither drops nor repeats a company. -/
theorem ranked_perm
    (companies : List Company) :
    (ranked companies).Perm companies := by
  have sorted :
      (rankPlaced companies).Perm companies.zipIdx :=
    List.mergeSort_perm _ _
  simpa [ranked] using sorted.map Prod.fst

/-- Each place is ranked once. -/
theorem rankedPlaces_perm
    (companies : List Company) :
    (rankedPlaces companies).Perm
      (List.range companies.length) := by
  have sorted :
      (rankPlaced companies).Perm companies.zipIdx :=
    List.mergeSort_perm _ _
  simpa [rankedPlaces, List.range_eq_range'] using
    sorted.map Prod.snd

end FollowOn
