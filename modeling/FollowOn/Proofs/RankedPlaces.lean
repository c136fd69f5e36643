import FollowOn.Proofs.Ranking
import FollowOn.Proofs.Text.Bytes
import Mathlib.Data.List.Pairwise
import Mathlib.Data.Prod.Lex
import Mathlib.Order.OrderDual

namespace FollowOn

/-!
# The only ranking

Companies may agree in their multiple, in their id as well, or altogether. The
sort compares nothing else, but it is stable, so those that agree keep their
places in order. Of two places one thus always goes before the other, and there
is one arrangement of the places in which each goes before the next. How the
companies are listed decides only which of those that agree goes first: the ids
in ranking order stay the same.
-/

/--
One company at its place goes before another: at the greater multiple; at the
same one under the lesser id, byte by byte; under the same id from the earlier
place.
-/
def Placed.GoesAhead (left right : Placed) : Prop :=
  right.1.exitMultiple.micros < left.1.exitMultiple.micros ∨
    (left.1.exitMultiple.micros = right.1.exitMultiple.micros ∧
      left.1.id.toUTF8.toList < right.1.id.toUTF8.toList) ∨
    (left.1.exitMultiple.micros = right.1.exitMultiple.micros ∧
      left.1.id = right.1.id ∧ left.2 < right.2)

/-- One place of a list goes before another, by the companies there. -/
def GoesAheadIn
    (companies : List Company)
    (place other : Nat) : Prop :=
  ∃ company ∈ companies[place]?,
    ∃ rival ∈ companies[other]?,
      Placed.GoesAhead (company, place) (rival, other)

/-- All places of a list, each before the next. -/
structure IsRankingOf
    (companies : List Company)
    (places : List Nat) : Prop where
  perm : places.Perm (List.range companies.length)
  ordered : places.IsChain (GoesAheadIn companies)

namespace Placed

variable
    {left middle right : Placed}

/-- A company goes before another by priority, or by place at the same priority. -/
theorem goesAhead_iff :
    left.GoesAhead right ↔
      left.1.comparePriority right.1 = .lt ∨
        (left.1.comparePriority right.1 = .eq ∧
          left.2 < right.2) := by
  rw [GoesAhead, Company.comparePriority_eq_lt_iff,
    Company.comparePriority_eq_eq_iff, toUTF8_toList_lt_iff,
    eq_comm (a := left.1.exitMultiple.micros), or_assoc, and_assoc]

/-- Of two places only one goes ahead. -/
theorem GoesAhead.asymm
    (ahead : left.GoesAhead right) :
    ¬right.GoesAhead left := by
  rw [goesAhead_iff] at ahead ⊢
  rintro (behind | ⟨same, later⟩)
  · rcases ahead with ahead | ⟨same, -⟩
    · exact Company.comparePriority_asymm ahead behind
    · rw [Company.comparePriority_eq_eq_iff] at same
      rw [Company.comparePriority_eq_lt_iff, same.1, same.2] at behind
      simp at behind
  · rw [Company.comparePriority_eq_eq_iff] at same
    rcases ahead with ahead | ⟨-, earlier⟩
    · rw [Company.comparePriority_eq_lt_iff, same.1, same.2] at ahead
      simp at ahead
    · exact Nat.lt_asymm earlier later

/-- Who goes ahead of one goes ahead of those behind. -/
theorem GoesAhead.trans
    (first : left.GoesAhead middle)
    (second : middle.GoesAhead right) :
    left.GoesAhead right := by
  rcases first with greater | ⟨same, lesserId⟩ | ⟨same, sameId, earlier⟩
  · rcases second with next | ⟨nextSame, -⟩ | ⟨nextSame, -⟩ <;>
      exact .inl (by omega)
  · rcases second with
      next | ⟨nextSame, nextId⟩ | ⟨nextSame, nextId, -⟩
    · exact .inl (by omega)
    · exact .inr (.inl
        ⟨same.trans nextSame, List.lt_trans lesserId nextId⟩)
    · exact .inr (.inl ⟨same.trans nextSame, nextId ▸ lesserId⟩)
  · rcases second with
      next | ⟨nextSame, nextId⟩ | ⟨nextSame, nextId, nextEarlier⟩
    · exact .inl (by omega)
    · exact .inr (.inl ⟨same.trans nextSame, sameId ▸ nextId⟩)
    · exact .inr (.inr
        ⟨same.trans nextSame, sameId.trans nextId,
          earlier.trans nextEarlier⟩)

end Placed

section Places

variable
    {companies : List Company}
    {place other : Nat}

/-- Within a list only one of two places goes ahead. -/
theorem GoesAheadIn.asymm
    (ahead : GoesAheadIn companies place other) :
    ¬GoesAheadIn companies other place := by
  rintro ⟨rival, isRival, company, isCompany, behind⟩
  obtain ⟨companyAgain, sameCompany, rivalAgain, sameRival, ahead⟩ :=
    ahead
  rw [Option.mem_unique sameCompany isCompany,
    Option.mem_unique sameRival isRival] at ahead
  exact ahead.asymm behind

instance (companies : List Company) :
    Trans (GoesAheadIn companies) (GoesAheadIn companies)
      (GoesAheadIn companies) where
  trans := by
    rintro place middle other
      ⟨company, isCompany, between, isBetween, first⟩
      ⟨betweenAgain, sameBetween, rival, isRival, second⟩
    rw [Option.mem_unique sameBetween isBetween] at second
    exact ⟨company, isCompany, rival, isRival, first.trans second⟩

/-- A company in the ranking stands at its place in the list. -/
theorem getElem?_of_mem_rankPlaced
    {placed : Placed}
    (member : placed ∈ rankPlaced companies) :
    companies[placed.2]? = some placed.1 :=
  List.mem_zipIdx_iff_getElem?.mp (List.mem_mergeSort.mp member)

/-- Of two places in the ranking the earlier one goes ahead. -/
theorem rankedPlaces_pairwise
    (companies : List Company) :
    (rankedPlaces companies).Pairwise (GoesAheadIn companies) := by
  rw [rankedPlaces, List.pairwise_map]
  refine
    ((rankPlaced_pairwise companies).and
      (rankPlaced_pairwise_place companies)).imp_of_mem ?_
  rintro left right leftMember rightMember ⟨precedes, placed⟩
  refine
    ⟨left.1, getElem?_of_mem_rankPlaced leftMember,
      right.1, getElem?_of_mem_rankPlaced rightMember, ?_⟩
  exact
    Placed.goesAhead_iff.mpr
      ((Placed.precedes_iff.mp precedes).imp_right fun tied =>
        ⟨tied, placed tied⟩)

/-- The ranked places are a ranking of the list. -/
theorem isRankingOf_rankedPlaces
    (companies : List Company) :
    IsRankingOf companies (rankedPlaces companies) where
  perm := rankedPlaces_perm companies
  ordered := (rankedPlaces_pairwise companies).isChain

/-- Two rankings of a list are the same. -/
theorem IsRankingOf.unique
    {places others : List Nat}
    (first : IsRankingOf companies places)
    (second : IsRankingOf companies others) :
    places = others := by
  refine List.Perm.eq_of_pairwise ?_
    (List.isChain_iff_pairwise.mp first.ordered)
    (List.isChain_iff_pairwise.mp second.ordered)
    (first.perm.trans second.perm.symm)
  intro place other _ _ ahead behind
  exact (ahead.asymm behind).elim

/-- The ids in ranking order are those at the ranked places. -/
theorem map_id_rankedPlaces
    (companies : List Company) :
    (rankedPlaces companies).map
        (fun place => companies[place]?.map Company.id) =
      (rankedIds companies).map some := by
  rw [rankedPlaces, rankedIds, ranked, List.map_map, List.map_map,
    List.map_map]
  apply List.map_congr_left
  intro placed member
  simp [getElem?_of_mem_rankPlaced member]

end Places

section Ids

/-- What a company is ranked by, the first to be served at the least. -/
def Company.rankKey (company : Company) : Intᵒᵈ ×ₗ String :=
  toLex (OrderDual.toDual company.exitMultiple.micros, company.id)

/-- Companies that are sorted ahead have a key that is no greater. -/
theorem Placed.rankKey_le_of_precedes
    {left right : Placed}
    (precedes : left.precedes right = true) :
    left.1.rankKey ≤ right.1.rankKey := by
  rw [Company.rankKey, Company.rankKey, Prod.Lex.toLex_le_toLex]
  rcases precedes_iff.mp precedes with ahead | same
  · rcases Company.comparePriority_eq_lt_iff.mp ahead with
      greater | ⟨same, lesserId⟩
    · exact .inl (OrderDual.toDual_lt_toDual.mpr greater)
    · exact .inr ⟨congrArg OrderDual.toDual same.symm, lesserId.le⟩
  · rw [Company.comparePriority_eq_eq_iff] at same
    exact .inr ⟨congrArg OrderDual.toDual same.1.symm, same.2.le⟩

/-- The keys of the ranked companies ascend. -/
theorem ranked_pairwise_rankKey
    (companies : List Company) :
    (ranked companies).Pairwise fun left right =>
      left.rankKey ≤ right.rankKey := by
  rw [ranked, List.pairwise_map]
  exact (rankPlaced_pairwise companies).imp
    Placed.rankKey_le_of_precedes

/-- The keys in ranking order are the same however companies are listed. -/
theorem map_rankKey_ranked_eq_of_perm
    {companies others : List Company}
    (sameCompanies : companies.Perm others) :
    (ranked companies).map Company.rankKey =
      (ranked others).map Company.rankKey := by
  refine List.Perm.eq_of_pairwise
    (fun _ _ _ _ => le_antisymm)
    (List.pairwise_map.mpr (ranked_pairwise_rankKey companies))
    (List.pairwise_map.mpr (ranked_pairwise_rankKey others)) ?_
  exact (((ranked_perm companies).trans sameCompanies).trans
    (ranked_perm others).symm).map Company.rankKey

/-- The ranked ids do not depend on the order of the list. -/
theorem rankedIds_eq_of_perm
    {companies others : List Company}
    (sameCompanies : companies.Perm others) :
    rankedIds companies = rankedIds others := by
  have idOfKey :
      Company.id = (fun key => (ofLex key).2) ∘ Company.rankKey := rfl
  rw [rankedIds, rankedIds, idOfKey, ← List.map_map, ← List.map_map,
    map_rankKey_ranked_eq_of_perm sameCompanies]

end Ids

/--
The ranked places of a list are its one ranking, and the ids in ranking order
are the ids there. They do not depend on the order in which the companies are
listed, even if ids or whole companies repeat.
-/
theorem companies_have_one_ranking :
    (∀ (companies : List Company) (places : List Nat),
      IsRankingOf companies places ↔
        places = rankedPlaces companies) ∧
      (∀ companies : List Company,
        (rankedPlaces companies).map
            (fun place => companies[place]?.map Company.id) =
          (rankedIds companies).map some) ∧
      ∀ companies others : List Company,
        companies.Perm others →
        rankedIds companies = rankedIds others := by
  refine ⟨?_, map_id_rankedPlaces, ?_⟩
  · intro companies places
    constructor
    · intro isRanking
      exact isRanking.unique (isRankingOf_rankedPlaces companies)
    · intro same
      rw [same]
      exact isRankingOf_rankedPlaces companies
  · intro companies others
    exact rankedIds_eq_of_perm

/-- Four companies, two of them under one id and at one multiple. -/
def sharedIds : List Company :=
  [⟨"b", "Beta", "seed", 1000, ⟨3000000⟩, none⟩,
    ⟨"a", "Alpha", "seed", 1000, ⟨3000000⟩, none⟩,
    ⟨"a", "Alpha Two", "growth", 500, ⟨3000000⟩, some 10⟩,
    ⟨"c", "Gamma", "seed", 1000, ⟨5000000⟩, none⟩]

/-- Each case of the order settles one pair, and reversing the list moves no id. -/
theorem companies_have_one_ranking_sharedIds :
    rankedPlaces sharedIds = [3, 1, 2, 0] ∧
      sharedIds.Perm sharedIds.reverse ∧
      rankedIds sharedIds = rankedIds sharedIds.reverse := by
  obtain ⟨oneRanking, -, sameIds⟩ := companies_have_one_ranking
  have isRanking : IsRankingOf sharedIds [3, 1, 2, 0] := by
    have greaterMultiple : GoesAheadIn sharedIds 3 1 :=
      ⟨_, rfl, _, rfl, .inl (by decide)⟩
    have earlierPlace : GoesAheadIn sharedIds 1 2 :=
      ⟨_, rfl, _, rfl, .inr (.inr ⟨rfl, rfl, by decide⟩)⟩
    have lesserId : GoesAheadIn sharedIds 2 0 :=
      ⟨_, rfl, _, rfl,
        .inr (.inl ⟨rfl, toUTF8_toList_lt_iff.mpr (by decide)⟩)⟩
    exact
      ⟨by decide,
        .cons_cons greaterMultiple
          (.cons_cons earlierPlace
            (.cons_cons lesserId (.singleton 0)))⟩
  have reversed := (List.reverse_perm sharedIds).symm
  exact
    ⟨((oneRanking _ _).mp isRanking).symm, reversed,
      sameIds _ _ reversed⟩

end FollowOn
