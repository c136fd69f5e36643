import FollowOn.Ranking
import Mathlib.Data.List.Nodup
import Mathlib.Data.String.Basic
import Mathlib.Order.Compare

namespace FollowOn

/-!
# The order in which companies are served

Companies with distinct ids are ranked strictly by priority: nobody shares a
rank, so the order in which the companies were given plays no part. Ranking is
then the only arrangement of the companies in which priority descends.
Companies of one priority are ranked as they were given, since the sort is
stable.
-/

/-- A ratio is less by its millionths. -/
theorem Ratio.compare_eq_lt_iff
    {left right : Ratio} :
    compare left right = .lt ↔ left.micros < right.micros := by
  change compare left.micros right.micros = .lt ↔ _
  exact compare_lt_iff_lt

/-- Ratios tie if they have as many millionths. -/
theorem Ratio.compare_eq_eq_iff
    {left right : Ratio} :
    compare left right = .eq ↔ left.micros = right.micros := by
  change compare left.micros right.micros = .eq ↔ _
  exact compare_eq_iff_eq

namespace Company

/-- Of two companies the one with the greater multiple goes first, then the lesser id. -/
theorem comparePriority_eq_lt_iff
    {left right : Company} :
    left.comparePriority right = .lt ↔
      right.exitMultiple.micros < left.exitMultiple.micros ∨
        (right.exitMultiple.micros = left.exitMultiple.micros ∧
          left.id < right.id) := by
  rw [comparePriority, Ordering.then_eq_lt, Ratio.compare_eq_lt_iff,
    Ratio.compare_eq_eq_iff, compare_lt_iff_lt]

/-- Companies tie if both exit multiple and id are the same. -/
theorem comparePriority_eq_eq_iff
    {left right : Company} :
    left.comparePriority right = .eq ↔
      right.exitMultiple.micros = left.exitMultiple.micros ∧
        left.id = right.id := by
  rw [comparePriority, Ordering.then_eq_eq, Ratio.compare_eq_eq_iff,
    compare_eq_iff_eq]

/-- No two companies go before each other. -/
theorem comparePriority_asymm
    {left right : Company}
    (ahead : left.comparePriority right = .lt) :
    ¬right.comparePriority left = .lt := by
  rw [comparePriority_eq_lt_iff] at ahead ⊢
  rintro (greater | ⟨same, lesserId⟩)
  · omega
  · rcases ahead with greater | ⟨_, idBefore⟩
    · omega
    · exact lt_asymm lesserId idBefore

end Company

namespace Placed

/-- A company precedes those that go after it, and those of its own priority. -/
theorem precedes_iff
    {left right : Placed} :
    left.precedes right = true ↔
      left.1.comparePriority right.1 = .lt ∨
        left.1.comparePriority right.1 = .eq := by
  rw [precedes, Ordering.isLE_iff_eq_lt_or_eq_eq]

/-- What the sort puts ahead is put ahead of all behind. -/
theorem precedes_trans
    (left middle right : Placed)
    (first : left.precedes middle = true)
    (second : middle.precedes right = true) :
    left.precedes right = true := by
  simp only [precedes_iff, Company.comparePriority_eq_lt_iff,
    Company.comparePriority_eq_eq_iff] at *
  rcases first with (greater | ⟨same, lesserId⟩) | ⟨same, sameId⟩
  · exact Or.inl (Or.inl (by omega))
  · rcases second with (next | ⟨nextSame, nextId⟩) | ⟨nextSame, nextId⟩
    · exact Or.inl (Or.inl (by omega))
    · exact Or.inl
        (Or.inr ⟨nextSame.trans same, lesserId.trans nextId⟩)
    · exact Or.inl
        (Or.inr ⟨nextSame.trans same, nextId ▸ lesserId⟩)
  · rw [sameId, ← same]
    exact second

/-- The sort compares any two companies. -/
theorem precedes_total
    (left right : Placed) :
    (left.precedes right || right.precedes left) = true := by
  simp only [Bool.or_eq_true, precedes_iff,
    Company.comparePriority_eq_lt_iff,
    Company.comparePriority_eq_eq_iff]
  rcases lt_trichotomy left.1.exitMultiple.micros
      right.1.exitMultiple.micros with less | same | greater
  · exact Or.inr (Or.inl (Or.inl less))
  · rcases lt_trichotomy left.1.id right.1.id with
      lesserId | sameId | greaterId
    · exact Or.inl (Or.inl (Or.inr ⟨same.symm, lesserId⟩))
    · exact Or.inl (Or.inr ⟨same.symm, sameId⟩)
    · exact Or.inr (Or.inl (Or.inr ⟨same, greaterId⟩))
  · exact Or.inl (Or.inl (Or.inl greater))

/-- Whether a company has the priority of a given one. -/
def isTiedWith
    (company : Company)
    (placed : Placed) :
    Bool :=
  decide (company.comparePriority placed.1 = .eq)

/-- The comparison lets tied companies stand in either order. -/
theorem precedes_of_isTiedWith
    {company : Company}
    {left right : Placed}
    (leftTied : left.isTiedWith company = true)
    (rightTied : right.isTiedWith company = true) :
    left.precedes right = true := by
  have leftSame :=
    Company.comparePriority_eq_eq_iff.mp (of_decide_eq_true leftTied)
  have rightSame :=
    Company.comparePriority_eq_eq_iff.mp (of_decide_eq_true rightTied)
  refine precedes_iff.mpr
    (Or.inr (Company.comparePriority_eq_eq_iff.mpr ?_))
  exact
    ⟨rightSame.1.trans leftSame.1.symm,
      leftSame.2.symm.trans rightSame.2⟩

end Placed

/-- The sort leaves the companies in the order that it compares by. -/
theorem rankPlaced_pairwise
    (companies : List Company) :
    (rankPlaced companies).Pairwise fun left right =>
      left.precedes right = true :=
  List.pairwise_mergeSort Placed.precedes_trans
    Placed.precedes_total companies.zipIdx

section Tied

variable
    (companies : List Company)

/-- Companies of one priority are ranked in the order in which they are given. -/
theorem filter_isTiedWith_rankPlaced
    (company : Company) :
    (rankPlaced companies).filter (Placed.isTiedWith company) =
      companies.zipIdx.filter (Placed.isTiedWith company) := by
  have tied :
      (companies.zipIdx.filter
        (Placed.isTiedWith company)).Pairwise fun left right =>
          left.precedes right = true := by
    refine List.pairwise_of_forall_mem_list ?_
    intro left leftMember right rightMember
    exact
      Placed.precedes_of_isTiedWith (List.mem_filter.mp leftMember).2
        (List.mem_filter.mp rightMember).2
  -- The sort is stable: those who are in order already stay as they are.
  have inRanking :=
    List.sublist_mergeSort Placed.precedes_trans
      Placed.precedes_total tied List.filter_sublist
  have amongTied := inRanking.filter (Placed.isTiedWith company)
  simp only [List.filter_filter, Bool.and_self] at amongTied
  have sorted :
      (rankPlaced companies).Perm companies.zipIdx :=
    List.mergeSort_perm _ _
  have sameLength :=
    (sorted.filter (Placed.isTiedWith company)).length_eq
  exact (amongTied.eq_of_length sameLength.symm).symm

/-- Of two companies of one priority the one at the earlier place is ranked first. -/
theorem rankPlaced_pairwise_place :
    (rankPlaced companies).Pairwise fun left right =>
      left.1.comparePriority right.1 = .eq → left.2 < right.2 := by
  rw [List.pairwise_iff_forall_sublist]
  intro left right inRanking tied
  have places :
      companies.zipIdx.Pairwise fun left right =>
        left.2 < right.2 := by
    rw [← List.pairwise_map, List.zipIdx_map_snd]
    exact List.pairwise_lt_range' 1
  have itself : left.isTiedWith left.1 = true :=
    decide_eq_true
      (Company.comparePriority_eq_eq_iff.mpr ⟨rfl, rfl⟩)
  have other : right.isTiedWith left.1 = true :=
    decide_eq_true tied
  have amongTied := inRanking.filter (Placed.isTiedWith left.1)
  rw [List.filter_cons_of_pos itself, List.filter_cons_of_pos other,
    List.filter_nil, filter_isTiedWith_rankPlaced] at amongTied
  exact
    List.pairwise_iff_forall_sublist.mp places
      (amongTied.trans List.filter_sublist)

end Tied

section Distinct

variable
    {companies : List Company}

/-- Ranking keeps ids distinct. -/
theorem nodup_ids_ranked
    (distinct : (companies.map Company.id).Nodup) :
    ((ranked companies).map Company.id).Nodup :=
  (((ranked_perm companies).map Company.id).nodup_iff).mpr distinct

/-- Companies with distinct ids are ranked strictly. -/
theorem ranked_pairwise
    (distinct : (companies.map Company.id).Nodup) :
    (ranked companies).Pairwise fun left right =>
      left.comparePriority right = .lt := by
  have distinctRanked := nodup_ids_ranked distinct
  rw [List.Nodup, List.pairwise_map, ranked,
    List.pairwise_map] at distinctRanked
  rw [ranked, List.pairwise_map]
  refine (distinctRanked.and (rankPlaced_pairwise companies)).imp ?_
  rintro left right ⟨differ, precedes⟩
  rcases Placed.precedes_iff.mp precedes with ahead | same
  · exact ahead
  · exact (differ
      (Company.comparePriority_eq_eq_iff.mp same).2).elim

/-- The ranking does not depend on the order in which companies are given. -/
theorem ranked_eq_of_perm
    {others : List Company}
    (distinct : (companies.map Company.id).Nodup)
    (sameCompanies : companies.Perm others) :
    ranked companies = ranked others := by
  have distinctOthers : (others.map Company.id).Nodup :=
    ((sameCompanies.map Company.id).nodup_iff).mp distinct
  refine List.Perm.eq_of_pairwise ?_ (ranked_pairwise distinct)
    (ranked_pairwise distinctOthers) ?_
  · intro left right _ _ ahead behind
    exact (Company.comparePriority_asymm ahead behind).elim
  · exact ((ranked_perm companies).trans sameCompanies).trans
      (ranked_perm others).symm

end Distinct

section Ranks

variable
    {companies others before after : List Company}
    {company : Company}

/-- In ranking order, those ahead of a company are the ones before it. -/
theorem filter_ahead_eq
    (ordered :
      (before ++ company :: after).Pairwise fun left right =>
        left.comparePriority right = .lt) :
    (before ++ company :: after).filter
        (fun other => decide (other.comparePriority company = .lt)) =
      before := by
  obtain ⟨-, fromCompany, ahead⟩ := List.pairwise_append.mp ordered
  obtain ⟨behind, -⟩ := List.pairwise_cons.mp fromCompany
  have allAhead :
      before.filter
          (fun other => decide (other.comparePriority company = .lt)) =
        before := by
    rw [List.filter_eq_self]
    intro other member
    exact decide_eq_true (ahead other member company List.mem_cons_self)
  have noneAhead :
      (company :: after).filter
          (fun other => decide (other.comparePriority company = .lt)) =
        [] := by
    rw [List.filter_eq_nil_iff]
    intro other member isAhead
    have otherAhead := of_decide_eq_true isAhead
    rcases List.mem_cons.mp member with same | later
    · subst same
      exact Company.comparePriority_asymm otherAhead otherAhead
    · exact Company.comparePriority_asymm otherAhead
        (behind other later)
  rw [List.filter_append, allAhead, noneAhead, List.append_nil]

/-- The companies ahead of a given one fix everything before it in the ranking. -/
theorem exists_common_ranking
    (distinct : (companies.map Company.id).Nodup)
    (distinctOthers : (others.map Company.id).Nodup)
    (member : company ∈ companies)
    (memberOthers : company ∈ others)
    (sameAhead :
      ∀ other : Company,
        other.comparePriority company = .lt →
        (other ∈ companies ↔ other ∈ others)) :
    ∃ before after afterOthers,
      ranked companies = before ++ company :: after ∧
        ranked others = before ++ company :: afterOthers := by
  obtain ⟨before, after, shape⟩ :=
    List.mem_iff_append.mp
      ((ranked_perm companies).mem_iff.mpr member)
  obtain ⟨beforeOthers, afterOthers, shapeOthers⟩ :=
    List.mem_iff_append.mp
      ((ranked_perm others).mem_iff.mpr memberOthers)
  have ordered := ranked_pairwise distinct
  have orderedOthers := ranked_pairwise distinctOthers
  have isBefore := filter_ahead_eq (shape ▸ ordered)
  have isBeforeOthers := filter_ahead_eq (shapeOthers ▸ orderedOthers)
  rw [← shape] at isBefore
  rw [← shapeOthers] at isBeforeOthers
  have sameBefore : before = beforeOthers := by
    rw [← isBefore, ← isBeforeOthers]
    refine List.Perm.eq_of_pairwise ?_ (ordered.filter _)
      (orderedOthers.filter _) ?_
    · intro left right _ _ ahead behind
      exact (Company.comparePriority_asymm ahead behind).elim
    · refine (List.perm_ext_iff_of_nodup
        (.filter _ (.of_map _ (nodup_ids_ranked distinct)))
        (.filter _ (.of_map _ (nodup_ids_ranked distinctOthers)))).mpr
          ?_
      intro other
      simp only [List.mem_filter, (ranked_perm _).mem_iff,
        decide_eq_true_eq]
      exact and_congr_left (sameAhead other)
  subst sameBefore
  exact ⟨before, after, afterOthers, shape, shapeOthers⟩

end Ranks

end FollowOn
