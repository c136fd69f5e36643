import FollowOn.Json.Record
import FollowOn.Proofs.Json.Codec

namespace FollowOn.Json

/-!
# Written records tell themselves apart

A record is determined as its members are: each of them is found by its name,
and one that is left out says so by its absence. For this the names of the
members have to be distinct.
-/

/-- Values of a member are related exactly if both are left out, or written alike. -/
structure Member.Determines
    (member : Member α)
    (related : α → α → Prop) : Prop where
  leftOut_eq :
    ∀ ⦃first second : α⦄,
      related first second →
      member.leftOut first = member.leftOut second
  write_eq :
    ∀ ⦃first second : α⦄,
      related first second →
      member.codec.write first = member.codec.write second
  of_leftOut :
    ∀ ⦃first second : α⦄,
      member.leftOut first = true →
      member.leftOut second = true →
      related first second
  write_append_inj :
    ∀ ⦃first second : α⦄ ⦃firstRest secondRest : List Char⦄,
      member.leftOut first = false →
      member.leftOut second = false →
      EndsValue firstRest →
      EndsValue secondRest →
      member.codec.write first ++ firstRest =
        member.codec.write second ++ secondRest →
      related first second ∧ firstRest = secondRest

/-- A member that is always written is determined as its codec determines it. -/
theorem Member.determines_of_leftOut_eq_false
    {member : Member α}
    {related : α → α → Prop}
    (determines : member.codec.Determines related)
    (neverLeftOut : ∀ value, member.leftOut value = false) :
    member.Determines related where
  leftOut_eq first second _ := by
    rw [neverLeftOut first, neverLeftOut second]
  write_eq := determines.write_eq
  of_leftOut first _ isLeftOut := by
    rw [neverLeftOut first] at isLeftOut
    cases isLeftOut
  write_append_inj _ _ _ _ _ _ ends secondEnds same :=
    determines.write_append_inj ends secondEnds same

section Member

variable
    {codec : Codec α}
    {related : α → α → Prop}
    (determines : codec.Determines related)
    (name : String)

include determines

/-- A member that is always written determines its value. -/
theorem Member.determines_required :
    (Member.required name codec).Determines related :=
  determines_of_leftOut_eq_false determines fun _ => rfl

/-- A member with a usual value is written all the same, and determines it. -/
theorem Member.determines_defaulted
    (value : α) :
    (Member.defaulted name codec value).Determines related :=
  determines_of_leftOut_eq_false determines fun _ => rfl

/-- A member that is left out is told from one that is there. -/
theorem Member.determines_optional :
    (Member.optional name codec).Determines (Option.Rel related) where
  leftOut_eq _ _ areRelated := by cases areRelated <;> rfl
  write_eq _ _ areRelated := by
    cases areRelated with
    | none => rfl
    | some valuesRelated => exact determines.write_eq valuesRelated
  of_leftOut first second isNone secondIsNone := by
    rw [Option.isNone_iff_eq_none.mp isNone,
      Option.isNone_iff_eq_none.mp secondIsNone]
    exact .none
  write_append_inj := by
    intro first second _ _ isSome secondIsSome ends secondEnds same
    cases first with
    | none => cases isSome
    | some value =>
        cases second with
        | none => cases secondIsSome
        | some other =>
            obtain ⟨valuesRelated, sameRest⟩ :=
              determines.write_append_inj ends secondEnds same
            exact ⟨.some valuesRelated, sameRest⟩

end Member

/-- Equal or both absent is equal. -/
theorem optionRel_eq :
    Option.Rel ((· = ·) : α → α → Prop) = (· = ·) := by
  funext first second
  apply propext
  constructor
  · intro areRelated
    cases areRelated with
    | none => rfl
    | some sameValue => rw [sameValue]
  · rintro rfl
    cases first with
    | none => exact .none
    | some value => exact .some rfl

/-- A member that may be left out determines its value if its codec does. -/
theorem Member.determines_optional_eq
    {codec : Codec α}
    (determines : codec.Determines (· = ·))
    (name : String) :
    (Member.optional name codec).Determines (· = ·) := by
  have optional := Member.determines_optional determines name
  rwa [optionRel_eq] at optional

namespace Members

/-- The names of the members, in the order in which they are written. -/
def names : Members τ δ → List String
  | .nil => []
  | .cons member others => member.name :: others.names

/-- Values of members are related exactly if they are written alike up to the brace. -/
structure Determines
    (members : Members τ δ)
    (related : τ → τ → Prop) : Prop where
  written_eq :
    ∀ ⦃first second : τ⦄,
      related first second →
      members.written first = members.written second
  written_append_inj :
    ∀ ⦃first second : τ⦄ ⦃firstRest secondRest : List Char⦄,
      joined (members.written first) ++ '}' :: firstRest =
        joined (members.written second) ++ '}' :: secondRest →
      related first second ∧ firstRest = secondRest

/-- A record without members has one text. -/
theorem determines_nil :
    Members.nil.Determines fun _ _ => True where
  written_eq _ _ _ := rfl
  written_append_inj _ _ _ _ same := by
    injection same with _ sameRest
    exact ⟨trivial, sameRest⟩

/-- What is written of a member starts with its name. -/
theorem exists_name_of_mem_written
    {members : Members τ δ}
    {values : τ}
    {item : List Char}
    (member : item ∈ members.written values) :
    ∃ name ∈ members.names, ∃ rest,
      item = writeString name ++ ':' :: rest := by
  induction members with
  | nil =>
      cases member
  | cons first others inductionHypothesis =>
      obtain ⟨value, values⟩ := values
      simp only [written] at member
      split at member
      · obtain ⟨name, inOthers, isItem⟩ := inductionHypothesis member
        exact ⟨name, List.mem_cons_of_mem _ inOthers, isItem⟩
      · rcases List.mem_cons.mp member with isFirst | inOthers
        · exact ⟨first.name, List.mem_cons_self, _, isFirst⟩
        · obtain ⟨name, inOthers, isItem⟩ :=
            inductionHypothesis inOthers
          exact ⟨name, List.mem_cons_of_mem _ inOthers, isItem⟩

/-- Members without a certain name are not written like one that has it. -/
theorem joined_written_ne
    {members : Members τ δ}
    {name : String}
    (fresh : name ∉ members.names)
    (values : τ)
    (rest tail : List Char) :
    joined (members.written values) ++ '}' :: rest ≠
      writeString name ++ ':' :: tail := by
  intro same
  cases isWritten : members.written values with
  | nil =>
      rw [isWritten] at same
      injection same with isQuote
      cases isQuote
  | cons item items =>
      have first : item ∈ members.written values := by
        rw [isWritten]
        exact List.mem_cons_self
      obtain ⟨other, isName, otherTail, isItem⟩ :=
        exists_name_of_mem_written first
      rw [isWritten, joined_cons, isItem, List.append_assoc,
        List.append_assoc] at same
      obtain ⟨sameName, -⟩ := writeString_append_inj same
      exact fresh (sameName ▸ isName)

/-- A member in front of others is determined with them if its name is not theirs. -/
theorem Determines.cons
    {member : Member α}
    {others : Members τ δ}
    {related : α → α → Prop}
    {othersRelated : τ → τ → Prop}
    (determines : member.Determines related)
    (othersDetermine : others.Determines othersRelated)
    (fresh : member.name ∉ others.names := by decide) :
    (Members.cons member others).Determines fun first second =>
      related first.1 second.1 ∧
        othersRelated first.2 second.2 where
  written_eq := by
    rintro ⟨value, values⟩ ⟨other, otherValues⟩
      ⟨firstRelated, restRelated⟩
    simp only [written, determines.leftOut_eq firstRelated,
      determines.write_eq firstRelated,
      othersDetermine.written_eq restRelated]
  written_append_inj := by
    rintro ⟨value, values⟩ ⟨other, otherValues⟩ rest otherRest same
    simp only [written] at same
    split at same <;> rename_i valueOut <;> split at same <;>
      rename_i otherOut
    · obtain ⟨restRelated, sameRest⟩ :=
        othersDetermine.written_append_inj same
      exact
        ⟨⟨determines.of_leftOut valueOut otherOut, restRelated⟩,
          sameRest⟩
    · rw [joined_cons, List.append_assoc, List.append_assoc] at same
      exact (joined_written_ne fresh values _ _ same).elim
    · rw [joined_cons, List.append_assoc, List.append_assoc] at same
      exact (joined_written_ne fresh otherValues _ _ same.symm).elim
    · simp only [joined_cons, List.append_assoc] at same
      obtain ⟨-, sameAfterName⟩ := writeString_append_inj same
      injection sameAfterName with _ sameWritten
      obtain ⟨valuesRelated, sameAfter⟩ :=
        determines.write_append_inj (Bool.eq_false_iff.mpr valueOut)
          (Bool.eq_false_iff.mpr otherOut)
          (endsValue_afterFirst (Or.inl rfl) _ _)
          (endsValue_afterFirst (Or.inl rfl) _ _)
          (by simpa using sameWritten)
      obtain ⟨restRelated, sameRest⟩ :=
        othersDetermine.written_append_inj
          (joined_append_of_afterFirst (Or.inl rfl) sameAfter)
      exact ⟨⟨valuesRelated, restRelated⟩, sameRest⟩

end Members

/--
A record is determined up to what its members determine of it.

`related` says this of the record itself.
-/
theorem Codec.determines_record
    {members : Members τ δ}
    {valuesRelated : τ → τ → Prop}
    (determines : members.Determines valuesRelated)
    (name : String)
    (build : τ → α)
    {values : α → τ}
    {related : α → α → Prop}
    (related_iff :
      ∀ first second,
        related first second ↔
          valuesRelated (values first) (values second)) :
    (Codec.record name members build values).Determines related where
  write_eq first second areRelated := by
    have sameWritten :=
      determines.written_eq ((related_iff first second).mp areRelated)
    simp only [Codec.record, sameWritten]
  write_append_inj first second firstRest secondRest _ _ same := by
    simp only [Codec.record, List.cons_append, List.append_assoc,
      List.nil_append, List.cons.injEq, true_and] at same
    rw [related_iff]
    exact determines.written_append_inj same

end FollowOn.Json
