import FollowOn.Proofs.Json.ReadBack
import FollowOn.Proofs.Json.Record

namespace FollowOn.Json

/-!
# Written records are read back

A record is read back as its members are. The members that are written are
found one after the other by their names, which have to be distinct; one that
is left out gets the value that it has when it is missing.
-/

/-- A member is read back if it is written, and else is the value of a missing one. -/
structure Member.ReadsBack
    (member : Member α)
    (fits : α → Prop) : Prop where
  missing_of_leftOut :
    ∀ ⦃value : α⦄,
      member.leftOut value = true → member.missing = some value
  read_write_append :
    ∀ ⦃value : α⦄ ⦃rest : List Char⦄,
      fits value →
      member.leftOut value = false →
      EndsValue rest →
      member.codec.read (member.codec.write value ++ rest) =
        .ok (value, rest)

section Member

variable
    {codec : Codec α}
    {fits : α → Prop}
    (readsBack : codec.ReadsBack fits)
    (name : String)

include readsBack

/-- A member that is always written is read back. -/
theorem Member.readsBack_required :
    (Member.required name codec).ReadsBack fits where
  missing_of_leftOut _ isLeftOut := by cases isLeftOut
  read_write_append _ _ fitting _ ends :=
    readsBack.read_write_append fitting ends

/-- A member with a usual value is read back, whatever is usual. -/
theorem Member.readsBack_defaulted
    (usual : α) :
    (Member.defaulted name codec usual).ReadsBack fits where
  missing_of_leftOut _ isLeftOut := by cases isLeftOut
  read_write_append _ _ fitting _ ends :=
    readsBack.read_write_append fitting ends

/-- A member that is left out is read back as absent. -/
theorem Member.readsBack_optional :
    (Member.optional name codec).ReadsBack fun held =>
      ∀ value ∈ held, fits value where
  missing_of_leftOut held isNone := by
    rw [Option.isNone_iff_eq_none.mp isNone]
    rfl
  read_write_append held rest fitting isSome ends := by
    cases held with
    | none => cases isSome
    | some value =>
        have valueFits := fitting value rfl
        obtain ⟨first, others, isWritten, opens⟩ :=
          readsBack.write_eq_cons valueFits
        have read := readsBack.read_write_append valueFits ends
        simp only [Member.optional, Codec.optional]
        rw [isWritten, List.cons_append] at read ⊢
        simp only [opens.skipBlanks_cons]
        split
        · rename_i isNull
          injection isNull with isLetter
          exact (opens.ne_null isLetter).elim
        · simp only [read, bind, Except.bind]

/-- A list that is left out when it is empty is read back as empty. -/
theorem Member.readsBack_nonempty :
    (Member.nonempty name codec).ReadsBack fun values =>
      ∀ value ∈ values, fits value where
  missing_of_leftOut values isEmpty := by
    rw [List.isEmpty_iff.mp isEmpty]
    rfl
  read_write_append _ _ fitting _ ends :=
    readsBack.list.read_write_append fitting ends

end Member

section Object

variable
    (member : String → δ → Reader δ)
    (held : δ)
    (name : String)
    (text : List Char)

/-- A member with a written name is read after the opening brace. -/
theorem readObject_writeString :
    readObject member held (writeString name ++ text) = (do
      let (read, after) ← member name held text
      readMembers member after.length read after) := by
  simp only [readObject, writeString, List.cons_append,
    List.append_assoc, List.nil_append,
    opensValue_quote.skipBlanks_cons, readStringBody_append]
  rfl

/-- A member with a written name is read after a comma. -/
theorem readMembers_comma_writeString
    (steps : Nat) :
    readMembers member (steps + 1) held
        (',' :: (writeString name ++ text)) = (do
      let (read, after) ← member name held text
      readMembers member steps read after) := by
  simp only [readMembers, writeString, List.cons_append,
    List.append_assoc, List.nil_append, skipBlanks_comma,
    opensValue_quote.skipBlanks_cons, readStringBody_append]
  rfl

end Object

namespace Members

/-- What is read where some values are written. -/
def filled : Members τ δ → τ → δ
  | .nil, () => ()
  | .cons member others, (value, values) =>
      (if member.leftOut value then none else some value,
        others.filled values)

/-- `member` reads members by name into their own part of all that is read. -/
def ReadWithin
    (members : Members τ δ)
    (member : String → ω → Reader ω)
    (put : δ → ω) : Prop :=
  ∀ name ∈ members.names, ∀ (held : δ) (text : List Char),
    member name (put held) text =
      (members.readMember name held text).map (Prod.map put id)

/-- A record reads its own members. -/
theorem readWithin_self
    (members : Members τ δ) :
    members.ReadWithin (fun name => members.readMember name) id := by
  intro name _ held text
  change members.readMember name held text = _
  cases members.readMember name held text <;> rfl

/-- Members that are read within a whole are so after the first of them. -/
theorem ReadWithin.others
    {first : Member α}
    {others : Members τ δ}
    {member : String → ω → Reader ω}
    {put : Option α × δ → ω}
    (within : (Members.cons first others).ReadWithin member put)
    (fresh : first.name ∉ others.names)
    (held : Option α) :
    others.ReadWithin member fun rest => put (held, rest) := by
  intro name isName rest text
  have notFirst : first.name ≠ name := by
    rintro rfl
    exact fresh isName
  rw [within name (List.mem_cons_of_mem _ isName)]
  simp only [readMember, if_neg notFirst]
  cases others.readMember name rest text <;> rfl

/-- The first of some members is read into its place if that is free. -/
theorem ReadWithin.first
    {first : Member α}
    {others : Members τ δ}
    {member : String → ω → Reader ω}
    {put : Option α × δ → ω}
    (within : (Members.cons first others).ReadWithin member put)
    {rest : δ}
    {value : α}
    {text left : List Char}
    (read : first.codec.read text = .ok (value, left)) :
    member first.name (put (none, rest)) (':' :: text) =
      .ok (put (some value, rest), left) := by
  have atColon : afterColon (':' :: text) = .ok text := rfl
  rw [within first.name List.mem_cons_self]
  simp only [readMember, if_true, atColon, bind, Except.bind, read]
  rfl

/-- The values of members that fit are read back from an object. -/
structure ReadsBack
    (members : Members τ δ)
    (fits : τ → Prop) : Prop where
  complete_filled :
    ∀ ⦃values : τ⦄,
      fits values →
      members.complete (members.filled values) = .ok values
  readMembers_afterFirst :
    ∀ {ω : Type} {member : String → ω → Reader ω} {put : δ → ω}
      ⦃values : τ⦄ ⦃steps : Nat⦄ (rest : List Char),
      members.ReadWithin member put →
      fits values →
      (members.written values).length < steps →
      readMembers member steps (put members.blank)
          (afterFirst (members.written values) ++ '}' :: rest) =
        .ok (put (members.filled values), rest)
  readObject_joined :
    ∀ {ω : Type} {member : String → ω → Reader ω} {put : δ → ω}
      ⦃values : τ⦄ (rest : List Char),
      members.ReadWithin member put →
      fits values →
      readObject member (put members.blank)
          (joined (members.written values) ++ '}' :: rest) =
        .ok (put (members.filled values), rest)

/-- A record without members is read back. -/
theorem readsBack_nil :
    Members.nil.ReadsBack fun _ => True where
  complete_filled _ _ := rfl
  readMembers_afterFirst := by
    intro _ _ _ _ steps _ _ _ enough
    cases steps with
    | zero => exact (Nat.not_lt_zero _ enough).elim
    | succ steps => rfl
  readObject_joined _ _ _ := rfl

/-- A member in front of others is read back with them if its name is not theirs. -/
theorem ReadsBack.cons
    {first : Member α}
    {others : Members τ δ}
    {fits : α → Prop}
    {othersFit : τ → Prop}
    (readsBack : first.ReadsBack fits)
    (othersReadBack : others.ReadsBack othersFit)
    (fresh : first.name ∉ others.names := by decide) :
    (Members.cons first others).ReadsBack fun values =>
      fits values.1 ∧ othersFit values.2 where
  complete_filled := by
    rintro ⟨value, values⟩ ⟨-, restFits⟩
    have completed := othersReadBack.complete_filled restFits
    simp only [filled]
    split
    · rename_i isLeftOut
      simp only [complete, Option.none_or,
        readsBack.missing_of_leftOut isLeftOut, completed, bind,
        Except.bind]
    · simp only [complete, Option.some_or, completed, bind,
        Except.bind]
  readMembers_afterFirst := by
    rintro ω member put ⟨value, values⟩ steps rest within
      ⟨valueFits, restFits⟩ enough
    simp only [written, filled, blank] at enough ⊢
    split at enough <;> rename_i isLeftOut
    · rw [if_pos isLeftOut, if_pos isLeftOut]
      exact othersReadBack.readMembers_afterFirst rest
        (within.others fresh none) restFits enough
    · rw [if_neg isLeftOut, if_neg isLeftOut]
      cases steps with
      | zero => exact (Nat.not_lt_zero _ enough).elim
      | succ steps =>
          have readValue :=
            readsBack.read_write_append valueFits
              (Bool.eq_false_iff.mpr isLeftOut)
              (endsValue_afterFirst (Or.inl rfl)
                (others.written values) rest)
          have readOthers :=
            othersReadBack.readMembers_afterFirst rest
              (within.others fresh (some value)) restFits
              (Nat.lt_of_succ_lt_succ enough)
          rw [afterFirst_cons, List.cons_append, List.append_assoc,
            List.append_assoc, readMembers_comma_writeString,
            List.cons_append, within.first readValue]
          exact readOthers
  readObject_joined := by
    rintro ω member put ⟨value, values⟩ rest within
      ⟨valueFits, restFits⟩
    simp only [written, filled, blank]
    split <;> rename_i isLeftOut
    · exact othersReadBack.readObject_joined rest
        (within.others fresh none) restFits
    · have readValue :=
        readsBack.read_write_append valueFits
          (Bool.eq_false_iff.mpr isLeftOut)
          (endsValue_afterFirst (Or.inl rfl)
            (others.written values) rest)
      have readOthers :=
        othersReadBack.readMembers_afterFirst rest
          (within.others fresh (some value)) restFits
          (length_lt_afterFirst _ '}' rest)
      rw [joined_cons, List.append_assoc, List.append_assoc,
        readObject_writeString, List.cons_append,
        within.first readValue]
      exact readOthers

end Members

/-- A record whose members are read back is read back. -/
theorem Codec.readsBack_record
    {members : Members τ δ}
    {valuesFit : τ → Prop}
    (readsBack : members.ReadsBack valuesFit)
    (name : String)
    {build : τ → α}
    {values : α → τ}
    (build_values : ∀ record, build (values record) = record)
    {fits : α → Prop}
    (values_fit : ∀ record, fits record → valuesFit (values record)) :
    (Codec.record name members build values).ReadsBack fits where
  write_eq_cons _ _ := ⟨'{', _, rfl, opensValue_brace⟩
  read_write_append record rest fitting _ := by
    have membersFit := values_fit record fitting
    have read :=
      readsBack.readObject_joined rest members.readWithin_self membersFit
    simp only [id] at read
    simp only [Codec.record, List.cons_append, List.append_assoc,
      List.nil_append, opensValue_brace.skipBlanks_cons, read, bind,
      Except.bind, readsBack.complete_filled membersFit, build_values]

end FollowOn.Json
