namespace FollowOn.Text

/-!
# White space

The characters with the Unicode property `White_Space`. A text is blank when
it holds no other character.
-/

/-- Whether a character is Unicode white space. -/
def isWhiteSpace (character : Char) : Bool :=
  let code := character.toNat
  (0x09 ≤ code && code ≤ 0x0d) ||
    code == 0x20 || code == 0x85 || code == 0xa0 || code == 0x1680 ||
    (0x2000 ≤ code && code ≤ 0x200a) ||
    code == 0x2028 || code == 0x2029 || code == 0x202f ||
    code == 0x205f || code == 0x3000

/-- Whether a text holds nothing but white space. -/
def isBlank (text : String) : Bool :=
  text.toList.all isWhiteSpace

/-- A text is blank exactly if each of its characters is white space. -/
theorem isBlank_eq_true_iff
    (text : String) :
    isBlank text = true ↔
      ∀ character ∈ text.toList,
        isWhiteSpace character = true := by
  simp [isBlank]

end FollowOn.Text
