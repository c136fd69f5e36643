namespace FollowOn

/-!
# Powers and sums

A power of numbers and the sum of a list mean the same in every module of
this library, whatever else the module imports: powers are those of the
numbers themselves, and the empty sum is the literal zero.
-/

attribute [scoped instance (20000)] instPowNat Zero.ofOfNat0

attribute [default_instance (20000)] instPowNat

end FollowOn
