/-!
Powers with a natural exponent. The power of naturals and of integers is repeated multiplication,
`Nat.pow` and `Int.pow`, in every module that imports this one: other readings of `^` on them are
equal to it and yield to it.
-/

attribute [instance (high), default_instance (high)] instPowNat
