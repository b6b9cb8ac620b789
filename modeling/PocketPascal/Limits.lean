/-! # Limits

How much an analysis accepts before it complains.
-/

namespace PocketPascal

/-- The longest identifier and the deepest nesting that are accepted; any numbers will do, also
negative ones. -/
structure Limits where
  identifierLength : Int := 16
  nestingDepth : Int := 64
  deriving DecidableEq

/-- The largest nesting depth that settings may ask for. -/
def Limits.nestingCeiling : Nat := 128

end PocketPascal
