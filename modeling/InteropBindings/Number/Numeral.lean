/-!
# Numerals
-/

namespace InteropBindings.Number

/-- The decimal numeral of a count. -/
def numeral (n : Nat) : String := String.ofList (Nat.toDigits 10 n)

end InteropBindings.Number
