/-!
# Coordinates

The arithmetic that placing needs. Layouts are computed in floats; the same definitions work for any
numbers with these operations.
-/

namespace Dialogue.Layout

/-- Numbers that positions and heights are made of. -/
class Coordinate (α : Type) extends Add α, Sub α, Mul α where
  /-- The number of a count. -/
  ofCount : Nat → α
  /-- Half of a number. -/
  half : α → α
  /-- Whether the first number is less than the second. -/
  isBelow : α → α → Bool
  /-- The larger of two numbers. -/
  larger : α → α → α

/-- The larger of two floats. What is no number gives way to the other. -/
def largerFloat (x y : Float) : Float :=
  if x.isNaN then y
  else if y.isNaN then x
  else if x < y then y else x

instance : Coordinate Float where
  ofCount := Float.ofNat
  half x := x / 2
  isBelow x y := x < y
  larger := largerFloat

end Dialogue.Layout
