/-!
# Powers

The powers of two and of ten that numbers are scaled by.
-/

namespace Dialogue.Number

def twoTo (n : Nat) : Nat := Nat.pow 2 n

def tenTo (n : Nat) : Nat := Nat.pow 10 n

end Dialogue.Number
