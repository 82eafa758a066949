/-!
# Character classes

A class of characters is kept as the ascending list of the code points at which
membership changes, starting from outside. A character is in the class when an odd
number of changes lie at or below it.
-/

namespace Aspects.Text

/-- A class of characters, given by the code points at which membership changes. -/
structure CharClass where
  changes : List Nat

namespace CharClass

/-- Membership after the changes at or below `n`, starting from `inside`. -/
def insideAfter (n : Nat) : Bool → List Nat → Bool
  | inside, [] => inside
  | inside, m :: ms => if m ≤ n then insideAfter n (!inside) ms else inside

/-- Is the character in the class? -/
def contains (k : CharClass) (c : Char) : Bool :=
  insideAfter c.toNat false k.changes

end CharClass

end Aspects.Text
