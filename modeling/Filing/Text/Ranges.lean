/-!
# Sets of code points

A Unicode property is stored as the list of the closed ranges of code points that have it, in
increasing order. Membership is the definition one would write on paper: some range holds the
code point.
-/

namespace Filing.Text

/-- A set of code points, given by closed ranges. -/
abbrev Ranges := List (Nat × Nat)

/-- The code point of `c` lies in one of the ranges. -/
def Ranges.holds (ranges : Ranges) (c : Char) : Bool :=
  ranges.any fun (low, high) => low ≤ c.toNat && c.toNat ≤ high

end Filing.Text
