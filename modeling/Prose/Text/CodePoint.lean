/- Sets of code points. A class of characters is written down as the list of its
   runs, each run by its first and last code point, in increasing order; that
   order is what lets a look-up stop at the first run that starts too late. -/
namespace Prose.Text

/-- A set of code points as increasing runs, each by its first and last member. -/
abbrev CodeRuns := List (Nat × Nat)

/-- Membership. The search ends at the first run that starts above the code point. -/
def CodeRuns.contains : CodeRuns → Nat → Bool
  | [], _ => false
  | (first, last) :: later, n =>
    if n < first then false else if n ≤ last then true else CodeRuns.contains later n

end Prose.Text
