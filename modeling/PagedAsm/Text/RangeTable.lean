/-!
# Sets of code points as sorted ranges

A character property of the Unicode standard is a union of closed intervals of code points.
`RangeTable` keeps them sorted and disjoint; membership is a binary search. The declarative
reading is `RangeTable.Mem`: some interval holds the code point.
-/

namespace PagedAsm

/-- A set of code points as sorted, disjoint, inclusive intervals `(first, last)`. -/
structure RangeTable where
  ranges : Array (Nat × Nat)

namespace RangeTable

/-- The code point `n` lies in one of the intervals. -/
def Mem (t : RangeTable) (n : Nat) : Prop :=
  ∃ r ∈ t.ranges.toList, r.1 ≤ n ∧ n ≤ r.2

/-- Binary search for `n` among the intervals with index in `[lo, hi)`. -/
def search (t : RangeTable) (n : Nat) (lo hi : Nat) : Bool :=
  if h : lo < hi ∧ hi ≤ t.ranges.size then
    let mid := (lo + hi) / 2
    have hmid : mid < t.ranges.size := by omega
    let r := t.ranges[mid]
    if n < r.1 then t.search n lo mid
    else if r.2 < n then t.search n (mid + 1) hi
    else true
  else false
termination_by hi - lo

def containsNat (t : RangeTable) (n : Nat) : Bool :=
  t.search n 0 t.ranges.size

def contains (t : RangeTable) (c : Char) : Bool :=
  t.containsNat c.toNat

end RangeTable

end PagedAsm
