/-!
# Scanners

A scanner looks at the front of a sequence and says how many items it accepts there; `0` means
it does not match. Scanners combine: `allOf` needs every part to match and accepts as much as
the longest, `firstOf` takes the first part that matches, `many` repeats a scanner as long as
it accepts something.
-/

namespace PagedAsm

/-- The number of items a scanner accepts at the front of a sequence; `0` is no match. -/
abbrev Scanner (α : Type) := List α → Nat

namespace Scanner

variable {α : Type}

def unit [BEq α] (word : List α) : Scanner α := fun items =>
  if word.isPrefixOf items then word.length else 0

def oneOf [BEq α] (set : List α) : Scanner α
  | [] => 0
  | x :: _ => if set.contains x then 1 else 0

def noneOf [BEq α] (set : List α) : Scanner α
  | [] => 0
  | x :: _ => if set.contains x then 0 else 1

def upTo [BEq α] (stop : α) : Scanner α := fun items =>
  (items.takeWhile (· != stop)).length

def endOfInput : Scanner α
  | [] => 1
  | _ :: _ => 0

def manyFrom (s : Scanner α) (items : List α) (acc : Nat) : Nat :=
  match items with
  | [] => acc
  | x :: xs =>
    let n := s (x :: xs)
    if h : n = 0 then acc
    else
      have : 0 < n := Nat.pos_of_ne_zero h
      manyFrom s ((x :: xs).drop n) (acc + n)
termination_by items.length
decreasing_by simp only [List.length_drop, List.length_cons]; omega

/-- Zero or more repetitions of `s`. -/
def many (s : Scanner α) : Scanner α := fun items => manyFrom s items 0

def allOfFrom (items : List α) : List (Scanner α) → Nat → Nat
  | [], acc => acc
  | p :: ps, acc =>
    let n := p items
    if n = 0 then 0 else allOfFrom items ps (max acc n)

/-- Every part must match; accepts as much as the longest part. No parts match nothing. -/
def allOf (parts : List (Scanner α)) : Scanner α := fun items =>
  allOfFrom items parts 0

/-- The first part that matches. -/
def firstOf : List (Scanner α) → Scanner α
  | [], _ => 0
  | p :: ps, items =>
    let n := p items
    if n = 0 then firstOf ps items else n

end Scanner

end PagedAsm
