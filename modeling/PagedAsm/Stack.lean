/-!
# Stacks

A last-in, first-out stack. The bracket tree keeps its open scopes on one. `toList` lists the
items from the top down; each operation is pinned down by what it does to that view.
-/

namespace PagedAsm

/-- A stack; `toList` holds the items from the top down. -/
structure Stack (α : Type) where
  toList : List α
  deriving Repr

namespace Stack

variable {α : Type}

def empty : Stack α := ⟨[]⟩

def size (s : Stack α) : Nat := s.toList.length

def isEmpty (s : Stack α) : Bool := s.toList.isEmpty

def push (s : Stack α) (a : α) : Stack α := ⟨a :: s.toList⟩

def top? (s : Stack α) : Option α := s.toList.head?

def pop? (s : Stack α) : Option (α × Stack α) :=
  match s.toList with
  | [] => none
  | a :: rest => some (a, ⟨rest⟩)

@[simp] theorem toList_push (s : Stack α) (a : α) : (s.push a).toList = a :: s.toList := rfl

@[simp] theorem size_push (s : Stack α) (a : α) : (s.push a).size = s.size + 1 := rfl

@[simp] theorem top?_push (s : Stack α) (a : α) : (s.push a).top? = some a := rfl

@[simp] theorem pop?_push (s : Stack α) (a : α) : (s.push a).pop? = some (a, s) := rfl

@[simp] theorem pop?_empty : (empty : Stack α).pop? = none := rfl

end Stack

end PagedAsm
