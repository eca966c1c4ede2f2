/-!
# Spans of source text

A span is a half-open interval `[start, stop)` of character positions in a source text. Every
token, scope and diagnostic carries one. Joining two spans gives the least span that covers
both.
-/

namespace PagedAsm

/-- The characters `[start, stop)` of a source text, counted in code points. -/
structure Span where
  start : Nat
  stop : Nat
  le : start ≤ stop := by omega
  deriving DecidableEq

namespace Span

instance : Repr Span where
  reprPrec s _ := "[" ++ repr s.start ++ ", " ++ repr s.stop ++ ")"

def point (p : Nat) : Span := ⟨p, p, Nat.le_refl p⟩

def ofBounds? (start stop : Nat) : Option Span :=
  if h : start ≤ stop then some ⟨start, stop, h⟩ else none

def lengthOfBounds? (start stop : Int) : Option Nat :=
  if start ≤ stop then some (stop - start).toNat else none

def invalidMessage : String := "invalid span"

def length (s : Span) : Nat := s.stop - s.start

def join (a b : Span) : Span :=
  ⟨min a.start b.start, max a.stop b.stop, by have := a.le; have := b.le; omega⟩

@[simp] theorem join_start (a b : Span) : (a.join b).start = min a.start b.start := rfl

@[simp] theorem join_stop (a b : Span) : (a.join b).stop = max a.stop b.stop := rfl

@[simp] theorem ofBounds?_eq_none_iff (start stop : Nat) :
    ofBounds? start stop = none ↔ stop < start := by
  unfold ofBounds?
  split <;> simp <;> omega

end Span

end PagedAsm
