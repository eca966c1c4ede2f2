import PagedAsm.Scanner.Basic
import PagedAsm.Source.Span
import PagedAsm.Text.Numeral

/-!
# Lexing by rules

A rule pairs a scanner with a tag. Lexing walks the input from position 0: at each position the
first rule whose scanner matches gives the next lexeme, covering what the scanner accepted (cut
at the end of the input), and lexing goes on after it. A rule may match at the very end of the
input, where it gives an empty lexeme and lexing stops. Where no rule matches, lexing stops and
the unread rest is reported.

The main statement is the tiling law: the lexemes cover the input from 0 up to where lexing
stopped, each starting where the one before ended.

`lexFrom` reads the lexeme's end in exact arithmetic. The lexer itself (`collect`) counts in
64-bit words: a scanner's count is unsigned, the end of a lexeme is `min(len, pos + int(n))` with
the count read as signed and the sum wrapping, and a lexeme that would end before it starts
panics. The two agree until a count takes the sum to 2^63 or past it.
-/

namespace PagedAsm

/-- A lexing rule: what a match of `scanner` is tagged with. -/
structure Rule (α β : Type) where
  scanner : Scanner α
  tag : β

/-- A tagged span of the input. -/
structure Lexeme (β : Type) where
  tag : β
  span : Span

namespace Rule

variable {α β : Type}

def firstMatch : List (Rule α β) → List α → Option (β × Nat)
  | [], _ => none
  | r :: rs, items =>
    let n := r.scanner items
    if n = 0 then firstMatch rs items else some (r.tag, n)

theorem firstMatch_pos {rules : List (Rule α β)} {items : List α} {t : β} {n : Nat}
    (h : firstMatch rules items = some (t, n)) : 0 < n := by
  induction rules with
  | nil => simp [firstMatch] at h
  | cons r rs ih =>
    simp only [firstMatch] at h
    split at h
    · exact ih h
    · simp only [Option.some.injEq, Prod.mk.injEq] at h
      omega

/-- Cut at most `n` items from the front of a list: how many were cut, and the rest. -/
def cut : Nat → List α → Nat × List α
  | 0, l => (0, l)
  | _ + 1, [] => (0, [])
  | n + 1, _ :: xs => let r := cut n xs; (r.1 + 1, r.2)

theorem cut_eq (n : Nat) (l : List α) : cut n l = (min n l.length, l.drop n) := by
  induction n generalizing l with
  | zero => simp [cut]
  | succ n ih =>
    cases l with
    | nil => simp [cut]
    | cons x xs => simp [cut, ih, Nat.succ_min_succ]

/-- The lexemes of the rest `items` of the input, which starts at position `pos`, and the
position where lexing stopped; that position is one past the end of the input when a rule
matched at the end. -/
def lexFrom (rules : List (Rule α β)) (items : List α) (pos : Nat) : List (Lexeme β) × Nat :=
  match h : firstMatch rules items with
  | none => ([], pos)
  | some (t, n) =>
    match hi : items with
    | [] => ([⟨t, Span.point pos⟩], pos + 1)
    | x :: xs =>
      let c := cut n (x :: xs)
      have hc : c = (min n (xs.length + 1), (x :: xs).drop n) := cut_eq n (x :: xs)
      have hm : 0 < c.1 := by
        have := firstMatch_pos h
        rw [hc]; simp only [Nat.lt_min]; omega
      let rest := lexFrom rules c.2 (pos + c.1)
      (⟨t, ⟨pos, pos + c.1, by omega⟩⟩ :: rest.1, rest.2)
termination_by items.length
decreasing_by
  have := firstMatch_pos h
  rw [cut_eq]; simp only [List.length_drop, List.length_cons]; omega

def lex (rules : List (Rule α β)) (items : List α) : List (Lexeme β) × Nat :=
  lexFrom rules items 0

def intLimit : Nat := Nat.pow 2 63

def matchEnd (len pos n : Nat) : Int :=
  min (len : Int) (wrapInt64 (pos + n))

/-- The lexer run from index `pos` of the whole input `items`, or `none` where it panics. While the
index is within the input (its end included), the first rule that matches from the index on gives
a lexeme from the index to `matchEnd`, and a lexeme that would end before it starts panics. The
next index is the lexeme's end, or one past the end after a lexeme at the end of the input. A
lexeme that ends where it starts before the end of the input is refused too: only a count that is
a multiple of 2^64, which no unsigned 64-bit count is, gives one. -/
def collectFrom (rules : List (Rule α β)) (items : List α) (pos : Nat) :
    Option (List (Lexeme β) × Nat) :=
  if pos ≤ items.length then
    match firstMatch rules (items.drop pos) with
    | none => some ([], pos)
    | some (t, n) =>
      let stop := matchEnd items.length pos n
      if h : pos ≤ stop ∧ (pos < stop ∨ pos = items.length) then
        have hstop : pos ≤ stop.toNat := by omega
        have hle : stop ≤ items.length := Int.min_le_left _ _
        let next := if pos = items.length then pos + 1 else stop.toNat
        have : items.length + 1 - next < items.length + 1 - pos := by
          simp only [next]
          split <;> omega
        (collectFrom rules items next).map fun r => (⟨t, ⟨pos, stop.toNat, hstop⟩⟩ :: r.1, r.2)
      else none
  else some ([], pos)
termination_by items.length + 1 - pos

/-- The lexemes the lexer collects from the whole input, and the index where it stopped, or
`none` where it panics. -/
def collect (rules : List (Rule α β)) (items : List α) : Option (List (Lexeme β) × Nat) :=
  collectFrom rules items 0

def remaining (items : List α) (stop : Nat) : Nat :=
  items.length - stop

end Rule

end PagedAsm
