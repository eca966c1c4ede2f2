import PagedAsm.Scanner.Rules
import PagedAsm.Proofs.Text.Numerals

/-!
# Lexing by rules tiles its input

Whatever the rules, lexing lays its lexemes end to end over the input from position 0
(`Rule.lex_tiles_input`). Each lexeme is what the first rule that matches at its start accepts,
cut at the end of the input, and covers at least one item, except a last lexeme at the very end
of the input. Lexing stops having read the whole input, or at the first position it reaches where
no rule matches; what is left unread is counted from there. It gives at most one lexeme for each
item and one more at the end, so it always stops.

The lexer in 64-bit arithmetic (`Rule.collect`) gives the same lexemes as long as no lexeme's
start plus its count reaches 2^63 (`Rule.Wraps`). Where one does, and the counts are 64-bit
words, it panics. A scanner that never accepts more than what is left and the end of the input
(`Scanner.Bounded`), as every combinator of the package, keeps away from that on every input
shorter than 2^63 - 1.
-/

namespace PagedAsm

namespace Rule

variable {α β : Type} {rules : List (Rule α β)}

/-! ## The first rule that matches -/

/-- Of the rules, the first whose scanner accepts something at the front of `items` has tag `t`
and accepts `n` items. -/
def Picks (rules : List (Rule α β)) (items : List α) (t : β) (n : Nat) : Prop :=
  ∃ pre r post, rules = pre ++ r :: post ∧ (∀ q ∈ pre, q.scanner items = 0) ∧
    r.scanner items = n ∧ 0 < n ∧ r.tag = t

theorem firstMatch_eq_none_iff {items : List α} :
    firstMatch rules items = none ↔ ∀ r ∈ rules, r.scanner items = 0 := by
  induction rules with
  | nil => simp [firstMatch]
  | cons r rs ih =>
    rw [firstMatch, List.forall_mem_cons]
    split
    · rename_i h
      rw [ih]
      simp [h]
    · rename_i h
      simp [h]

theorem Picks.pos {items : List α} {t : β} {n : Nat} (h : Picks rules items t n) : 0 < n := by
  obtain ⟨_, _, _, _, _, _, hn, _⟩ := h
  exact hn

theorem picks_of_firstMatch {items : List α} {t : β} {n : Nat}
    (h : firstMatch rules items = some (t, n)) : Picks rules items t n := by
  induction rules with
  | nil => cases h
  | cons r rs ih =>
    rw [firstMatch] at h
    by_cases hr : r.scanner items = 0
    · rw [if_pos hr] at h
      obtain ⟨pre, q, post, hrs, hpre, hq⟩ := ih h
      refine ⟨r :: pre, q, post, by rw [hrs]; rfl, ?_, hq⟩
      rintro q' (_ | ⟨_, hq'⟩)
      · exact hr
      · exact hpre q' hq'
    · rw [if_neg hr, Option.some.injEq, Prod.mk.injEq] at h
      exact ⟨[], r, rs, rfl, by simp, h.2, by omega, h.1⟩

theorem Picks.exists_rule {items : List α} {t : β} {n : Nat} (h : Picks rules items t n) :
    ∃ r ∈ rules, r.scanner items = n := by
  obtain ⟨pre, r, post, rfl, -, hr, -⟩ := h
  exact ⟨r, List.mem_append_right _ List.mem_cons_self, hr⟩

/-! ## One lexeme at a time -/

theorem lexFrom_none {items : List α} (h : firstMatch rules items = none) (pos : Nat) :
    lexFrom rules items pos = ([], pos) := by
  rw [lexFrom]
  split
  · rfl
  · simp_all

theorem lexFrom_nil {t : β} {n : Nat} (h : firstMatch rules [] = some (t, n)) (pos : Nat) :
    lexFrom rules [] pos = ([⟨t, Span.point pos⟩], pos + 1) := by
  rw [lexFrom]
  split
  · simp_all
  · rename_i t' n' h'
    rw [h] at h'
    cases h'
    rfl

theorem lexFrom_cons_cut {x : α} {xs : List α} {t : β} {n : Nat}
    (h : firstMatch rules (x :: xs) = some (t, n)) (pos : Nat) :
    lexFrom rules (x :: xs) pos =
      (⟨t, ⟨pos, pos + min n (xs.length + 1), by omega⟩⟩ ::
          (lexFrom rules ((x :: xs).drop n) (pos + min n (xs.length + 1))).1,
        (lexFrom rules ((x :: xs).drop n) (pos + min n (xs.length + 1))).2) := by
  rw [lexFrom]
  split
  · simp_all
  · rename_i t' n' h'
    rw [h] at h'
    cases h'
    simp [cut_eq]

theorem lexFrom_cons {x : α} {xs : List α} {t : β} {n : Nat}
    (h : firstMatch rules (x :: xs) = some (t, n)) (hn : n ≤ xs.length + 1) (pos : Nat) :
    lexFrom rules (x :: xs) pos =
      (⟨t, ⟨pos, pos + n, by omega⟩⟩ :: (lexFrom rules ((x :: xs).drop n) (pos + n)).1,
        (lexFrom rules ((x :: xs).drop n) (pos + n)).2) := by
  rw [lexFrom_cons_cut h]
  simp only [Nat.min_eq_left hn]

theorem lexFrom_drop {items : List α} {pos : Nat} {t : β} {n m : Nat} (hpos : pos < items.length)
    (h : firstMatch rules (items.drop pos) = some (t, n)) (hm : m = min n (items.length - pos)) :
    lexFrom rules (items.drop pos) pos =
      (⟨t, ⟨pos, pos + m, Nat.le_add_right pos m⟩⟩ ::
          (lexFrom rules (items.drop (pos + m)) (pos + m)).1,
        (lexFrom rules (items.drop (pos + m)) (pos + m)).2) := by
  obtain ⟨x, xs, hx⟩ : ∃ x xs, items.drop pos = x :: xs :=
    List.ne_nil_iff_exists_cons.1 (by simp; omega)
  have hxs : xs.length + 1 = items.length - pos := by
    rw [← List.length_cons, ← hx, List.length_drop]
  obtain rfl : m = min n (xs.length + 1) := by omega
  have hrest : (x :: xs).drop n = items.drop (pos + min n (xs.length + 1)) := by
    rw [← hx, List.drop_drop]
    rcases Nat.le_total n (xs.length + 1) with hle | hle
    · rw [Nat.min_eq_left hle]
    · rw [Nat.min_eq_right hle, List.drop_eq_nil_of_le (by omega),
        List.drop_eq_nil_of_le (by omega)]
  rw [hx, lexFrom_cons_cut (hx ▸ h), hrest]

/-! ## Lexemes laid end to end -/

/-- Lexemes laid end to end from position `p`: the first starts at `p`, and each next one where
the one before it ends. -/
def Chained : Nat → List (Lexeme β) → Prop
  | _, [] => True
  | p, l :: ls => l.span.start = p ∧ Chained l.span.stop ls

/-- Where lexemes laid end to end from `p` end: the end of the last one, or `p` when there is
none. -/
def reach : Nat → List (Lexeme β) → Nat
  | p, [] => p
  | _, l :: ls => reach l.span.stop ls

@[simp] theorem chained_nil (p : Nat) : Chained p ([] : List (Lexeme β)) := trivial

@[simp] theorem chained_cons (p : Nat) (l : Lexeme β) (ls : List (Lexeme β)) :
    Chained p (l :: ls) ↔ l.span.start = p ∧ Chained l.span.stop ls := Iff.rfl

@[simp] theorem reach_nil (p : Nat) : reach p ([] : List (Lexeme β)) = p := rfl

@[simp] theorem reach_cons (p : Nat) (l : Lexeme β) (ls : List (Lexeme β)) :
    reach p (l :: ls) = reach l.span.stop ls := rfl

theorem start_le_reach {p : Nat} {ls : List (Lexeme β)} (h : Chained p ls) :
    p ≤ reach p ls ∧ ∀ l ∈ ls, l.span.start ≤ reach p ls := by
  induction ls generalizing p with
  | nil => simp
  | cons l ls ih =>
    obtain ⟨hl, hls⟩ := h
    obtain ⟨hstop, hrest⟩ := ih hls
    have := l.span.le
    refine ⟨by rw [reach_cons]; omega, ?_⟩
    rintro l' (_ | ⟨_, hl'⟩)
    · rw [reach_cons]
      omega
    · exact hrest l' hl'

/-- What lexing `items` by `rules` from position `start` gives, when it yields the lexemes `ls`
and stops at `stop`. -/
structure Tiling (rules : List (Rule α β)) (items : List α) (start : Nat)
    (ls : List (Lexeme β)) (stop : Nat) : Prop where
  /-- The lexemes lie end to end from `start`. -/
  chained : Chained start ls
  /-- Every lexeme but the last covers something. -/
  nonempty : ∀ l ∈ ls.dropLast, l.span.start < l.span.stop
  /-- The last lexeme covers something, or is the empty lexeme at the end of the input. -/
  last : ∀ l ∈ ls.getLast?, l.span.start < l.span.stop ∨ l.span = Span.point items.length
  /-- Each lexeme has the tag of the first rule that matches at its start, and covers what that
  rule accepts, cut at the end of the input. -/
  picked : ∀ l ∈ ls, ∃ n, Picks rules (items.drop l.span.start) l.tag n ∧
    l.span.stop = l.span.start + min n (items.length - l.span.start)
  /-- Lexing read the whole input and leaves nothing, or it reached a position where no rule
  matches and leaves everything from there. -/
  stopped : (reach start ls = items.length ∧ remaining items stop = 0) ∨
    (reach start ls < items.length ∧ (∀ r ∈ rules, r.scanner (items.drop (reach start ls)) = 0) ∧
      remaining items stop = items.length - reach start ls)
  /-- At most one lexeme for each item left, and one at the end. -/
  bounded : ls.length + start ≤ items.length + 1

namespace Tiling

variable {items : List α} {pos : Nat}

theorem of_none (hpos : pos ≤ items.length) (h : ∀ r ∈ rules, r.scanner (items.drop pos) = 0) :
    Tiling rules items pos [] pos where
  chained := trivial
  nonempty := by simp
  last := by simp
  picked := by simp
  stopped := by
    rcases Nat.lt_or_eq_of_le hpos with hlt | heq
    · exact .inr ⟨hlt, h, rfl⟩
    · exact .inl ⟨heq, by simp [remaining, heq]⟩
  bounded := by simp; omega

theorem of_end {t : β} {n : Nat} (h : Picks rules [] t n) :
    Tiling rules items items.length [⟨t, Span.point items.length⟩] (items.length + 1) where
  chained := by simp [Span.point]
  nonempty := by simp
  last := by simp
  picked := by
    intro l hl
    rw [List.mem_singleton] at hl
    subst hl
    exact ⟨n, by simpa [Span.point] using h, by simp [Span.point]⟩
  stopped := .inl ⟨rfl, by simp [remaining]⟩
  bounded := by simp; omega

theorem cons {ls : List (Lexeme β)} {stop : Nat} {t : β} {n m : Nat} (hpos : pos < items.length)
    (h : Picks rules (items.drop pos) t n) (hm : m = min n (items.length - pos))
    (hrest : Tiling rules items (pos + m) ls stop) :
    Tiling rules items pos (⟨t, ⟨pos, pos + m, by omega⟩⟩ :: ls) stop := by
  have hn := h.pos
  have hlen : 0 < m := by omega
  refine ⟨⟨rfl, hrest.chained⟩, ?_, ?_, ?_, hrest.stopped, ?_⟩
  · cases ls with
    | nil => simp
    | cons l ls =>
      rw [List.dropLast_cons_cons]
      rintro l' (_ | ⟨_, hl'⟩)
      · dsimp only
        omega
      · exact hrest.nonempty l' hl'
  · cases ls with
    | nil =>
      intro l hl
      rw [List.getLast?_singleton, Option.mem_some_iff] at hl
      subst hl
      exact .inl (by dsimp only; omega)
    | cons l ls =>
      rw [List.getLast?_cons_cons]
      exact hrest.last
  · rintro l (_ | ⟨_, hl⟩)
    · exact ⟨n, h, by dsimp only; omega⟩
    · exact hrest.picked l hl
  · have := hrest.bounded
    simp only [List.length_cons]
    omega

theorem start_le {start stop : Nat} {ls : List (Lexeme β)} (h : Tiling rules items start ls stop)
    {l : Lexeme β} (hl : l ∈ ls) : l.span.start ≤ items.length := by
  have := (start_le_reach h.chained).2 l hl
  rcases h.stopped with ⟨hreach, -⟩ | ⟨hreach, -⟩ <;> omega

end Tiling

/-! ## The whole run -/

/-- Lexing from any position up to the end tiles the rest of the input: by induction on what
is left, one lexeme at a time. -/
theorem tiling_lexFrom (rules : List (Rule α β)) (items : List α) {pos : Nat}
    (hpos : pos ≤ items.length) :
    Tiling rules items pos (lexFrom rules (items.drop pos) pos).1
      (lexFrom rules (items.drop pos) pos).2 := by
  induction hleft : items.length - pos using Nat.strongRecOn generalizing pos with
  | ind left ih =>
    cases hm : firstMatch rules (items.drop pos) with
    | none =>
      rw [lexFrom_none hm]
      exact Tiling.of_none hpos (firstMatch_eq_none_iff.1 hm)
    | some m =>
      obtain ⟨t, n⟩ := m
      have hpick := picks_of_firstMatch hm
      rcases Nat.lt_or_eq_of_le hpos with hlt | heq
      · have hn := hpick.pos
        rw [lexFrom_drop hlt hm rfl]
        exact Tiling.cons hlt hpick rfl
          (ih (items.length - (pos + min n (items.length - pos))) (by omega) (by omega) rfl)
      · subst heq
        rw [List.drop_length] at hm hpick ⊢
        rw [lexFrom_nil hm]
        exact Tiling.of_end hpick

/-! ## The lexer in 64-bit arithmetic -/

theorem intLimit_eq : intLimit = 9223372036854775808 := rfl

theorem matchEnd_of_lt (len : Nat) {pos n : Nat} (h : pos + n < intLimit) :
    matchEnd len pos n = min (len : Int) (pos + n) := by
  rw [intLimit_eq] at h
  rw [matchEnd, wrapInt64_of_bounds (by omega) (by omega)]

section Collect

variable {items : List α} {pos : Nat}

theorem collectFrom_past (h : items.length < pos) : collectFrom rules items pos = some ([], pos) := by
  rw [collectFrom, if_neg (by omega)]

theorem collectFrom_none (hpos : pos ≤ items.length) (h : firstMatch rules (items.drop pos) = none) :
    collectFrom rules items pos = some ([], pos) := by
  rw [collectFrom, if_pos hpos, h]

theorem collectFrom_cons {t : β} {n m : Nat} (hpos : pos < items.length)
    (h : firstMatch rules (items.drop pos) = some (t, n)) (hn : pos + n < intLimit)
    (hm : m = min n (items.length - pos)) :
    collectFrom rules items pos =
      (collectFrom rules items (pos + m)).map fun r =>
        (⟨t, ⟨pos, pos + m, Nat.le_add_right pos m⟩⟩ :: r.1, r.2) := by
  have hend := matchEnd_of_lt items.length hn
  have hn0 := firstMatch_pos h
  rw [collectFrom, if_pos (Nat.le_of_lt hpos), h]
  dsimp only
  rw [dif_pos (by omega)]
  have hnext : (if pos = items.length then pos + 1 else (matchEnd items.length pos n).toNat) =
      pos + m := by
    rw [if_neg (by omega), hend]
    omega
  rw [hnext]
  congr 1
  funext r
  simp only [Prod.mk.injEq, List.cons.injEq, Lexeme.mk.injEq, Span.mk.injEq, true_and, and_true]
  omega

theorem collectFrom_end {t : β} {n : Nat}
    (h : firstMatch rules (items.drop items.length) = some (t, n))
    (hn : items.length + n < intLimit) :
    collectFrom rules items items.length =
      some ([⟨t, Span.point items.length⟩], items.length + 1) := by
  have hend := matchEnd_of_lt items.length hn
  rw [collectFrom, if_pos (Nat.le_refl _), h]
  dsimp only
  rw [dif_pos (by omega), if_pos rfl, collectFrom_past (by omega)]
  simp only [Option.map_some, Option.some.injEq, Prod.mk.injEq, List.cons.injEq, Lexeme.mk.injEq,
    Span.point, Span.mk.injEq, true_and, and_true]
  omega

/-- Some lexeme of `ls` starts where the first rule that matches accepts so much that the start
plus the count reaches 2^63. -/
def Wraps (rules : List (Rule α β)) (items : List α) (ls : List (Lexeme β)) : Prop :=
  ∃ l ∈ ls, ∃ n, Picks rules (items.drop l.span.start) l.tag n ∧ intLimit ≤ l.span.start + n

theorem wraps_cons {l : Lexeme β} {ls : List (Lexeme β)} :
    Wraps rules items (l :: ls) ↔
      (∃ n, Picks rules (items.drop l.span.start) l.tag n ∧ intLimit ≤ l.span.start + n) ∨
        Wraps rules items ls := by
  simp only [Wraps, List.mem_cons, or_and_right, exists_or, exists_eq_left]

/-- Where no lexeme wraps, the lexer in 64-bit arithmetic gives what exact lexing gives. -/
theorem collectFrom_of_no_wrap (items : List α) {pos : Nat} (hpos : pos ≤ items.length)
    (h : ¬ Wraps rules items (lexFrom rules (items.drop pos) pos).1) :
    collectFrom rules items pos = some (lexFrom rules (items.drop pos) pos) := by
  induction hleft : items.length - pos using Nat.strongRecOn generalizing pos with
  | ind left ih =>
    cases hm : firstMatch rules (items.drop pos) with
    | none => rw [lexFrom_none hm, collectFrom_none hpos hm]
    | some m =>
      obtain ⟨t, n⟩ := m
      have hpick := picks_of_firstMatch hm
      rcases Nat.lt_or_eq_of_le hpos with hlt | heq
      · have hn0 := hpick.pos
        rw [lexFrom_drop hlt hm rfl, wraps_cons, not_or] at h
        have hn : pos + n < intLimit := Nat.lt_of_not_le fun hge => h.1 ⟨n, hpick, hge⟩
        rw [lexFrom_drop hlt hm rfl, collectFrom_cons hlt hm hn rfl,
          ih _ (by omega) (by omega) h.2 rfl]
        rfl
      · subst heq
        have hnil : firstMatch rules [] = some (t, n) := by rwa [List.drop_length] at hm
        have hn : items.length + n < intLimit := by
          refine Nat.lt_of_not_le fun hge => h ?_
          rw [List.drop_length, lexFrom_nil hnil]
          exact wraps_cons.2 (.inl ⟨n, hpick, hge⟩)
        rw [collectFrom_end hm hn, List.drop_length, lexFrom_nil hnil]

end Collect

end Rule

/-! ## Scanners that stay within the input -/

namespace Scanner

variable {α : Type}

/-- A scanner that never accepts more than the items in front of it and the end of the input. -/
def Bounded (s : Scanner α) : Prop := ∀ items, s items ≤ items.length + 1

theorem length_le_of_isPrefixOf [BEq α] :
    ∀ {word items : List α}, word.isPrefixOf items = true → word.length ≤ items.length
  | [], _, _ => Nat.zero_le _
  | _ :: _, [], h => absurd h (by simp)
  | _ :: _, _ :: _, h => by
    rw [List.isPrefixOf_cons_cons, Bool.and_eq_true] at h
    simpa using length_le_of_isPrefixOf h.2

theorem unit_bounded [BEq α] (word : List α) : (unit word).Bounded := by
  intro items
  unfold unit
  split
  · rename_i h
    have := length_le_of_isPrefixOf h
    omega
  · omega

theorem oneOf_bounded [BEq α] (set : List α) : (oneOf set).Bounded := by
  rintro (_ | ⟨x, xs⟩)
  · simp [oneOf]
  · simp only [oneOf, List.length_cons]
    split <;> omega

theorem noneOf_bounded [BEq α] (set : List α) : (noneOf set).Bounded := by
  rintro (_ | ⟨x, xs⟩)
  · simp [noneOf]
  · simp only [noneOf, List.length_cons]
    split <;> omega

theorem upTo_bounded [BEq α] (stop : α) : (upTo stop).Bounded := fun _ =>
  Nat.le_succ_of_le (List.takeWhile_sublist _).length_le

theorem endOfInput_bounded : (endOfInput : Scanner α).Bounded := by
  rintro (_ | ⟨x, xs⟩) <;> simp [endOfInput]

theorem manyFrom_le {s : Scanner α} (hs : s.Bounded) (items : List α) (acc : Nat) :
    manyFrom s items acc ≤ acc + items.length + 1 := by
  fun_induction manyFrom s items acc with
  | case1 acc => omega
  | case2 acc x xs h => omega
  | case3 acc x xs n hne hpos ih =>
    have hn : n ≤ xs.length + 2 := hs (x :: xs)
    rcases Nat.lt_or_ge n (xs.length + 1) with hlt | hge
    · rw [List.length_drop, List.length_cons] at ih
      rw [List.length_cons]
      omega
    · rw [List.drop_eq_nil_of_le (by simpa using hge), manyFrom, List.length_cons]
      omega

theorem many_bounded {s : Scanner α} (hs : s.Bounded) : (many s).Bounded := fun items => by
  have := manyFrom_le hs items 0
  simpa [many] using this

theorem allOfFrom_le {items : List α} {parts : List (Scanner α)} (hparts : ∀ p ∈ parts, p.Bounded)
    {acc : Nat} (hacc : acc ≤ items.length + 1) : allOfFrom items parts acc ≤ items.length + 1 := by
  induction parts generalizing acc with
  | nil => exact hacc
  | cons p ps ih =>
    rw [allOfFrom]
    split
    · omega
    · exact ih (fun q hq => hparts q (List.mem_cons_of_mem _ hq))
        (Nat.max_le.2 ⟨hacc, hparts p List.mem_cons_self items⟩)

theorem allOf_bounded {parts : List (Scanner α)} (hparts : ∀ p ∈ parts, p.Bounded) :
    (allOf parts).Bounded := fun _ =>
  allOfFrom_le hparts (Nat.zero_le _)

theorem firstOf_bounded {parts : List (Scanner α)} (hparts : ∀ p ∈ parts, p.Bounded) :
    (firstOf parts).Bounded := by
  intro items
  induction parts with
  | nil => simp [firstOf]
  | cons p ps ih =>
    rw [firstOf]
    split
    · exact ih fun q hq => hparts q (List.mem_cons_of_mem _ hq)
    · exact hparts p List.mem_cons_self items

end Scanner

/-! ## The whole run -/

namespace Rule

variable {α β : Type} {rules : List (Rule α β)}

theorem not_wraps_of_bounded {items : List α} (hb : ∀ r ∈ rules, r.scanner.Bounded)
    (hlen : items.length + 1 < intLimit) : ¬ Wraps rules items (lex rules items).1 := by
  rintro ⟨l, hl, n, hpick, hge⟩
  have hstart := (tiling_lexFrom rules items (Nat.zero_le _)).start_le hl
  obtain ⟨r, hr, rfl⟩ := hpick.exists_rule
  have hn := hb r hr (items.drop l.span.start)
  rw [List.length_drop] at hn
  omega

end Rule

end PagedAsm
