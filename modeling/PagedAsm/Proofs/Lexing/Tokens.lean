import PagedAsm.Proofs.Lexing.Lexemes
import Mathlib.Data.List.Chain

/-!
# From lexemes to tokens

The lexemes of a source text become tokens one by one: comments, blanks and the end of the input
are dropped, a line end is dropped at the start and after another line end, and every token
gets the line it starts on. This module states what the tokens say about the text, per token
(`Token.Fits`) and between them (`Skipped` for the characters under no token), and carries
these facts along the lexemes as one invariant (`Progress`): a lexeme that gives no token, a line
end that is dropped and a lexeme that gives a token each keep it (`Progress.skip`,
`Progress.drop`, `Progress.keep`), so a whole reading keeps it (`progress_run`).
-/

namespace PagedAsm

/-- The line of position `p`: one more than the number of line ends before it. -/
def lineOf (src : List Char) (p : Nat) : Nat := (src.take p).count '\n' + 1

/-- The token's span holds position `i`. -/
def Token.Covers (t : Token) (i : Nat) : Prop := t.span.start ≤ i ∧ i < t.span.stop

/-- The span holds exactly the character `c`. -/
def CoversChar (src : List Char) (s : Span) (c : Char) : Prop :=
  s.stop = s.start + 1 ∧ src[s.start]? = some c

/-- The span is a whole word, read as `out`: plain characters and closed strings, with a
delimiter or an end of the text on either side. -/
def WordSpan (src : List Char) (s : Span) (out : List Char) : Prop :=
  s.start < s.stop ∧ WordRun none (spanChars src s) out ∧ AtBreak (src.drop s.stop) ∧
    (s.start = 0 ∨ ∃ c, src[s.start - 1]? = some c ∧ c ∈ wordDelimiters)

/-- What a token's kind says of the text under its span. -/
def Token.Fits (src : List Char) (t : Token) : Prop :=
  match t.kind with
  | .newline => CoversChar src t.span '\n'
  | .opening b => CoversChar src t.span b.openChar
  | .closing b => CoversChar src t.span b.closeChar
  | .word => ∃ out, WordSpan src t.span out ∧ t.text = String.ofList out

/-- Position `i` is in a comment: a `;` outside every word stands at or before it, with no line
end from there to `i`. -/
def InComment (src : List Char) (ts : List Token) (i : Nat) : Prop :=
  ∃ j ≤ i, src[j]? = some ';' ∧ (∀ t ∈ ts, t.kind = .word → ¬t.Covers j) ∧
    ∀ k, j ≤ k → k ≤ i → src[k]? ≠ some '\n'

/-- A character under no token: a blank, part of a comment, or a line end dropped because no
token, or a line end, comes before it. -/
def Skipped (src : List Char) (ts : List Token) (i : Nat) : Prop :=
  (∃ c ∈ src[i]?, c ∈ spacing) ∨ InComment src ts i ∨
    (src[i]? = some '\n' ∧ ∀ t ∈ (ts.filter (·.span.start < i)).getLast?, t.kind = .newline)

/-- A word can start at `p` only after a delimiter or at the start of the text. -/
def BoundaryAt (src : List Char) (p : Nat) : Prop :=
  p = 0 ∨ (∃ c, src[p - 1]? = some c ∧ c ∈ wordDelimiters) ∨ AtBreak (src.drop p)

/-- No token yet, or the last token is a line end. -/
def AfterNewline (acc : List Token) : Prop := ∀ t ∈ acc.head?, t.kind = .newline

/-! ## Positions in the text -/

theorem countNewlines_toArray (src : List Char) (lo hi : Nat) :
    countNewlines src.toArray lo hi = ((src.drop lo).take (hi - lo)).count '\n' := by
  simp only [countNewlines, Array.toList_extract, List.extract_eq_take_drop,
    List.count_eq_length_filter, List.toList_toArray]
  rfl

theorem lineOf_add {src : List Char} {pos p : Nat} (h : pos ≤ p) :
    lineOf src pos + countNewlines src.toArray pos p = lineOf src p := by
  have hp : p = pos + (p - pos) := by omega
  rw [countNewlines_toArray, lineOf, lineOf, hp, List.take_add, List.count_append,
    Nat.add_sub_cancel_left]
  omega

theorem spanChars_of_drop {src pre rest : List Char} {here : Nat}
    (h : src.drop here = pre ++ rest) (hs : here ≤ here + pre.length) :
    spanChars src ⟨here, here + pre.length, hs⟩ = pre := by
  simp [spanChars, Span.length, h]

theorem getElem?_of_drop {src pre rest : List Char} {here k : Nat}
    (h : src.drop here = pre ++ rest) (hk : k < pre.length) : src[here + k]? = pre[k]? := by
  rw [← List.getElem?_drop, h, List.getElem?_append_left hk]

theorem lexemeText_toArray (src : List Char) (kind : TokenKind) (s : Span) :
    lexemeText src.toArray kind s =
      if kind = .word then String.ofList (walkWord none none (spanChars src s) []).1.reverse
      else String.ofList (spanChars src s) := by
  simp [lexemeText, spanChars, Span.length]

/-! ## Turning one lexeme into a token -/

section Step

variable {text : Array Char} {cls : LexemeClass} {span : Span} {ls : List (Lexeme LexemeClass)}
  {pos line : Nat} {acc : List Token}

theorem tokensFrom_skip (h : cls.tokenKind? = none) :
    tokensFrom text (⟨cls, span⟩ :: ls) pos line acc = tokensFrom text ls pos line acc := by
  simp [tokensFrom, h]

theorem tokensFrom_keep {kind : TokenKind} (h : cls.tokenKind? = some kind)
    (hkeep : kind = .newline → ¬AfterNewline acc) :
    tokensFrom text (⟨cls, span⟩ :: ls) pos line acc =
      tokensFrom text ls (max pos span.start) (line + countNewlines text pos span.start)
        (⟨kind, lexemeText text kind span, span, line + countNewlines text pos span.start⟩ ::
          acc) := by
  cases acc with
  | nil =>
    have : kind ≠ .newline := fun hk => hkeep hk (by simp [AfterNewline])
    simp [tokensFrom, h, this]
  | cons a acc =>
    by_cases hk : kind = .newline
    · have ha : a.kind ≠ .newline := fun ha => hkeep hk (by simpa [AfterNewline] using ha)
      simp [tokensFrom, h, hk, Token.isNewline, ha]
    · simp [tokensFrom, h, hk]

theorem tokensFrom_drop (h : cls.tokenKind? = some .newline) (hafter : AfterNewline acc) :
    tokensFrom text (⟨cls, span⟩ :: ls) pos line acc =
      tokensFrom text ls (max pos span.start) (line + countNewlines text pos span.start) acc := by
  cases acc with
  | nil => simp [tokensFrom, h]
  | cons a acc =>
    have ha : a.kind = .newline := by simpa [AfterNewline] using hafter
    simp [tokensFrom, h, Token.isNewline, ha]

end Step

/-! ## Characters under no token -/

theorem Skipped.append {src : List Char} {ts more : List Token} {i : Nat} (h : Skipped src ts i)
    (hmore : ∀ t ∈ more, i < t.span.start) : Skipped src (ts ++ more) i := by
  rcases h with hs | ⟨j, hji, hj, hword, hline⟩ | ⟨hnl, hlast⟩
  · exact .inl hs
  · refine .inr (.inl ⟨j, hji, hj, ?_, hline⟩)
    intro t ht hk hcov
    rcases List.mem_append.1 ht with ht | ht
    · exact hword t ht hk hcov
    · have := hmore t ht
      exact absurd hcov.1 (by omega)
  · refine .inr (.inr ⟨hnl, ?_⟩)
    have hnone : more.filter (·.span.start < i) = [] :=
      List.filter_eq_nil_iff.2 fun t ht => by have := hmore t ht; simp; omega
    rwa [List.filter_append, hnone, List.append_nil]

/-! ## The invariant of turning lexemes into tokens -/

/-- What holds after the lexemes before position `here` were turned into the tokens `acc`
(last first), with line ends counted up to `pos`, which is on line `line`. -/
structure Progress (src : List Char) (here pos line : Nat) (acc : List Token) : Prop where
  pos_le : pos ≤ here
  line_eq : line = lineOf src pos
  token : ∀ t ∈ acc, t.span.start < t.span.stop ∧ t.span.stop ≤ here ∧
    t.line = lineOf src t.span.start ∧ t.Fits src
  chain : acc.IsChain fun a b => ¬(a.kind = .newline ∧ b.kind = .newline)
  first : ∀ t ∈ acc.getLast?, t.kind ≠ .newline
  ordered : acc.Pairwise fun b a => a.span.start < b.span.start ∧ a.span.stop ≤ b.span.start
  gaps : ∀ i < here, (∀ t ∈ acc, ¬t.Covers i) → Skipped src acc.reverse i
  boundary : BoundaryAt src here

namespace Progress

variable {src : List Char} {here pos line : Nat} {acc : List Token}

theorem start (src : List Char) : Progress src 0 0 1 [] where
  pos_le := Nat.le_refl 0
  line_eq := by simp [lineOf]
  token := by simp
  chain := .nil
  first := by simp
  ordered := .nil
  gaps := by simp
  boundary := .inl rfl

/-- A lexeme that gives no token leaves the tokens as they are. -/
theorem skip (hp : Progress src here pos line acc) {len : Nat}
    (hskip : ∀ i, here ≤ i → i < here + len → Skipped src acc.reverse i)
    (hb : BoundaryAt src (here + len)) : Progress src (here + len) pos line acc where
  pos_le := by have := hp.pos_le; omega
  line_eq := hp.line_eq
  token t ht := by
    obtain ⟨h1, h2, h3, h4⟩ := hp.token t ht
    exact ⟨h1, by omega, h3, h4⟩
  chain := hp.chain
  first := hp.first
  ordered := hp.ordered
  gaps i hi hcov := by
    by_cases hlt : i < here
    · exact hp.gaps i hlt hcov
    · exact hskip i (by omega) hi
  boundary := hb

/-- A line end dropped at the start or after another line end. -/
theorem drop (hp : Progress src here pos line acc) (hnl : src[here]? = some '\n')
    (hafter : AfterNewline acc) : Progress src (here + 1) here (lineOf src here) acc where
  pos_le := by omega
  line_eq := rfl
  token t ht := by
    obtain ⟨h1, h2, h3, h4⟩ := hp.token t ht
    exact ⟨h1, by omega, h3, h4⟩
  chain := hp.chain
  first := hp.first
  ordered := hp.ordered
  gaps i hi hcov := by
    by_cases hlt : i < here
    · exact hp.gaps i hlt hcov
    · have hi : i = here := by omega
      subst hi
      have hall : acc.reverse.filter (·.span.start < i) = acc.reverse :=
        List.filter_eq_self.2 fun t ht => by
          have := hp.token t (List.mem_reverse.1 ht)
          simp
          omega
      refine .inr (.inr ⟨hnl, ?_⟩)
      rw [hall, List.getLast?_reverse]
      exact hafter
  boundary := .inr (.inl ⟨'\n', by simpa using hnl, by decide⟩)

/-- A lexeme that gives a token `t` over `[here, here + len)`. -/
theorem keep (hp : Progress src here pos line acc) {t : Token} {len : Nat}
    (hstart : t.span.start = here) (hstop : t.span.stop = here + len) (hlen : 0 < len)
    (hline : t.line = lineOf src here) (hfits : t.Fits src)
    (hnl : t.kind = .newline → ¬AfterNewline acc) (hb : BoundaryAt src (here + len)) :
    Progress src (here + len) here (lineOf src here) (t :: acc) where
  pos_le := by omega
  line_eq := rfl
  token t' ht' := by
    rcases List.mem_cons.1 ht' with rfl | ht'
    · exact ⟨by omega, by omega, hstart ▸ hline, hfits⟩
    · obtain ⟨h1, h2, h3, h4⟩ := hp.token t' ht'
      exact ⟨h1, by omega, h3, h4⟩
  chain := by
    cases acc with
    | nil => exact .singleton t
    | cons a acc =>
      refine .cons_cons ?_ hp.chain
      rintro ⟨ht, ha⟩
      exact hnl ht (by simpa [AfterNewline] using ha)
  first := by
    cases acc with
    | nil =>
      intro t' ht' hk
      simp only [List.getLast?_singleton, Option.mem_def, Option.some.injEq] at ht'
      subst ht'
      exact hnl hk (by simp [AfterNewline])
    | cons a acc =>
      intro t' ht'
      rw [List.getLast?_cons_cons] at ht'
      exact hp.first t' ht'
  ordered := by
    refine List.Pairwise.cons (fun a ha => ?_) hp.ordered
    have := hp.token a ha
    omega
  gaps i hi hcov := by
    have hlt : i < here := by
      by_contra hge
      exact hcov t (by simp) ⟨by omega, by omega⟩
    rw [List.reverse_cons]
    exact (hp.gaps i hlt fun t' ht' => hcov t' (by simp [ht'])).append (by simp; omega)
  boundary := hb

end Progress

/-! ## A whole reading -/

theorem drop_add_of_drop {src pre rest : List Char} {here : Nat}
    (h : src.drop here = pre ++ rest) : src.drop (here + pre.length) = rest := by
  rw [← List.drop_drop, h, List.drop_left]

theorem atBreak_of_atLineEnd {cs : List Char} (h : AtLineEnd cs) : AtBreak cs := by
  rcases h with rfl | ⟨r, rfl⟩
  · simp [AtBreak]
  · simp [AtBreak, wordDelimiters]

theorem boundary_after {src pre rest : List Char} {here : Nat} {c : Char}
    (h : src.drop here = pre ++ rest) (hlast : pre.getLast? = some c) (hc : c ∈ wordDelimiters) :
    BoundaryAt src (here + pre.length) := by
  have hne : pre ≠ [] := by rintro rfl; simp at hlast
  have hlen : 0 < pre.length := List.length_pos_iff.2 hne
  refine .inr (.inl ⟨c, ?_, hc⟩)
  rw [show here + pre.length - 1 = here + (pre.length - 1) by omega,
    getElem?_of_drop h (by omega), ← List.getLast?_eq_getElem?, hlast]

theorem mem_of_drop {src pre rest : List Char} {here k : Nat} (h : src.drop here = pre ++ rest)
    (hk : here ≤ k) (hk' : k < here + pre.length) : ∃ c ∈ pre, src[k]? = some c := by
  have := getElem?_of_drop h (k := k - here) (by omega)
  rw [show here + (k - here) = k by omega] at this
  exact ⟨pre[k - here], List.getElem_mem _, by rw [this, List.getElem?_eq_getElem]⟩

theorem openChar_delimiter (b : Bracket) : b.openChar ∈ wordDelimiters := by
  cases b <;> decide

theorem closeChar_delimiter (b : Bracket) : b.closeChar ∈ wordDelimiters := by
  cases b <;> decide

theorem Progress.line_at {src : List Char} {here pos line : Nat} {acc : List Token}
    (hp : Progress src here pos line acc) :
    line + countNewlines src.toArray pos here = lineOf src here := by
  rw [hp.line_eq, lineOf_add hp.pos_le]

/-- Turning the lexemes `ls`, laid from `here`, into tokens from the state `pos`, `line`, `acc`
ends in the invariant at `stop`. -/
def RunsTo (src : List Char) (stop here : Nat) (ls : List (LexemeClass × List Char))
    (pos line : Nat) (acc : List Token) : Prop :=
  Progress src stop (tokensFrom src.toArray (place here ls) pos line acc).2.1
    (tokensFrom src.toArray (place here ls) pos line acc).2.2
    (tokensFrom src.toArray (place here ls) pos line acc).1

section RunStep

variable {src pre cs rest : List Char} {cls : LexemeClass} {ls : List (LexemeClass × List Char)}
  {here pos line : Nat} {acc : List Token}

theorem runsTo_skip (hk : cls.tokenKind? = none) (hle : rest.length ≤ cs.length)
    (hnext : RunsTo src (here + pre.length + (cs.length - rest.length)) (here + pre.length) ls
      pos line acc) :
    RunsTo src (here + ((pre ++ cs).length - rest.length)) here ((cls, pre) :: ls) pos line acc := by
  unfold RunsTo at hnext ⊢
  rw [place_cons, tokensFrom_skip hk]
  convert hnext using 1
  simp
  omega

theorem runsTo_drop (hk : cls.tokenKind? = some .newline) (hafter : AfterNewline acc)
    (hp : Progress src here pos line acc) (hle : rest.length ≤ cs.length)
    (hnext : RunsTo src (here + pre.length + (cs.length - rest.length)) (here + pre.length) ls
      here (lineOf src here) acc) :
    RunsTo src (here + ((pre ++ cs).length - rest.length)) here ((cls, pre) :: ls) pos line acc := by
  unfold RunsTo at hnext ⊢
  rw [place_cons, tokensFrom_drop hk hafter, Nat.max_eq_right hp.pos_le, hp.line_at]
  convert hnext using 1
  simp
  omega

theorem runsTo_keep {kind : TokenKind} (hk : cls.tokenKind? = some kind)
    (hkeep : kind = .newline → ¬AfterNewline acc) (hp : Progress src here pos line acc)
    (hle : rest.length ≤ cs.length)
    (hnext : RunsTo src (here + pre.length + (cs.length - rest.length)) (here + pre.length) ls
      here (lineOf src here)
      (⟨kind, lexemeText src.toArray kind ⟨here, here + pre.length, by omega⟩,
        ⟨here, here + pre.length, by omega⟩, lineOf src here⟩ :: acc)) :
    RunsTo src (here + ((pre ++ cs).length - rest.length)) here ((cls, pre) :: ls) pos line acc := by
  unfold RunsTo at hnext ⊢
  rw [place_cons, tokensFrom_keep hk hkeep, Nat.max_eq_right hp.pos_le, hp.line_at]
  convert hnext using 1
  simp
  omega

end RunStep

theorem char_at {src cs : List Char} {here : Nat} {c : Char} (h : src.drop here = [c] ++ cs) :
    src[here]? = some c := by
  simpa using getElem?_of_drop h (k := 0) (by simp)

/-- Turning the lexemes of a reading into tokens keeps the invariant, from where the reading
starts to where it stops. The induction follows the reading, one lexeme at a time. -/
theorem progress_run {src cs : List Char} {ls : List (LexemeClass × List Char)}
    {rest : List Char} (h : Reads cs ls rest) {here pos line : Nat} {acc : List Token}
    (hsrc : src.drop here = cs) (hp : Progress src here pos line acc) :
    RunsTo src (here + (cs.length - rest.length)) here ls pos line acc := by
  induction h generalizing here pos line acc with
  | endOfInput => simpa [RunsTo, tokensFrom, LexemeClass.tokenKind?] using hp
  | unclosed => simpa [RunsTo, tokensFrom] using hp
  | @comment body cs ls rest hbody hcs hr ih =>
    rw [List.cons_append, ← List.cons_append] at hsrc
    have hskip : ∀ i, here ≤ i → i < here + (';' :: body).length →
        Skipped src acc.reverse i := by
      intro i hi hi'
      refine .inr (.inl ⟨here, hi, ?_, ?_, fun k hk hk' => ?_⟩)
      · simpa using getElem?_of_drop hsrc (k := 0) (by simp)
      · intro t ht _ hcov
        have := hp.token t (List.mem_reverse.1 ht)
        exact absurd hcov.2 (by omega)
      · obtain ⟨c, hc, hck⟩ := mem_of_drop hsrc hk (by omega)
        rw [hck]
        rintro ⟨⟩
        rcases List.mem_cons.1 hc with h | h
        · exact absurd h (by decide)
        · exact hbody h
    have hb : BoundaryAt src (here + (';' :: body).length) :=
      .inr (.inr (by rw [drop_add_of_drop hsrc]; exact atBreak_of_atLineEnd hcs))
    exact runsTo_skip (rfl : LexemeClass.tokenKind? .comment = none) hr.rest_length_le
      (ih (drop_add_of_drop hsrc) (hp.skip hskip hb))
  | @newline cs ls rest hr ih =>
    rw [← List.singleton_append] at hsrc
    by_cases hafter : AfterNewline acc
    · exact runsTo_drop (rfl : LexemeClass.tokenKind? .newline = some .newline) hafter hp
        hr.rest_length_le
        (ih (drop_add_of_drop hsrc) (hp.drop (char_at hsrc) hafter))
    · exact runsTo_keep (rfl : LexemeClass.tokenKind? .newline = some .newline) (fun _ => hafter) hp
        hr.rest_length_le
        (ih (drop_add_of_drop hsrc) (hp.keep rfl rfl Nat.one_pos rfl ⟨rfl, char_at hsrc⟩
          (fun _ => hafter) (boundary_after hsrc rfl (by decide))))
  | @blank bs cs ls rest hne hbs hcs hr ih =>
    have hskip : ∀ i, here ≤ i → i < here + bs.length → Skipped src acc.reverse i := by
      intro i hi hi'
      obtain ⟨c, hc, hck⟩ := mem_of_drop hsrc hi hi'
      exact .inl ⟨c, hck, hbs c hc⟩
    obtain ⟨c, hlast⟩ : ∃ c, bs.getLast? = some c :=
      Option.isSome_iff_exists.1 (List.getLast?_isSome.2 hne)
    have hb := boundary_after hsrc hlast (delimiter_of_spacing (hbs c (List.mem_of_getLast? hlast)))
    exact runsTo_skip (rfl : LexemeClass.tokenKind? .blank = none) hr.rest_length_le
      (ih (drop_add_of_drop hsrc) (hp.skip hskip hb))
  | @opening b cs ls rest hr ih =>
    rw [← List.singleton_append] at hsrc
    exact runsTo_keep (rfl : LexemeClass.tokenKind? (.opening b) = some (.opening b))
      (fun h => nomatch h) hp hr.rest_length_le
      (ih (drop_add_of_drop hsrc) (hp.keep rfl rfl Nat.one_pos rfl ⟨rfl, char_at hsrc⟩
        (fun h => nomatch h) (boundary_after hsrc rfl (openChar_delimiter b))))
  | @closing b cs ls rest hr ih =>
    rw [← List.singleton_append] at hsrc
    exact runsTo_keep (rfl : LexemeClass.tokenKind? (.closing b) = some (.closing b))
      (fun h => nomatch h) hp hr.rest_length_le
      (ih (drop_add_of_drop hsrc) (hp.keep rfl rfl Nat.one_pos rfl ⟨rfl, char_at hsrc⟩
        (fun h => nomatch h) (boundary_after hsrc rfl (closeChar_delimiter b))))
  | @word w out cs ls rest hne hw hb hr ih =>
    have hpos : 0 < w.length := List.length_pos_iff.2 hne
    have hchars : spanChars src ⟨here, here + w.length, by omega⟩ = w := spanChars_of_drop hsrc _
    have hstart : here = 0 ∨ ∃ c, src[here - 1]? = some c ∧ c ∈ wordDelimiters := by
      rcases hp.boundary with h0 | hd | hbr
      · exact .inl h0
      · exact .inr hd
      · rw [hsrc] at hbr
        exact absurd hbr (not_atBreak_of_wordRun hw hne)
    have hfits : ∃ o, WordSpan src ⟨here, here + w.length, by omega⟩ o ∧
        lexemeText src.toArray .word ⟨here, here + w.length, by omega⟩ = String.ofList o :=
      ⟨out, ⟨by simpa using hpos, by rw [hchars]; exact hw, by rwa [drop_add_of_drop hsrc], hstart⟩,
        by rw [lexemeText_toArray, if_pos rfl, hchars, walkWord_text hw]⟩
    exact runsTo_keep (rfl : LexemeClass.tokenKind? .word = some .word) (fun h => nomatch h) hp
      hr.rest_length_le
      (ih (drop_add_of_drop hsrc) (hp.keep rfl rfl hpos rfl hfits (fun h => nomatch h)
        (.inr (.inr (by rwa [drop_add_of_drop hsrc])))))

end PagedAsm
