import PagedAsm.Proofs.Lexing.Tokens

/-!
# Tokenizing a source text

Tokenizing fails exactly when reading the text meets a word with a string left open, and then
reports it on that word's line (`OpenStringAt`). Otherwise its tokens end with a line end, never
hold two line ends in a row, start with a line end only when that is the only token, stand in
order without overlapping, each cover what its kind says (a bracket or a line end one character
of its kind, a word a whole word, with its strings' quotes written `"`), carry the line they
start on, and leave uncovered only blanks, comments and dropped line ends (`Tokenized`).

Main statement: `tokenize_correct`.
-/

namespace PagedAsm

/-- Reading the text meets, at position `p`, a word whose string is left open: the text before
is read lexeme by lexeme, and at `p` stand the plain characters and closed strings of a word,
then a quote, not after a backslash, that opens a string with no closing quote on its line. -/
def OpenStringAt (src : List Char) (p : Nat) : Prop :=
  ∃ ls w out q s, Reads src ls (src.drop p) ∧ src.drop p = w ++ q :: s ∧ WordRun none w out ∧
    isQuote q ∧ w.getLast? ≠ some '\\' ∧ Unclosed q s

/-- What the tokens `ts` of the text `src` say about it. -/
structure Tokenized (src : List Char) (ts : List Token) : Prop where
  ends_with_newline : ∃ t ∈ ts.getLast?, t.kind = .newline
  no_two_newlines : ts.IsChain fun a b => ¬(a.kind = .newline ∧ b.kind = .newline)
  newline_first_alone : ∀ t ∈ ts.head?, t.kind = .newline → ts = [t]
  ordered : ts.Pairwise fun a b => a.span.start < b.span.start ∧ a.span.stop ≤ b.span.start
  within : ∀ t ∈ ts, t.span.stop ≤ src.length
  /-- Every token covers what its kind says, but the line end added at the end of the text. -/
  fits : ∀ t ∈ ts, t.Fits src ∨
    (t.kind = .newline ∧ t.span = Span.point src.length ∧ ts.getLast? = some t)
  line : ∀ t ∈ ts, t.line = lineOf src t.span.start
  skipped : ∀ i < src.length, (∀ t ∈ ts, ¬t.Covers i) → Skipped src ts i

/-! ## Where reading stops -/

theorem Reads.rest_cases {cs : List Char} {ls : List (LexemeClass × List Char)} {rest : List Char}
    (h : Reads cs ls rest) :
    rest = [] ∨ ∃ w out q s, rest = w ++ q :: s ∧ WordRun none w out ∧ isQuote q ∧
      w.getLast? ≠ some '\\' ∧ Unclosed q s := by
  induction h with
  | endOfInput => exact .inl rfl
  | unclosed hw hq hprev hs => exact .inr ⟨_, _, _, _, rfl, hw, hq, hprev, hs⟩
  | comment _ _ _ ih | blank _ _ _ _ ih | word _ _ _ _ ih => exact ih
  | newline _ ih | opening _ _ ih | closing _ _ ih => exact ih

theorem drop_of_reads {src : List Char} {ls : List (LexemeClass × List Char)} {rest : List Char}
    (h : Reads src ls rest) : src.drop (src.length - rest.length) = rest := by
  conv => lhs; rw [h.eq_append]
  simp

theorem enclosingFrom_number (p : Nat) (cs : List Char) :
    ∀ start pos n (h : start ≤ pos), pos ≤ p →
      (Line.enclosingFrom p cs start pos n h).number = n + (cs.take (p - pos)).count '\n' := by
  induction cs with
  | nil => intro start pos n h _; simp [Line.enclosingFrom]
  | cons c cs ih =>
    intro start pos n h hp
    by_cases hpos : pos = p
    · subst hpos
      simp [Line.enclosingFrom]
    · have hlt : p - pos = (p - (pos + 1)) + 1 := by omega
      by_cases hc : c = '\n'
      · rw [Line.enclosingFrom, if_neg hpos, if_pos hc, ih _ _ _ _ (by omega), hlt]
        simp [hc]
        omega
      · rw [Line.enclosingFrom, if_neg hpos, if_neg hc, ih _ _ _ _ (by omega), hlt]
        simp [hc]

theorem enclosing_number (src : List Char) (p : Nat) :
    (Line.enclosing src p).number = lineOf src p := by
  rw [Line.enclosing, enclosingFrom_number p src 0 0 1 _ (Nat.zero_le p), lineOf]
  simp
  omega

/-! ## The tokens at the end of the text -/

namespace Progress

variable {src : List Char} {pos line : Nat} {acc : List Token}

theorem chain_reverse (hp : Progress src src.length pos line acc) :
    acc.reverse.IsChain fun a b => ¬(a.kind = .newline ∧ b.kind = .newline) :=
  List.isChain_reverse.2 (hp.chain.imp fun _ _ h ⟨h1, h2⟩ => h ⟨h2, h1⟩)

theorem ordered_reverse (hp : Progress src src.length pos line acc) :
    acc.reverse.Pairwise fun a b => a.span.start < b.span.start ∧ a.span.stop ≤ b.span.start :=
  List.pairwise_reverse.2 hp.ordered

theorem tokenized_of_newline (hp : Progress src src.length pos line acc)
    (hnl : ∃ t ∈ acc.head?, t.kind = .newline) : Tokenized src acc.reverse where
  ends_with_newline := by simpa [List.getLast?_reverse] using hnl
  no_two_newlines := hp.chain_reverse
  newline_first_alone t ht hk := by
    rw [List.head?_reverse] at ht
    exact absurd hk (hp.first t ht)
  ordered := hp.ordered_reverse
  within t ht := (hp.token t (List.mem_reverse.1 ht)).2.1
  fits t ht := .inl (hp.token t (List.mem_reverse.1 ht)).2.2.2
  line t ht := (hp.token t (List.mem_reverse.1 ht)).2.2.1
  skipped i hi hcov := hp.gaps i hi fun t ht => hcov t (List.mem_reverse.2 ht)

theorem tokenized_append (hp : Progress src src.length pos line acc)
    (hnl : ¬∃ t ∈ acc.head?, t.kind = .newline) :
    Tokenized src (⟨.newline, "\n", Span.point src.length,
      line + countNewlines src.toArray pos src.length⟩ :: acc).reverse := by
  set a : Token := ⟨.newline, "\n", Span.point src.length,
    line + countNewlines src.toArray pos src.length⟩
  have hbefore : ∀ t ∈ acc, t.span.start < src.length ∧ t.span.stop ≤ src.length := by
    intro t ht
    have := hp.token t ht
    omega
  refine ⟨?_, ?_, ?_, ?_, ?_, ?_, ?_, ?_⟩
  · simp [a]
  · refine List.isChain_reverse.2 ?_
    cases acc with
    | nil => exact .singleton a
    | cons b acc =>
      refine .cons_cons ?_ (hp.chain.imp fun _ _ h ⟨h1, h2⟩ => h ⟨h2, h1⟩)
      rintro ⟨hb, -⟩
      exact hnl ⟨b, rfl, hb⟩
  · intro t ht hk
    cases acc with
    | nil => simpa [a] using ht
    | cons b acc =>
      rw [List.head?_reverse, List.getLast?_cons_cons] at ht
      exact absurd hk (hp.first t ht)
  · refine List.pairwise_reverse.2 (List.Pairwise.cons (fun t ht => ?_) hp.ordered)
    have := hbefore t ht
    simp [a, Span.point]
    omega
  · intro t ht
    rcases List.mem_cons.1 (List.mem_reverse.1 ht) with rfl | ht
    · simp [a, Span.point]
    · exact (hbefore t ht).2
  · intro t ht
    rcases List.mem_cons.1 (List.mem_reverse.1 ht) with rfl | ht
    · exact .inr ⟨rfl, rfl, by simp [a]⟩
    · exact .inl (hp.token t ht).2.2.2
  · intro t ht
    rcases List.mem_cons.1 (List.mem_reverse.1 ht) with rfl | ht
    · simp only [a, Span.point]
      rw [hp.line_eq, lineOf_add hp.pos_le]
    · exact (hp.token t ht).2.2.1
  · intro i hi hcov
    rw [List.reverse_cons]
    exact (hp.gaps i hi fun t ht => hcov t (by simp [ht])).append (by simp [a, Span.point]; omega)

end Progress

/-! ## Tokenizing -/

theorem tokenize_of_open {src : List Char} {ls : List (LexemeClass × List Char)} {rest : List Char}
    (h : Reads src ls rest) (hne : rest ≠ []) :
    tokenize src = .error ⟨.unterminatedString, ⟨src.length - rest.length,
      src.length - rest.length + Line.lineLength (src.drop (src.length - rest.length)), by omega⟩,
      lineOf src (src.length - rest.length)⟩ := by
  have hle := h.rest_length_le
  have hpos : 0 < rest.length := List.length_pos_iff.2 hne
  have hlt : src.length - rest.length < src.length := by omega
  simp only [tokenize, Rule.lex, lexFrom_of_reads h 0, if_neg hne, Nat.zero_add, Nat.add_zero,
    if_pos hlt, enclosing_number]

theorem tokenized_of_whole {src : List Char} {ls : List (LexemeClass × List Char)}
    (h : Reads src ls []) {ts : List Token} (hts : tokenize src = .ok ts) : Tokenized src ts := by
  have hp := progress_run h List.drop_zero (Progress.start src)
  simp only [RunsTo, List.length_nil, Nat.sub_zero, Nat.zero_add] at hp
  have hnlt : ¬(src.length + 1 < src.length) := by omega
  simp only [tokenize, Rule.lex, lexFrom_of_reads h 0, ↓reduceIte, List.length_nil, Nat.sub_zero,
    Nat.zero_add, hnlt] at hts
  generalize tokensFrom src.toArray (place 0 ls) 0 1 [] = r at hp hts
  obtain ⟨acc, pos, line⟩ := r
  cases acc with
  | nil =>
    simp only [Bool.false_eq_true, if_false, Except.ok.injEq, List.size_toArray] at hts
    subst hts
    exact hp.tokenized_append (by simp)
  | cons t acc =>
    by_cases hk : t.kind = .newline
    · simp only [Token.isNewline, hk, BEq.rfl, if_true, Except.ok.injEq] at hts
      subst hts
      exact hp.tokenized_of_newline ⟨t, rfl, hk⟩
    · have hk' : (t.kind == .newline) = false := by simpa using hk
      simp only [Token.isNewline, hk', Bool.false_eq_true, if_false, Except.ok.injEq,
        List.size_toArray] at hts
      subst hts
      exact hp.tokenized_append (by simpa using hk)

theorem tokenize_ok_of_whole {src : List Char} {ls : List (LexemeClass × List Char)}
    (h : Reads src ls []) : ∃ ts, tokenize src = .ok ts := by
  have hnlt : ¬(src.length + 1 < src.length) := by omega
  simp only [tokenize, Rule.lex, lexFrom_of_reads h 0, ↓reduceIte, List.length_nil, Nat.sub_zero,
    Nat.zero_add, hnlt]
  repeat' split
  all_goals exact ⟨_, rfl⟩

/-- Tokenizing fails exactly when reading the text meets a word whose string is left open, with
the diagnostic from that word to the end of its line, on its line; otherwise its tokens are
what `Tokenized` says. -/
theorem tokenize_correct (src : List Char) :
    (∀ e, tokenize src = .error e ↔ ∃ p, OpenStringAt src p ∧
      e = ⟨.unterminatedString, ⟨p, p + Line.lineLength (src.drop p), by omega⟩, lineOf src p⟩) ∧
    ∀ ts, tokenize src = .ok ts → Tokenized src ts := by
  obtain ⟨ls, rest, h⟩ := reads_total src
  refine ⟨fun e => ⟨fun he => ?_, ?_⟩, fun ts hts => ?_⟩
  · rcases h.rest_cases with rfl | ⟨w, out, q, s, hrest, hw, hq, hprev, hs⟩
    · obtain ⟨ts, hts⟩ := tokenize_ok_of_whole h
      rw [hts] at he
      cases he
    · have hne : rest ≠ [] := by simp [hrest]
      rw [tokenize_of_open h hne, Except.error.injEq] at he
      refine ⟨src.length - rest.length, ⟨ls, w, out, q, s, ?_, ?_, hw, hq, hprev, hs⟩, he.symm⟩
      · rwa [drop_of_reads h]
      · rw [drop_of_reads h, hrest]
  · rintro ⟨p, ⟨ls', w, out, q, s, h', hdrop, -⟩, rfl⟩
    have hne : src.drop p ≠ [] := by simp [hdrop]
    have hp : p < src.length := by
      by_contra hge
      exact hne (List.drop_of_length_le (by omega))
    have hsub : src.length - (src.drop p).length = p := by simp; omega
    rw [tokenize_of_open h' hne]
    simp only [hsub]
  · rcases h.rest_cases with rfl | ⟨w, out, q, s, hrest, -⟩
    · exact tokenized_of_whole h hts
    · have hne : rest ≠ [] := by simp [hrest]
      rw [tokenize_of_open h hne] at hts
      cases hts

end PagedAsm
