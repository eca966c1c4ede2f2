import PagedAsm.Proofs.Lexing.Words
import PagedAsm.Proofs.Lexing.Rules

/-!
# The lexemes of a source text

Lexing tries the source rules in order at each position. Here what it reads is a grammar,
`Reads cs ls rest`: the text `cs` is read as the lexemes `ls`, each a class and its characters,
and reading stops before `rest`. A comment runs from `;` to the end of its line, a blank run
and a word end where the next character cannot extend them, and reading stops at the end of the
text or at a word whose string is left open.

Every text is read so (`reads_total`); the lexemes and the rest make up the text
(`Reads.eq_append`); and lexing by rules gives exactly these lexemes laid end to end, and
stops where reading stops (`lexFrom_of_reads`). Every source rule's scanner stays within the
input, so on a text shorter than 2^63 - 1 characters the lexer in 64-bit arithmetic reads the
same (`collect_sourceRules`).
-/

namespace PagedAsm

/-- The blanks between lexemes: space, tab, carriage return and comma. -/
def spacing : List Char := [' ', '\t', '\r', ',']

namespace Bracket

/-- The character that opens a group. -/
def openChar : Bracket → Char
  | .round => '('
  | .curly => '{'
  | .square => '['

/-- The character that closes a group. -/
def closeChar : Bracket → Char
  | .round => ')'
  | .curly => '}'
  | .square => ']'

end Bracket

/-- `Reads cs ls rest`: lexing the text `cs` reads the lexemes `ls`, each a class and its
characters, and stops before `rest`: at the end of the text, after an empty end-of-input lexeme,
or at a word whose string is left open. -/
inductive Reads : List Char → List (LexemeClass × List Char) → List Char → Prop where
  | endOfInput : Reads [] [(.endOfInput, [])] []
  | unclosed {w out s : List Char} {q : Char} : WordRun none w out → isQuote q →
      w.getLast? ≠ some '\\' → Unclosed q s → Reads (w ++ q :: s) [] (w ++ q :: s)
  | comment {body cs : List Char} {ls : List (LexemeClass × List Char)} {rest : List Char} :
      '\n' ∉ body → AtLineEnd cs → Reads cs ls rest →
      Reads (';' :: body ++ cs) ((.comment, ';' :: body) :: ls) rest
  | newline {cs : List Char} {ls : List (LexemeClass × List Char)} {rest : List Char} :
      Reads cs ls rest → Reads ('\n' :: cs) ((.newline, ['\n']) :: ls) rest
  | blank {bs cs : List Char} {ls : List (LexemeClass × List Char)} {rest : List Char} :
      bs ≠ [] → (∀ c ∈ bs, c ∈ spacing) → (∀ c ∈ cs.head?, c ∉ spacing) → Reads cs ls rest →
      Reads (bs ++ cs) ((.blank, bs) :: ls) rest
  | opening (b : Bracket) {cs : List Char} {ls : List (LexemeClass × List Char)}
      {rest : List Char} : Reads cs ls rest →
      Reads (b.openChar :: cs) ((.opening b, [b.openChar]) :: ls) rest
  | closing (b : Bracket) {cs : List Char} {ls : List (LexemeClass × List Char)}
      {rest : List Char} : Reads cs ls rest →
      Reads (b.closeChar :: cs) ((.closing b, [b.closeChar]) :: ls) rest
  | word {w out cs : List Char} {ls : List (LexemeClass × List Char)} {rest : List Char} :
      w ≠ [] → WordRun none w out → AtBreak cs → Reads cs ls rest →
      Reads (w ++ cs) ((.word, w) :: ls) rest

/-- The lexemes laid end to end from position `pos`. -/
def place (pos : Nat) : List (LexemeClass × List Char) → List (Lexeme LexemeClass)
  | [] => []
  | (c, cs) :: ls => ⟨c, ⟨pos, pos + cs.length, by omega⟩⟩ :: place (pos + cs.length) ls

@[simp] theorem place_nil (pos : Nat) : place pos [] = [] := rfl

@[simp] theorem place_cons (pos : Nat) (c : LexemeClass) (cs : List Char)
    (ls : List (LexemeClass × List Char)) :
    place pos ((c, cs) :: ls) = ⟨c, ⟨pos, pos + cs.length, by omega⟩⟩ :: place (pos + cs.length) ls :=
  rfl

/-! ## The scanners of the source rules -/

namespace Scanner

theorem unit_single_cons (c d : Char) (r : List Char) :
    unit [c] (d :: r) = if d = c then 1 else 0 := by
  unfold unit
  by_cases h : d = c
  · simp [List.isPrefixOf, h]
  · simp [List.isPrefixOf, Ne.symm h, h]

theorem manyFrom_stop {α : Type} {s : Scanner α} {items : List α} (h : s items = 0) (acc : Nat) :
    manyFrom s items acc = acc := by
  cases items with
  | nil => simp [manyFrom]
  | cons x xs => rw [manyFrom]; simp [h]

theorem manyFrom_spacing {bs rest : List Char} (hbs : ∀ c ∈ bs, c ∈ spacing)
    (hrest : ∀ c ∈ rest.head?, c ∉ spacing) (acc : Nat) :
    manyFrom (oneOf spacing) (bs ++ rest) acc = acc + bs.length := by
  induction bs generalizing acc with
  | nil =>
    refine manyFrom_stop ?_ acc
    cases rest with
    | nil => rfl
    | cons c r => simpa [oneOf] using hrest c
  | cons b bs ih =>
    have hb : b ∈ spacing := hbs b (by simp)
    rw [List.cons_append, manyFrom]
    simp only [oneOf, List.contains_iff_mem, hb, if_true]
    rw [List.drop_one, List.tail_cons, ih (fun c hc => hbs c (by simp [hc]))]
    simp
    omega

theorem comment_length {body cs : List Char} (hbody : '\n' ∉ body) (hcs : AtLineEnd cs) :
    allOf [unit [';'], upTo '\n'] (';' :: (body ++ cs)) = body.length + 1 := by
  have htake : (body ++ cs).takeWhile (· != '\n') = body := by
    have hne : ∀ a ∈ body, (a != '\n') = true := fun a ha => by
      have : a ≠ '\n' := fun h => hbody (h ▸ ha)
      simpa using this
    rw [List.takeWhile_append_of_pos hne]
    rcases hcs with rfl | ⟨r, rfl⟩ <;> simp
  simp [allOf, allOfFrom, unit, List.isPrefixOf, upTo, htake]

end Scanner

/-! ## The first rule that matches -/

theorem firstMatch_nil : Rule.firstMatch sourceRules [] = some (.endOfInput, 1) := by
  simp [Rule.firstMatch, sourceRules, Scanner.allOf, Scanner.allOfFrom, Scanner.unit,
    List.isPrefixOf, Scanner.many, Scanner.manyFrom, wordScanner, walkWord, Scanner.endOfInput]

theorem firstMatch_of_not_delimiter {c : Char} (r : List Char) (hc : c ∉ wordDelimiters) :
    Rule.firstMatch sourceRules (c :: r) =
      if wordScanner (c :: r) = 0 then none else some (.word, wordScanner (c :: r)) := by
  simp only [wordDelimiters, List.mem_cons, List.not_mem_nil, or_false, not_or] at hc
  obtain ⟨h1, h2, h3, h4, h5, h6, h7, h8, h9, h10, h11, h12⟩ := hc
  simp [Rule.firstMatch, sourceRules, Scanner.allOf, Scanner.allOfFrom, Scanner.unit_single_cons,
    Scanner.many, Scanner.manyFrom_stop, Scanner.oneOf, Scanner.endOfInput, *]

theorem firstMatch_comment {body cs : List Char} (hbody : '\n' ∉ body) (hcs : AtLineEnd cs) :
    Rule.firstMatch sourceRules (';' :: (body ++ cs)) = some (.comment, body.length + 1) := by
  simp [Rule.firstMatch, sourceRules, Scanner.comment_length hbody hcs]

theorem firstMatch_newline (r : List Char) :
    Rule.firstMatch sourceRules ('\n' :: r) = some (.newline, 1) := by
  simp [Rule.firstMatch, sourceRules, Scanner.allOf, Scanner.allOfFrom, Scanner.unit_single_cons]

theorem firstMatch_blank {bs cs : List Char} (hne : bs ≠ []) (hbs : ∀ c ∈ bs, c ∈ spacing)
    (hcs : ∀ c ∈ cs.head?, c ∉ spacing) :
    Rule.firstMatch sourceRules (bs ++ cs) = some (.blank, bs.length) := by
  obtain ⟨b, bs', rfl⟩ := List.exists_cons_of_ne_nil hne
  have hb : b ∈ spacing := hbs b (by simp)
  have hrun := Scanner.manyFrom_spacing hbs hcs 0
  simp only [spacing, List.cons_append, Nat.zero_add] at hb hrun
  simp only [List.mem_cons, List.not_mem_nil, or_false] at hb
  have h1 : b ≠ ';' := by rcases hb with rfl | rfl | rfl | rfl <;> decide
  have h2 : b ≠ '\n' := by rcases hb with rfl | rfl | rfl | rfl <;> decide
  simp [Rule.firstMatch, sourceRules, Scanner.allOf, Scanner.allOfFrom, Scanner.unit_single_cons,
    Scanner.many, hrun, h1, h2]

theorem firstMatch_opening (b : Bracket) (r : List Char) :
    Rule.firstMatch sourceRules (b.openChar :: r) = some (.opening b, 1) := by
  cases b <;>
    simp [Bracket.openChar, Rule.firstMatch, sourceRules, Scanner.allOf, Scanner.allOfFrom,
      Scanner.unit_single_cons, Scanner.many, Scanner.manyFrom_stop, Scanner.oneOf]

theorem firstMatch_closing (b : Bracket) (r : List Char) :
    Rule.firstMatch sourceRules (b.closeChar :: r) = some (.closing b, 1) := by
  cases b <;>
    simp [Bracket.closeChar, Rule.firstMatch, sourceRules, Scanner.allOf, Scanner.allOfFrom,
      Scanner.unit_single_cons, Scanner.many, Scanner.manyFrom_stop, Scanner.oneOf]

theorem firstMatch_word {w out rest : List Char} (h : WordRun none w out) (hne : w ≠ [])
    (hb : AtBreak rest) : Rule.firstMatch sourceRules (w ++ rest) = some (.word, w.length) := by
  obtain ⟨c, w', rfl⟩ := List.exists_cons_of_ne_nil hne
  have hc : c ∉ wordDelimiters := h.head_not_delimiter c (by simp)
  rw [List.cons_append, firstMatch_of_not_delimiter _ hc, ← List.cons_append,
    wordScanner_run h hb]
  simp

theorem firstMatch_unclosed {w out s : List Char} {q : Char} (h : WordRun none w out)
    (hq : isQuote q) (hprev : w.getLast? ≠ some '\\') (hs : Unclosed q s) :
    Rule.firstMatch sourceRules (w ++ q :: s) = none := by
  obtain ⟨c, r, hcr⟩ : ∃ c r, w ++ q :: s = c :: r := List.exists_cons_of_ne_nil (by simp)
  have hc : c ∉ wordDelimiters := by
    cases w with
    | nil => simp only [List.nil_append, List.cons.injEq] at hcr; exact hcr.1 ▸ hq.not_delimiter
    | cons d w' =>
      simp only [List.cons_append, List.cons.injEq] at hcr
      exact hcr.1 ▸ h.head_not_delimiter d (by simp)
  rw [hcr, firstMatch_of_not_delimiter _ hc, ← hcr, wordScanner_unclosed h hq hprev hs]
  simp

/-! ## Lexing reads the grammar -/

theorem Reads.eq_append {cs : List Char} {ls : List (LexemeClass × List Char)} {rest : List Char}
    (h : Reads cs ls rest) : cs = (ls.map Prod.snd).flatten ++ rest := by
  induction h with
  | endOfInput => rfl
  | unclosed => rfl
  | comment _ _ _ ih | blank _ _ _ _ ih | word _ _ _ _ ih =>
    rw [ih]; simp
  | newline _ ih | opening _ _ ih | closing _ _ ih =>
    rw [ih]; simp

theorem Reads.rest_length_le {cs : List Char} {ls : List (LexemeClass × List Char)}
    {rest : List Char} (h : Reads cs ls rest) : rest.length ≤ cs.length := by
  rw [h.eq_append]; simp

theorem lexFrom_lexeme {pre cs rest : List Char} {cls : LexemeClass}
    {ls : List (LexemeClass × List Char)} (hne : pre ≠ [])
    (h : Rule.firstMatch sourceRules (pre ++ cs) = some (cls, pre.length))
    (hle : rest.length ≤ cs.length)
    (ih : ∀ pos, Rule.lexFrom sourceRules cs pos =
      (place pos ls, pos + (cs.length - rest.length) + if rest = [] then 1 else 0))
    (pos : Nat) :
    Rule.lexFrom sourceRules (pre ++ cs) pos =
      (place pos ((cls, pre) :: ls),
        pos + ((pre ++ cs).length - rest.length) + if rest = [] then 1 else 0) := by
  obtain ⟨x, xs, rfl⟩ := List.exists_cons_of_ne_nil hne
  rw [List.cons_append] at h ⊢
  rw [Rule.lexFrom_cons h (by simp)]
  simp [ih]
  omega

/-- Lexing by the source rules gives the lexemes of the grammar, laid end to end, and stops
one past the end of the text when it read the whole text, or else where reading stopped. -/
theorem lexFrom_of_reads {cs : List Char} {ls : List (LexemeClass × List Char)} {rest : List Char}
    (h : Reads cs ls rest) (pos : Nat) :
    Rule.lexFrom sourceRules cs pos =
      (place pos ls, pos + (cs.length - rest.length) + if rest = [] then 1 else 0) := by
  induction h generalizing pos with
  | endOfInput => simp [Rule.lexFrom_nil firstMatch_nil, Span.point]
  | unclosed hw hq hprev hs => simp [Rule.lexFrom_none (firstMatch_unclosed hw hq hprev hs)]
  | comment hbody hcs hr ih =>
    exact lexFrom_lexeme (by simp) (firstMatch_comment hbody hcs) hr.rest_length_le ih pos
  | @newline cs ls rest hr ih =>
    rw [← List.singleton_append]
    exact lexFrom_lexeme (by simp) (firstMatch_newline cs) hr.rest_length_le ih pos
  | blank hne hbs hcs hr ih =>
    exact lexFrom_lexeme hne (firstMatch_blank hne hbs hcs) hr.rest_length_le ih pos
  | @opening b cs ls rest hr ih =>
    rw [← List.singleton_append]
    exact lexFrom_lexeme (by simp) (firstMatch_opening b cs) hr.rest_length_le ih pos
  | @closing b cs ls rest hr ih =>
    rw [← List.singleton_append]
    exact lexFrom_lexeme (by simp) (firstMatch_closing b cs) hr.rest_length_le ih pos
  | word hne hw hb hr ih =>
    exact lexFrom_lexeme hne (firstMatch_word hw hne hb) hr.rest_length_le ih pos

/-! ## Every text is read -/

theorem char_cases (c : Char) :
    c = ';' ∨ c = '\n' ∨ c ∈ spacing ∨ (∃ b : Bracket, c = b.openChar) ∨
      (∃ b : Bracket, c = b.closeChar) ∨ c ∉ wordDelimiters := by
  by_cases hc : c ∈ wordDelimiters
  · simp only [wordDelimiters, List.mem_cons, List.not_mem_nil, or_false] at hc
    rcases hc with h | h | h | h | h | h | h | h | h | h | h | h <;> subst h
    all_goals first
      | (right; right; left; decide)
      | (left; rfl)
      | (right; left; rfl)
      | (right; right; right; left; first | exact ⟨.round, rfl⟩ | exact ⟨.curly, rfl⟩ |
          exact ⟨.square, rfl⟩)
      | (right; right; right; right; left; first | exact ⟨.round, rfl⟩ | exact ⟨.curly, rfl⟩ |
          exact ⟨.square, rfl⟩)
  · exact .inr (.inr (.inr (.inr (.inr hc))))

theorem delimiter_of_spacing {c : Char} (h : c ∈ spacing) : c ∈ wordDelimiters := by
  simp only [spacing, List.mem_cons, List.not_mem_nil, or_false] at h
  rcases h with rfl | rfl | rfl | rfl <;> decide

/-- Every text is read, lexeme by lexeme, to its end or to a word whose string is left
open. -/
theorem reads_total (cs : List Char) : ∃ ls rest, Reads cs ls rest := by
  match cs with
  | [] => exact ⟨_, _, .endOfInput⟩
  | c :: r =>
    rcases char_cases c with rfl | rfl | hsp | ⟨b, rfl⟩ | ⟨b, rfl⟩ | hc
    · -- a comment runs to the end of its line
      have hlen : (r.dropWhile (· != '\n')).length < (';' :: r).length :=
        Nat.lt_succ_of_le (List.dropWhile_suffix _).length_le
      obtain ⟨ls, rest, h⟩ := reads_total (r.dropWhile (· != '\n'))
      have hbody : '\n' ∉ r.takeWhile (· != '\n') := fun hm => by
        have := List.all_eq_true.1 (List.all_takeWhile (p := (· != '\n')) (l := r)) _ hm
        simp at this
      have hend : AtLineEnd (r.dropWhile (· != '\n')) := by
        have := List.head?_dropWhile_not (· != '\n') r
        cases hd : r.dropWhile (· != '\n') with
        | nil => exact .inl rfl
        | cons d ds => simp [hd] at this; exact .inr ⟨ds, by rw [this]⟩
      have hr := Reads.comment hbody hend h
      rw [List.cons_append, List.takeWhile_append_dropWhile] at hr
      exact ⟨_, _, hr⟩
    · obtain ⟨ls, rest, h⟩ := reads_total r
      exact ⟨_, _, .newline h⟩
    · -- a blank run is as long as it can be
      have hlen : (r.dropWhile (· ∈ spacing)).length < (c :: r).length :=
        Nat.lt_succ_of_le (List.dropWhile_suffix _).length_le
      obtain ⟨ls, rest, h⟩ := reads_total (r.dropWhile (· ∈ spacing))
      have hbs : ∀ d ∈ c :: r.takeWhile (· ∈ spacing), d ∈ spacing := by
        intro d hd
        rcases List.mem_cons.1 hd with rfl | hd
        · exact hsp
        · simpa using List.all_eq_true.1 (List.all_takeWhile (p := (· ∈ spacing)) (l := r)) _ hd
      have hnext : ∀ d ∈ (r.dropWhile (· ∈ spacing)).head?, d ∉ spacing := by
        intro d hd
        have := List.head?_dropWhile_not (· ∈ spacing) r
        rw [Option.mem_def] at hd
        simp only [hd] at this
        simpa using this
      have hr := Reads.blank (List.cons_ne_nil _ _) hbs hnext h
      rw [List.cons_append, List.takeWhile_append_dropWhile] at hr
      exact ⟨_, _, hr⟩
    · obtain ⟨ls, rest, h⟩ := reads_total r
      exact ⟨_, _, .opening b h⟩
    · obtain ⟨ls, rest, h⟩ := reads_total r
      exact ⟨_, _, .closing b h⟩
    · obtain ⟨w, out, rest, heq, hw, hend⟩ := wordRun_or_unclosed none (c :: r)
      rcases hend with hb | ⟨q, s, rfl, hq, hprev, hs⟩
      · have hne : w ≠ [] := by
          rintro rfl
          rw [List.nil_append] at heq
          exact hc (hb c (by simp [← heq]))
        have hlen : rest.length < (c :: r).length := by
          rw [heq, List.length_append]
          have := List.length_pos_iff.2 hne
          omega
        obtain ⟨ls, rest', h⟩ := reads_total rest
        exact ⟨_, _, by rw [heq]; exact .word hne hw hb h⟩
      · exact ⟨_, _, by rw [heq]; exact .unclosed hw hq (by simpa using hprev) hs⟩
termination_by cs.length
decreasing_by all_goals first | assumption | simp

/-! ## The source rules in 64-bit arithmetic -/

theorem walkWord_length_le (quote prev : Option Char) (cs acc : List Char) :
    (walkWord quote prev cs acc).1.length ≤ acc.length + cs.length := by
  fun_induction walkWord quote prev cs acc <;> simp_all <;> omega

theorem wordScanner_bounded : wordScanner.Bounded := fun cs => by
  have := walkWord_length_le none none cs []
  simp only [List.length_nil, Nat.zero_add] at this
  simp only [wordScanner]
  split <;> omega

theorem sourceRules_bounded : ∀ r ∈ sourceRules, r.scanner.Bounded := by
  simp only [sourceRules, List.mem_cons, List.not_mem_nil, or_false, forall_eq_or_imp, forall_eq]
  exact ⟨Scanner.allOf_bounded (by simp [Scanner.unit_bounded, Scanner.upTo_bounded]),
    Scanner.unit_bounded _, Scanner.many_bounded (Scanner.oneOf_bounded _), Scanner.unit_bounded _,
    Scanner.unit_bounded _, Scanner.unit_bounded _, Scanner.unit_bounded _, Scanner.unit_bounded _,
    Scanner.unit_bounded _, wordScanner_bounded, Scanner.endOfInput_bounded⟩

/-- On every text shorter than 2^63 - 1 characters, the lexer in 64-bit arithmetic gives the
lexemes that tokenizing reads. -/
theorem collect_sourceRules {source : List Char} (h : source.length + 1 < Rule.intLimit) :
    Rule.collect sourceRules source = some (Rule.lex sourceRules source) :=
  Rule.collectFrom_of_no_wrap source (Nat.zero_le _)
    (Rule.not_wraps_of_bounded sourceRules_bounded h)

end PagedAsm
