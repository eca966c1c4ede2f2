import PagedAsm.Syntax.Lexer

/-!
# Words and strings

A word runs up to a delimiter outside strings. Here that reading is a grammar: a word is a run
of plain characters and closed strings (`WordRun`); a string is a quote, a body (`StringBody`)
and the same quote again; a string that is never closed runs to the end of its line or of the
input (`Unclosed`).

The word walker follows the grammar. On a word that ends at a delimiter or at the end of the
input it returns the word with the quotes of its strings written `"` (`walkWord_run`), and
it reports a string left open (`walkWord_unclosed`). Every text starts with one of the two
(`wordRun_or_unclosed`), so the word scanner accepts exactly the words of the grammar
(`wordScanner_run`, `wordScanner_unclosed`).
-/

namespace PagedAsm

/-- The characters that open a string. -/
def isQuote (c : Char) : Prop := c = '"' ∨ c = '\''

instance : DecidablePred isQuote := fun _ => inferInstanceAs (Decidable (_ ∨ _))

theorem isQuote.ne_backslash {q : Char} (h : isQuote q) : q ≠ '\\' := by
  rcases h with rfl | rfl <;> decide

theorem isQuote.ne_lineEnd {q : Char} (h : isQuote q) : q ≠ '\n' := by
  rcases h with rfl | rfl <;> decide

theorem isQuote.not_delimiter {q : Char} (h : isQuote q) : q ∉ wordDelimiters := by
  rcases h with rfl | rfl <;> decide

/-- The body of a closed string opened by `q`: escapes (a backslash and the character after it,
unless that is a line end) and characters other than `q`, a line end and a backslash. -/
inductive StringBody (q : Char) : List Char → Prop where
  | nil : StringBody q []
  | escape {d : Char} {cs : List Char} : d ≠ '\n' → StringBody q cs →
      StringBody q ('\\' :: d :: cs)
  | char {c : Char} {cs : List Char} : c ≠ q → c ≠ '\n' → c ≠ '\\' → StringBody q cs →
      StringBody q (c :: cs)

/-- The text is at the end of its line or of the input. -/
def AtLineEnd (cs : List Char) : Prop := cs = [] ∨ ∃ r, cs = '\n' :: r

/-- The text after a word: empty, or a delimiter comes next. -/
def AtBreak (cs : List Char) : Prop := ∀ c ∈ cs.head?, c ∈ wordDelimiters

/-- The rest `cs` of a string opened by `q` has no closing quote before the end of its line or
of the input: a body, then that end, perhaps after one backslash. -/
def Unclosed (q : Char) (cs : List Char) : Prop :=
  ∃ body rest, cs = body ++ rest ∧ StringBody q body ∧
    (AtLineEnd rest ∨ ∃ r, rest = '\\' :: r ∧ AtLineEnd r)

/-- `WordRun prev cs out`: after the character `prev`, the characters `cs` are plain characters
and closed strings of a word, read as `out`, where the quotes of every string are written `"`.
A quote right after a backslash is a plain character. -/
inductive WordRun : Option Char → List Char → List Char → Prop where
  | nil {prev : Option Char} : WordRun prev [] []
  | char {prev : Option Char} {c : Char} {cs out : List Char} :
      c ∉ wordDelimiters → (isQuote c → prev = some '\\') → WordRun (some c) cs out →
      WordRun prev (c :: cs) (c :: out)
  | string {prev : Option Char} {q : Char} {body cs out : List Char} :
      isQuote q → prev ≠ some '\\' → StringBody q body → WordRun (some q) cs out →
      WordRun prev (q :: body ++ q :: cs) ('"' :: body ++ '"' :: out)

/-! ## Reading the grammar -/

theorem getLast?_cons_or (c : Char) (cs : List Char) (prev : Option Char) :
    (c :: cs).getLast?.or prev = cs.getLast?.or (some c) := by
  simp [List.getLast?_cons]

theorem getLast?_string_or (q : Char) (body cs : List Char) (prev : Option Char) :
    (q :: body ++ q :: cs).getLast?.or prev = cs.getLast?.or (some q) := by
  simp [List.getLast?_append, List.getLast?_cons]

theorem WordRun.length_eq {prev : Option Char} {cs out : List Char} (h : WordRun prev cs out) :
    out.length = cs.length := by
  induction h with
  | nil => rfl
  | char _ _ _ ih => simp [ih]
  | string _ _ _ _ ih => simp [ih]

theorem WordRun.head_not_delimiter {prev : Option Char} {cs out : List Char}
    (h : WordRun prev cs out) : ∀ c ∈ cs.head?, c ∉ wordDelimiters := by
  cases h with
  | nil => simp
  | char hc _ _ => simpa using hc
  | string hq _ _ _ => simpa using hq.not_delimiter

theorem not_atBreak_of_wordRun {prev : Option Char} {cs out rest : List Char}
    (h : WordRun prev cs out) (hne : cs ≠ []) : ¬AtBreak (cs ++ rest) := by
  obtain ⟨c, r, rfl⟩ := List.exists_cons_of_ne_nil hne
  intro hb
  exact h.head_not_delimiter c (by simp) (hb c (by simp))

/-! ## The walker inside a string -/

theorem walkWord_quoted_prev (q : Char) (p p' : Option Char) (cs acc : List Char) :
    walkWord (some q) p cs acc = walkWord (some q) p' cs acc := by
  rcases cs with _ | ⟨c, _ | ⟨d, r⟩⟩ <;> simp only [walkWord]

theorem walkWord_body {q : Char} {body : List Char} (h : StringBody q body)
    (p : Option Char) (cs acc : List Char) :
    walkWord (some q) p (body ++ cs) acc = walkWord (some q) p cs (body.reverse ++ acc) := by
  induction h generalizing p acc with
  | nil => rfl
  | @escape d body hd _ ih =>
    simp only [List.cons_append, walkWord, ne_eq, hd, not_false_eq_true, and_self, if_true]
    rw [ih, walkWord_quoted_prev q _ p]
    simp
  | @char c body hcq hcn hcb _ ih =>
    cases hr : body ++ cs with
    | nil =>
      obtain ⟨rfl, rfl⟩ := List.append_eq_nil_iff.1 hr
      simp [walkWord, hcn, hcq]
    | cons d r =>
      rw [List.cons_append, hr, walkWord]
      simp only [hcb, false_and, if_false, hcn, hcq]
      rw [← hr, ih, walkWord_quoted_prev q _ p]
      simp

theorem walkWord_string {q : Char} {body : List Char} (hq : isQuote q) (h : StringBody q body)
    (p : Option Char) (rest acc : List Char) :
    walkWord (some q) p (body ++ q :: rest) acc =
      walkWord none (some q) rest ('"' :: body.reverse ++ acc) := by
  rw [walkWord_body h]
  cases rest with
  | nil => simp [walkWord, hq.ne_lineEnd]
  | cons d r => simp [walkWord, hq.ne_backslash, hq.ne_lineEnd]

/-- A string left open ends the word with a failure. -/
theorem walkWord_unclosed {q : Char} {cs : List Char} (hq : isQuote q) (h : Unclosed q cs)
    (p : Option Char) (acc : List Char) : (walkWord (some q) p cs acc).2 = false := by
  obtain ⟨body, rest, rfl, hbody, hend⟩ := h
  rw [walkWord_body hbody]
  rcases hend with (rfl | ⟨r, rfl⟩) | ⟨r, rfl, rfl | ⟨r', rfl⟩⟩
  · simp [walkWord]
  · cases r <;> simp [walkWord]
  · simp [walkWord, hq.ne_backslash.symm]
  · cases r' <;> simp [walkWord, hq.ne_backslash.symm]

/-! ## The walker on a word -/

/-- A word that ends at a break is read whole, with its strings' quotes written `"`. -/
theorem walkWord_run {prev : Option Char} {w out : List Char} (h : WordRun prev w out)
    {rest : List Char} (hb : AtBreak rest) (acc : List Char) :
    walkWord none prev (w ++ rest) acc = (out.reverse ++ acc, true) := by
  induction h generalizing acc with
  | nil =>
    cases rest with
    | nil => simp [walkWord]
    | cons d r =>
      have hd : d ∈ wordDelimiters := hb d (by simp)
      have hq : ¬(d = '"' ∨ d = '\'') := fun h => isQuote.not_delimiter h hd
      simp [walkWord, hq, hd]
  | @char prev c cs out hc hquote _ ih =>
    rw [List.cons_append, walkWord]
    by_cases hq : c = '"' ∨ c = '\''
    · simp [hq, hquote hq, ih]
    · simp [hq, hc, ih]
  | @string prev q body cs out hq hprev hbody _ ih =>
    have hq' : q = '"' ∨ q = '\'' := hq
    simp only [List.cons_append, List.append_assoc]
    rw [walkWord]
    simp only [hq', if_true, hprev, if_false]
    rw [walkWord_string hq hbody, ih]
    simp

theorem walkWord_run_unclosed {prev : Option Char} {w out : List Char} (h : WordRun prev w out)
    {q : Char} {s : List Char} (hq : isQuote q) (hprev : w.getLast?.or prev ≠ some '\\')
    (hs : Unclosed q s) (acc : List Char) :
    (walkWord none prev (w ++ q :: s) acc).2 = false := by
  induction h generalizing acc with
  | nil =>
    have hq' : q = '"' ∨ q = '\'' := hq
    simp only [List.nil_append, walkWord, hq', if_true]
    simp only [List.getLast?_nil, Option.none_or] at hprev
    simp only [hprev, if_false]
    exact walkWord_unclosed hq hs _ _
  | @char prev c cs out hc hquote _ ih =>
    rw [getLast?_cons_or] at hprev
    rw [List.cons_append, walkWord]
    by_cases hcq : c = '"' ∨ c = '\''
    · simp only [hcq, if_true, hquote hcq]
      exact ih hprev _
    · simp only [hcq, if_false, hc]
      exact ih hprev _
  | @string prev q' body cs out hq' hprev' hbody _ ih =>
    have hq'' : q' = '"' ∨ q' = '\'' := hq'
    rw [getLast?_string_or] at hprev
    simp only [List.cons_append, List.append_assoc]
    rw [walkWord]
    simp only [hq'', if_true, hprev', if_false]
    rw [walkWord_string hq' hbody]
    exact ih hprev _

/-! ## Every text starts with a word or a string left open -/

theorem closes_or_unclosed {q : Char} (hq : isQuote q) :
    ∀ s : List Char, (∃ body rest, s = body ++ q :: rest ∧ StringBody q body) ∨ Unclosed q s
  | [] => .inr ⟨[], [], rfl, .nil, .inl (.inl rfl)⟩
  | c :: r => by
    by_cases hcq : c = q
    · exact .inl ⟨[], r, by simp [hcq], .nil⟩
    by_cases hcn : c = '\n'
    · exact .inr ⟨[], c :: r, rfl, .nil, .inl (.inr ⟨r, by simp [hcn]⟩)⟩
    by_cases hcb : c = '\\'
    · cases r with
      | nil => exact .inr ⟨[], [c], rfl, .nil, .inr ⟨[], by simp [hcb], .inl rfl⟩⟩
      | cons d r =>
        by_cases hd : d = '\n'
        · exact .inr ⟨[], c :: d :: r, rfl, .nil, .inr ⟨d :: r, by simp [hcb], .inr ⟨r, by simp [hd]⟩⟩⟩
        rcases closes_or_unclosed hq r with ⟨body, rest, rfl, hb⟩ | ⟨body, rest, rfl, hb, hend⟩
        · exact .inl ⟨'\\' :: d :: body, rest, by simp [hcb], .escape hd hb⟩
        · exact .inr ⟨'\\' :: d :: body, rest, by simp [hcb], .escape hd hb, hend⟩
    rcases closes_or_unclosed hq r with ⟨body, rest, rfl, hb⟩ | ⟨body, rest, rfl, hb, hend⟩
    · exact .inl ⟨c :: body, rest, by simp, .char hcq hcn hcb hb⟩
    · exact .inr ⟨c :: body, rest, by simp, .char hcq hcn hcb hb, hend⟩

/-- What can follow the plain characters and closed strings of a word, after the character
`last`: a break, or a string opened there and left open. -/
def WordEnd (last : Option Char) (rest : List Char) : Prop :=
  AtBreak rest ∨ ∃ q s, rest = q :: s ∧ isQuote q ∧ last ≠ some '\\' ∧ Unclosed q s

/-- Every text starts with plain characters and closed strings up to a break or up to a string
left open. The recursion follows the walker: a character, or a whole closed string. -/
theorem wordRun_or_unclosed (prev : Option Char) (cs : List Char) :
    ∃ w out rest, cs = w ++ rest ∧ WordRun prev w out ∧ WordEnd (w.getLast?.or prev) rest := by
  match cs with
  | [] => exact ⟨[], [], [], rfl, .nil, .inl (by simp [AtBreak])⟩
  | c :: r =>
    by_cases hd : c ∈ wordDelimiters
    · exact ⟨[], [], c :: r, rfl, .nil, .inl (by simpa [AtBreak] using hd)⟩
    by_cases hq : isQuote c
    · by_cases hp : prev = some '\\'
      · obtain ⟨w, out, rest, rfl, hw, hend⟩ := wordRun_or_unclosed (some c) r
        exact ⟨c :: w, c :: out, rest, rfl, .char hd (fun _ => hp) hw, by rwa [getLast?_cons_or]⟩
      rcases closes_or_unclosed hq r with ⟨body, r, rfl, hb⟩ | hu
      · obtain ⟨w, out, rest, rfl, hw, hend⟩ := wordRun_or_unclosed (some c) r
        exact ⟨c :: body ++ c :: w, '"' :: body ++ '"' :: out, rest, by simp,
          .string hq hp hb hw, by rwa [getLast?_string_or]⟩
      · exact ⟨[], [], c :: r, rfl, .nil, .inr ⟨c, r, rfl, hq, by simpa using hp, hu⟩⟩
    · obtain ⟨w, out, rest, rfl, hw, hend⟩ := wordRun_or_unclosed (some c) r
      exact ⟨c :: w, c :: out, rest, rfl, .char hd (fun h => absurd h hq) hw,
        by rwa [getLast?_cons_or]⟩
termination_by cs.length
decreasing_by all_goals (simp_all; try omega)

/-! ## The word scanner -/

theorem wordScanner_run {w out rest : List Char} (h : WordRun none w out) (hb : AtBreak rest) :
    wordScanner (w ++ rest) = w.length := by
  simp [wordScanner, walkWord_run h hb, h.length_eq]

theorem wordScanner_unclosed {w out s : List Char} {q : Char} (h : WordRun none w out)
    (hq : isQuote q) (hprev : w.getLast? ≠ some '\\') (hs : Unclosed q s) :
    wordScanner (w ++ q :: s) = 0 := by
  have hfail := walkWord_run_unclosed h hq (by simpa using hprev) hs []
  simp [wordScanner, hfail]

theorem walkWord_text {w out : List Char} (h : WordRun none w out) :
    (walkWord none none w []).1.reverse = out := by
  have := walkWord_run h (by simp [AtBreak] : AtBreak []) []
  simp only [List.append_nil] at this
  simp [this]

end PagedAsm
