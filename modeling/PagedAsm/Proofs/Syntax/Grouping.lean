import PagedAsm.Syntax.Tree

/-!
# How brackets group a token stream

A grammar for bracket trees, stated on the token stream alone. `Grouped ts f` says that the
tokens `ts` group into the trees `f`: a token that is no bracket is a leaf, and an opener, the
tokens up to its matching closer of the same kind, and that closer make one group with the
opener's bracket, line and the span from opener to closer. `Nested` is the same grammar on the
bracket marks only, the classic well-nested words over three kinds of brackets.

`Opened p os` says that `p` is read without a bracket error and leaves the openers `os` open,
innermost first. The first bracket error of a stream (`FirstBracketError`) is a closer met with
nothing open, a closer of another kind than the innermost open bracket, or an opener still open
at the end.

Main results: a stream groups iff its marks are well nested (`nested_iff_grouped`); every
stream either groups or has a first bracket error (`grouped_or_error`); and a grouping keeps
the tokens that are no brackets in order (`leaves_of_grouped`) and has the stream's bracket
depth (`nesting_of_grouped`).
-/

namespace PagedAsm

namespace Token

/-- The bracket a token opens or closes, as its kind; nothing for other tokens. -/
def bracketMark? (t : Token) : Option TokenKind :=
  match t.kind with
  | .opening b => some (.opening b)
  | .closing b => some (.closing b)
  | _ => none

/-- Whether a token is no bracket. -/
def isPlain (t : Token) : Bool := t.bracketMark?.isNone

theorem bracketMark?_opening {t : Token} {b : Bracket} (h : t.kind = .opening b) :
    t.bracketMark? = some (.opening b) := by
  simp [bracketMark?, h]

theorem bracketMark?_closing {t : Token} {b : Bracket} (h : t.kind = .closing b) :
    t.bracketMark? = some (.closing b) := by
  simp [bracketMark?, h]

theorem kind_of_bracketMark? {t : Token} {k : TokenKind} (h : t.bracketMark? = some k) :
    t.kind = k := by
  unfold bracketMark? at h
  split at h <;> simp_all

end Token

/-- The bracket marks of a token stream, in order. -/
def bracketMarks (ts : List Token) : List TokenKind := ts.filterMap Token.bracketMark?

/-- The marks of a token stream are well nested: each opener is matched by a later closer of
the same kind, and what stands between them is well nested. -/
inductive Nested : List TokenKind → Prop where
  | nil : Nested []
  | wrap {inner rest : List TokenKind} (b : Bracket) :
      Nested inner → Nested rest → Nested (.opening b :: inner ++ .closing b :: rest)

/-- The tokens `ts` group into the trees `f`. -/
inductive Grouped : List Token → List (Tree Token) → Prop where
  | nil : Grouped [] []
  | leaf {t : Token} {ts : List Token} {f : List (Tree Token)} :
      t.isPlain = true → Grouped ts f → Grouped (t :: ts) (.leaf t :: f)
  | group {o c : Token} {inner rest : List Token} {fi fr : List (Tree Token)} (b : Bracket) :
      o.kind = .opening b → c.kind = .closing b → Grouped inner fi → Grouped rest fr →
      Grouped (o :: inner ++ c :: rest) (.group b fi (o.span.join c.span) o.line :: fr)

/-- `p` is read without a bracket error and leaves the openers `os` open, innermost first,
each with its bracket. -/
inductive Opened : List Token → List (Bracket × Token) → Prop where
  | balanced {p : List Token} {f : List (Tree Token)} : Grouped p f → Opened p []
  | opened {p q : List Token} {os : List (Bracket × Token)} {o : Token} {f : List (Tree Token)}
      (b : Bracket) : Opened p os → o.kind = .opening b → Grouped q f →
      Opened (p ++ o :: q) ((b, o) :: os)

/-- The first bracket error of a token stream, with the diagnostic it is reported with. -/
inductive FirstBracketError : List Token → Diagnostic → Prop where
  /-- A closer with no bracket open. -/
  | unexpected {p rest : List Token} {c : Token} (b : Bracket) : Opened p [] →
      c.kind = .closing b →
      FirstBracketError (p ++ c :: rest) ⟨.unexpectedBracket c.text, c.span, c.line⟩
  /-- A closer of another kind than the innermost open bracket, reported at that bracket. -/
  | unmatched {p rest : List Token} {c o : Token} {os : List (Bracket × Token)} (b b' : Bracket) :
      Opened p ((b', o) :: os) → c.kind = .closing b → b' ≠ b →
      FirstBracketError (p ++ c :: rest) ⟨.unmatched b'.opener c.text, o.span, o.line⟩
  /-- A bracket still open at the end, reported at the innermost one. -/
  | unclosed {ts : List Token} {o : Token} {os : List (Bracket × Token)} (b : Bracket) :
      Opened ts ((b, o) :: os) → FirstBracketError ts ⟨.unclosed b.opener, o.span, o.line⟩

/-- How deep brackets nest in a token stream, read from bracket level `level`: the highest
level reached. -/
def peakFrom (level : Nat) : List Token → Nat
  | [] => level
  | t :: ts =>
    match t.kind with
    | .opening _ => max level (peakFrom (level + 1) ts)
    | .closing _ => max level (peakFrom (level - 1) ts)
    | _ => max level (peakFrom level ts)

/-- The greatest number of brackets open at once in a token stream. -/
def bracketDepth (ts : List Token) : Nat := peakFrom 0 ts

namespace Grouped

theorem append {a b : List Token} {fa fb : List (Tree Token)} (ha : Grouped a fa)
    (hb : Grouped b fb) : Grouped (a ++ b) (fa ++ fb) := by
  induction ha with
  | nil => exact hb
  | leaf hplain _ ih => exact .leaf hplain ih
  | group br ho hc hinner _ _ ih =>
    simpa [List.append_assoc] using Grouped.group br ho hc hinner ih

theorem plain {ts : List Token} (h : ∀ t ∈ ts, t.isPlain = true) :
    Grouped ts (ts.map .leaf) := by
  induction ts with
  | nil => exact .nil
  | cons t ts ih => exact .leaf (h t (by simp)) (ih fun t' ht' => h t' (by simp [ht']))

end Grouped

/-! ## The marks of a grouped stream -/

@[simp] theorem bracketMarks_nil : bracketMarks [] = [] := rfl

theorem bracketMarks_cons_plain {t : Token} (ts : List Token) (h : t.isPlain = true) :
    bracketMarks (t :: ts) = bracketMarks ts := by
  simp only [Token.isPlain, Option.isNone_iff_eq_none] at h
  simp [bracketMarks, h]

theorem nested_of_grouped {ts : List Token} {f : List (Tree Token)} (h : Grouped ts f) :
    Nested (bracketMarks ts) := by
  induction h with
  | nil => exact .nil
  | leaf hplain _ ih => rwa [bracketMarks_cons_plain _ hplain]
  | @group o c inner rest _ _ b ho hc _ _ ihi ihr =>
    have hmarks : bracketMarks (o :: inner ++ c :: rest) =
        .opening b :: bracketMarks inner ++ .closing b :: bracketMarks rest := by
      simp [bracketMarks, Token.bracketMark?_opening ho, Token.bracketMark?_closing hc]
    rw [hmarks]
    exact .wrap b ihi ihr

theorem grouped_of_nested {ms : List TokenKind} (h : Nested ms) :
    ∀ ts : List Token, bracketMarks ts = ms → ∃ f, Grouped ts f := by
  induction h with
  | nil =>
    intro ts hts
    refine ⟨ts.map .leaf, Grouped.plain fun t ht => ?_⟩
    have := List.filterMap_eq_nil_iff.1 hts t ht
    simp [Token.isPlain, this]
  | wrap b _ _ ihi ihr =>
    intro ts hts
    obtain ⟨pre, o, post, rfl, hpre, ho, hpost⟩ := List.filterMap_eq_cons_iff.1 hts
    obtain ⟨l₁, l₂, rfl, h₁, h₂⟩ := List.filterMap_eq_append_iff.1 hpost
    obtain ⟨mid, c, rest, rfl, hmid, hc, hrest⟩ := List.filterMap_eq_cons_iff.1 h₂
    obtain ⟨fi, hfi⟩ := ihi (l₁ ++ mid) (by
      simp [bracketMarks, List.filterMap_append, List.filterMap_eq_nil_iff.2 hmid, h₁])
    obtain ⟨fr, hfr⟩ := ihr rest hrest
    have hpre : Grouped pre (pre.map .leaf) := Grouped.plain fun t ht => by
      simp [Token.isPlain, hpre t ht]
    have hgroup := Grouped.group b (Token.kind_of_bracketMark? ho) (Token.kind_of_bracketMark? hc)
      hfi hfr
    exact ⟨_, by simpa [List.append_assoc] using hpre.append hgroup⟩

/-- A token stream groups exactly when its bracket marks are well nested. -/
theorem nested_iff_grouped (ts : List Token) : Nested (bracketMarks ts) ↔ ∃ f, Grouped ts f :=
  ⟨fun h => grouped_of_nested h ts rfl, fun ⟨_, h⟩ => nested_of_grouped h⟩

/-! ## Prefixes read without a bracket error -/

namespace Opened

theorem extend {p g : List Token} {os : List (Bracket × Token)} {fg : List (Tree Token)}
    (hp : Opened p os) (hg : Grouped g fg) : Opened (p ++ g) os := by
  induction hp with
  | balanced hf => exact .balanced (hf.append hg)
  | opened b _ ho hq _ =>
    simpa [List.append_assoc] using Opened.opened b ‹_› ho (hq.append hg)

theorem grouped_of_nil {p : List Token} (h : Opened p []) : ∃ f, Grouped p f := by
  cases h with
  | balanced hf => exact ⟨_, hf⟩

theorem cons_inv {p : List Token} {b : Bracket} {o : Token} {os : List (Bracket × Token)}
    (h : Opened p ((b, o) :: os)) :
    ∃ p' q f, p = p' ++ o :: q ∧ Opened p' os ∧ o.kind = .opening b ∧ Grouped q f := by
  cases h with
  | opened _ hp ho hq => exact ⟨_, _, _, rfl, hp, ho, hq⟩

end Opened

theorem grouped_or_error_after {p : List Token} {os : List (Bracket × Token)} (hp : Opened p os)
    (rest : List Token) : (∃ f, Grouped (p ++ rest) f) ∨ ∃ e, FirstBracketError (p ++ rest) e := by
  induction rest generalizing p os with
  | nil =>
    cases os with
    | nil => exact .inl (by simpa using hp.grouped_of_nil)
    | cons bo os =>
      obtain ⟨b, o⟩ := bo
      exact .inr ⟨_, by simpa using FirstBracketError.unclosed b hp⟩
  | cons t rest ih =>
    have hstep : p ++ t :: rest = (p ++ [t]) ++ rest := by simp
    cases hk : t.kind with
    | opening b =>
      rw [hstep]
      exact ih (Opened.opened b hp hk .nil)
    | closing b =>
      cases os with
      | nil => exact .inr ⟨_, FirstBracketError.unexpected b hp hk⟩
      | cons bo os =>
        obtain ⟨b', o⟩ := bo
        by_cases hb : b' = b
        · subst hb
          obtain ⟨p', q, f, rfl, hp', ho, hq⟩ := hp.cons_inv
          have hgroup : Grouped (o :: q ++ t :: []) _ := Grouped.group b' ho hk hq .nil
          have := ih (hp'.extend hgroup)
          simpa [List.append_assoc] using this
        · exact .inr ⟨_, FirstBracketError.unmatched b b' hp hk hb⟩
    | newline | word =>
      have hplain : t.isPlain = true := by simp [Token.isPlain, Token.bracketMark?, hk]
      rw [hstep]
      exact ih (hp.extend (.leaf hplain .nil))

/-- Every token stream groups or has a first bracket error. -/
theorem grouped_or_error (ts : List Token) :
    (∃ f, Grouped ts f) ∨ ∃ e, FirstBracketError ts e := by
  simpa using grouped_or_error_after (Opened.balanced .nil) ts

/-! ## What a grouping keeps -/

theorem leaves_group (b : Bracket) (cs : List (Tree Token)) (s : Span) (l : Nat) :
    (Tree.group b cs s l).leaves = (cs.map Tree.leaves).flatten := by
  simp [Tree.leaves]

/-- A grouping keeps the tokens that are no brackets, in order. -/
theorem leaves_of_grouped {ts : List Token} {f : List (Tree Token)} (h : Grouped ts f) :
    (f.map Tree.leaves).flatten = ts.filter Token.isPlain := by
  induction h with
  | nil => rfl
  | leaf hplain _ ih => simp [Tree.leaves, hplain, ih]
  | group b ho hc _ _ ihi ihr =>
    simp [leaves_group, ihi, ihr, Token.isPlain, Token.bracketMark?, ho, hc]

theorem le_peakFrom (level : Nat) (ts : List Token) : level ≤ peakFrom level ts := by
  cases ts with
  | nil => exact Nat.le_refl _
  | cons t ts =>
    unfold peakFrom
    split <;> omega

theorem peakFrom_opening {t : Token} {b : Bracket} (h : t.kind = .opening b) (level : Nat)
    (ts : List Token) : peakFrom level (t :: ts) = max level (peakFrom (level + 1) ts) := by
  simp [peakFrom, h]

theorem peakFrom_closing {t : Token} {b : Bracket} (h : t.kind = .closing b) (level : Nat)
    (ts : List Token) : peakFrom level (t :: ts) = max level (peakFrom (level - 1) ts) := by
  simp [peakFrom, h]

theorem peakFrom_plain {t : Token} (h : t.isPlain = true) (level : Nat) (ts : List Token) :
    peakFrom level (t :: ts) = max level (peakFrom level ts) := by
  cases hk : t.kind with
  | opening b => simp [Token.isPlain, Token.bracketMark?, hk] at h
  | closing b => simp [Token.isPlain, Token.bracketMark?, hk] at h
  | newline | word => simp [peakFrom, hk]

theorem peakFrom_grouped {ts : List Token} {f : List (Tree Token)} (h : Grouped ts f) :
    ∀ level rest, peakFrom level (ts ++ rest) = max (level + Tree.nesting f) (peakFrom level rest) := by
  induction h with
  | nil =>
    intro level rest
    have := le_peakFrom level rest
    simp [Tree.nesting]
    omega
  | leaf hplain _ ih =>
    intro level rest
    have := le_peakFrom level rest
    rw [List.cons_append, peakFrom_plain hplain, ih]
    simp only [Tree.nesting]
    omega
  | @group o c inner rest' fi fr b ho hc _ _ ihi ihr =>
    intro level rest
    have hin := ihi (level + 1) (c :: (rest' ++ rest))
    have hout := ihr level rest
    have := le_peakFrom level rest
    rw [List.append_assoc, List.cons_append, peakFrom_opening ho, List.cons_append, hin,
      peakFrom_closing hc, Nat.add_sub_cancel, hout]
    simp only [Tree.nesting]
    omega

/-- A grouping nests as deep as brackets nest in the stream. -/
theorem nesting_of_grouped {ts : List Token} {f : List (Tree Token)} (h : Grouped ts f) :
    Tree.nesting f = bracketDepth ts := by
  have := peakFrom_grouped h 0 []
  simp only [List.append_nil] at this
  rw [bracketDepth, this]
  simp [peakFrom]

end PagedAsm
