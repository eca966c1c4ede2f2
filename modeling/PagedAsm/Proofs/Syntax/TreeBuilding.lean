import PagedAsm.Proofs.Syntax.Grouping

/-!
# The tree builder follows the bracket grammar

The tree builder reads tokens one at a time, keeping the finished top-level trees and a stack
of open groups. A grouped run of tokens drives it the way the grammar says
(`run_grouped`): each leaf and each finished group is added to the innermost open group, or to
the top level. A prefix read without a bracket error leaves one open group on the stack per
bracket still open (`run_opened`), so the builder reports each first bracket error as the
grammar describes it (`ofTokens_of_error`).

Main statement: building succeeds exactly on the streams whose bracket marks are well nested,
its trees are the grouping of the stream, they keep the tokens that are no brackets and nest as
deep as the brackets, and it fails with the stream's first bracket error
(`ofTokens_groups_nested_streams`).
-/

namespace PagedAsm

namespace TreeBuilder

/-- Add trees one after another. -/
def addAll (st : TreeBuilder) (f : List (Tree Token)) : TreeBuilder := f.foldl add st

/-- The span that covers `s` and every token of `ts`. -/
def cover (s : Span) (ts : List Token) : Span := ts.foldl (fun s t => s.join t.span) s

theorem cover_append (s : Span) (a b : List Token) : cover s (a ++ b) = cover (cover s a) b := by
  simp [cover, List.foldl_append]

@[simp] theorem cover_cons (s : Span) (t : Token) (ts : List Token) :
    cover s (t :: ts) = cover (s.join t.span) ts := rfl

@[simp] theorem cover_nil (s : Span) : cover s [] = s := rfl

/-! ## Adding finished trees -/

theorem add_top (top : List (Tree Token)) (s : Span) (t : Tree Token) :
    (⟨top, ⟨[]⟩, s⟩ : TreeBuilder).add t = ⟨t :: top, ⟨[]⟩, s⟩ := rfl

theorem add_group (top : List (Tree Token)) (g : OpenGroup) (gs : List OpenGroup) (s : Span)
    (t : Tree Token) :
    (⟨top, ⟨g :: gs⟩, s⟩ : TreeBuilder).add t =
      ⟨top, ⟨{ g with children := t :: g.children } :: gs⟩, s⟩ := rfl

theorem addAll_top (top f : List (Tree Token)) (s : Span) :
    (⟨top, ⟨[]⟩, s⟩ : TreeBuilder).addAll f = ⟨f.reverse ++ top, ⟨[]⟩, s⟩ := by
  induction f generalizing top with
  | nil => rfl
  | cons t f ih =>
    rw [addAll, List.foldl_cons, add_top]
    exact (ih (t :: top)).trans (by simp)

theorem addAll_group (top : List (Tree Token)) (g : OpenGroup) (gs : List OpenGroup) (s : Span)
    (f : List (Tree Token)) :
    (⟨top, ⟨g :: gs⟩, s⟩ : TreeBuilder).addAll f =
      ⟨top, ⟨{ g with children := f.reverse ++ g.children } :: gs⟩, s⟩ := by
  induction f generalizing g with
  | nil => rfl
  | cons t f ih =>
    rw [addAll, List.foldl_cons, add_group]
    exact (ih { g with children := t :: g.children }).trans (by simp)

theorem add_withSpan (st : TreeBuilder) (s : Span) (t : Tree Token) :
    ({ st with span := s } : TreeBuilder).add t = { st.add t with span := s } := by
  obtain ⟨top, ⟨_ | ⟨g, gs⟩⟩, _⟩ := st <;> rfl

theorem addAll_withSpan (st : TreeBuilder) (s : Span) (f : List (Tree Token)) :
    ({ st with span := s } : TreeBuilder).addAll f = { st.addAll f with span := s } := by
  induction f generalizing st with
  | nil => rfl
  | cons t f ih =>
    rw [addAll, List.foldl_cons, add_withSpan]
    exact ih (st.add t)

theorem addAll_push (st : TreeBuilder) (g : OpenGroup) (f : List (Tree Token)) :
    ({ st with groups := st.groups.push g } : TreeBuilder).addAll f =
      { st with groups := st.groups.push { g with children := f.reverse ++ g.children } } := by
  obtain ⟨top, ⟨gs⟩, s⟩ := st
  exact addAll_group top g gs s f

/-! ## One token -/

section Step

variable {st : TreeBuilder} {t : Token} {b : Bracket}

theorem step_plain (h : t.isPlain = true) :
    st.step t = .ok (({ st with span := st.span.join t.span } : TreeBuilder).add (.leaf t)) := by
  cases hk : t.kind with
  | opening b => simp [Token.isPlain, Token.bracketMark?, hk] at h
  | closing b => simp [Token.isPlain, Token.bracketMark?, hk] at h
  | newline | word => simp [step, hk]

theorem step_opening (h : t.kind = .opening b) :
    st.step t = .ok
      { st with groups := st.groups.push ⟨b, t.span, t.line, []⟩, span := st.span.join t.span } := by
  simp [step, h]

theorem step_closing_unexpected (h : t.kind = .closing b) (hg : st.groups.pop? = none) :
    st.step t = .error ⟨.unexpectedBracket t.text, t.span, t.line⟩ := by
  simp [step, h, hg]

theorem step_closing_unmatched {g : OpenGroup} {gs : Stack OpenGroup} (h : t.kind = .closing b)
    (hg : st.groups.pop? = some (g, gs)) (hb : g.bracket ≠ b) :
    st.step t = .error ⟨.unmatched g.bracket.opener t.text, g.span, g.line⟩ := by
  simp [step, h, hg, hb]

theorem run_nil_open {g : OpenGroup} (h : st.groups.top? = some g) :
    st.run [] = .error ⟨.unclosed g.bracket.opener, g.span, g.line⟩ := by
  simp [run, h]

theorem run_nil_closed (h : st.groups.top? = none) : st.run [] = .ok ⟨st.top.reverse, st.span⟩ := by
  simp [run, h]

theorem run_cons_ok {st' : TreeBuilder} (h : st.step t = .ok st') (ts : List Token) :
    st.run (t :: ts) = st'.run ts := by
  simp [run, h, bind, Except.bind]

theorem run_cons_error {e : Diagnostic} (h : st.step t = .error e) (ts : List Token) :
    st.run (t :: ts) = .error e := by
  simp [run, h, bind, Except.bind]

end Step

/-! ## Grouped runs -/

/-- A grouped run of tokens adds its trees to the builder and widens its span, whatever is
open and whatever follows. The induction follows the derivation of `Grouped`. -/
theorem run_grouped {q : List Token} {f : List (Tree Token)} (h : Grouped q f) :
    ∀ (st : TreeBuilder) (rest : List Token),
      st.run (q ++ rest) = ({ st.addAll f with span := cover st.span q } : TreeBuilder).run rest := by
  induction h with
  | nil => intro st rest; rfl
  | leaf hplain _ ih =>
    intro st rest
    rw [List.cons_append, run_cons_ok (step_plain hplain), add_withSpan, ih, addAll_withSpan]
    rfl
  | @group o c inner rest' fi fr b ho hc _ _ ihi ihr =>
    intro st rest
    have hfill : (⟨st.top, st.groups.push ⟨b, o.span, o.line, []⟩, st.span.join o.span⟩ :
        TreeBuilder).addAll fi =
        ⟨st.top, st.groups.push ⟨b, o.span, o.line, fi.reverse⟩, st.span.join o.span⟩ := by
      simpa using addAll_push { st with span := st.span.join o.span } ⟨b, o.span, o.line, []⟩ fi
    have hclose : (⟨st.top, st.groups.push ⟨b, o.span, o.line, fi.reverse⟩,
        cover (st.span.join o.span) inner⟩ : TreeBuilder).step c =
        .ok ((⟨st.top, st.groups, (cover (st.span.join o.span) inner).join c.span⟩ :
          TreeBuilder).add (.group b fi (o.span.join c.span) o.line)) := by
      simp [step, hc]
    simp only [List.cons_append, List.append_assoc]
    rw [run_cons_ok (step_opening ho), ihi, hfill]
    erw [run_cons_ok hclose]
    rw [add_withSpan, ihr, addAll_withSpan]
    simp only [cover_cons, cover_append]
    rfl

/-- What the open groups record of their openers: bracket, span and line. -/
def openers (st : TreeBuilder) : List (Bracket × Span × Nat) :=
  st.groups.toList.map fun g => (g.bracket, g.span, g.line)

/-- A prefix read without a bracket error brings the builder to a state whose open groups
are the prefix's open brackets, innermost first. -/
theorem run_opened {p : List Token} {os : List (Bracket × Token)} (h : Opened p os) :
    ∃ st : TreeBuilder, (∀ rest, start.run (p ++ rest) = st.run rest) ∧
      st.openers = os.map fun bo => (bo.1, bo.2.span, bo.2.line) := by
  induction h with
  | @balanced p f hf =>
    refine ⟨_, run_grouped hf start, ?_⟩
    simp [openers, start, Stack.empty, addAll_top]
  | @opened p q os o f b _ ho hq ih =>
    obtain ⟨st, hrun, hopen⟩ := ih
    refine ⟨{ (⟨st.top, st.groups.push ⟨b, o.span, o.line, []⟩, st.span.join o.span⟩ :
      TreeBuilder).addAll f with span := cover (st.span.join o.span) q }, fun rest => ?_, ?_⟩
    · rw [List.append_assoc, hrun, List.cons_append, run_cons_ok (step_opening ho),
        run_grouped hq]
    · have hfill := addAll_push { st with span := st.span.join o.span } ⟨b, o.span, o.line, []⟩ f
      simp only at hfill
      simp [openers, hfill, ← hopen]

theorem innermost_of_openers {st : TreeBuilder} {b : Bracket} {o : Token}
    {os : List (Bracket × Token)}
    (h : st.openers = ((b, o) :: os).map fun bo => (bo.1, bo.2.span, bo.2.line)) :
    ∃ g gs, st.groups = ⟨g :: gs⟩ ∧ g.bracket = b ∧ g.span = o.span ∧ g.line = o.line := by
  obtain ⟨⟨gs⟩, hgs⟩ : ∃ gs : Stack OpenGroup, st.groups = gs := ⟨_, rfl⟩
  cases gs with
  | nil => simp [openers, hgs] at h
  | cons g gs =>
    simp only [openers, hgs, List.map_cons, List.cons.injEq, Prod.mk.injEq] at h
    exact ⟨g, gs, hgs, h.1⟩

end TreeBuilder

open TreeBuilder

/-- Building reports the first bracket error of a stream. -/
theorem ofTokens_of_error {ts : List Token} {e : Diagnostic} (h : FirstBracketError ts e) :
    Document.ofTokens ts = .error e := by
  cases h with
  | unexpected b hp hc =>
    obtain ⟨st, hrun, hopen⟩ := run_opened hp
    have hnone : st.groups.pop? = none := by
      simp only [openers, List.map_nil, List.map_eq_nil_iff] at hopen
      simp [Stack.pop?, hopen]
    rw [Document.ofTokens, hrun, run_cons_error (step_closing_unexpected hc hnone)]
  | unmatched b b' hp hc hne =>
    obtain ⟨st, hrun, hopen⟩ := run_opened hp
    obtain ⟨g, gs, hgs, hb, hs, hl⟩ := innermost_of_openers hopen
    have hpop : st.groups.pop? = some (g, ⟨gs⟩) := by simp [Stack.pop?, hgs]
    rw [Document.ofTokens, hrun, run_cons_error (step_closing_unmatched hc hpop (hb ▸ hne)),
      hb, hs, hl]
  | unclosed b hp =>
    obtain ⟨st, hrun, hopen⟩ := run_opened hp
    obtain ⟨g, gs, hgs, hb, hs, hl⟩ := innermost_of_openers hopen
    have htop : st.groups.top? = some g := by simp [Stack.top?, hgs]
    rw [Document.ofTokens, ← List.append_nil ts, hrun, run_nil_open htop, hb, hs, hl]

theorem ofTokens_of_grouped {ts : List Token} {f : List (Tree Token)} (h : Grouped ts f) :
    Document.ofTokens ts = .ok ⟨f, cover (Span.point 0) ts⟩ := by
  rw [Document.ofTokens, ← List.append_nil ts, run_grouped h start]
  simp only [start, Stack.empty, addAll_top, List.append_nil]
  exact (run_nil_closed rfl).trans (by simp)

/-- Building succeeds exactly on the streams whose bracket marks are well nested. Its trees
are then the grouping of the stream, spanning all its tokens; they keep the tokens that are no
brackets, in order, and nest as deep as the brackets do. Otherwise it fails with the stream's
first bracket error. -/
theorem ofTokens_groups_nested_streams (ts : List Token) :
    ((∃ d, Document.ofTokens ts = .ok d) ↔ Nested (bracketMarks ts)) ∧
      (∀ d, Document.ofTokens ts = .ok d ↔
        Grouped ts d.children ∧ d.span = cover (Span.point 0) ts) ∧
      (∀ d, Document.ofTokens ts = .ok d →
        d.tokens = ts.filter Token.isPlain ∧ d.depth = bracketDepth ts) ∧
      (∀ e, Document.ofTokens ts = .error e ↔ FirstBracketError ts e) := by
  have hok : ∀ d, Document.ofTokens ts = .ok d ↔
      Grouped ts d.children ∧ d.span = cover (Span.point 0) ts := by
    intro d
    constructor
    · intro h
      rcases grouped_or_error ts with ⟨f, hf⟩ | ⟨e, he⟩
      · rw [ofTokens_of_grouped hf, Except.ok.injEq] at h
        subst h
        exact ⟨hf, rfl⟩
      · rw [ofTokens_of_error he] at h
        cases h
    · rintro ⟨hf, hs⟩
      rw [ofTokens_of_grouped hf, ← hs]
  refine ⟨⟨?_, ?_⟩, hok, ?_, ?_⟩
  · rintro ⟨d, h⟩
    exact (nested_iff_grouped ts).2 ⟨_, ((hok d).1 h).1⟩
  · intro h
    obtain ⟨f, hf⟩ := (nested_iff_grouped ts).1 h
    exact ⟨_, ofTokens_of_grouped hf⟩
  · intro d h
    have hf := ((hok d).1 h).1
    exact ⟨leaves_of_grouped hf, nesting_of_grouped hf⟩
  · intro e
    constructor
    · intro h
      rcases grouped_or_error ts with ⟨f, hf⟩ | ⟨e', he⟩
      · rw [ofTokens_of_grouped hf] at h
        cases h
      · rw [ofTokens_of_error he, Except.error.injEq] at h
        exact h ▸ he
    · exact ofTokens_of_error

end PagedAsm
