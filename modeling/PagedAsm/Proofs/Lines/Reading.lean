import PagedAsm.Proofs.Lines.Placed
import PagedAsm.Proofs.Syntax.TreeBuilding

/-!
# Lines of tokens and trees

The tokens of a text are placed and in order of position, and a text that cannot be read is
reported at the start of its open string, on that line. The bracket tree of placed tokens in
order is placed: a leaf is a token, and a group has the span from its opener to its closer and
the line of its opener, which stands first. A bracket error is reported at a bracket.
-/

namespace PagedAsm

variable {src : List Char}

theorem tokenize_reported (src : List Char) : Reported src (Tokenized src) (tokenize src) := by
  obtain ⟨ls, rest, h⟩ := reads_total src
  rcases h.rest_cases with rfl | ⟨w, out, q, s, hrest, -⟩
  · obtain ⟨ts, hts⟩ := tokenize_ok_of_whole h
    rw [hts]
    exact tokenized_of_whole h hts
  · have hne : rest ≠ [] := by simp [hrest]
    rw [tokenize_of_open h hne]
    rfl

/-- Tokens that are placed, each starting after the one before. -/
structure TokensPlaced (src : List Char) (ts : List Token) : Prop where
  placed : ∀ t ∈ ts, PlacedAt src t.span t.line
  ordered : ts.Pairwise fun a b => a.span.start < b.span.start

theorem Tokenized.tokensPlaced {ts : List Token} (h : Tokenized src ts) : TokensPlaced src ts :=
  ⟨h.line, h.ordered.imp fun hab => hab.1⟩

namespace TokensPlaced

variable {ts : List Token}

theorem sublist {qs : List Token} (h : TokensPlaced src ts) (hsub : qs.Sublist ts) :
    TokensPlaced src qs :=
  ⟨fun t ht => h.placed t (hsub.subset ht), h.ordered.sublist hsub⟩

end TokensPlaced

/-! ### Bracket trees -/

/-- The nodes a run of token trees gives for expansion. -/
abbrev asNodes (f : List (Tree Token)) : List Node := f.map (Tree.mapLeaves Atom.token)

theorem Grouped.runPlaced {q : List Token} {f : List (Tree Token)} (h : Grouped q f) :
    TokensPlaced src q →
      RunPlaced src (asNodes f) ∧ ∀ n ∈ asNodes f, ∃ t ∈ q, n.span.start = t.span.start := by
  induction h with
  | nil => exact fun _ => ⟨RunPlaced.nil, by simp⟩
  | @leaf t ts f _ _ ih =>
    intro hq
    have hts : TokensPlaced src ts := hq.sublist (List.sublist_cons_self t ts)
    obtain ⟨hrun, hstarts⟩ := ih hts
    refine ⟨⟨?_, ?_⟩, ?_⟩
    · intro n hn
      rcases List.mem_cons.1 hn with rfl | hn
      · exact .leaf (hq.placed t List.mem_cons_self)
      · exact hrun.placed n hn
    · refine List.Pairwise.cons (fun n hn => ?_) hrun.ordered
      obtain ⟨u, hu, hstart⟩ := hstarts n hn
      rw [hstart]
      exact Nat.le_of_lt (List.rel_of_pairwise_cons hq.ordered hu)
    · intro n hn
      rcases List.mem_cons.1 hn with rfl | hn
      · exact ⟨t, List.mem_cons_self, rfl⟩
      · obtain ⟨u, hu, hstart⟩ := hstarts n hn
        exact ⟨u, List.mem_cons_of_mem _ hu, hstart⟩
  | @group o c inner rest fi fr b _ _ _ _ ihi ihr =>
    intro hq
    have hinner : TokensPlaced src inner :=
      hq.sublist ((List.sublist_cons_self o inner).trans (List.sublist_append_left _ _))
    have hrest : TokensPlaced src rest :=
      hq.sublist ((List.sublist_cons_self c rest).trans (List.sublist_append_right _ _))
    obtain ⟨hruni, -⟩ := ihi hinner
    obtain ⟨hrunr, hstartsr⟩ := ihr hrest
    have hafter : ∀ u ∈ inner ++ c :: rest, o.span.start < u.span.start :=
      fun u hu => List.rel_of_pairwise_cons hq.ordered hu
    have hoc : o.span.start ≤ c.span.start := Nat.le_of_lt (hafter c (by simp))
    have hgroup : PlacedAt src (o.span.join c.span) o.line :=
      (hq.placed o List.mem_cons_self).join hoc
    refine ⟨⟨?_, ?_⟩, ?_⟩
    · intro n hn
      rcases List.mem_cons.1 hn with rfl | hn
      · simp only [Tree.mapLeaves, Tree.mapForest_eq_map]
        exact .group hgroup hruni.placed hruni.ordered
      · exact hrunr.placed n hn
    · refine List.Pairwise.cons (fun n hn => ?_) hrunr.ordered
      obtain ⟨u, hu, hstart⟩ := hstartsr n hn
      show (o.span.join c.span).start ≤ n.span.start
      rw [Span.join_start, Nat.min_eq_left hoc, hstart]
      exact Nat.le_of_lt (hafter u (by simp [hu]))
    · intro n hn
      rcases List.mem_cons.1 hn with rfl | hn
      · exact ⟨o, List.mem_cons_self, by simp [Tree.mapLeaves, Tree.span, Nat.min_eq_left hoc]⟩
      · obtain ⟨u, hu, hstart⟩ := hstartsr n hn
        exact ⟨u, by simp [hu], hstart⟩

theorem Opened.mem {p : List Token} {os : List (Bracket × Token)} (h : Opened p os) :
    ∀ bo ∈ os, bo.2 ∈ p := by
  induction h with
  | balanced _ => simp
  | opened b _ _ _ ih =>
    intro bo hbo
    rcases List.mem_cons.1 hbo with rfl | hbo
    · simp
    · exact List.mem_append_left _ (ih bo hbo)

theorem FirstBracketError.at_token {ts : List Token} {e : Diagnostic} (h : FirstBracketError ts e) :
    ∃ t ∈ ts, e.span = t.span ∧ e.line = t.line := by
  cases h with
  | unexpected b _ _ => exact ⟨_, by simp, rfl, rfl⟩
  | unmatched b b' hp _ _ =>
    exact ⟨_, List.mem_append_left _ (hp.mem _ List.mem_cons_self), rfl, rfl⟩
  | unclosed b hp => exact ⟨_, hp.mem _ List.mem_cons_self, rfl, rfl⟩

theorem ofTokens_reported {ts : List Token} (hts : TokensPlaced src ts) :
    Reported src (fun doc => RunPlaced src (asNodes doc.children)) (Document.ofTokens ts) := by
  rcases grouped_or_error ts with ⟨f, hf⟩ | ⟨e, he⟩
  · rw [ofTokens_of_grouped hf]
    exact (hf.runPlaced hts).1
  · rw [ofTokens_of_error he]
    obtain ⟨t, ht, hspan, hline⟩ := he.at_token
    show PlacedAt src e.span e.line
    rw [hspan, hline]
    exact hts.placed t ht

theorem read_reported (src : List Char) :
    Reported src (fun doc => RunPlaced src (asNodes doc.children))
      (tokenize src >>= Document.ofTokens) :=
  (tokenize_reported src).bind fun _ hts => ofTokens_reported hts.tokensPlaced

end PagedAsm
