import PagedAsm.Proofs.Lines.Placed
import PagedAsm.Proofs.Expansion.Gather

/-!
# Places of the definitions of a run

Taking the macro definitions out of a placed run keeps a placed run, in order (a sublist), and
adds macros whose bodies are placed runs, the children of groups of the run. Gathering its
labels puts each definition site in the place of its word `name:`, and a reference in the place
of its word `$name`, so the run keeps every place. Every diagnostic on the way is raised at a
word or a node of the run.
-/

namespace PagedAsm

namespace Discovery

open Expand

variable {src : List Char}

theorem parameters_reported (name : String) : ∀ {ns : List Node} {acc : List String},
    (∀ n ∈ ns, n.Placed src) → Reported src (fun _ => True) (parameters name ns acc)
  | [], _, _ => trivial
  | n :: rest, acc, hns => by
    have hn := (hns n List.mem_cons_self).placedAt
    have hrest := fun m hm => hns m (List.mem_cons_of_mem _ hm)
    unfold parameters
    split
    · split
      · exact parameters_reported name hrest
      · split
        · exact hn
        · split
          · exact hn
          · exact parameters_reported name hrest
    · exact hn

theorem readMacro_reported {visible : MacroTable} {keyword : Token} {rest : List Node}
    (hkw : PlacedAt src keyword.span keyword.line) (hrest : RunPlaced src rest) :
    Reported src (fun m => RunPlaced src m.body ∧ m.visible = visible.macros)
      (readMacro visible keyword rest) := by
  cases hread : readMacro visible keyword rest with
  | ok m =>
    obtain ⟨hvis, b, s, l, hgroup⟩ := readMacro_spec hread
    exact ⟨(hrest.placed _ hgroup).children, hvis⟩
  | error d =>
    unfold readMacro at hread
    split at hread
    · rename_i name more
      have hname := hrest.head.placedAt
      split at hread
      · cases hread
        exact hkw
      · split at hread
        · rename_i params sp₁ l₁ more'
          split at hread
          · have hparams := (hrest.placed (.group .round params sp₁ l₁) (by simp)).children
            have hrep : Reported src (fun _ => True) (parameters name.text params []) :=
              parameters_reported name.text hparams.placed
            rw [bind, Except.instMonad] at hread
            simp only at hread
            cases hp : parameters name.text params [] with
            | error d' =>
              rw [hp] at hread hrep
              cases hread
              exact hrep
            | ok ps =>
              rw [hp] at hread
              cases hread
          · cases hread
            exact hname
        · cases hread
          exact hname
    · cases hread
      exact hkw

theorem macros_reported {set : InstructionSet} : ∀ (k : Nat) {table : MacroTable}
    {nodes acc : List Node}, nodes.length ≤ k → table.Placed src → RunPlaced src nodes →
    Reports src (macros set table nodes acc)
      fun r => r.1.Placed src ∧ ∃ kept, kept.Sublist nodes ∧ r.2 = acc.reverse ++ kept := by
  intro k
  -- on a bound of the length of the run: a definition is skipped with its body
  induction k with
  | zero =>
    intro table nodes acc hk htable _
    rw [List.length_eq_zero_iff.1 (Nat.le_zero.1 hk), macros.eq_def]
    exact Reports.pure ⟨htable, [], List.Sublist.slnil, by simp⟩
  | succ k ih =>
    intro table nodes acc hk htable hnodes
    rw [macros.eq_def]
    split
    · exact Reports.pure ⟨htable, [], List.Sublist.slnil, by simp⟩
    · rename_i n rest
      have hrest : RunPlaced src rest := hnodes.tail
      have hlen : rest.length ≤ k := by simp at hk; omega
      have hkeep : Reports src (macros set table rest (n :: acc))
          fun r => r.1.Placed src ∧ ∃ kept, kept.Sublist (n :: rest) ∧ r.2 = acc.reverse ++ kept :=
        (ih hlen htable hrest).mono fun r hr => by
          obtain ⟨ht, kept, hsub, heq⟩ := hr
          exact ⟨ht, n :: kept, hsub.cons_cons n, by simp [heq]⟩
      split
      · rename_i t
        have ht : PlacedAt src t.span t.line := hnodes.head.placedAt
        split
        · dsimp only
          have hrm : Reported src (fun m : Macro => RunPlaced src m.body ∧ m.visible = table.macros)
              (readMacro table t rest) := readMacro_reported ht hrest
          split
          case h_2 d hread =>
            rw [hread] at hrm
            exact Reports.throw_bind hrm
          rename_i m hread
          rw [hread] at hrm
          rw [pure_bind]
          have hm : RunPlaced src m.body ∧ m.visible = table.macros := hrm
          have hplaced : m.Placed src := .intro hm.1 (by rw [hm.2]; exact htable)
          have hnext : Reports src (macros set (table.insert m).1 (rest.drop 3) acc)
              fun r => r.1.Placed src ∧ ∃ kept, kept.Sublist (.leaf (.token t) :: rest) ∧
                r.2 = acc.reverse ++ kept :=
            (ih (by simp only [List.length_drop]; omega) (MacroTable.insert_placed htable hplaced)
              (hrest.sublist (List.drop_sublist 3 rest))).mono fun r hr => by
                obtain ⟨ht', kept, hsub, heq⟩ := hr
                exact ⟨ht', kept, hsub.trans ((List.drop_sublist 3 rest).trans
                  (List.sublist_cons_self _ rest)), heq⟩
          refine Reports.optional_bind (Reports.warn ht) ?_
          split
          · exact Reports.bind (Reports.warn ht) fun _ _ => hnext
          · exact Reports.optional_bind (Reports.warn ht) hnext
        · exact hkeep
      · exact hkeep

/-! ### Label definitions -/

/-- The places of the words `name:` at the top of a run, in order. -/
def defPlaces (nodes : List Node) : List (Span × Nat) :=
  nodes.filterMap fun
    | .leaf (.token t) => (definedName? t).map fun _ => (t.span, t.line)
    | _ => none

/-- The place of a label site. -/
def LabelSite.place (l : LabelSite) : Span × Nat := (l.span, l.line)

theorem defineLabels_reported : ∀ {nodes : List Node} {scope : LabelScope} {acc : List LabelSite},
    (∀ n ∈ nodes, n.Placed src) →
    Reports src (defineLabels scope nodes acc)
      fun r => ∃ sites : List LabelSite, r.2 = sites.reverse ++ acc ∧
        sites.map LabelSite.place = defPlaces nodes
  | [], scope, acc, _ => by
    unfold defineLabels
    exact Reports.pure ⟨[], by simp, rfl⟩
  | n :: rest, scope, acc, hnodes => by
    have hrest := fun m hm => hnodes m (List.mem_cons_of_mem _ hm)
    unfold defineLabels
    split
    · rename_i t
      have ht : PlacedAt src t.span t.line := (hnodes _ List.mem_cons_self).placedAt
      split
      · rename_i hname
        refine (defineLabels_reported hrest).mono fun r hr => ?_
        obtain ⟨sites, h1, h2⟩ := hr
        refine ⟨sites, h1, ?_⟩
        simp [h2, defPlaces, hname]
      · rename_i name hname
        dsimp only
        split
        · exact Reports.throw_bind ht
        · refine Reports.bind (Reports.newLabel name) fun id _ => ?_
          have hnext : Reports src
              (defineLabels (scope.define name id).1 rest (⟨id, name, t.span, t.line⟩ :: acc))
              fun r => ∃ sites : List LabelSite, r.2 = sites.reverse ++ acc ∧
                sites.map LabelSite.place = defPlaces (.leaf (.token t) :: rest) :=
            (defineLabels_reported hrest).mono fun r hr => by
              obtain ⟨sites, h1, h2⟩ := hr
              exact ⟨⟨id, name, t.span, t.line⟩ :: sites, by simp [h1],
                by simp [h2, defPlaces, hname, LabelSite.place]⟩
          exact Reports.optional_bind (Reports.warn ht) hnext
    · rename_i hn
      refine (defineLabels_reported hrest).mono fun r hr => ?_
      obtain ⟨sites, h1, h2⟩ := hr
      refine ⟨sites, h1, ?_⟩
      rw [h2]
      rcases n with ⟨t | l | l⟩ | ⟨b, cs, sp, ln⟩
      · exact absurd rfl (hn t)
      all_goals rfl

theorem resolveReference_place (scope : LabelScope) (t : Token) :
    (resolveReference scope t).span = t.span ∧ (resolveReference scope t).line = t.line := by
  unfold resolveReference
  split
  · split <;> exact ⟨rfl, rfl⟩
  · exact ⟨rfl, rfl⟩

theorem tie_placed (scope : LabelScope) : ∀ (sites : List LabelSite) (nodes : List Node),
    (∀ n ∈ nodes, n.Placed src) → sites.map LabelSite.place = defPlaces nodes →
    (∀ n ∈ tie scope sites nodes, n.Placed src) ∧
      (tie scope sites nodes).map (·.span.start) = nodes.map (·.span.start)
  | sites, [], _, _ => by simp [tie]
  | sites, n :: rest, hnodes, hsites => by
    have hrest := fun m hm => hnodes m (List.mem_cons_of_mem _ hm)
    have hn := hnodes n List.mem_cons_self
    rcases n with ⟨t | l | l⟩ | ⟨b, cs, sp, ln⟩
    · cases hname : definedName? t with
      | none =>
        have hsites' : sites.map LabelSite.place = defPlaces rest := by
          simp [hsites, defPlaces, hname]
        obtain ⟨hplaced, hstarts⟩ := tie_placed scope sites rest hrest hsites'
        rw [tie_ref scope (.inl hname)]
        obtain ⟨hspan, hline⟩ := resolveReference_place scope t
        refine ⟨fun m hm => ?_, ?_⟩
        swap
        · rw [List.map_cons, List.map_cons, hstarts]
          show (resolveReference scope t).span.start :: _ = t.span.start :: _
          rw [hspan]
        rcases List.mem_cons.1 hm with rfl | hm
        · refine .leaf ?_
          rw [PlacedAt, hspan, hline]
          exact hn.placedAt
        · exact hplaced m hm
      | some name =>
        cases sites with
        | nil => simp [defPlaces, hname] at hsites
        | cons d ds =>
          simp only [defPlaces, List.filterMap_cons, hname, Option.map_some, List.map_cons,
            List.cons.injEq] at hsites
          obtain ⟨hd, hds⟩ := hsites
          obtain ⟨hplaced, hstarts⟩ := tie_placed scope ds rest hrest hds
          simp only [LabelSite.place, Prod.mk.injEq] at hd
          rw [tie_def scope hname]
          refine ⟨fun m hm => ?_, ?_⟩
          swap
          · rw [List.map_cons, List.map_cons, hstarts]
            show d.span.start :: _ = t.span.start :: _
            rw [hd.1]
          rcases List.mem_cons.1 hm with rfl | hm
          · refine .leaf ?_
            show PlacedAt src d.span d.line
            rw [hd.1, hd.2]
            exact hn.placedAt
          · exact hplaced m hm
    all_goals
      have hsites' : sites.map LabelSite.place = defPlaces rest := by simp [hsites, defPlaces]
      obtain ⟨hplaced, hstarts⟩ := tie_placed scope sites rest hrest hsites'
      rw [tie_other scope (fun _ h => by cases h)]
      refine ⟨fun m hm => ?_, by simp [hstarts]⟩
      rcases List.mem_cons.1 hm with rfl | hm
      · exact hn
      · exact hplaced m hm

theorem labels_reported {scope : LabelScope} {nodes : List Node} (hnodes : RunPlaced src nodes) :
    Reports src (labels scope nodes) fun r => RunPlaced src r.2 := by
  unfold labels
  refine Reports.bind (defineLabels_reported hnodes.placed) fun r hr => ?_
  obtain ⟨sites, hacc, hplaces⟩ := hr
  obtain ⟨scope', acc⟩ := r
  dsimp only at hacc ⊢
  rw [List.append_nil] at hacc
  subst hacc
  rw [List.reverse_reverse]
  obtain ⟨hplaced, hstarts⟩ := tie_placed scope' sites nodes hnodes.placed hplaces
  refine Reports.pure ⟨hplaced, ?_⟩
  have hord := hnodes.ordered
  unfold Ordered at hord ⊢
  rw [← List.pairwise_map (R := fun a b : Nat => a ≤ b)] at hord ⊢
  rw [hstarts]
  exact hord

end Discovery

end PagedAsm
