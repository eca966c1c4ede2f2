import PagedAsm.Proofs.Expansion.Statement
import PagedAsm.Proofs.Peephole.Accumulator

/-!
# Every label is defined once and every reference finds its definition

Expansion numbers labels in the order it makes them, and each run of statements defines exactly
the labels made while it ran: those of its words `name:`, and those of the runs nested in it
(`run_tied`). A run refers only to labels made since the whole expansion began, through its own
definitions, the labels its callers see, or the labels a macro call passes in. For the text of
a program, expanded from the top, the items therefore define each label once and every label
referred to is defined; typing and dropping redundant loads keep both, so label placement finds
every label an instruction names (`expansion_labels_resolve`).
-/

namespace PagedAsm

namespace Expansion

open Expand Discovery

variable {lo : Nat}

theorem statements_tied {config : Config} {descend : Descend} (hd : Descends lo descend) :
    ∀ (ctx : Context) (nodes : List Node) {s s' : Session} {items : List Item},
      exec (statements config descend ctx nodes) s = (.ok items, s') →
      ctx.Sound lo s.labelNames.size → (∀ n ∈ nodes, TopSound lo s.labelNames.size n) →
      lo ≤ s.labelNames.size →
      s.labelNames.size ≤ s'.labelNames.size ∧
        (defIds items).Perm (defsOf nodes ++
          List.range' s.labelNames.size (s'.labelNames.size - s.labelNames.size)) ∧
        ∀ id ∈ refIds items, Made lo s'.labelNames.size id := by
  intro ctx nodes
  induction ctx, nodes using statements.induct with
  | case1 ctx =>
    intro s s' items h _ _ _
    rw [statements.eq_1] at h
    obtain ⟨rfl, rfl⟩ := pure_ok h
    simp
  | case2 ctx n rest ih =>
    intro s s' items h hctx hnodes hlo
    rw [statements.eq_2] at h
    obtain ⟨⟨items₁, ctx₁, r, hr⟩, s₁, h₁, h₂⟩ := bind_ok h
    obtain ⟨more, s₂, h₃, h₄⟩ := bind_ok h₂
    obtain ⟨rfl, rfl⟩ := pure_ok h₄
    have hrest : ∀ m ∈ rest, TopSound lo s.labelNames.size m :=
      fun m hm => hnodes m (List.mem_cons_of_mem _ hm)
    obtain ⟨hctx₁, hdef | ⟨hnd, htied, hleaves⟩⟩ := statement_tied hd h₁ hctx hrest hlo
    · obtain ⟨l, rfl, rfl, rfl, hrr⟩ := hdef
      dsimp only at hrr
      subst hrr
      obtain ⟨hgrows, hperm, hrefs⟩ := ih ctx₁ r hr h₃ hctx₁ hrest hlo
      refine ⟨hgrows, ?_, ?_⟩
      · simpa [defIds, Item.defId?] using hperm
      · simpa [refIds, Item.refId?] using hrefs
    · have hmid : ∀ m ∈ r, TopSound lo s₁.labelNames.size m :=
        fun m hm => (hrest m (hleaves.subset m hm)).mono htied.grows
      obtain ⟨hgrows, hperm, hrefs⟩ := ih ctx₁ r hr h₃ hctx₁ hmid (by have := htied.grows; omega)
      have hdefs : defsOf (n :: rest) = defsOf r := by
        rw [defsOf_cons_of_not_def hnd, hleaves.defsOf_eq]
      refine ⟨Nat.le_trans htied.grows hgrows, ?_, ?_⟩
      · rw [defIds_append, hdefs, ← range'_adjacent htied.grows hgrows]
        calc List.Perm (defIds items₁ ++ defIds more)
              (List.range' s.labelNames.size (s₁.labelNames.size - s.labelNames.size) ++
                (defsOf r ++ List.range' s₁.labelNames.size
                  (s₂.labelNames.size - s₁.labelNames.size))) := htied.defs.append hperm
          List.Perm _ (defsOf r ++ (List.range' s.labelNames.size
                  (s₁.labelNames.size - s.labelNames.size) ++ List.range' s₁.labelNames.size
                  (s₂.labelNames.size - s₁.labelNames.size))) := by
              rw [← List.append_assoc, ← List.append_assoc]
              exact List.perm_append_comm.append_right _
      · intro id hid
        rw [refIds_append, List.mem_append] at hid
        rcases hid with hid | hid
        · exact (htied.refs id hid).mono hgrows
        · exact hrefs id hid

/-- How a run with `budget` more levels allowed expands the runs nested in it. -/
def descendAt (config : Config) : Nat → Descend
  | 0 => fun site _ _ => fail ((Problem.depthExceeded config.maxDepth).atToken site)
  | b + 1 => fun _ c ns => run config b c ns

theorem run_eq (config : Config) (budget : Nat) (ctx : Context) (nodes : List Node) :
    run config budget ctx nodes = (do
      let (macros, nodes) ← Discovery.macros config.set ctx.macros nodes []
      let (labels, nodes) ← Discovery.labels ctx.labels nodes
      statements config (descendAt config budget)
        { ctx with macros := macros, labels := labels } nodes) := by
  rw [run.eq_1]
  cases budget <;> rfl

theorem run_tied_of (config : Config) (budget : Nat) (hd : Descends lo (descendAt config budget))
    {ctx : Context} {nodes : List Node} {s s' : Session} {items : List Item}
    (h : exec (run config budget ctx nodes) s = (.ok items, s'))
    (hctx : ctx.Sound lo s.labelNames.size) (hnodes : ∀ n ∈ nodes, n.Sound lo s.labelNames.size)
    (hlo : lo ≤ s.labelNames.size) : Tied lo s s' items := by
  rw [run_eq] at h
  obtain ⟨⟨table, nodes₁⟩, s₁, h₁, h₂⟩ := bind_ok h
  obtain ⟨⟨scope, nodes₂⟩, s₂, h₃, h₄⟩ := bind_ok h₂
  have hgather := macros_spec nodes.length (Nat.le_refl _) h₁
  have hs₁ : s₁.labelNames = s.labelNames := hgather.1
  have hnodes₁ : ∀ n ∈ nodes₁, Node.Sound lo s₁.labelNames.size n := by
    intro n hn
    rw [hs₁]
    rcases hgather.2.1 n hn with hn | hn
    · exact hnodes n hn
    · simp at hn
  have htable : table.Sound lo s₁.labelNames.size := by
    rw [hs₁]
    exact hgather.2.2 _ _ hctx.macros hnodes
  obtain ⟨hgrows₂, hdefs, hscope, htop⟩ :=
    labels_spec h₃ (by rw [hs₁]; exact hctx.labels) hnodes₁ (by rw [hs₁]; exact hlo)
  obtain ⟨hgrows, hperm, hrefs⟩ := statements_tied hd _ _ h₄
    ⟨hscope, hctx.constants.mono (by rw [← hs₁]; exact hgrows₂), htable.mono hgrows₂⟩ htop
    (by rw [hs₁] at hgrows₂; omega)
  rw [hs₁] at hgrows₂ hdefs
  refine ⟨Nat.le_trans hgrows₂ hgrows, ?_, hrefs⟩
  rw [← range'_adjacent hgrows₂ hgrows, ← hdefs]
  exact hperm

/-- Every run of an expansion, in a sound context and of sound nodes, defines exactly the labels
made while it runs, each once, and refers only to labels made since `lo`. -/
theorem run_tied (config : Config) : ∀ (budget : Nat) {ctx : Context} {nodes : List Node}
    {s s' : Session} {items : List Item}, exec (run config budget ctx nodes) s = (.ok items, s') →
    ctx.Sound lo s.labelNames.size → (∀ n ∈ nodes, n.Sound lo s.labelNames.size) →
    lo ≤ s.labelNames.size → Tied lo s s' items
  | 0 => run_tied_of config 0 fun _ _ _ _ _ _ _ _ _ h => (fail_ok h).elim
  | b + 1 => run_tied_of config (b + 1) fun _ _ _ _ _ _ hctx hnodes hlo h =>
    run_tied config b h hctx hnodes hlo

end Expansion

/-! ### From items to placed labels -/

namespace Element

/-- The label an element defines. -/
def labelId? : Element → Option Nat
  | .label id => some id
  | .instruction _ => none

/-- The label an element's argument names. -/
def argId? : Element → Option Nat
  | .instruction p =>
    match p.argument with
    | .label id => some id
    | _ => none
  | .label _ => none

end Element

namespace Typing

open Expand

theorem argumentOf_not_label {t : Token} {a : Argument} (h : argumentOf t = .ok a) :
    ∀ id, a ≠ .label id := by
  intro id
  unfold argumentOf at h
  repeat' split at h
  all_goals
    cases h
    try simp

theorem instruction_spec {set : InstructionSet} {m : Token} {o : Option Operand} {s s' : Session}
    {p : Pending} (h : exec (instruction set m o) s = (.ok p, s')) :
    s'.labelNames = s.labelNames ∧ (Element.instruction p).argId? = (Item.instruction m o).refId? := by
  unfold instruction at h
  dsimp only at h
  split at h
  · obtain ⟨_, s₁, h₁, h₂⟩ := bind_ok h
    obtain ⟨rfl, rfl⟩ := pure_ok h₁
    obtain ⟨rfl, rfl⟩ := pure_ok h₂
    exact ⟨rfl, rfl⟩
  · obtain ⟨_, s₁, h₁, h₂⟩ := bind_ok h
    obtain ⟨rfl, rfl⟩ := pure_ok h₁
    obtain ⟨rfl, rfl⟩ := pure_ok h₂
    exact ⟨rfl, rfl⟩
  · rename_i t
    split at h
    · rename_i a ha
      obtain ⟨_, s₁, h₁, h₂⟩ := bind_ok h
      obtain ⟨rfl, rfl⟩ := pure_ok h₁
      have hnot := argumentOf_not_label ha
      split at h₂
      · split at h₂
        · obtain ⟨_, s₂, h₃, h₄⟩ := bind_ok h₂
          obtain ⟨rfl, rfl⟩ := pure_ok h₄
          exact ⟨(Session.keepsLabels_warn _ h₃).1, rfl⟩
        · obtain ⟨rfl, rfl⟩ := pure_ok h₂
          exact ⟨rfl, rfl⟩
      · obtain ⟨rfl, rfl⟩ := pure_ok h₂
        cases a with
        | label id => exact absurd rfl (hnot id)
        | _ => exact ⟨rfl, rfl⟩
    · obtain ⟨_, _, h₁, -⟩ := bind_ok h
      exact (throw_ok h₁).elim

theorem elements_spec (set : InstructionSet) : ∀ {items : List Item} {s s' : Session}
    {typed : List Element}, exec (elements set items) s = (.ok typed, s') →
    s'.labelNames = s.labelNames ∧ typed.filterMap Element.labelId? = Expansion.defIds items ∧
      typed.filterMap Element.argId? = Expansion.refIds items
  | [], s, s', typed, h => by
    unfold elements at h
    rw [List.mapM_nil] at h
    obtain ⟨rfl, rfl⟩ := pure_ok h
    exact ⟨rfl, rfl, rfl⟩
  | it :: rest, s, s', typed, h => by
    unfold elements at h
    rw [List.mapM_cons] at h
    obtain ⟨e, s₁, h₁, h₂⟩ := bind_ok h
    obtain ⟨es, s₂, h₃, h₄⟩ := bind_ok h₂
    obtain ⟨rfl, rfl⟩ := pure_ok h₄
    obtain ⟨hs₂, hlabels, hargs⟩ := elements_spec set h₃
    have hfirst : s₁.labelNames = s.labelNames ∧ e.labelId? = it.defId? ∧ e.argId? = it.refId? := by
      cases it with
      | label l =>
        obtain ⟨rfl, rfl⟩ := pure_ok h₁
        exact ⟨rfl, rfl, rfl⟩
      | instruction m o =>
        obtain ⟨p, s₃, h₅, h₆⟩ := bind_ok h₁
        obtain ⟨rfl, rfl⟩ := pure_ok h₆
        obtain ⟨hs, harg⟩ := instruction_spec h₅
        exact ⟨hs, rfl, harg⟩
    obtain ⟨hs₁, hlabel, harg⟩ := hfirst
    refine ⟨hs₂.trans hs₁, ?_, ?_⟩
    · rw [List.filterMap_cons, hlabel, hlabels]
      rfl
    · rw [List.filterMap_cons, harg, hargs]
      rfl

end Typing

namespace Paging

theorem exciseStep_size (acc : Array Pending × Placement) (e : Element) :
    (exciseStep acc e).2.size = acc.2.size := by
  cases e <;> simp [exciseStep]

theorem exciseStep_placed {acc : Array Pending × Placement} {id : Nat} (hid : id < acc.2.size)
    (e : Element) (h : (∃ j, acc.2[id]? = some (some j)) ∨ e = .label id) :
    ∃ j, (exciseStep acc e).2[id]? = some (some j) := by
  cases e with
  | instruction p =>
    rcases h with h | h
    · exact h
    · cases h
  | label l =>
    simp only [exciseStep, Array.set!_eq_setIfInBounds, Array.getElem?_setIfInBounds]
    split
    · rename_i hl
      subst hl
      exact ⟨_, by rw [if_pos hid]⟩
    · rcases h with h | h
      · exact h
      · cases h
        contradiction

theorem foldl_exciseStep_placed {id : Nat} : ∀ (es : List Element) (acc : Array Pending × Placement),
    id < acc.2.size → ((∃ j, acc.2[id]? = some (some j)) ∨ Element.label id ∈ es) →
    ∃ j, (es.foldl exciseStep acc).2[id]? = some (some j)
  | [], acc, _, h => by simpa using h
  | e :: es, acc, hid, h => by
    rw [List.foldl_cons]
    refine foldl_exciseStep_placed es _ (by rw [exciseStep_size]; exact hid) ?_
    rcases h with h | h
    · exact .inl (exciseStep_placed hid e (.inl h))
    · rcases List.mem_cons.1 h with rfl | h
      · exact .inl (exciseStep_placed hid _ (.inr rfl))
      · exact .inr h

theorem excise_placed {n : Nat} {es : List Element} {id : Nat} (hid : id < n)
    (hmem : Element.label id ∈ es) : ∃ j, (excise n es).2[id]? = some (some j) := by
  rw [excise_eq]
  exact foldl_exciseStep_placed es _ (by simpa using hid) (.inr hmem)

theorem excise_fst (n : Nat) (es : List Element) : (excise n es).1 = instructionsOf es :=
  (excise_spec rfl).1

theorem unplaced?_eq_none {placed : Placement} {code : List Pending}
    (h : ∀ p ∈ code, ∀ id, p.argument = .label id → ∃ j, placed[id]? = some (some j)) :
    unplaced? placed code = none := by
  unfold unplaced?
  rw [List.findSome?_eq_none_iff]
  intro p hp
  split
  · rename_i id hid
    obtain ⟨j, hj⟩ := h p hp id hid
    rw [Array.getD_eq_getD_getElem?, hj]
    rfl
  · rfl

theorem excise_unplaced?_eq_none {n : Nat} {code : List Element}
    (h : ∀ p, Element.instruction p ∈ code → ∀ id, p.argument = .label id →
      Element.label id ∈ code ∧ id < n) :
    unplaced? (excise n code).2 (excise n code).1 = none := by
  apply unplaced?_eq_none
  intro p hp id hid
  rw [excise_fst] at hp
  obtain ⟨hlabel, hlt⟩ := h p (mem_instructionsOf hp) id hid
  exact excise_placed hlt hlabel

end Paging

namespace Expansion

open Expand Discovery

/-- Labels in the expansion of a text. Its items define each label once, and every label an item
refers to is defined among them; so placing the labels of the typed items, with redundant loads
dropped or not, finds every label an instruction names. And each run that gathers labels (the
text, a macro body or a loop body, each time it is expanded) finds every name it defines as a
label it made itself, whatever the scope of its callers holds for that name. -/
theorem labels_unique_and_resolved (config : Config) (doc : Document) {s s' : Session}
    {items : List Item}
    (h : exec (run config config.maxDepth Context.top
      (doc.children.map (Tree.mapLeaves Atom.token))) s = (.ok items, s')) :
    (defIds items).Nodup ∧ (∀ id ∈ refIds items, id ∈ defIds items) ∧
      (∀ (typed : List Element) (s'' : Session),
        exec (Typing.elements config.set items) s' = (.ok typed, s'') →
        ∀ code, code = typed ∨ code = Peephole.optimise config.set typed →
          Paging.unplaced? (Paging.excise s''.labelNames.size code).2
            (Paging.excise s''.labelNames.size code).1 = none) ∧
      (∀ (scope scope' : LabelScope) (nodes nodes' : List Node) (s₀ s₁ : Session),
        (∀ n ∈ nodes, ∀ l, n ≠ .leaf (.labelDef l)) →
        exec (Discovery.labels scope nodes) s₀ = (.ok (scope', nodes'), s₁) →
        ∀ name ∈ definedNames nodes, ∃ l ∈ defSites nodes', l.name = name ∧
          scope'.find? name = some l.id ∧ Made s₀.labelNames.size s₁.labelNames.size l.id) := by
  have hnodes : ∀ n ∈ doc.children.map (Tree.mapLeaves Atom.token),
      Node.Sound s.labelNames.size s.labelNames.size n := by
    intro n hn
    obtain ⟨c, -, rfl⟩ := List.mem_map.1 hn
    exact Tree.every_mapLeaves (fun _ => trivial) c
  have htied := run_tied config config.maxDepth h Context.top_sound hnodes (Nat.le_refl _)
  have hdefined : ∀ id ∈ refIds items, id ∈ defIds items := by
    intro id hid
    have hmade := htied.refs id hid
    rw [htied.defs.mem_iff, List.mem_range'_1]
    exact ⟨hmade.1, by have := htied.grows; have := hmade.2; omega⟩
  refine ⟨htied.defs.nodup_iff.2 List.nodup_range', hdefined, ?_,
    fun _ _ _ _ _ _ hnd hlabels => labels_find_own hlabels hnd⟩
  intro typed s'' htyped code hcode
  obtain ⟨hs'', hlabels, hargs⟩ := Typing.elements_spec config.set htyped
  have hnamed : ∀ p, Element.instruction p ∈ typed → ∀ id, p.argument = .label id →
      Element.label id ∈ typed ∧ id < s''.labelNames.size := by
    intro p hp id hid
    have href : id ∈ refIds items := by
      rw [← hargs]
      exact List.mem_filterMap.2 ⟨_, hp, by simp [Element.argId?, hid]⟩
    refine ⟨?_, by rw [hs'']; exact (htied.refs id href).2⟩
    have hdef := hdefined id href
    rw [← hlabels] at hdef
    obtain ⟨e, he, hle⟩ := List.mem_filterMap.1 hdef
    cases e with
    | instruction q => cases hle
    | label id' =>
      cases hle
      exact he
  apply Paging.excise_unplaced?_eq_none
  rcases hcode with rfl | rfl
  · exact hnamed
  · intro p hp id hid
    obtain ⟨hl, hlt⟩ := hnamed p ((Peephole.dropLoads_sublist _ _ _).subset hp) id hid
    exact ⟨Peephole.label_mem_dropLoads _ _ _ hl, hlt⟩

/-- `FOR i IN 2 { l: JMP $l }`: each pass makes its own label `l`, and its jump refers to it. -/
theorem loop_passes_make_own_labels :
    ∃ (items : List Item) (s' : Session),
      exec (run {} ({} : Config).maxDepth Context.top
        ((⟨[.leaf ⟨.word, "FOR", Span.point 0, 1⟩, .leaf ⟨.word, "i", Span.point 0, 1⟩,
          .leaf ⟨.word, "IN", Span.point 0, 1⟩, .leaf ⟨.word, "2", Span.point 0, 1⟩,
          .group .curly [.leaf ⟨.word, "l:", Span.point 0, 1⟩, .leaf ⟨.word, "JMP", Span.point 0, 1⟩,
            .leaf ⟨.word, "$l", Span.point 0, 1⟩] (Span.point 0) 1], Span.point 0⟩ :
          Document).children.map (Tree.mapLeaves Atom.token))) {} = (.ok items, s') ∧
      defIds items = [0, 1] ∧ refIds items = [0, 1] ∧
      (defIds items).Nodup ∧ ∀ id ∈ refIds items, id ∈ defIds items := by
  have hok : ∀ {e : Except Diagnostic (List Item)} {a : List Item}, e.toOption = some a →
      e = .ok a := by
    intro e a h
    cases e <;> simp_all [Except.toOption]
  have h : exec (run {} ({} : Config).maxDepth Context.top
      ((⟨[.leaf ⟨.word, "FOR", Span.point 0, 1⟩, .leaf ⟨.word, "i", Span.point 0, 1⟩,
        .leaf ⟨.word, "IN", Span.point 0, 1⟩, .leaf ⟨.word, "2", Span.point 0, 1⟩,
        .group .curly [.leaf ⟨.word, "l:", Span.point 0, 1⟩, .leaf ⟨.word, "JMP", Span.point 0, 1⟩,
          .leaf ⟨.word, "$l", Span.point 0, 1⟩] (Span.point 0) 1], Span.point 0⟩ :
        Document).children.map (Tree.mapLeaves Atom.token))) {} =
      (.ok [.label ⟨0, "l", Span.point 0, 1⟩,
        .instruction ⟨.word, "JMP", Span.point 0, 1⟩ (some (.label ⟨0, "l", Span.point 0, 1⟩)),
        .label ⟨1, "l", Span.point 0, 1⟩,
        .instruction ⟨.word, "JMP", Span.point 0, 1⟩ (some (.label ⟨1, "l", Span.point 0, 1⟩))], _) :=
    Prod.ext (hok (by decide +kernel)) rfl
  exact ⟨_, _, h, rfl, rfl, (labels_unique_and_resolved _ _ h).1,
    (labels_unique_and_resolved _ _ h).2.1⟩

end Expansion

end PagedAsm
