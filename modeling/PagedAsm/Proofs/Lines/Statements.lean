import PagedAsm.Proofs.Lines.Gathering
import PagedAsm.Proofs.Expansion.Labels

/-!
# Places of expanded statements

A statement of a placed run gives placed items and raises its diagnostics at placed words and
nodes. Every operand stands in the place of a node of the statement's line, and the line comes
after the statement's first word, so an instruction's operand never starts before its mnemonic.
Loops and macro calls expand a group of the run, or a macro body, rewritten in place, one level
deeper (`DescendsPlaced`); so by induction on the depth every run is placed (`run_reported`).
-/

namespace PagedAsm

variable {src : List Char}

namespace Loop

theorem unquoteAt_reported {t : Token} (ht : PlacedAt src t.span t.line) :
    Reported src (fun _ => True) (unquoteAt t) := by
  unfold unquoteAt
  split
  · trivial
  · exact ht

theorem lengthOf_reported {constants : Bindings} {keyword : Token} {operand : Node}
    (hop : operand.Placed src) : Reported src (fun _ => True) (lengthOf constants keyword operand) := by
  unfold lengthOf
  split
  · rename_i t
    split
    · rename_i t' happ
      obtain ⟨hspan, hline⟩ := Bindings.apply_token_place happ
      exact (unquoteAt_reported (hop.placedAt.congr hspan hline)).bind fun _ _ => trivial
    · exact hop.placedAt
  · exact hop.placedAt

theorem ascending_reported {site : Token} (hsite : PlacedAt src site.span site.line)
    (start stop : Int) : Reported src (fun _ => True) (ascending site start stop) := by
  unfold ascending
  split
  · exact hsite
  · trivial

theorem checkCount_reported {site : Token} (hsite : PlacedAt src site.span site.line) (n : Nat) :
    Reported src (fun _ => True) (checkCount site n) := by
  unfold checkCount
  split
  · exact hsite
  · trivial

theorem rangeValues_reported {constants : Bindings} {range : List Token}
    (hrange : ∀ t ∈ range, PlacedAt src t.span t.line) :
    Reported src (fun _ => True) (rangeValues constants range) := by
  unfold rangeValues
  split
  · trivial
  · rename_i head rest
    have hhead := hrange head List.mem_cons_self
    split
    · -- `LEN "text"`: the string's length
      split
      · rename_i operand _
        have hop : Node.Placed src (.leaf (.token operand)) := .leaf (hrange operand (by simp))
        exact (lengthOf_reported hop).bind fun (k : Nat) _ => ascending_reported hhead 0 k
      · trivial
    · split
      · rename_i second _ _
        exact hrange second (by simp)
      · split
        · exact (unquoteAt_reported hhead).bind fun _ _ =>
            (checkCount_reported hhead _).bind fun _ _ => trivial
        · split
          · split
            · split
              · exact ascending_reported hhead _ _
              · exact (ascending_reported hhead _ _).bind fun _ _ => trivial
            · exact hhead
          · split
            · split
              · exact hhead
              · exact ascending_reported hhead _ _
            · exact hhead

theorem iterations_reported {constants : Bindings} {keyword : Token} {arity : Nat}
    {range : List Token} (hkw : PlacedAt src keyword.span keyword.line)
    (hrange : ∀ t ∈ range, PlacedAt src t.span t.line) :
    Reported src (fun _ => True) (iterations constants keyword arity range) := by
  unfold iterations
  split
  · exact hkw
  · rename_i head rest
    have hhead := hrange head List.mem_cons_self
    split
    · split
      · exact hhead
      · split
        · rename_i s _
          refine (unquoteAt_reported (hrange s (by simp))).bind fun _ _ => ?_
          dsimp only
          exact (checkCount_reported hhead _).bind fun _ _ => trivial
        · trivial
    · split
      · exact hkw
      · exact (rangeValues_reported hrange).bind fun _ _ => trivial

end Loop

namespace Expansion

open Expand Discovery

/-! ### Operands -/

theorem checkOperand_reported (ctx : Context) {o : Operand} (ho : PlacedAt src o.span o.line) :
    Reported src (fun o' => o'.span = o.span ∧ o'.line = o.line) (checkOperand ctx o) := by
  unfold checkOperand
  split
  · exact ⟨rfl, rfl⟩
  · split
    · split
      · exact ⟨rfl, rfl⟩
      · exact ho
    · split
      · exact ho
      · exact ⟨rfl, rfl⟩

/-- A place in the text that is not before `b`. -/
def PlacedFrom (src : List Char) (b : Nat) (span : Span) (line : Nat) : Prop :=
  PlacedAt src span line ∧ b ≤ span.start

theorem operands_reported (ctx : Context) {b : Nat} : ∀ {line : List Node} {acc : List Operand},
    (∀ m ∈ line, m.Placed src ∧ b ≤ m.span.start) →
    (∀ o ∈ acc, PlacedFrom src b o.span o.line) →
    Reported src (fun ops => ∀ o ∈ ops, PlacedFrom src b o.span o.line) (operands ctx line acc)
  | [], acc, _, hacc => fun o ho => hacc o (List.mem_reverse.1 ho)
  | n :: rest, acc, hline, hacc => by
    have hrest := fun m hm => hline m (List.mem_cons_of_mem _ hm)
    obtain ⟨hn, hnb⟩ := hline n List.mem_cons_self
    have hcons : ∀ o : Operand, o.span = n.span → o.line = n.line →
        ∀ o' ∈ o :: acc, PlacedFrom src b o'.span o'.line := by
      intro o hspan hline' o' ho'
      rcases List.mem_cons.1 ho' with rfl | ho'
      · exact ⟨hn.placedAt.congr hspan hline', by rw [hspan]; exact hnb⟩
      · exact hacc o' ho'
    unfold operands
    split
    · exact operands_reported ctx hrest (hcons _ rfl rfl)
    · exact hn.placedAt
    · exact hn.placedAt
    · rename_i t
      obtain ⟨hspan, hline'⟩ := ctx.constants.apply_place t
      split
      · rename_i t' happ
        obtain ⟨hspan', hline''⟩ := Bindings.apply_token_place happ
        split
        · split
          · exact hn.placedAt.congr hspan' hline''
          · rename_i operand rest'
            have hop := (hrest operand List.mem_cons_self).1
            exact (Loop.lengthOf_reported hop).bind fun k _ =>
              operands_reported ctx (fun m hm => hrest m (List.mem_cons_of_mem _ hm))
                (hcons _ hspan' hline'')
        · exact operands_reported ctx hrest (hcons _ hspan' hline'')
      · exact operands_reported ctx hrest (hcons _ hspan hline')

theorem arguments_reported (ctx : Context) : ∀ {args : List Node} {acc : List Operand},
    (∀ n ∈ args, n.Placed src) → Reported src (fun _ => True) (arguments ctx args acc)
  | [], _, _ => trivial
  | n :: rest, acc, hargs => by
    have hrest := fun m hm => hargs m (List.mem_cons_of_mem _ hm)
    have hn := (hargs n List.mem_cons_self).placedAt
    unfold arguments
    split
    · exact arguments_reported ctx hrest
    · rename_i t
      split
      · exact arguments_reported ctx hrest
      · obtain ⟨hspan, hline⟩ := ctx.constants.apply_place t
        exact (checkOperand_reported ctx (hn.congr hspan hline)).bind fun _ _ =>
          arguments_reported ctx hrest
    · exact hn

/-! ### Statements of one line -/

theorem instruction_reported (ctx : Context) {mnemonic : Token} {line : List Node}
    (hm : PlacedAt src mnemonic.span mnemonic.line)
    (hline : ∀ m ∈ line, m.Placed src ∧ mnemonic.span.start ≤ m.span.start) :
    Reports src (instruction ctx mnemonic line) fun items => ∀ it ∈ items, it.Placed src := by
  unfold instruction
  refine Reports.bind (Reports.lift (operands_reported ctx hline (by simp))) fun ops hops => ?_
  refine Reports.bind (Reports.emit hm 1) fun _ _ => ?_
  split
  · refine Reports.pure fun it hit => ?_
    rw [List.mem_singleton.1 hit]
    exact hm
  · rename_i op
    obtain ⟨hop, hle⟩ := hops op (by simp)
    refine Reports.bind (Reports.lift (checkOperand_reported ctx hop)) fun o ⟨hspan, hline'⟩ => ?_
    refine Reports.pure fun it hit => ?_
    rw [List.mem_singleton.1 hit]
    exact ⟨hm, hop.congr hspan hline', by rw [hspan]; exact hle⟩
  · rename_i second _
    exact Reports.fail (hops second (by simp)).1

theorem assign_reported (ctx : Context) {keyword : Token} {line : List Node}
    (hkw : PlacedAt src keyword.span keyword.line) (hline : ∀ m ∈ line, m.Placed src) :
    Reports src (assign ctx keyword line) fun ctx' => ctx'.macros = ctx.macros := by
  unfold assign
  split
  · exact Reports.fail hkw
  · rename_i first values
    have hfirst := (hline first List.mem_cons_self).placedAt
    have hvalues : ∀ m ∈ values, m.Placed src ∧ 0 ≤ m.span.start :=
      fun m hm => ⟨hline m (List.mem_cons_of_mem _ hm), Nat.zero_le _⟩
    dsimp only
    split
    · split
      · refine Reports.bind (Reports.pure hfirst)
          fun (name : Token) (hname : PlacedAt src name.span name.line) => ?_
        refine Reports.bind (Reports.lift (operands_reported ctx hvalues (by simp))) fun vs _ => ?_
        split
        · exact Reports.optional_bind (Reports.warn hname) (Reports.pure rfl)
        · exact Reports.fail hkw
      · exact Reports.fail_bind hfirst
    · exact Reports.fail_bind hfirst

theorem includePackage_reported (config : Config) (ctx : Context) {keyword : Token}
    {line : List Node} (hkw : PlacedAt src keyword.span keyword.line)
    (hline : ∀ m ∈ line, m.Placed src) :
    Reports src (includePackage config ctx keyword line) fun _ => True := by
  unfold includePackage
  split
  · rename_i first
    have hfirst := (hline first List.mem_cons_self).placedAt
    split
    · rename_i t
      split
      · rename_i t' happ
        obtain ⟨hspan, hline'⟩ := Bindings.apply_token_place happ
        refine Reports.bind (Reports.pure (hfirst.congr hspan hline'))
          fun (tok : Token) (htok : PlacedAt src tok.span tok.line) => ?_
        dsimp only
        refine Reports.ite_bind (Reports.lift (Loop.unquoteAt_reported htok)) (Reports.pure trivial)
          fun (name : String) (_ : True) => ?_
        refine Reports.optional_bind (Reports.fail htok) ?_
        refine Reports.bind Reports.get fun st _ => ?_
        split
        · exact Reports.warn htok
        · exact Reports.optional_bind (Reports.warn htok) (Reports.modify fun _ => rfl)
      · exact Reports.fail_bind hfirst
    · exact Reports.fail_bind hfirst
  · exact Reports.fail hkw

theorem writeString_reported (ctx : Context) {keyword : Token} {line : List Node}
    (hkw : PlacedAt src keyword.span keyword.line)
    (hline : ∀ m ∈ line, m.Placed src ∧ keyword.span.start ≤ m.span.start) :
    Reports src (writeString ctx keyword line) fun items => ∀ it ∈ items, it.Placed src := by
  unfold writeString
  refine Reports.bind (Reports.lift (operands_reported ctx hline (by simp))) fun ops hops => ?_
  split
  · rename_i p s
    have hp := hops p (by simp)
    have hs := hops s (by simp)
    -- each match takes the rest of the block into its branches; the refusing branches end there
    cases p with
    | label l => exact Reports.fail_bind hp.1
    | token ptr =>
      dsimp only
      split
      · rw [pure_bind]
        cases s with
        | label l => exact Reports.fail_bind hs.1
        | token str =>
          dsimp only
          rw [pure_bind]
          split
          · rw [pure_bind]
            refine Reports.bind (Reports.lift (Loop.unquoteAt_reported hs.1)) fun text _ => ?_
            refine Reports.bind (Reports.emit hkw _) fun _ _ => Reports.pure fun it hit => ?_
            simp only [List.mem_flatMap, List.mem_cons, List.mem_map] at hit
            obtain ⟨⟨b, positions⟩, -, rfl | ⟨i, -, rfl⟩⟩ := hit
            · exact ⟨hkw, hs.1, hs.2⟩
            · exact ⟨hkw, hp.1, hp.2⟩
          · exact Reports.fail_bind hp.1
      · exact Reports.fail_bind hp.1
  · exact Reports.fail hkw

/-! ### Loops and macro calls -/

theorem loopVariables_reported {keyword : Token} (hkw : PlacedAt src keyword.span keyword.line) :
    ∀ {ns : List Node} {acc : List Token}, (∀ n ∈ ns, n.Placed src) →
      Reported src (fun _ => True) (loopVariables keyword ns acc)
  | [], _, _ => hkw
  | n :: rest, acc, hns => by
    have hn := (hns n List.mem_cons_self).placedAt
    have hrest := fun m hm => hns m (List.mem_cons_of_mem _ hm)
    unfold loopVariables
    split
    · split
      · exact hkw
      · split
        · trivial
        · split
          · exact hn
          · rename_i t _ _ _
            have hr : Reported src (fun _ => True) (loopVariables keyword rest (t :: acc)) :=
              loopVariables_reported hkw hrest
            split
            · trivial
            · rename_i d heq
              rw [heq] at hr
              exact hr
    · exact hkw

theorem loopRange_reported (ctx : Context) : ∀ {ns : List Node} {acc : List Token},
    (∀ n ∈ ns, n.Placed src) → (∀ t ∈ acc, PlacedAt src t.span t.line) →
    Reported src (fun r => ∀ t ∈ r.1, PlacedAt src t.span t.line) (loopRange ctx ns acc)
  | [], acc, _, hacc => fun t ht => hacc t (List.mem_reverse.1 ht)
  | .group .. :: _, acc, _, hacc => fun t ht => hacc t (List.mem_reverse.1 ht)
  | .leaf (.token t) :: rest, acc, hns, hacc => by
    have ht := (hns _ List.mem_cons_self).placedAt
    have hrest := fun m hm => hns m (List.mem_cons_of_mem _ hm)
    change Reported src _ (if t.isNewline then _ else _)
    split
    · exact fun u hu => hacc u (List.mem_reverse.1 hu)
    · split
      · rename_i t' happ
        obtain ⟨hspan, hline⟩ := Bindings.apply_token_place happ
        have hr : Reported src (fun r => ∀ t ∈ r.1, PlacedAt src t.span t.line)
            (loopRange ctx rest (t' :: acc)) := by
          refine loopRange_reported ctx hrest fun u hu => ?_
          rcases List.mem_cons.1 hu with rfl | hu
          · exact ht.congr hspan hline
          · exact hacc u hu
        split
        · rename_i vs r' _ heq
          rw [heq] at hr
          exact hr
        · rename_i d heq
          rw [heq] at hr
          exact hr
      · exact ht
  | .leaf (.labelDef _) :: _, _, hns, _ => (hns _ List.mem_cons_self).placedAt
  | .leaf (.labelRef _) :: _, _, hns, _ => (hns _ List.mem_cons_self).placedAt

/-- How nested runs are expanded keeps places: from a placed site, with placed macros, a placed
run gives placed items. -/
def DescendsPlaced (src : List Char) (descend : Descend) : Prop :=
  ∀ (site : Token) (ctx : Context) (ns : List Node), PlacedAt src site.span site.line →
    ctx.macros.Placed src → RunPlaced src ns →
    Reports src (descend site ctx ns) fun items => ∀ it ∈ items, it.Placed src

theorem Leaves.isSuffix {ns r : List Node} (h : Leaves ns r) : r <:+ ns := by
  obtain ⟨pre, rfl, -⟩ := h
  exact List.suffix_append pre r

section Descending

variable {descend : Descend} (hd : DescendsPlaced src descend)
include hd

theorem loop_reported (ctx : Context) {keyword : Token} {ns : List Node}
    (hkw : PlacedAt src keyword.span keyword.line) (hmacros : ctx.macros.Placed src)
    (hns : RunPlaced src ns) :
    Reports src (loop descend ctx keyword ns) fun r => (∀ it ∈ r.1, it.Placed src) ∧ r.2.1 <:+ ns := by
  unfold loop
  have hvars : Reported src (fun a => Leaves ns a.2.1) (loopVariables keyword ns []) :=
    (loopVariables_reported hkw hns.placed).of_ok fun _ ha => loopVariables_leaves ha
  refine Reports.bind (Reports.lift hvars) fun a hleaves₁ => ?_
  obtain ⟨vars, afterIn, h1⟩ := a
  have hafterIn : RunPlaced src afterIn := hns.sublist hleaves₁.isSuffix.sublist
  dsimp only
  refine Reports.optional_bind (Reports.fail hkw) ?_
  have hrange : Reported src (fun a => (∀ t ∈ a.1, PlacedAt src t.span t.line) ∧ Leaves afterIn a.2.1)
      (loopRange ctx afterIn []) :=
    (loopRange_reported ctx hafterIn.placed (by simp)).and_ok fun _ ha => loopRange_leaves ha
  refine Reports.bind (Reports.lift hrange) fun a ha => ?_
  obtain ⟨range, afterRange, h2⟩ := a
  obtain ⟨hrange, hleaves₂⟩ := ha
  dsimp only
  split
  · rename_i body sp ln rest
    have hsuffix : (Tree.group .curly body sp ln :: rest) <:+ ns :=
      hleaves₂.isSuffix.trans hleaves₁.isSuffix
    have hbody : RunPlaced src body := (hns.placed _ (hsuffix.subset List.mem_cons_self)).children
    refine Reports.bind (Reports.lift (Loop.iterations_reported hkw hrange)) fun values _ => ?_
    refine Reports.bind (Reports.forIn (fun acc : Array Item => ∀ it ∈ acc.toList, it.Placed src)
      (fun vs _ acc hacc => ?_) (by simp)) fun acc hacc => Reports.pure ⟨hacc, ?_⟩
    · refine Reports.bind (hd keyword _ _ hkw hmacros (Bindings.runPlaced_rewrite _ hbody))
        fun out hout => Reports.pure fun it hit => ?_
      simp only [ForInStep.value, Array.toList_appendList, List.mem_append] at hit
      rcases hit with hit | hit
      · exact hacc it hit
      · exact hout it hit
    · exact (List.suffix_cons _ rest).trans hsuffix
  · exact Reports.fail hkw

theorem call_reported (ctx : Context) {name : Token} {ns : List Node}
    (hname : PlacedAt src name.span name.line) (hmacros : ctx.macros.Placed src)
    (hns : RunPlaced src ns) :
    Reports src (call descend ctx name ns) fun r => (∀ it ∈ r.1, it.Placed src) ∧ r.2.1 <:+ ns := by
  unfold call
  split
  · rename_i args sp ln rest
    have hargs := hns.head.children
    refine Reports.bind (Reports.lift (arguments_reported ctx hargs.placed)) fun values _ => ?_
    split
    · exact Reports.fail hname
    · rename_i m hm
      have hplaced := MacroTable.find?_placed hmacros hm
      refine Reports.bind (hd name _ _ hname (MacroTable.forBody_placed hplaced)
        (Bindings.runPlaced_rewrite _ hplaced.body)) fun out hout => Reports.pure ⟨hout, ?_⟩
      exact List.suffix_cons _ rest
  · exact Reports.fail hname

/-! ### Statements and runs -/

theorem statement_reported (config : Config) (ctx : Context) {n : Node} {rest : List Node}
    (hmacros : ctx.macros.Placed src) (hns : RunPlaced src (n :: rest)) :
    Reports src (statement config descend ctx n rest) fun r =>
      (∀ it ∈ r.1, it.Placed src) ∧ r.2.1.macros.Placed src ∧ r.2.2.1 <:+ rest := by
  have hn := hns.head.placedAt
  have hrest := hns.tail
  have hlineRest : (restOfLine rest).2 <:+ rest := by
    obtain ⟨pre, hpre, -⟩ := restOfLine_split rest
    exact ⟨pre, hpre.symm⟩
  unfold statement
  split
  · refine Reports.pure ⟨fun it hit => ?_, hmacros, List.suffix_refl rest⟩
    rw [List.mem_singleton.1 hit]
    exact hn
  · exact Reports.fail hn
  · exact Reports.fail hn
  · rename_i t
    dsimp only
    split
    · exact Reports.pure ⟨by simp, hmacros, List.suffix_refl rest⟩
    split
    · rename_i head happ
      obtain ⟨hspan, hline⟩ := Bindings.apply_token_place happ
      have hhead : PlacedAt src head.span head.line := hn.congr hspan hline
      have hafter : ∀ m ∈ (restOfLine rest).1, m.Placed src ∧ head.span.start ≤ m.span.start := by
        intro m hm
        have hm' := mem_restOfLine hm
        refine ⟨hrest.placed m hm', ?_⟩
        rw [hspan]
        exact hns.le_of_mem hm'
      have hplaced : ∀ m ∈ (restOfLine rest).1, m.Placed src := fun m hm => (hafter m hm).1
      rw [pure_bind]
      split
      · split
        · refine Reports.bind (loop_reported hd ctx hhead hmacros hrest) fun a ha => ?_
          obtain ⟨items, r⟩ := a
          exact Reports.pure ⟨ha.1, hmacros, ha.2⟩
        · refine Reports.bind (assign_reported ctx hhead hplaced) fun ctx' hctx' => ?_
          exact Reports.pure ⟨by simp, hctx' ▸ hmacros, hlineRest⟩
        · refine Reports.bind (includePackage_reported config ctx hhead hplaced) fun _ _ => ?_
          exact Reports.pure ⟨by simp, hmacros, hlineRest⟩
        · refine Reports.bind (writeString_reported ctx hhead hafter) fun items hitems => ?_
          exact Reports.pure ⟨hitems, hmacros, hlineRest⟩
        · exact Reports.fail hhead
      · split
        · refine Reports.bind (instruction_reported ctx hhead hafter) fun items hitems => ?_
          exact Reports.pure ⟨hitems, hmacros, hlineRest⟩
        · split
          · refine Reports.bind (call_reported hd ctx hhead hmacros hrest) fun a ha => ?_
            obtain ⟨items, r⟩ := a
            exact Reports.pure ⟨ha.1, hmacros, ha.2⟩
          · split
            · exact Reports.fail hhead
            · exact Reports.fail hhead
    · exact Reports.fail_bind hn

theorem statements_reported (config : Config) : ∀ (ctx : Context) (nodes : List Node),
    ctx.macros.Placed src → RunPlaced src nodes →
    Reports src (statements config descend ctx nodes) fun items => ∀ it ∈ items, it.Placed src := by
  intro ctx nodes
  induction ctx, nodes using statements.induct with
  | case1 ctx =>
    intro _ _
    rw [statements.eq_1]
    exact Reports.pure (by simp)
  | case2 ctx n rest ih =>
    intro hmacros hns
    rw [statements.eq_2]
    refine Reports.bind (statement_reported hd config ctx hmacros hns) fun a ha => ?_
    obtain ⟨items, ctx', r, hr⟩ := a
    obtain ⟨hitems, hmacros', hsuffix⟩ := ha
    dsimp only
    refine Reports.bind (ih ctx' r hr hmacros' (hns.tail.sublist hsuffix.sublist))
      fun more hmore => Reports.pure fun it hit => ?_
    rcases List.mem_append.1 hit with hit | hit
    · exact hitems it hit
    · exact hmore it hit

end Descending

theorem run_reported_of (config : Config) (budget : Nat)
    (hd : DescendsPlaced src (descendAt config budget)) {ctx : Context} {nodes : List Node}
    (hmacros : ctx.macros.Placed src) (hnodes : RunPlaced src nodes) :
    Reports src (run config budget ctx nodes) fun items => ∀ it ∈ items, it.Placed src := by
  rw [run_eq]
  refine Reports.bind (macros_reported nodes.length (Nat.le_refl _) hmacros hnodes) fun a ha => ?_
  obtain ⟨table, nodes₁⟩ := a
  obtain ⟨htable, kept, hkept, hnodes₁⟩ := ha
  dsimp only at hnodes₁ ⊢
  rw [List.reverse_nil, List.nil_append] at hnodes₁
  subst hnodes₁
  refine Reports.bind (labels_reported (hnodes.sublist hkept)) fun b hb => ?_
  obtain ⟨scope, nodes₂⟩ := b
  exact statements_reported hd config _ _ htable hb

/-- Every run of an expansion from placed macros and nodes gives placed items, and raises its
diagnostics in place. -/
theorem run_reported (config : Config) : ∀ (budget : Nat) {ctx : Context} {nodes : List Node},
    ctx.macros.Placed src → RunPlaced src nodes →
    Reports src (run config budget ctx nodes) fun items => ∀ it ∈ items, it.Placed src
  | 0 => run_reported_of config 0 fun _ _ _ hsite _ _ => Reports.fail hsite
  | b + 1 => run_reported_of config (b + 1) fun _ _ _ _ hmacros hns => run_reported config b hmacros hns

end Expansion

end PagedAsm
