import PagedAsm.Proofs.Expansion.Gather

/-!
# The labels of one statement

A statement of a run after its labels are gathered is a label definition, or a word with the
rest of its line, a loop or a macro call after it. The items a statement gives and the labels it
makes are related by `Tied`: the items define exactly the labels made while it ran, and refer
only to labels made since the whole expansion began. A statement made of words reads no label
definition of its run, so the nodes it leaves define the labels the run had left (`Leaves`).

Each part a statement is read with has its own lemma; `statement_tied` puts them together, given
that nested runs are tied (`Descends`).
-/

namespace PagedAsm

/-- The label an item defines. -/
def Item.defId? : Item → Option Nat
  | .label l => some l.id
  | .instruction _ _ => none

/-- The label an item's operand refers to. -/
def Item.refId? : Item → Option Nat
  | .instruction _ (some (.label l)) => some l.id
  | _ => none

namespace Expansion

open Expand Discovery

/-- The labels items define, in order. -/
def defIds (items : List Item) : List Nat := items.filterMap Item.defId?

/-- The labels items refer to, in order. -/
def refIds (items : List Item) : List Nat := items.filterMap Item.refId?

@[simp] theorem defIds_nil : defIds [] = [] := rfl

@[simp] theorem refIds_nil : refIds [] = [] := rfl

@[simp] theorem defIds_append (xs ys : List Item) : defIds (xs ++ ys) = defIds xs ++ defIds ys := by
  simp [defIds, List.filterMap_append]

@[simp] theorem refIds_append (xs ys : List Item) : refIds (xs ++ ys) = refIds xs ++ refIds ys := by
  simp [refIds, List.filterMap_append]

variable {lo : Nat}

/-- Items given while the session went from `s` to `s'`: they define exactly the labels made
meanwhile, each once, and refer only to labels made since `lo`. -/
structure Tied (lo : Nat) (s s' : Session) (items : List Item) : Prop where
  grows : s.labelNames.size ≤ s'.labelNames.size
  defs : (defIds items).Perm
    (List.range' s.labelNames.size (s'.labelNames.size - s.labelNames.size))
  refs : ∀ id ∈ refIds items, Made lo s'.labelNames.size id

theorem Tied.of_labels {s s' : Session} {items : List Item}
    (hs : s'.labelNames = s.labelNames) (hdefs : defIds items = [])
    (hrefs : ∀ id ∈ refIds items, Made lo s.labelNames.size id) : Tied lo s s' items :=
  ⟨Nat.le_of_eq (by rw [hs]), by simp [hs, hdefs], by rw [hs]; exact hrefs⟩

theorem range'_adjacent {a b c : Nat} (hab : a ≤ b) (hbc : b ≤ c) :
    List.range' a (b - a) ++ List.range' b (c - b) = List.range' a (c - a) := by
  rw [show c - a = (b - a) + (c - b) by omega, ← List.range'_append,
    show a + 1 * (b - a) = b by omega]

theorem Tied.append {s s₁ s' : Session} {xs ys : List Item} (hx : Tied lo s s₁ xs)
    (hy : Tied lo s₁ s' ys) : Tied lo s s' (xs ++ ys) := by
  refine ⟨Nat.le_trans hx.grows hy.grows, ?_, ?_⟩
  · rw [defIds_append, ← range'_adjacent hx.grows hy.grows]
    exact hx.defs.append hy.defs
  · intro id hid
    rw [refIds_append, List.mem_append] at hid
    rcases hid with hid | hid
    · exact (hx.refs id hid).mono hy.grows
    · exact hy.refs id hid

/-- How nested runs are expanded keeps them tied: a run in a sound context, of sound nodes,
gives tied items. -/
def Descends (lo : Nat) (descend : Descend) : Prop :=
  ∀ (site : Token) (ctx : Context) (ns : List Node) (s s' : Session) (items : List Item),
    ctx.Sound lo s.labelNames.size → (∀ n ∈ ns, n.Sound lo s.labelNames.size) →
    lo ≤ s.labelNames.size → exec (descend site ctx ns) s = (.ok items, s') → Tied lo s s' items

/-! ### What a statement leaves of its run -/

/-- `r` is what is left of the run `ns` after a part that defines no label at its top. -/
def Leaves (ns r : List Node) : Prop := ∃ pre, ns = pre ++ r ∧ defsOf pre = []

namespace Leaves

theorem refl (ns : List Node) : Leaves ns ns := ⟨[], rfl, rfl⟩

theorem trans {ns ms r : List Node} (h₁ : Leaves ns ms) (h₂ : Leaves ms r) : Leaves ns r := by
  obtain ⟨p₁, rfl, hp₁⟩ := h₁
  obtain ⟨p₂, rfl, hp₂⟩ := h₂
  exact ⟨p₁ ++ p₂, by simp, by rw [defsOf_append, hp₁, hp₂]; rfl⟩

theorem cons {n : Node} (hn : ∀ l, n ≠ .leaf (.labelDef l)) {ns r : List Node}
    (h : Leaves ns r) : Leaves (n :: ns) r := by
  obtain ⟨pre, rfl, hpre⟩ := h
  exact ⟨n :: pre, rfl, by rw [defsOf_cons_of_not_def hn, hpre]⟩

theorem defsOf_eq {ns r : List Node} (h : Leaves ns r) : defsOf ns = defsOf r := by
  obtain ⟨pre, rfl, hpre⟩ := h
  rw [defsOf_append, hpre, List.nil_append]

theorem subset {ns r : List Node} (h : Leaves ns r) : ∀ m ∈ r, m ∈ ns := by
  obtain ⟨pre, rfl, -⟩ := h
  intro m hm
  exact List.mem_append_right _ hm

end Leaves

theorem token_not_def (t : Token) : ∀ l, (.leaf (.token t) : Node) ≠ .leaf (.labelDef l) :=
  fun _ h => by cases h

theorem group_not_def {b : Bracket} {cs : List Node} {sp : Span} {ln : Nat} :
    ∀ l, (.group b cs sp ln : Node) ≠ .leaf (.labelDef l) :=
  fun _ h => by cases h

theorem restOfLine_split : ∀ ns : List Node,
    ∃ pre, ns = pre ++ (restOfLine ns).2 ∧ defsOf pre = defsOf (restOfLine ns).1
  | [] => ⟨[], rfl, rfl⟩
  | n :: rest => by
    obtain ⟨pre, h₁, h₂⟩ := restOfLine_split rest
    have hkeep : ∃ pre', n :: rest = pre' ++ (restOfLine rest).2 ∧
        defsOf pre' = defsOf (n :: (restOfLine rest).1) :=
      ⟨n :: pre, by rw [List.cons_append, ← h₁], by
        rw [← List.singleton_append, defsOf_append, h₂, ← defsOf_append, List.singleton_append]⟩
    unfold restOfLine
    split
    · rename_i t
      split
      · exact ⟨[.leaf (.token t)], rfl, rfl⟩
      · exact hkeep
    · exact hkeep

theorem mem_restOfLine : ∀ {ns : List Node} {m : Node}, m ∈ (restOfLine ns).1 → m ∈ ns
  | [], _, h => by simp [restOfLine] at h
  | n :: rest, m, h => by
    unfold restOfLine at h
    split at h
    · split at h
      · simp at h
      · rcases List.mem_cons.1 h with rfl | h
        · exact List.mem_cons_self
        · exact List.mem_cons_of_mem _ (mem_restOfLine h)
    · rcases List.mem_cons.1 h with rfl | h
      · exact List.mem_cons_self
      · exact List.mem_cons_of_mem _ (mem_restOfLine h)

theorem leaves_restOfLine {ns : List Node} (h : defsOf (restOfLine ns).1 = []) :
    Leaves ns (restOfLine ns).2 := by
  obtain ⟨pre, h₁, h₂⟩ := restOfLine_split ns
  exact ⟨pre, h₁, h₂.trans h⟩

/-! ### Operands -/

variable {hi : Nat}

theorem checkOperand_sound {ctx : Context} {o o' : Operand} (h : checkOperand ctx o = .ok o')
    (hlabels : ctx.labels.Sound lo hi) (ho : o.Sound lo hi) : o'.Sound lo hi := by
  unfold checkOperand at h
  split at h
  · cases h
    exact ho
  · split at h
    · split at h
      · rename_i id hid
        cases h
        exact LabelScope.find?_sound hlabels hid
      · cases h
    · split at h
      · cases h
      · cases h
        trivial

theorem lengthOf_token {constants : Bindings} {keyword : Token} {operand : Node} {k : Nat}
    (h : Loop.lengthOf constants keyword operand = .ok k) : ∃ t, operand = .leaf (.token t) := by
  unfold Loop.lengthOf at h
  split at h
  · exact ⟨_, rfl⟩
  · cases h

theorem operands_spec {ctx : Context} (hconst : ctx.constants.Sound lo hi) :
    ∀ {line : List Node} {acc ops : List Operand}, operands ctx line acc = .ok ops →
      (∀ n ∈ line, TopSound lo hi n) → (∀ o ∈ acc, o.Sound lo hi) →
      defsOf line = [] ∧ ∀ o ∈ ops, o.Sound lo hi
  | [], acc, ops, h, _, hacc => by
    simp only [operands, Except.ok.injEq] at h
    subst h
    exact ⟨rfl, fun o ho => hacc o (List.mem_reverse.1 ho)⟩
  | n :: rest, acc, ops, h, hline, hacc => by
    have hrest : ∀ m ∈ rest, TopSound lo hi m := fun m hm => hline m (List.mem_cons_of_mem _ hm)
    have hn := hline n List.mem_cons_self
    unfold operands at h
    split at h
    · -- a reference: its label was made in range
      rename_i l
      have hl : Made lo hi l.id := by
        rcases hn with ⟨l', heq, -⟩ | hn
        · cases heq
        · exact Tree.every_leaf.1 hn
      obtain ⟨hdefs, hops⟩ := operands_spec hconst h hrest (by
        rintro o (_ | ⟨_, ho⟩)
        · exact hl
        · exact hacc o ho)
      exact ⟨by rw [defsOf_cons_of_not_def (fun _ h => by cases h), hdefs], hops⟩
    · cases h
    · cases h
    · rename_i t
      have hdefs_cons : ∀ r, defsOf (.leaf (.token t) :: r) = defsOf r :=
        defsOf_cons_of_not_def (token_not_def t)
      split at h
      · rename_i t' happ
        split at h
        · split at h
          · cases h
          · rename_i operand rest'
            cases hk : Loop.lengthOf ctx.constants t' operand with
            | error d =>
              rw [hk] at h
              cases h
            | ok k =>
              rw [hk] at h
              obtain ⟨u, rfl⟩ := lengthOf_token hk
              obtain ⟨hdefs, hops⟩ := operands_spec hconst h
                (fun m hm => hrest m (List.mem_cons_of_mem _ hm)) (by
                  rintro o (_ | ⟨_, ho⟩)
                  · trivial
                  · exact hacc o ho)
              exact ⟨by rw [hdefs_cons, defsOf_cons_of_not_def (token_not_def u), hdefs], hops⟩
        · obtain ⟨hdefs, hops⟩ := operands_spec hconst h hrest (by
            rintro o (_ | ⟨_, ho⟩)
            · trivial
            · exact hacc o ho)
          exact ⟨by rw [hdefs_cons, hdefs], hops⟩
      · obtain ⟨hdefs, hops⟩ := operands_spec hconst h hrest (by
          rintro o (_ | ⟨_, ho⟩)
          · exact Bindings.apply_sound hconst t
          · exact hacc o ho)
        exact ⟨by rw [hdefs_cons, hdefs], hops⟩

theorem arguments_sound {ctx : Context} (hctx : ctx.Sound lo hi) :
    ∀ {args : List Node} {acc vs : List Operand}, arguments ctx args acc = .ok vs →
      (∀ n ∈ args, n.Sound lo hi) → (∀ o ∈ acc, o.Sound lo hi) → ∀ o ∈ vs, o.Sound lo hi
  | [], acc, vs, h, _, hacc => by
    simp only [arguments, Except.ok.injEq] at h
    subst h
    exact fun o ho => hacc o (List.mem_reverse.1 ho)
  | n :: rest, acc, vs, h, hargs, hacc => by
    have hrest : ∀ m ∈ rest, m.Sound lo hi := fun m hm => hargs m (List.mem_cons_of_mem _ hm)
    have hn := hargs n List.mem_cons_self
    unfold arguments at h
    split at h
    · rename_i l
      exact arguments_sound hctx h hrest (by
        rintro o (_ | ⟨_, ho⟩)
        · exact Tree.every_leaf.1 hn
        · exact hacc o ho)
    · rename_i t
      split at h
      · exact arguments_sound hctx h hrest hacc
      · cases hv : checkOperand ctx (ctx.constants.apply t) with
        | error d =>
          rw [hv] at h
          cases h
        | ok v =>
          rw [hv] at h
          have hsound := checkOperand_sound hv hctx.labels (Bindings.apply_sound hctx.constants t)
          exact arguments_sound hctx h hrest (by
            rintro o (_ | ⟨_, ho⟩)
            · exact hsound
            · exact hacc o ho)
    · cases h

/-! ### Statements of one line -/

theorem instruction_spec {ctx : Context} {mnemonic : Token} {line : List Node} {s s' : Session}
    {items : List Item} (h : exec (instruction ctx mnemonic line) s = (.ok items, s'))
    (hctx : ctx.Sound lo hi) (hline : ∀ n ∈ line, TopSound lo hi n) :
    s'.labelNames = s.labelNames ∧ defsOf line = [] ∧ defIds items = [] ∧
      ∀ id ∈ refIds items, Made lo hi id := by
  unfold instruction at h
  obtain ⟨ops, s₁, h₁, h₂⟩ := bind_ok h
  obtain ⟨hops, rfl⟩ := lift_ok h₁
  obtain ⟨hdefs, hsound⟩ := operands_spec hctx.constants hops hline (by simp)
  obtain ⟨u, s₂, h₃, h₄⟩ := bind_ok h₂
  have hs₂ := Session.emit_labels h₃
  split at h₄
  · obtain ⟨rfl, rfl⟩ := pure_ok h₄
    exact ⟨hs₂, hdefs, rfl, by simp [refIds, Item.refId?]⟩
  · rename_i op
    obtain ⟨o, s₃, h₅, h₆⟩ := bind_ok h₄
    obtain ⟨ho, rfl⟩ := lift_ok h₅
    obtain ⟨rfl, rfl⟩ := pure_ok h₆
    have hosound := checkOperand_sound ho hctx.labels (hsound op (by simp))
    refine ⟨hs₂, hdefs, rfl, ?_⟩
    cases o with
    | token t => simp [refIds, Item.refId?]
    | label l =>
      simp only [refIds, Item.refId?, List.filterMap_cons, List.filterMap_nil, List.mem_singleton]
      rintro id rfl
      exact hosound
  · exact (fail_ok h₄).elim

theorem assign_spec {ctx ctx' : Context} {keyword : Token} {line : List Node} {s s' : Session}
    (h : exec (assign ctx keyword line) s = (.ok ctx', s'))
    (hctx : ctx.Sound lo hi) (hline : ∀ n ∈ line, TopSound lo hi n) :
    s'.labelNames = s.labelNames ∧ defsOf line = [] ∧ ctx'.Sound lo hi := by
  unfold assign at h
  split at h
  · exact (fail_ok h).elim
  · rename_i first values
    dsimp only at h
    split at h
    · rename_i t
      split at h
      · obtain ⟨name, s₁, h₁, h₂⟩ := bind_ok h
        obtain ⟨rfl, rfl⟩ := pure_ok h₁
        obtain ⟨vs, s₂, h₃, h₄⟩ := bind_ok h₂
        obtain ⟨hvs, rfl⟩ := lift_ok h₃
        obtain ⟨hdefs, hsound⟩ := operands_spec hctx.constants hvs
          (fun n hn => hline n (List.mem_cons_of_mem _ hn)) (by simp)
        have hline_defs : defsOf (.leaf (.token t) :: values) = [] := by
          rw [defsOf_cons_of_not_def (token_not_def t), hdefs]
        split at h₄
        · rename_i v
          obtain ⟨s₃, hs₃, h₅⟩ := Session.warnIf_ok h₄
          obtain ⟨rfl, rfl⟩ := pure_ok h₅
          exact ⟨hs₃, hline_defs, ⟨hctx.labels,
            Bindings.insert_sound hctx.constants (hsound v (by simp)), hctx.macros⟩⟩
        · exact (fail_ok h₄).elim
      · exact (fail_bind_ok h).elim
    · exact (fail_bind_ok h).elim

theorem includePackage_spec {config : Config} {ctx : Context} {keyword : Token}
    {line : List Node} {s s' : Session} {u : Unit}
    (h : exec (includePackage config ctx keyword line) s = (.ok u, s')) :
    s'.labelNames = s.labelNames ∧ defsOf line = [] := by
  have hkeeps : KeepsLabels (includePackage config ctx keyword line) fun _ => True := by
    unfold includePackage
    dsimp only
    with_reducible repeat' first
      | apply keepsLabels_pure | exact keepsLabels_fail _ | exact keepsLabels_lift _
      | exact keepsLabels_get | exact Session.keepsLabels_warn _
      | exact keepsLabels_modify (fun _ => rfl) | apply KeepsLabels.bind | split | intro _ | exact True.intro
  refine ⟨(hkeeps h).1, ?_⟩
  unfold includePackage at h
  split at h
  · dsimp only at h
    split at h
    · rfl
    · exact (fail_bind_ok h).elim
  · exact (fail_ok h).elim

theorem writeString_spec {ctx : Context} {keyword : Token} {line : List Node} {s s' : Session}
    {items : List Item} (h : exec (writeString ctx keyword line) s = (.ok items, s'))
    (hctx : ctx.Sound lo hi) (hline : ∀ n ∈ line, TopSound lo hi n) :
    s'.labelNames = s.labelNames ∧ defsOf line = [] ∧ defIds items = [] ∧ refIds items = [] := by
  have hkeeps : KeepsLabels (writeString ctx keyword line)
      fun items => defIds items = [] ∧ refIds items = [] := by
    unfold writeString
    dsimp only
    with_reducible repeat' first
      | apply keepsLabels_pure | exact keepsLabels_fail _ | exact keepsLabels_lift _
      | exact Session.keepsLabels_emit _ _ | apply KeepsLabels.bind | split | intro _ | exact True.intro
    all_goals simp [defIds, refIds, Item.defId?, Item.refId?, List.filterMap_flatMap]
  obtain ⟨hs, hdefs, hrefs⟩ := hkeeps h
  unfold writeString at h
  obtain ⟨ops, s₁, h₁, -⟩ := bind_ok h
  obtain ⟨hops, -⟩ := lift_ok h₁
  exact ⟨hs, (operands_spec hctx.constants hops hline (by simp)).1, hdefs, hrefs⟩

/-! ### Loops and macro calls -/

theorem loopVariables_leaves {keyword : Token} : ∀ {ns : List Node} {acc vars : List Token}
    {r : {r : List Node // r.length ≤ ns.length}},
    loopVariables keyword ns acc = .ok (vars, r) → Leaves ns r.1
  | [], _, _, _, h => by simp [loopVariables] at h
  | n :: rest, acc, vars, r, h => by
    unfold loopVariables at h
    split at h
    · rename_i t
      split at h
      · cases h
      · split at h
        · cases h
          exact Leaves.cons (token_not_def t) (Leaves.refl rest)
        · split at h
          · cases h
          · split at h
            · rename_i vs r' _ heq
              cases h
              exact Leaves.cons (token_not_def t) (loopVariables_leaves heq)
            · cases h
    · cases h

theorem loopRange_leaves {ctx : Context} : ∀ {ns : List Node} {acc range : List Token}
    {r : {r : List Node // r.length ≤ ns.length}},
    loopRange ctx ns acc = .ok (range, r) → Leaves ns r.1
  -- each case reads the run off by evaluation, so that no equation of `loopRange` is stated
  | [], _, _, _, h => by
    cases h
    exact Leaves.refl []
  | .group .. :: _, _, _, _, h => by
    cases h
    exact Leaves.refl _
  | .leaf (.token t) :: rest, acc, range, r, h => by
    change (if t.isNewline then _ else _) = _ at h
    split at h
    · cases h
      exact Leaves.refl _
    · split at h
      · split at h
        · rename_i vs r' _ heq
          cases h
          exact Leaves.cons (token_not_def t) (loopRange_leaves heq)
        · cases h
      · cases h
  | .leaf (.labelDef _) :: _, _, _, _, h => by cases h
  | .leaf (.labelRef _) :: _, _, _, _, h => by cases h

section Descending

variable {descend : Descend} (hd : Descends lo descend)
include hd

theorem loop_spec {ctx : Context} {keyword : Token} {ns : List Node} {s s' : Session}
    {items : List Item} {r : {r : List Node // r.length ≤ ns.length}}
    (h : exec (loop descend ctx keyword ns) s = (.ok (items, r), s'))
    (hctx : ctx.Sound lo s.labelNames.size) (hns : ∀ n ∈ ns, TopSound lo s.labelNames.size n)
    (hlo : lo ≤ s.labelNames.size) : Tied lo s s' items ∧ Leaves ns r.1 := by
  unfold loop at h
  obtain ⟨⟨vars, afterIn, h1⟩, s₁, h₁, h₂⟩ := bind_ok h
  obtain ⟨hvars, rfl⟩ := lift_ok h₁
  have hleaves₁ := loopVariables_leaves hvars
  dsimp only at h₂
  obtain ⟨-, h₃⟩ := Session.throwIf_ok h₂
  obtain ⟨⟨range, afterRange, h2⟩, s₂, h₄, h₅⟩ := bind_ok h₃
  obtain ⟨hrange, rfl⟩ := lift_ok h₄
  have hleaves₂ := loopRange_leaves hrange
  split at h₅
  · rename_i body sp ln rest hr
    dsimp only at hr h₅ hleaves₁ hleaves₂
    subst hr
    obtain ⟨values, s₃, h₆, h₇⟩ := bind_ok h₅
    obtain ⟨-, rfl⟩ := lift_ok h₆
    obtain ⟨acc, s₄, h₈, h₉⟩ := bind_ok h₇
    obtain ⟨heq, rfl⟩ := pure_ok h₉
    cases heq
    have hleaves : Leaves ns rest :=
      hleaves₁.trans (hleaves₂.trans (Leaves.cons group_not_def (Leaves.refl rest)))
    have hbody : ∀ c ∈ body, Node.Sound lo s.labelNames.size c := by
      have hgroup := (hns _ (hleaves₁.subset _ (hleaves₂.subset _ List.mem_cons_self))).sound
        group_not_def
      exact Tree.every_group.1 hgroup
    have hpasses := forIn_inv (fun s₁ (acc : Array Item) => Tied lo s s₁ acc.toList)
      (fun vs _ acc step s₁ s₂ hacc hstep => by
        obtain ⟨out, s₃, h₁₀, h₁₁⟩ := bind_ok hstep
        obtain ⟨rfl, rfl⟩ := pure_ok h₁₁
        have hgrows := hacc.grows
        have hbinds : (Bindings.ofList ((vars.zip vs).map fun p =>
            (p.1.text, Operand.token (p.1.withText p.2)))).Sound lo s₁.labelNames.size :=
          Bindings.ofList_sound fun p hp => by
            obtain ⟨⟨v, x⟩, -, rfl⟩ := List.mem_map.1 hp
            trivial
        have hout := hd keyword _ _ s₁ s₃ out
          (Context.child_sound (hctx.mono hgrows) (hctx.macros.mono hgrows))
          (fun c hc => by
            obtain ⟨b, hb, rfl⟩ := List.mem_map.1 hc
            exact Bindings.rewrite_sound hbinds ((hbody b hb).mono hgrows))
          (by omega) h₁₀
        simpa only [ForInStep.value, Array.toList_appendList] using hacc.append hout)
      (Tied.of_labels (s := s) rfl rfl (by simp)) h₈
    exact ⟨hpasses, hleaves⟩
  · exact (fail_ok h₅).elim

theorem call_spec {ctx : Context} {name : Token} {ns : List Node} {s s' : Session}
    {items : List Item} {r : {r : List Node // r.length ≤ ns.length}}
    (h : exec (call descend ctx name ns) s = (.ok (items, r), s'))
    (hctx : ctx.Sound lo s.labelNames.size) (hns : ∀ n ∈ ns, TopSound lo s.labelNames.size n)
    (hlo : lo ≤ s.labelNames.size) : Tied lo s s' items ∧ Leaves ns r.1 := by
  unfold call at h
  split at h
  · rename_i args sp ln rest
    obtain ⟨values, s₁, h₁, h₂⟩ := bind_ok h
    obtain ⟨hvalues, rfl⟩ := lift_ok h₁
    have hargs : ∀ c ∈ args, Node.Sound lo s.labelNames.size c :=
      Tree.every_group.1 ((hns _ List.mem_cons_self).sound group_not_def)
    have hvs := arguments_sound hctx hvalues hargs (by simp)
    split at h₂
    · exact (fail_ok h₂).elim
    · rename_i m hm
      have hsoundm := MacroTable.find?_sound hctx.macros hm
      obtain ⟨out, s₂, h₃, h₄⟩ := bind_ok h₂
      obtain ⟨heq, rfl⟩ := pure_ok h₄
      cases heq
      have hbinds : (Bindings.ofList (m.params.zip values)).Sound lo s.labelNames.size :=
        Bindings.ofList_sound fun p hp => hvs p.2 (List.of_mem_zip hp).2
      refine ⟨hd name _ _ s s₂ _ (Context.child_sound hctx (MacroTable.forBody_sound hsoundm))
        (fun c hc => ?_) hlo h₃, ?_⟩
      · obtain ⟨b, hb, rfl⟩ := List.mem_map.1 hc
        exact Bindings.rewrite_sound hbinds (hsoundm.body b hb)
      · exact Leaves.cons group_not_def (Leaves.refl rest)
  · exact (fail_ok h).elim

/-- A statement is a label definition, given back as it is; or it defines no label of its run,
ties its items, and leaves the rest of its run. The context after it stays sound. -/
theorem statement_tied {config : Config} {ctx ctx' : Context} {n : Node} {rest : List Node}
    {s s' : Session} {items : List Item} {r : {r : List Node // r.length ≤ rest.length}}
    (h : exec (statement config descend ctx n rest) s = (.ok (items, ctx', r), s'))
    (hctx : ctx.Sound lo s.labelNames.size) (hrest : ∀ m ∈ rest, TopSound lo s.labelNames.size m)
    (hlo : lo ≤ s.labelNames.size) :
    ctx'.Sound lo s'.labelNames.size ∧
      ((∃ l, n = .leaf (.labelDef l) ∧ items = [.label l] ∧ s' = s ∧ r.1 = rest) ∨
        ((∀ l, n ≠ .leaf (.labelDef l)) ∧ Tied lo s s' items ∧ Leaves rest r.1)) := by
  unfold statement at h
  split at h
  · rename_i l
    obtain ⟨heq, rfl⟩ := pure_ok h
    cases heq
    exact ⟨hctx, .inl ⟨l, rfl, rfl, rfl, rfl⟩⟩
  · exact (fail_ok h).elim
  · exact (fail_ok h).elim
  · rename_i t
    have hnd := token_not_def t
    split at h
    · -- a line end
      obtain ⟨heq, rfl⟩ := pure_ok h
      cases heq
      exact ⟨hctx, .inr ⟨hnd, Tied.of_labels rfl rfl (by simp), Leaves.refl rest⟩⟩
    · dsimp only at h
      split at h
      case h_2 => exact (fail_bind_ok h).elim
      obtain ⟨head, s₁, h₁, h₂⟩ := bind_ok h
      obtain ⟨rfl, rfl⟩ := pure_ok h₁
      have hline : ∀ m ∈ (restOfLine rest).1, TopSound lo s.labelNames.size m :=
        fun m hm => hrest m (mem_restOfLine hm)
      have hlineStmt : ∀ {c : Context} {xs : List Item} {s₂ : Session},
          s₂.labelNames = s.labelNames → defsOf (restOfLine rest).1 = [] → defIds xs = [] →
          (∀ id ∈ refIds xs, Made lo s.labelNames.size id) → c.Sound lo s.labelNames.size →
          c.Sound lo s₂.labelNames.size ∧ Tied lo s s₂ xs ∧ Leaves rest (restOfLine rest).2 :=
        fun hs hdefs hxs hrefs hc => ⟨by rw [hs]; exact hc, Tied.of_labels hs hxs hrefs,
          leaves_restOfLine hdefs⟩
      split at h₂
      · split at h₂
        · -- `FOR`
          obtain ⟨⟨xs, r₁⟩, s₂, h₃, h₄⟩ := bind_ok h₂
          obtain ⟨heq, rfl⟩ := pure_ok h₄
          cases heq
          obtain ⟨htied, hleaves⟩ := loop_spec hd h₃ hctx hrest hlo
          exact ⟨hctx.mono htied.grows, .inr ⟨hnd, htied, hleaves⟩⟩
        · -- `ASSIGN`
          obtain ⟨c, s₂, h₃, h₄⟩ := bind_ok h₂
          obtain ⟨heq, rfl⟩ := pure_ok h₄
          cases heq
          obtain ⟨hs, hdefs, hc⟩ := assign_spec h₃ hctx hline
          obtain ⟨hc', htied, hleaves⟩ := hlineStmt hs hdefs defIds_nil (fun _ h => by simp at h) hc
          exact ⟨hc', .inr ⟨hnd, htied, hleaves⟩⟩
        · -- `INCLUDE`
          obtain ⟨u, s₂, h₃, h₄⟩ := bind_ok h₂
          obtain ⟨heq, rfl⟩ := pure_ok h₄
          cases heq
          obtain ⟨hs, hdefs⟩ := includePackage_spec h₃
          obtain ⟨hc', htied, hleaves⟩ := hlineStmt hs hdefs defIds_nil (fun _ h => by simp at h) hctx
          exact ⟨hc', .inr ⟨hnd, htied, hleaves⟩⟩
        · -- `__WRITE_STR__`
          obtain ⟨xs, s₂, h₃, h₄⟩ := bind_ok h₂
          obtain ⟨heq, rfl⟩ := pure_ok h₄
          cases heq
          obtain ⟨hs, hdefs, hxs, hrefs⟩ := writeString_spec h₃ hctx hline
          obtain ⟨hc', htied, hleaves⟩ := hlineStmt hs hdefs hxs (by simp [hrefs]) hctx
          exact ⟨hc', .inr ⟨hnd, htied, hleaves⟩⟩
        · exact (fail_ok h₂).elim
      · split at h₂
        · -- an instruction
          obtain ⟨xs, s₂, h₃, h₄⟩ := bind_ok h₂
          obtain ⟨heq, rfl⟩ := pure_ok h₄
          cases heq
          obtain ⟨hs, hdefs, hxs, hrefs⟩ := instruction_spec h₃ hctx hline
          obtain ⟨hc', htied, hleaves⟩ := hlineStmt hs hdefs hxs hrefs hctx
          exact ⟨hc', .inr ⟨hnd, htied, hleaves⟩⟩
        · split at h₂
          · -- a macro call
            obtain ⟨⟨xs, r₁⟩, s₂, h₃, h₄⟩ := bind_ok h₂
            obtain ⟨heq, rfl⟩ := pure_ok h₄
            cases heq
            obtain ⟨htied, hleaves⟩ := call_spec hd h₃ hctx hrest hlo
            exact ⟨hctx.mono htied.grows, .inr ⟨hnd, htied, hleaves⟩⟩
          · split at h₂ <;> exact (fail_ok h₂).elim

end Descending

end Expansion

end PagedAsm
