import PagedAsm.Proofs.Expansion.Steps
import PagedAsm.Proofs.Expansion.Sound

/-!
# Gathering the definitions of a run

Before its statements, a run takes out its macro definitions and gathers its labels. Taking out
macros keeps the label count and some of the nodes, and adds macros whose bodies are groups of
the run (`macros_spec`). Gathering labels makes one label for each word `name:` at the top of
the run, numbered in order from the label count (`defineLabels_spec`), and puts the definitions
in place of those words (`labels_spec`): the run then defines exactly the labels just made, in
order.
-/

namespace PagedAsm

namespace LabelScope

theorem find?_define_self (sc : LabelScope) (name : String) (id : Nat) :
    (sc.define name id).1.find? name = some id := by
  unfold define
  split <;> simp [find?]

theorem find?_define_ne (sc : LabelScope) {name name' : String} (h : name' ≠ name) (id : Nat) :
    (sc.define name id).1.find? name' = sc.find? name' := by
  unfold define
  split
  · rename_i heq
    simp [find?, heq, Ne.symm h]
  · rename_i level outer heq
    have hlevel : ((name, id) :: level.filter (·.1 != name)).find? (·.1 == name') =
        level.find? (·.1 == name') := by
      have hbeq : (name == name') = false := beq_false_of_ne (Ne.symm h)
      rw [List.find?_cons, List.find?_filter, hbeq]
      dsimp only
      congr 1
      funext e
      by_cases he : e.1 = name' <;> simp [he, h]
    simp [find?, heq, List.findSome?_cons, hlevel]

end LabelScope

namespace Discovery

open Expand

/-- The names a run defines as labels, in order: its top-level words `name:`. -/
def definedNames (nodes : List Node) : List String :=
  nodes.filterMap fun
    | .leaf (.token t) => definedName? t
    | _ => none

/-- The label definitions at the top of a run, in order. -/
def defSites (nodes : List Node) : List LabelSite :=
  nodes.filterMap fun
    | .leaf (.labelDef l) => some l
    | _ => none

/-- The labels defined at the top of a run, in order. -/
def defsOf (nodes : List Node) : List Nat := (defSites nodes).map LabelSite.id

@[simp] theorem definedNames_nil : definedNames [] = [] := rfl

@[simp] theorem defSites_nil : defSites [] = [] := rfl

@[simp] theorem defSites_labelDef (l : LabelSite) (rest : List Node) :
    defSites (.leaf (.labelDef l) :: rest) = l :: defSites rest := rfl

theorem defSites_cons_of_not_def {n : Node} (h : ∀ l, n ≠ .leaf (.labelDef l))
    (rest : List Node) : defSites (n :: rest) = defSites rest := by
  unfold defSites
  rw [List.filterMap_cons]
  split
  · rfl
  · rename_i l heq
    split at heq
    · exact absurd rfl (h _)
    · cases heq

@[simp] theorem defsOf_nil : defsOf [] = [] := rfl

theorem defsOf_append (ns ms : List Node) : defsOf (ns ++ ms) = defsOf ns ++ defsOf ms := by
  simp [defsOf, defSites, List.filterMap_append]

@[simp] theorem defsOf_labelDef (l : LabelSite) (rest : List Node) :
    defsOf (.leaf (.labelDef l) :: rest) = l.id :: defsOf rest := rfl

theorem defsOf_cons_of_not_def {n : Node} (h : ∀ l, n ≠ .leaf (.labelDef l)) (rest : List Node) :
    defsOf (n :: rest) = defsOf rest := by
  rw [defsOf, defSites_cons_of_not_def h, defsOf]

variable {lo : Nat}

/-! ### Macro definitions -/

theorem readMacro_spec {visible : MacroTable} {keyword : Token} {rest : List Node} {m : Macro}
    (h : readMacro visible keyword rest = .ok m) :
    m.visible = visible.macros ∧ ∃ b s l, Tree.group b m.body s l ∈ rest := by
  unfold readMacro at h
  split at h
  · rename_i name more
    split at h
    · cases h
    · split at h
      · rename_i params sp₁ l₁ more'
        split at h
        · rename_i body sp₂ l₂ tail
          cases hp : parameters name.text params [] with
          | error d =>
            rw [hp] at h
            cases h
          | ok ps =>
            rw [hp] at h
            cases h
            exact ⟨rfl, .curly, sp₂, l₂, by simp⟩
        · cases h
      · cases h
  · cases h

/-- Taking out the macro definitions of a run makes no label, keeps nodes of the run, and adds
sound macros to a sound table. -/
theorem macros_spec {set : InstructionSet} :
    ∀ (k : Nat) {table : MacroTable} {nodes acc : List Node} {s s' : Session}
      {table' : MacroTable} {nodes' : List Node}, nodes.length ≤ k →
    exec (macros set table nodes acc) s = (.ok (table', nodes'), s') →
    s'.labelNames = s.labelNames ∧ (∀ n ∈ nodes', n ∈ nodes ∨ n ∈ acc) ∧
      ∀ lo hi, table.Sound lo hi → (∀ n ∈ nodes, n.Sound lo hi) → table'.Sound lo hi := by
  intro k
  -- on a bound of the length of the run: a definition is skipped with its body
  induction k with
  | zero =>
    intro table nodes acc s s' table' nodes' hk h
    rw [List.length_eq_zero_iff.1 (Nat.le_zero.1 hk), macros.eq_def] at h
    obtain ⟨heq, rfl⟩ := pure_ok h
    cases heq
    exact ⟨rfl, fun n hn => .inr (List.mem_reverse.1 hn), fun _ _ ht _ => ht⟩
  | succ k ih =>
  intro table nodes acc s s' table' nodes' hk h
  rw [macros.eq_def] at h
  split at h
  · obtain ⟨heq, rfl⟩ := pure_ok h
    cases heq
    exact ⟨rfl, fun n hn => .inr (List.mem_reverse.1 hn), fun _ _ ht _ => ht⟩
  · rename_i n rest
    split at h
    · rename_i t
      split at h
      · dsimp only at h
        split at h
        · rename_i m hread
          obtain ⟨_, s₁, h₁, h₂⟩ := bind_ok h
          obtain ⟨rfl, rfl⟩ := pure_ok h₁
          obtain ⟨hvis, b, sp, l, hgroup⟩ := readMacro_spec hread
          obtain ⟨s₂, hs₂, h₃⟩ := Session.warnIf_ok h₂
          have h₄ : ∃ s₃ : Session, s₃.labelNames = s₂.labelNames ∧
              exec (macros set (table.insert m).1 (rest.drop 3) acc) s₃ =
                (.ok (table', nodes'), s') := by
            split at h₃
            · exact Session.warn_then_ok h₃
            · exact Session.warnIf_ok h₃
          obtain ⟨s₃, hs₃, h₅⟩ := h₄
          obtain ⟨hlabels, hnodes, htable⟩ :=
            ih (by simp only [List.length_cons, List.length_drop] at hk ⊢; omega) h₅
          refine ⟨by rw [hlabels, hs₃, hs₂], fun x hx => ?_, fun lo hi ht hns => htable lo hi ?_ ?_⟩
          · rcases hnodes x hx with hx | hx
            · exact .inl (List.mem_cons_of_mem _ (List.mem_of_mem_drop hx))
            · exact .inr hx
          · apply MacroTable.insert_sound ht
            refine .intro (fun c hc => ?_) (by rw [hvis]; exact ht)
            have hg := hns _ (List.mem_cons_of_mem _ hgroup)
            exact (Tree.every_group.1 hg) c hc
          · intro x hx
            exact hns x (List.mem_cons_of_mem _ (List.mem_of_mem_drop hx))
        · obtain ⟨_, _, h₁, -⟩ := bind_ok h
          exact (throw_ok h₁).elim
      · obtain ⟨hlabels, hnodes, htable⟩ := ih (by simp at hk; omega) h
        refine ⟨hlabels, fun x hx => ?_, fun lo hi ht hns => htable lo hi ht
          (fun x hx => hns x (List.mem_cons_of_mem _ hx))⟩
        rcases hnodes x hx with hx | hx
        · exact .inl (List.mem_cons_of_mem _ hx)
        · rcases List.mem_cons.1 hx with rfl | hx
          · exact .inl List.mem_cons_self
          · exact .inr hx
    · obtain ⟨hlabels, hnodes, htable⟩ := ih (by simp at hk; omega) h
      refine ⟨hlabels, fun x hx => ?_, fun lo hi ht hns => htable lo hi ht
        (fun x hx => hns x (List.mem_cons_of_mem _ hx))⟩
      rcases hnodes x hx with hx | hx
      · exact .inl (List.mem_cons_of_mem _ hx)
      · rcases List.mem_cons.1 hx with rfl | hx
        · exact .inl List.mem_cons_self
        · exact .inr hx

/-! ### Label definitions -/

theorem definedNames_cons_of_not_token {n : Node} (h : ∀ t, n ≠ .leaf (.token t))
    (rest : List Node) : definedNames (n :: rest) = definedNames rest := by
  unfold definedNames
  rw [List.filterMap_cons]
  split
  · rfl
  · rename_i name heq
    split at heq
    · exact absurd rfl (h _)
    · cases heq

theorem definedNames_token (t : Token) (rest : List Node) :
    definedNames (.leaf (.token t) :: rest) = (definedName? t).toList ++ definedNames rest := by
  cases h : definedName? t <;> simp [definedNames, h]

/-- Each name of the sites is found in the scope as the label of a site of that name. -/
def FindsOwn (scope : LabelScope) (sites : List LabelSite) : Prop :=
  ∀ l ∈ sites, ∃ l' ∈ sites, l'.name = l.name ∧ scope.find? l.name = some l'.id

theorem FindsOwn.define {scope : LabelScope} {sites : List LabelSite} (h : FindsOwn scope sites)
    (d : LabelSite) : FindsOwn (scope.define d.name d.id).1 (d :: sites) := by
  intro l hl
  by_cases hname : l.name = d.name
  · exact ⟨d, List.mem_cons_self, hname.symm, by rw [hname, LabelScope.find?_define_self]⟩
  · rcases List.mem_cons.1 hl with rfl | hl
    · exact absurd rfl hname
    · obtain ⟨l', hl', hn, hf⟩ := h l hl
      exact ⟨l', List.mem_cons_of_mem _ hl', hn, by rw [LabelScope.find?_define_ne scope hname, hf]⟩

/-- Gathering the labels of a run makes one label for each word `name:` at its top, numbered in
order from the label count; the sites come out last first, and the scope, sound before, is sound
for the labels made. -/
theorem defineLabels_spec : ∀ {nodes : List Node} {scope : LabelScope} {acc : List LabelSite}
    {s s' : Session} {scope' : LabelScope} {acc' : List LabelSite},
    exec (defineLabels scope nodes acc) s = (.ok (scope', acc'), s') →
    ∃ sites : List LabelSite, acc' = sites.reverse ++ acc ∧
      sites.map LabelSite.id = List.range' s.labelNames.size sites.length ∧
      sites.map LabelSite.name = definedNames nodes ∧
      s'.labelNames.size = s.labelNames.size + sites.length ∧
      (∀ lo, scope.Sound lo s.labelNames.size → lo ≤ s.labelNames.size →
        scope'.Sound lo s'.labelNames.size) ∧
      (FindsOwn scope acc → FindsOwn scope' acc')
  | [], scope, acc, s, s', scope', acc', h => by
    obtain ⟨heq, rfl⟩ := pure_ok h
    cases heq
    exact ⟨[], by simp, by simp, by simp, by simp, fun _ h _ => h, id⟩
  | n :: rest, scope, acc, s, s', scope', acc', h => by
    unfold defineLabels at h
    split at h
    · rename_i t
      split at h
      · rename_i hname
        obtain ⟨sites, h1, h2, h3, h4, h5, h6⟩ := defineLabels_spec h
        exact ⟨sites, h1, h2, by rw [h3, definedNames_token, hname]; rfl, h4, h5, h6⟩
      · rename_i name hname
        dsimp only at h
        obtain ⟨-, h₁⟩ := Session.throwIf_ok h
        obtain ⟨id, s₁, h₂, h₃⟩ := bind_ok h₁
        obtain ⟨rfl, rfl⟩ : s.labelNames.size = id ∧ _ = s₁ := by simpa using h₂
        obtain ⟨s₂, hs₂, h₄⟩ := Session.warnIf_ok h₃
        obtain ⟨sites, h1, h2, h3, h4, h5, h6⟩ := defineLabels_spec h₄
        have hsize : s₂.labelNames.size = s.labelNames.size + 1 := by simp [hs₂]
        refine ⟨⟨s.labelNames.size, name, t.span, t.line⟩ :: sites, by simp [h1], ?_, ?_, ?_, ?_,
          fun hf => h6 (hf.define ⟨s.labelNames.size, name, t.span, t.line⟩)⟩
        · rw [List.map_cons, h2, hsize, List.length_cons, List.range'_succ]
        · rw [List.map_cons, h3, definedNames_token, hname]
          rfl
        · rw [h4, hsize, List.length_cons]
          omega
        · intro lo hscope hlo
          refine h5 lo ?_ (by omega)
          rw [hsize]
          exact LabelScope.define_sound (hscope.mono (by omega)) ⟨hlo, by omega⟩
    · obtain ⟨sites, h1, h2, h3, h4, h5, h6⟩ := defineLabels_spec h
      rename_i hn
      exact ⟨sites, h1, h2, by rw [h3, definedNames_cons_of_not_token (fun t => hn t)], h4, h5, h6⟩

theorem resolveReference_sound {scope : LabelScope} {hi : Nat} (h : scope.Sound lo hi)
    (t : Token) : (resolveReference scope t).Sound lo hi := by
  unfold resolveReference
  split
  · split
    · rename_i id hid
      exact LabelScope.find?_sound h hid
    · trivial
  · trivial

theorem resolveReference_not_def (scope : LabelScope) (t : Token) (l : LabelSite) :
    resolveReference scope t ≠ .labelDef l := by
  unfold resolveReference
  split
  · split <;> simp
  · simp

theorem tie_def (scope : LabelScope) {t : Token} {name : String} (h : definedName? t = some name)
    (d : LabelSite) (ds : List LabelSite) (rest : List Node) :
    tie scope (d :: ds) (.leaf (.token t) :: rest) = .leaf (.labelDef d) :: tie scope ds rest := by
  simp only [tie, h]

theorem tie_ref (scope : LabelScope) {t : Token} {sites : List LabelSite}
    (h : definedName? t = none ∨ sites = []) (rest : List Node) :
    tie scope sites (.leaf (.token t) :: rest) =
      .leaf (resolveReference scope t) :: tie scope sites rest := by
  rcases h with h | rfl
  · simp only [tie, h]
  · cases hd : definedName? t <;> simp only [tie, hd]

theorem tie_other (scope : LabelScope) {n : Node} (h : ∀ t, n ≠ .leaf (.token t))
    (sites : List LabelSite) (rest : List Node) :
    tie scope sites (n :: rest) = n :: tie scope sites rest := by
  rcases n with ⟨t | l | l⟩ | ⟨b, cs, sp, ln⟩
  · exact absurd rfl (h t)
  all_goals rfl

theorem defSites_tie (scope : LabelScope) :
    ∀ (nodes : List Node) (sites : List LabelSite), (∀ n ∈ nodes, ∀ l, n ≠ .leaf (.labelDef l)) →
      sites.length = (definedNames nodes).length → defSites (tie scope sites nodes) = sites
  | [], sites, _, hlen => by
    simp only [definedNames_nil, List.length_nil, List.length_eq_zero_iff] at hlen
    subst hlen
    rfl
  | n :: rest, sites, hnodes, hlen => by
    have hrest := fun m hm => hnodes m (List.mem_cons_of_mem _ hm)
    rcases n with ⟨t | l | l⟩ | ⟨b, cs, sp, ln⟩
    · rw [definedNames_token] at hlen
      cases hname : definedName? t with
      | none =>
        rw [hname, Option.toList_none, List.nil_append] at hlen
        rw [tie_ref scope (.inl hname), defSites_cons_of_not_def (fun l h =>
          resolveReference_not_def scope t l (Tree.leaf.inj h)), defSites_tie scope rest sites hrest hlen]
      | some name =>
        rw [hname] at hlen
        cases sites with
        | nil => simp at hlen
        | cons d ds =>
          simp only [Option.toList_some, List.singleton_append, List.length_cons,
            Nat.add_right_cancel_iff] at hlen
          rw [tie_def scope hname, defSites_labelDef, defSites_tie scope rest ds hrest hlen]
    · exact absurd rfl (hnodes _ List.mem_cons_self l)
    all_goals
      rw [definedNames_cons_of_not_token (fun t h => by cases h)] at hlen
      rw [tie_other scope (fun t h => by cases h), defSites_cons_of_not_def (fun l h => by cases h),
        defSites_tie scope rest sites hrest hlen]

theorem tie_topSound {hi : Nat} {scope : LabelScope} (hscope : scope.Sound lo hi) :
    ∀ {sites : List LabelSite} {nodes : List Node}, (∀ d ∈ sites, Made lo hi d.id) →
      (∀ n ∈ nodes, n.Sound lo hi) → ∀ n ∈ tie scope sites nodes, TopSound lo hi n
  | _, [], _, _ => by simp [tie]
  | sites, m :: rest, hsites, hnodes => by
    have hrest : ∀ x ∈ rest, x.Sound lo hi := fun x hx => hnodes x (List.mem_cons_of_mem _ hx)
    have href : ∀ t, TopSound lo hi (.leaf (resolveReference scope t)) :=
      fun t => .inr (Tree.every_leaf.2 (resolveReference_sound hscope t))
    rcases m with ⟨t | l | l⟩ | ⟨b, cs, sp, ln⟩
    · cases hname : definedName? t with
      | none =>
        rw [tie_ref scope (.inl hname), List.forall_mem_cons]
        exact ⟨href t, tie_topSound hscope hsites hrest⟩
      | some name =>
        cases sites with
        | nil =>
          rw [tie_ref scope (.inr rfl), List.forall_mem_cons]
          exact ⟨href t, tie_topSound hscope hsites hrest⟩
        | cons d ds =>
          rw [tie_def scope hname, List.forall_mem_cons]
          exact ⟨.inl ⟨d, rfl, hsites d List.mem_cons_self⟩,
            tie_topSound hscope (fun x hx => hsites x (List.mem_cons_of_mem _ hx)) hrest⟩
    · exact (hnodes _ List.mem_cons_self).elim
    all_goals
      rw [tie_other scope (fun t h => by cases h), List.forall_mem_cons]
      exact ⟨.inr (hnodes _ List.mem_cons_self), tie_topSound hscope hsites hrest⟩

theorem labels_ok {scope scope' : LabelScope} {nodes nodes' : List Node} {s s' : Session}
    (h : exec (labels scope nodes) s = (.ok (scope', nodes'), s')) :
    ∃ acc, exec (defineLabels scope nodes []) s = (.ok (scope', acc), s') ∧
      nodes' = tie scope' acc.reverse nodes := by
  unfold labels at h
  obtain ⟨⟨scope₁, acc⟩, s₁, h₁, h₂⟩ := bind_ok h
  obtain ⟨heq, rfl⟩ := pure_ok h₂
  cases heq
  exact ⟨acc, h₁, rfl⟩

/-- Gathering the labels of a run, in a sound scope, makes the labels of its words `name:`, puts
their definitions in their place, in order, and ties the other words soundly. -/
theorem labels_spec {scope scope' : LabelScope} {nodes nodes' : List Node} {s s' : Session}
    (h : exec (labels scope nodes) s = (.ok (scope', nodes'), s'))
    (hscope : scope.Sound lo s.labelNames.size) (hnodes : ∀ n ∈ nodes, n.Sound lo s.labelNames.size)
    (hlo : lo ≤ s.labelNames.size) :
    s.labelNames.size ≤ s'.labelNames.size ∧
      defsOf nodes' = List.range' s.labelNames.size (s'.labelNames.size - s.labelNames.size) ∧
      scope'.Sound lo s'.labelNames.size ∧ ∀ n ∈ nodes', TopSound lo s'.labelNames.size n := by
  obtain ⟨acc, h₁, rfl⟩ := labels_ok h
  obtain ⟨sites, hacc, hids, hnames, hsize, hsound, -⟩ := defineLabels_spec h₁
  rw [List.append_nil] at hacc
  subst hacc
  rw [List.reverse_reverse]
  have hsites : defSites (tie scope' sites nodes) = sites :=
    defSites_tie scope' nodes sites (fun n hn => (hnodes n hn).not_def)
      (by rw [← hnames, List.length_map])
  have hscope' := hsound lo hscope hlo
  refine ⟨by omega, ?_, hscope', ?_⟩
  · rw [defsOf, hsites, hids, hsize, Nat.add_sub_cancel_left]
  · refine tie_topSound hscope' (fun d hd => ?_) (fun n hn => (hnodes n hn).mono (by omega))
    have hmem : d.id ∈ List.range' s.labelNames.size sites.length := hids ▸ List.mem_map_of_mem hd
    rw [List.mem_range'_1] at hmem
    exact ⟨by omega, by omega⟩

theorem labels_find_own {scope scope' : LabelScope} {nodes nodes' : List Node} {s s' : Session}
    (h : exec (labels scope nodes) s = (.ok (scope', nodes'), s'))
    (hnodes : ∀ n ∈ nodes, ∀ l, n ≠ .leaf (.labelDef l)) :
    ∀ name ∈ definedNames nodes, ∃ l ∈ defSites nodes', l.name = name ∧
      scope'.find? name = some l.id ∧ Made s.labelNames.size s'.labelNames.size l.id := by
  obtain ⟨acc, h₁, rfl⟩ := labels_ok h
  obtain ⟨sites, hacc, hids, hnames, hsize, -, hfinds⟩ := defineLabels_spec h₁
  rw [List.append_nil] at hacc
  subst hacc
  rw [List.reverse_reverse]
  have hsites : defSites (tie scope' sites nodes) = sites :=
    defSites_tie scope' nodes sites hnodes (by rw [← hnames, List.length_map])
  intro name hname
  rw [← hnames] at hname
  obtain ⟨l, hl, rfl⟩ := List.mem_map.1 hname
  obtain ⟨l', hl', hn, hf⟩ := hfinds (fun _ h => by simp at h) l (List.mem_reverse.2 hl)
  have hl'' := List.mem_reverse.1 hl'
  have hmem : l'.id ∈ List.range' s.labelNames.size sites.length := hids ▸ List.mem_map_of_mem hl''
  rw [List.mem_range'_1] at hmem
  exact ⟨l', by rw [hsites]; exact hl'', hn, hf, by omega, by omega⟩

end Discovery

end PagedAsm
