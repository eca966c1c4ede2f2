import PagedAsm.Proofs.Expansion.Labels
import PagedAsm.Assembly.Compile

/-!
# The stages of a compilation

A compilation reads the text into a document, expands it, types the items and lays out the
typed code. Each stage has its own lemma here: how a successful compilation decomposes into its
stages (`assemble_ok`, `resolve_ok`), and how a compilation goes on once a stage is known
(`assemble_of_run`, `resolve_of_typed`). Expansion never reads whether the compiler optimises
(`run_optimise`), and typing never makes a synthetic instruction (`elements_written`).
-/

namespace PagedAsm

namespace Compilation

open Expand Expansion

/-- The program that the outcome of resolution makes, with the includes and warnings of the
session after it. -/
def programOf (r : Except Diagnostic (List Instruction) × Session) : Except Diagnostic Program :=
  r.1.map fun code => ⟨code, r.2.includes.toList, r.2.warnings.toList⟩

/-- The session with an event recorded. -/
def recorded (s : Session) (e : Event) : Session := { s with journal := s.journal.push e }

/-- The nodes expansion starts from. -/
def topNodes (doc : Document) : List Node := doc.children.map (Tree.mapLeaves Atom.token)

variable {config : Config} {doc : Document} {s s₁ s' : Session} {items : List Item}

theorem compile_of_read {source : List Char}
    (h : (tokenize source >>= Document.ofTokens) = .ok doc) :
    (compile config source).result = (exec (assemble config doc) {}).1 := by
  unfold compile
  rw [h]
  rfl

theorem compile_of_unread {source : List Char} {d : Diagnostic}
    (h : (tokenize source >>= Document.ofTokens) = .error d) :
    (compile config source).result = .error d := by
  unfold compile
  rw [h]

/-- A compilation that succeeds expanded the document and resolved the items. -/
theorem assemble_ok {prog : Program} (h : exec (assemble config doc) s = (.ok prog, s')) :
    ∃ items s₁ code s₂,
      exec (run config config.maxDepth Context.top (topNodes doc))
          (recorded s (.parsed doc.depth)) = (.ok items, s₁) ∧
      exec (resolve config items)
          (recorded s₁ (.expanded items.length s₁.labelNames.size)) = (.ok code, s₂) ∧
      prog = ⟨code, s₂.includes.toList, s₂.warnings.toList⟩ := by
  unfold assemble at h
  obtain ⟨_, s₀, h₀, h⟩ := bind_ok h
  simp only [Session.exec_note, Prod.mk.injEq] at h₀
  obtain ⟨-, rfl⟩ := h₀
  obtain ⟨items, s₁, h₁, h⟩ := bind_ok h
  obtain ⟨_, s₂, h₂, h⟩ := bind_ok h
  obtain ⟨rfl, rfl⟩ := pure_ok (by simpa using h₂)
  obtain ⟨_, s₃, h₃, h⟩ := bind_ok h
  simp only [Session.exec_note, Prod.mk.injEq] at h₃
  obtain ⟨-, rfl⟩ := h₃
  obtain ⟨code, s₄, h₄, h⟩ := bind_ok h
  obtain ⟨_, s₅, h₅, h⟩ := bind_ok h
  obtain ⟨rfl, rfl⟩ := pure_ok (by simpa using h₅)
  obtain ⟨_, s₆, h₆, h⟩ := bind_ok h
  simp only [Session.exec_note, Prod.mk.injEq] at h₆
  obtain ⟨-, rfl⟩ := h₆
  obtain ⟨rfl, -⟩ := pure_ok h
  exact ⟨items, s₁, code, s₄, h₁, h₄, rfl⟩

/-- Once the document is expanded, the compilation gives what resolution gives. -/
theorem assemble_of_run
    (h : exec (run config config.maxDepth Context.top (topNodes doc))
      (recorded s (.parsed doc.depth)) = (.ok items, s₁)) :
    (exec (assemble config doc) s).1 =
      programOf (exec (resolve config items) (recorded s₁ (.expanded items.length s₁.labelNames.size))) := by
  unfold assemble programOf
  simp only [recorded, topNodes] at h ⊢
  simp only [exec_bind, Session.exec_note, h, exec_get]
  rcases exec (resolve config items)
    { s₁ with journal := s₁.journal.push (.expanded items.length s₁.labelNames.size) } with
    ⟨_ | code, s₂⟩ <;> rfl

/-- Once the items are typed, resolution lays the typed code out. -/
theorem resolve_of_typed {typed : List Element}
    (h : exec (Typing.elements config.set items) s = (.ok typed, s₁)) :
    exec (resolve config items) s = (layout config s₁.labelNames typed, s₁) := by
  unfold resolve
  simp only [exec_bind, h, exec_get, exec_lift]

/-- A resolution that succeeds typed the items and laid the typed code out. -/
theorem resolve_ok {code : List Instruction} (h : exec (resolve config items) s = (.ok code, s')) :
    ∃ typed, exec (Typing.elements config.set items) s = (.ok typed, s') ∧
      layout config s'.labelNames typed = .ok code := by
  unfold resolve at h
  obtain ⟨typed, s₁, h₁, h⟩ := bind_ok h
  obtain ⟨_, s₂, h₂, h⟩ := bind_ok h
  obtain ⟨rfl, rfl⟩ := pure_ok (by simpa using h₂)
  obtain ⟨hlayout, rfl⟩ := lift_ok h
  exact ⟨typed, h₁, hlayout⟩

/-! ### Laying out typed code -/

/-- The typed code that layout places: with redundant loads dropped when optimising. -/
def optimised (config : Config) (typed : List Element) : List Element :=
  if config.optimise then Peephole.optimise config.set typed else typed

variable {names : Array String} {typed : List Element}

theorem layout_ok {code : List Instruction} (h : layout config names typed = .ok code) :
    Paging.unplaced? (Paging.excise names.size (optimised config typed)).2
        (Paging.excise names.size (optimised config typed)).1 = none ∧
      ∃ fixed, Paging.fixPages config.set (Paging.excise names.size (optimised config typed)).1
          (Paging.excise names.size (optimised config typed)).2 = .ok fixed ∧
        fixed.1[maxInstructions]? = none ∧ code = fixed.1.map (finish fixed.2) := by
  unfold layout at h
  dsimp only at h
  rw [← optimised] at h
  generalize optimised config typed = kept at h ⊢
  split at h
  · cases h
  rename_i hnone
  refine ⟨Option.eq_none_iff_forall_ne_some.2 fun x => hnone x.1 x.2, ?_⟩
  cases hfix : Paging.fixPages config.set (Paging.excise names.size kept).1
      (Paging.excise names.size kept).2 with
  | error d =>
    rw [hfix] at h
    cases h
  | ok fixed =>
    rw [hfix] at h
    simp only [bind, Except.bind] at h
    split at h
    · cases h
    · rename_i hsize
      refine ⟨fixed, rfl, Option.eq_none_iff_forall_ne_some.2 hsize, ?_⟩
      cases h
      rfl

theorem layout_of_placed
    (hplaced : Paging.unplaced? (Paging.excise names.size (optimised config typed)).2
      (Paging.excise names.size (optimised config typed)).1 = none) :
    (∀ d, Paging.fixPages config.set (Paging.excise names.size (optimised config typed)).1
        (Paging.excise names.size (optimised config typed)).2 = .error d →
      layout config names typed = .error d) ∧
    (∀ fixed p, Paging.fixPages config.set (Paging.excise names.size (optimised config typed)).1
        (Paging.excise names.size (optimised config typed)).2 = .ok fixed →
      fixed.1[maxInstructions]? = some p →
      layout config names typed = .error ⟨.programTooLarge, p.span, p.line⟩) ∧
    (∀ fixed, Paging.fixPages config.set (Paging.excise names.size (optimised config typed)).1
        (Paging.excise names.size (optimised config typed)).2 = .ok fixed →
      fixed.1[maxInstructions]? = none →
      layout config names typed = .ok (fixed.1.map (finish fixed.2))) := by
  unfold layout
  dsimp only
  rw [← optimised]
  generalize optimised config typed = kept at hplaced ⊢
  rw [hplaced]
  refine ⟨fun d hfix => ?_, fun fixed p hfix hsize => ?_, fun fixed hfix hsize => ?_⟩
  · simp only [hfix]
    rfl
  · simp only [hfix, bind, Except.bind, hsize]
    rfl
  · simp only [hfix, bind, Except.bind, hsize]
    rfl

theorem instruction_ok {set : InstructionSet} {m : Token} {o : Option Operand} {p : Pending}
    (h : exec (Typing.instruction set m o) s = (.ok p, s')) :
    p.mnemonic = m.text ∧ p.synthetic = false := by
  unfold Typing.instruction at h
  dsimp only at h
  split at h
  · obtain ⟨_, s₁, h₁, h₂⟩ := bind_ok h
    obtain ⟨rfl, rfl⟩ := pure_ok h₁
    obtain ⟨rfl, rfl⟩ := pure_ok h₂
    exact ⟨rfl, rfl⟩
  · obtain ⟨_, s₁, h₁, h₂⟩ := bind_ok h
    obtain ⟨rfl, rfl⟩ := pure_ok h₁
    obtain ⟨rfl, rfl⟩ := pure_ok h₂
    exact ⟨rfl, rfl⟩
  · split at h
    · obtain ⟨_, s₁, h₁, h₂⟩ := bind_ok h
      obtain ⟨rfl, rfl⟩ := pure_ok h₁
      split at h₂
      · split at h₂
        · obtain ⟨_, s₂, -, h₄⟩ := bind_ok h₂
          obtain ⟨rfl, rfl⟩ := pure_ok h₄
          exact ⟨rfl, rfl⟩
        · obtain ⟨rfl, rfl⟩ := pure_ok h₂
          exact ⟨rfl, rfl⟩
      · obtain ⟨rfl, rfl⟩ := pure_ok h₂
        exact ⟨rfl, rfl⟩
    · obtain ⟨_, _, h₁, -⟩ := bind_ok h
      exact (throw_ok h₁).elim

theorem elements_instructions {set : InstructionSet} : ∀ {items : List Item} {s s' : Session}
    {typed : List Element}, exec (Typing.elements set items) s = (.ok typed, s') →
    ∀ p, Element.instruction p ∈ typed →
      (∃ m o, Item.instruction m o ∈ items ∧ p.mnemonic = m.text) ∧ p.synthetic = false
  | [], s, s', typed, h => by
    unfold Typing.elements at h
    rw [List.mapM_nil] at h
    obtain ⟨rfl, -⟩ := pure_ok h
    simp
  | it :: rest, s, s', typed, h => by
    unfold Typing.elements at h
    rw [List.mapM_cons] at h
    obtain ⟨e, s₁, h₁, h₂⟩ := bind_ok h
    obtain ⟨es, s₂, h₃, h₄⟩ := bind_ok h₂
    obtain ⟨rfl, rfl⟩ := pure_ok h₄
    have hfirst : ∀ p, e = .instruction p →
        (∃ m o, Item.instruction m o ∈ it :: rest ∧ p.mnemonic = m.text) ∧ p.synthetic = false := by
      intro p hp
      cases it with
      | label l =>
        obtain ⟨rfl, rfl⟩ := pure_ok h₁
        cases hp
      | instruction m o =>
        obtain ⟨q, s₃, h₅, h₆⟩ := bind_ok h₁
        obtain ⟨rfl, rfl⟩ := pure_ok h₆
        cases hp
        obtain ⟨hm, hw⟩ := instruction_ok h₅
        exact ⟨⟨m, o, List.mem_cons_self, hm⟩, hw⟩
    intro p hp
    rcases List.mem_cons.1 hp with hp | hp
    · exact hfirst p hp.symm
    · obtain ⟨⟨m, o, hmem, hm⟩, hw⟩ := elements_instructions h₃ p hp
      exact ⟨⟨m, o, List.mem_cons_of_mem _ hmem, hm⟩, hw⟩

/-- Typing makes no synthetic instruction. -/
theorem elements_written {set : InstructionSet} {items : List Item} {s s' : Session}
    {typed : List Element} (h : exec (Typing.elements set items) s = (.ok typed, s')) :
    ∀ p, Element.instruction p ∈ typed → p.synthetic = false :=
  fun p hp => (elements_instructions h p hp).2

end Compilation

namespace Expansion

/-! ### Expansion does not read whether the compiler optimises -/

theorem statement_optimise (config : Config) (b : Bool) :
    statement { config with optimise := b } = statement config := rfl

theorem statements_optimise (config : Config) (b : Bool) (descend : Descend) :
    ∀ (ctx : Context) (nodes : List Node),
      statements { config with optimise := b } descend ctx nodes =
        statements config descend ctx nodes := by
  intro ctx nodes
  induction ctx, nodes using statements.induct with
  | case1 ctx => rw [statements.eq_1, statements.eq_1]
  | case2 ctx n rest ih =>
    rw [statements.eq_2, statements.eq_2, statement_optimise]
    congr
    funext r
    rcases r with ⟨items, ctx', r, hr⟩
    dsimp only
    rw [ih ctx' r hr]

/-- Expansion runs the same whether the compiler optimises or not. -/
theorem run_optimise (config : Config) (b : Bool) : ∀ (budget : Nat) (ctx : Context)
    (nodes : List Node), run { config with optimise := b } budget ctx nodes = run config budget ctx nodes
  | 0, ctx, nodes => by
    rw [run_eq, run_eq]
    simp only [statements_optimise]
    rfl
  | budget + 1, ctx, nodes => by
    rw [run_eq, run_eq]
    have hd : descendAt { config with optimise := b } (budget + 1) = descendAt config (budget + 1) := by
      funext site c ns
      exact run_optimise config b budget c ns
    simp only [statements_optimise, hd]

end Expansion

namespace Compilation
end Compilation

end PagedAsm
