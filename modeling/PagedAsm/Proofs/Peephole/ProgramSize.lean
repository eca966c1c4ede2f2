import PagedAsm.Proofs.Compilation.Stages
import PagedAsm.Proofs.Paging.Convergence

/-!
# How large the optimised program is

Dropping redundant loads happens before labels are placed and pages are fixed. Labels after a
dropped load move down, so a jump may need another ROM page than before, and page switches can
come in where none stood: the optimised program can be larger than the plain one
(`optimising_adds_page_switches`), and so it can exceed the size limit or move a label past
64 KiB where the plain one did not.

What the optimiser does keep (`optimiser_bounds_program`): it writes no more instructions than
the plain program, it puts at most one switch before each instruction with an address, and
when it fails, it fails only in the page fix-up, on an address past 64 KiB, or on the size
limit.
-/

namespace PagedAsm

/-- Whether a finished instruction has an address: a jump to a label, or any pointer. -/
def Instruction.hasAddress (set : InstructionSet) (i : Instruction) : Bool :=
  match i.kind with
  | .label => set.isJump i.mnemonic
  | .pointer => true
  | _ => false

namespace Paging

open Compilation

variable {set : InstructionSet}

theorem hasAddress_finish (placed : Placement) (p : Pending) :
    (finish placed p).hasAddress set = hasAddress set p := by
  cases harg : p.argument <;> simp [finish, Instruction.hasAddress, hasAddress, harg]

theorem countP_hasAddress_flatten {bs : List Block} (hwf : ∀ b ∈ bs, b.WF set) :
    (flatten bs).countP (hasAddress set) = (bs.map Block.insn).countP (hasAddress set) := by
  induction bs with
  | nil => rfl
  | cons b bs ih =>
    have hrest := ih (fun c hc => hwf c (by simp [hc]))
    obtain ⟨-, hsw⟩ := hwf b (by simp)
    rcases b with ⟨_ | s, x⟩
    · simp [flatten, Block.toList, List.countP_cons] at hrest ⊢
      omega
    · obtain ⟨page, harg, -⟩ := ((hsw s rfl).1).2.2
      have hs : hasAddress set s = false := by simp [hasAddress, harg]
      simp [flatten, Block.toList, List.countP_cons, hs] at hrest ⊢
      omega

/-! ### Placing the labels of code with loads dropped -/

theorem foldl_exciseStep_mem {id j : Nat} : ∀ (es : List Element) (acc : Array Pending × Placement),
    (es.foldl exciseStep acc).2[id]? = some (some j) →
    (∃ j', acc.2[id]? = some (some j')) ∨ Element.label id ∈ es
  | [], acc, h => .inl ⟨j, h⟩
  | e :: es, acc, h => by
    rw [List.foldl_cons] at h
    rcases foldl_exciseStep_mem es _ h with ⟨j', hj'⟩ | hmem
    · cases e with
      | instruction p => exact .inl ⟨j', hj'⟩
      | label l =>
        by_cases hl : l = id
        · exact .inr (by simp [hl])
        · simp only [exciseStep, Array.set!_eq_setIfInBounds, Array.getElem?_setIfInBounds,
            if_neg hl] at hj'
          exact .inl ⟨j', hj'⟩
    · exact .inr (List.mem_cons_of_mem _ hmem)

theorem excise_placed_iff {n : Nat} {es : List Element} {id : Nat} :
    (∃ j, (excise n es).2[id]? = some (some j)) ↔ id < n ∧ Element.label id ∈ es := by
  constructor
  · rintro ⟨j, hj⟩
    rw [excise_eq] at hj
    have hsize : (es.foldl exciseStep (#[], Array.replicate n none)).2.size = n := by
      clear hj
      suffices ∀ (es : List Element) (acc : Array Pending × Placement),
          (es.foldl exciseStep acc).2.size = acc.2.size by
        rw [this]
        exact Array.size_replicate
      intro es
      induction es with
      | nil => intro acc; rfl
      | cons e es ih => intro acc; rw [List.foldl_cons, ih, exciseStep_size]
    have hlt : id < n := by
      rw [← hsize]
      exact (Array.getElem?_eq_some_iff.1 hj).1
    rcases foldl_exciseStep_mem es _ hj with ⟨j', hj'⟩ | hmem
    · simp [Array.getElem?_replicate] at hj'
    · exact ⟨hlt, hmem⟩
  · rintro ⟨hlt, hmem⟩
    exact excise_placed hlt hmem

theorem placed_of_unplaced?_eq_none {placed : Placement} {code : List Pending}
    (h : unplaced? placed code = none) :
    ∀ p ∈ code, ∀ id, p.argument = .label id → ∃ j, placed[id]? = some (some j) := by
  intro p hp id hid
  unfold unplaced? at h
  have hp' := List.findSome?_eq_none_iff.1 h p hp
  simp only [hid] at hp'
  cases hget : placed[id]? with
  | none => simp [Array.getD_eq_getD_getElem?, hget] at hp'
  | some o =>
    cases o with
    | none => simp [Array.getD_eq_getD_getElem?, hget] at hp'
    | some j => exact ⟨j, rfl⟩

theorem excise_dropLoads_sublist (n : Nat) (typed : List Element) :
    (excise n (Peephole.dropLoads set none typed)).1.Sublist (excise n typed).1 := by
  rw [excise_fst, excise_fst]
  exact (Peephole.dropLoads_sublist set none typed).filterMap _

theorem unplaced?_dropLoads {n : Nat} {typed : List Element}
    (h : unplaced? (excise n typed).2 (excise n typed).1 = none) :
    unplaced? (excise n (Peephole.dropLoads set none typed)).2
      (excise n (Peephole.dropLoads set none typed)).1 = none := by
  apply unplaced?_eq_none
  intro p hp id hid
  have hp₀ : p ∈ (excise n typed).1 := (excise_dropLoads_sublist n typed).subset hp
  obtain ⟨hlt, hmem⟩ := excise_placed_iff.1 (placed_of_unplaced?_eq_none h p hp₀ id hid)
  exact excise_placed_iff.2 ⟨hlt, Peephole.label_mem_dropLoads set none typed hmem⟩

/-! ### Counting the laid-out program -/

theorem laid_out_counts {n : Nat} {typed : List Element}
    (htyped : ∀ p, Element.instruction p ∈ typed → p.synthetic = false)
    {fixed : List Pending × Placement}
    (hfix : fixPages set (excise n typed).1 (excise n typed).2 = .ok fixed) :
    (fixed.1.map (finish fixed.2)).countP (fun i => !i.synthetic) = (excise n typed).1.length ∧
      (fixed.1.map (finish fixed.2)).countP (Instruction.hasAddress set) =
        (excise n typed).1.countP (hasAddress set) ∧
      (fixed.1.map (finish fixed.2)).length ≤
        (excise n typed).1.length + (excise n typed).1.countP (hasAddress set) := by
  rcases fixed with ⟨code', placed'⟩
  have hex : excise n typed = ((excise n typed).1, (excise n typed).2) := rfl
  obtain ⟨bs, rfl, hins, hwf, -, -⟩ := fixPages_blocks htyped hex hfix
  have hlen : bs.length = (excise n typed).1.length := by rw [← hins, List.length_map]
  have haddr : Instruction.hasAddress set ∘ finish placed' = hasAddress set := by
    funext p
    exact hasAddress_finish placed' p
  refine ⟨?_, ?_, ?_⟩
  · rw [countP_written_finish, countP_flatten hwf, hlen]
  · rw [List.countP_map, haddr, countP_hasAddress_flatten hwf, hins]
  · have hle := flatten_length_le hwf
    rw [hins, hlen] at hle
    simpa using hle

end Paging

namespace Compilation

open Expand Expansion Paging

variable {c : Config} {names : Array String} {typed : List Element}

theorem layout_optimised {code : List Instruction}
    (htyped : ∀ p, Element.instruction p ∈ typed → p.synthetic = false)
    (h : layout { c with optimise := false } names typed = .ok code) :
    (∃ code', layout { c with optimise := true } names typed = .ok code' ∧
        code'.countP (fun i => !i.synthetic) ≤ code.countP (fun i => !i.synthetic) ∧
        code'.length ≤ code.countP (fun i => !i.synthetic) + code.countP (Instruction.hasAddress c.set)) ∨
      ∃ d, layout { c with optimise := true } names typed = .error d ∧
        ((∃ addr, d.problem = .addressTooLarge addr) ∨ d.problem = .programTooLarge) := by
  obtain ⟨hplaced, fixed, hfix, -, rfl⟩ := layout_ok h
  obtain ⟨hsyn, haddr, -⟩ := laid_out_counts htyped hfix
  have hsub := @excise_dropLoads_sublist c.set names.size typed
  have hkept : ∀ p, Element.instruction p ∈ Peephole.dropLoads c.set none typed →
      p.synthetic = false :=
    fun p hp => htyped p ((Peephole.dropLoads_sublist c.set none typed).subset hp)
  obtain ⟨herr, hbig, hfits⟩ := layout_of_placed
    (show unplaced? (excise names.size (optimised { c with optimise := true } typed)).2
      (excise names.size (optimised { c with optimise := true } typed)).1 = none
      from unplaced?_dropLoads hplaced)
  cases hfix' : fixPages c.set (excise names.size (Peephole.dropLoads c.set none typed)).1
      (excise names.size (Peephole.dropLoads c.set none typed)).2 with
  | error d =>
    have hwritten : ∀ x ∈ (excise names.size (Peephole.dropLoads c.set none typed)).1,
        x.synthetic = false := fun x hx => hkept x (mem_instructionsOf (by rwa [← excise_fst]))
    exact .inr ⟨d, herr d hfix', .inl (fixPages_error hwritten hfix')⟩
  | ok fixed' =>
    cases hmax : fixed'.1[maxInstructions]? with
    | some p => exact .inr ⟨_, hbig fixed' p hfix' hmax, .inr rfl⟩
    | none =>
      obtain ⟨hsyn', -, hlen'⟩ := laid_out_counts hkept hfix'
      refine .inl ⟨_, hfits fixed' hfix' hmax, ?_, ?_⟩
      · rw [hsyn', hsyn]
        exact hsub.length_le
      · rw [hsyn, haddr]
        exact Nat.le_trans hlen' (Nat.add_le_add hsub.length_le hsub.countP_le)

/-- What optimising keeps. When the plain compilation of a source succeeds, the optimised one
reads the same includes and warns the same, writes no more instructions and puts at most one
switch before each instruction with an address of the plain program; or it fails, and then
only on an address past 64 KiB or on the size limit. -/
theorem optimiser_bounds_program {config : Config} {source : List Char} {prog : Program}
    (h : (compile { config with optimise := false } source).result = .ok prog) :
    (∃ prog', (compile { config with optimise := true } source).result = .ok prog' ∧
        prog'.includes = prog.includes ∧ prog'.warnings = prog.warnings ∧
        prog'.instructions.countP (fun i => !i.synthetic) ≤
          prog.instructions.countP (fun i => !i.synthetic) ∧
        prog'.instructions.length ≤ prog.instructions.countP (fun i => !i.synthetic) +
          prog.instructions.countP (Instruction.hasAddress config.set)) ∨
      ∃ d, (compile { config with optimise := true } source).result = .error d ∧
        ((∃ addr, d.problem = .addressTooLarge addr) ∨ d.problem = .programTooLarge) := by
  cases hread : (tokenize source >>= Document.ofTokens) with
  | error d =>
    rw [compile_of_unread hread] at h
    cases h
  | ok doc =>
    rw [compile_of_read hread] at h
    rw [compile_of_read hread]
    obtain ⟨items, s₁, code, s₂, hrun, hres, rfl⟩ := assemble_ok (Prod.ext h rfl)
    -- expansion does not read the flag, so both compilations expand to the same items
    have hrun' : exec (run { config with optimise := true } config.maxDepth Context.top
        (topNodes doc)) (recorded {} (.parsed doc.depth)) = (.ok items, s₁) := by
      rw [run_optimise]
      rw [run_optimise] at hrun
      exact hrun
    obtain ⟨typed, htyping, hlay⟩ := resolve_ok hres
    have hres' := resolve_of_typed (show exec (Typing.elements
      ({ config with optimise := true } : Config).set items) _ = _ from htyping)
    rw [assemble_of_run hrun', hres']
    rcases layout_optimised (elements_written htyping) hlay with ⟨code', hl, hsyn, hlen⟩ | ⟨d, hl, hd⟩
    · exact .inl ⟨⟨code', s₂.includes.toList, s₂.warnings.toList⟩, by rw [programOf, hl]; rfl,
        rfl, rfl, hsyn, hlen⟩
    · exact .inr ⟨d, by rw [programOf, hl]; rfl, hd⟩

/-- Three loads make the plain program's count in the optimiser's bound; the optimised program
drops one of them. -/
theorem repeated_load_within_bounds :
    (compile { optimise := false } "LRA 5\nLRA 5\nNOP".toList).result =
      .ok ⟨[⟨"LRA", .integer, 5, 1, ⟨0, 5, by decide⟩, false⟩,
        ⟨"LRA", .integer, 5, 2, ⟨6, 11, by decide⟩, false⟩,
        ⟨"NOP", .none, 0, 3, ⟨12, 15, by decide⟩, false⟩], [], []⟩ ∧
    ((∃ prog', (compile { optimise := true } "LRA 5\nLRA 5\nNOP".toList).result = .ok prog' ∧
        prog'.includes = [] ∧ prog'.warnings = [] ∧
        prog'.instructions.countP (fun i => !i.synthetic) ≤ 3 ∧ prog'.instructions.length ≤ 3 + 0) ∨
      ∃ d, (compile { optimise := true } "LRA 5\nLRA 5\nNOP".toList).result = .error d ∧
        ((∃ addr, d.problem = .addressTooLarge addr) ∨ d.problem = .programTooLarge)) := by
  have hok : ∀ {e : Except Diagnostic Program} {p : Program},
      e.toOption.map (fun q => (q.instructions, q.includes, q.warnings)) =
        some (p.instructions, p.includes, p.warnings) → e = .ok p := by
    intro e p he
    cases e with
    | error d => simp [Except.toOption] at he
    | ok q =>
      cases q
      cases p
      simp_all [Except.toOption]
  have h : (compile { optimise := false } "LRA 5\nLRA 5\nNOP".toList).result =
      .ok ⟨[⟨"LRA", .integer, 5, 1, ⟨0, 5, by decide⟩, false⟩,
        ⟨"LRA", .integer, 5, 2, ⟨6, 11, by decide⟩, false⟩,
        ⟨"NOP", .none, 0, 3, ⟨12, 15, by decide⟩, false⟩], [], []⟩ :=
    hok (by decide +kernel)
  exact ⟨h, @optimiser_bounds_program {} _ _ h⟩

/-- Optimising can make a program larger. The two dropped loads move label `a` from index 303
of ROM page 1 down to 301, and label `b` from 257 to 255 in page 0. The plain program needs a
switch to page 1 before the first jump to `a` and one back before the first jump to `b`; the
optimised one needs a switch before each of its four jumps. -/
theorem optimising_adds_page_switches :
    (compile { optimise := false } ("LRA 5\nLRA 5\nJMP $a\nJMP $b\nJMP $a\nJMP $b\n" ++
        "FOR i IN 249 \x7b NOP \x7d\nb:\nFOR i IN 45 \x7b NOP \x7d\na:\nNOP").toList).result.toOption.map
      (fun p => p.instructions.length) = some 302 ∧
    (compile { optimise := true } ("LRA 5\nLRA 5\nJMP $a\nJMP $b\nJMP $a\nJMP $b\n" ++
        "FOR i IN 249 \x7b NOP \x7d\nb:\nFOR i IN 45 \x7b NOP \x7d\na:\nNOP").toList).result.toOption.map
      (fun p => p.instructions.length) = some 303 :=
  ⟨by decide +kernel, by decide +kernel⟩

end Compilation

end PagedAsm
