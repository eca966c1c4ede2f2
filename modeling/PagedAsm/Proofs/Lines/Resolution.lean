import PagedAsm.Proofs.Lines.Reading
import PagedAsm.Proofs.Lines.Statements
import PagedAsm.Proofs.Compilation.Stages
import PagedAsm.Proofs.Paging.Convergence
import PagedAsm.CommandLine.Listing

/-!
# Lines of compiled code and its diagnostics

Typing spans an instruction from its mnemonic to its operand and keeps the mnemonic's line, so a
placed item, whose operand does not start before its mnemonic, types to a placed instruction.
The page fix-up puts each switch in the place of the instruction it is made for and refuses an
address at its instruction, and the finished program keeps the places of the fixed-up code. So
every instruction, warning and error of a compilation carries the line of the start of its span,
the line that a printed diagnostic names (`reported_lines_match_spans`).
-/

namespace PagedAsm

variable {src : List Char}

namespace Typing

theorem argumentOf_reported {t : Token} (ht : PlacedAt src t.span t.line) :
    Reported src (fun _ => True) (argumentOf t) := by
  unfold argumentOf
  split
  · split
    · trivial
    · exact ht
  · split
    · split
      · split
        · trivial
        · exact ht
      · exact ht
    · split
      · trivial
      · exact ht

theorem instruction_reported (set : InstructionSet) {m : Token} {o : Option Operand}
    (h : (Item.instruction m o).Placed src) :
    Reports src (instruction set m o) fun p => PlacedAt src p.span p.line := by
  unfold instruction
  match o, h with
  | none, h =>
    dsimp only
    rw [pure_bind]
    exact Reports.pure h
  | some (.label l), ⟨hm, _, hle⟩ =>
    dsimp only
    rw [pure_bind]
    exact Reports.pure (hm.join hle)
  | some (.token t), ⟨hm, ht, hle⟩ =>
    have hspan : PlacedAt src (m.span.join t.span) m.line := hm.join hle
    dsimp only
    split
    · rw [pure_bind]
      split
      · exact Reports.optional_bind (Reports.warn hspan) (Reports.pure hspan)
      · exact Reports.pure hspan
    · rename_i d hd
      have hreported := argumentOf_reported ht
      rw [hd] at hreported
      exact Reports.throw_bind hreported

theorem elements_reported (set : InstructionSet) : ∀ {items : List Item},
    (∀ it ∈ items, it.Placed src) →
    Reports src (elements set items) fun typed =>
      ∀ p, Element.instruction p ∈ typed → PlacedAt src p.span p.line
  | [], _ => by
    unfold elements
    rw [List.mapM_nil]
    exact Reports.pure (by simp)
  | it :: rest, hitems => by
    unfold elements
    rw [List.mapM_cons]
    refine Reports.bind (Q := fun e => ∀ p, e = .instruction p → PlacedAt src p.span p.line) ?_
      fun e he => ?_
    · cases it with
      | label l => exact Reports.pure fun p hp => by cases hp
      | instruction m o =>
        refine Reports.bind (instruction_reported set (hitems _ List.mem_cons_self)) fun p hp => ?_
        exact Reports.pure fun q hq => by cases hq; exact hp
    refine Reports.bind (elements_reported set fun it' hit' => hitems it' (List.mem_cons_of_mem _ hit'))
      fun es hes => Reports.pure fun p hp => ?_
    rcases List.mem_cons.1 hp with hp | hp
    · exact he p hp.symm
    · exact hes p hp

end Typing

namespace Paging

variable {set : InstructionSet} {placed : Placement}

/-- Code whose instructions are placed. -/
def CodePlaced (src : List Char) (code : List Pending) : Prop :=
  ∀ p ∈ code, PlacedAt src p.span p.line

theorem CodePlaced.push {out : Array Pending} {p : Pending} (h : CodePlaced src out.toList)
    (hp : PlacedAt src p.span p.line) : CodePlaced src (out.push p).toList := by
  intro q hq
  rw [Array.toList_push, List.mem_append, List.mem_singleton] at hq
  rcases hq with hq | rfl
  · exact h q hq
  · exact hp

theorem switched_placed {st : Pass} {p : Pending} (page : Int) (hout : CodePlaced src st.out.toList)
    (hp : PlacedAt src p.span p.line) : CodePlaced src (Pass.switched set st p page).out.toList := by
  by_cases hb : ∃ prev, st.out.back? = some prev ∧ prev.synthetic = true ∧ prev.mnemonic = switchFor set p
  · obtain ⟨prev, hprev, hs⟩ := hb
    rw [(switched_update page hprev hs).1]
    refine CodePlaced.push (fun q hq => ?_) hp
    rw [Array.set!_eq_setIfInBounds, Array.toList_setIfInBounds] at hq
    rcases List.mem_or_eq_of_mem_set hq with hq | rfl
    · exact hout q hq
    · exact hout prev (Array.mem_toList_iff.2 (Array.mem_of_back? hprev))
  · -- a new switch in the place of `p`
    have hnew : ∀ prev ∈ st.out.back?, ¬(prev.synthetic = true ∧ prev.mnemonic = switchFor set p) :=
      fun prev hprev hs => hb ⟨prev, hprev, hs⟩
    have hswitch : PlacedAt src (switchAt set p page).span (switchAt set p page).line := hp
    rw [(switched_insert page hnew).1]
    exact (hout.push hswitch).push hp

theorem step_reported {st : Pass} {p : Pending} (hout : CodePlaced src st.out.toList)
    (hp : PlacedAt src p.span p.line) :
    Reported src (fun st' : Pass => CodePlaced src st'.out.toList) (Pass.step set placed st p) := by
  by_cases h1 : p.mnemonic = "CRP"
  · rw [step_user_rom h1]
    exact hout.push hp
  by_cases h2 : p.mnemonic = "CCP"
  · rw [step_user_cache h2]
    exact hout.push hp
  rw [step_of_not_switch h1 h2]
  split
  · exact hout.push hp
  · split
    · exact hp
    · split
      · exact hout.push hp
      · exact switched_placed _ hout hp

theorem fold_reported : ∀ {code : List Pending} {st : Pass}, CodePlaced src code →
    CodePlaced src st.out.toList →
    Reported src (fun st' : Pass => CodePlaced src st'.out.toList)
      (code.foldlM (Pass.step set placed) st)
  | [], st, _, hst => by
    rw [List.foldlM_nil]
    exact hst
  | p :: rest, st, hcode, hst => by
    rw [List.foldlM_cons]
    exact (step_reported hst (hcode p List.mem_cons_self)).bind fun st' hst' =>
      fold_reported (fun q hq => hcode q (List.mem_cons_of_mem _ hq)) hst'

theorem pass_reported {code : List Pending} (hcode : CodePlaced src code) :
    Reported src (fun r => CodePlaced src r.1 ∧ code.length ≤ r.1.length) (pass set placed code) := by
  have hplaced : Reported src (fun r => CodePlaced src r.1) (pass set placed code) := by
    unfold pass
    exact (fold_reported hcode (by simp [CodePlaced])).bind fun st hst => hst
  exact hplaced.and_ok fun _ h => pass_length h

theorem settle_reported : ∀ (fuel : Nat) {code : List Pending} {placed : Placement}, code ≠ [] →
    CodePlaced src code → Reported src (fun r => CodePlaced src r.1) (settle set fuel code placed)
  | 0, [], _, hne, _ => absurd rfl hne
  | 0, p :: _, _, _, hcode => hcode p List.mem_cons_self
  | fuel + 1, code, placed, hne, hcode => by
    have hpass : Reported src (fun r => CodePlaced src r.1 ∧ code.length ≤ r.1.length)
        (pass set placed code) := pass_reported hcode
    cases h : pass set placed code with
    | error d =>
      rw [settle_succ_of_error h]
      rw [h] at hpass
      exact hpass
    | ok r =>
      obtain ⟨code₁, placed₁, changed⟩ := r
      rw [h] at hpass
      obtain ⟨hcode₁, hlen⟩ := hpass
      rw [settle_succ_of_pass h]
      cases changed with
      | false => exact hcode₁
      | true =>
        have hne₁ : code₁ ≠ [] := by
          intro hnil
          rw [hnil] at hlen
          exact hne (List.eq_nil_of_length_eq_zero (Nat.le_zero.1 hlen))
        exact settle_reported fuel hne₁ hcode₁

theorem fixPages_reported {code : List Pending} (hcode : CodePlaced src code) :
    Reported src (fun r => CodePlaced src r.1) (fixPages set code placed) := by
  unfold fixPages
  cases code with
  | nil =>
    obtain ⟨placed', hpass⟩ : ∃ placed', pass set placed [] = .ok ([], placed', false) :=
      ⟨_, rfl⟩
    rw [settle_succ_of_pass hpass]
    exact fun q hq => by cases hq
  | cons p rest => exact settle_reported _ (List.cons_ne_nil p rest) hcode

theorem unplaced?_mem {code : List Pending} {p : Pending} {id : Nat}
    (h : unplaced? placed code = some (p, id)) : p ∈ code := by
  unfold unplaced? at h
  obtain ⟨q, hq, hqp⟩ := List.exists_of_findSome?_eq_some h
  split at hqp
  · split at hqp
    · cases hqp
      exact hq
    · cases hqp
  · cases hqp

end Paging

namespace Compilation

open Expand Paging

theorem layout_reported (config : Config) (names : Array String) {typed : List Element}
    (htyped : ∀ p, Element.instruction p ∈ typed → PlacedAt src p.span p.line) :
    Reported src (fun code => ∀ i ∈ code, PlacedAt src i.span i.line) (layout config names typed) := by
  have hkept : CodePlaced src (excise names.size (optimised config typed)).1 := by
    intro p hp
    rw [excise_fst] at hp
    have hmem := mem_instructionsOf hp
    unfold optimised at hmem
    split at hmem
    · exact htyped p ((Peephole.dropLoads_sublist config.set none typed).subset hmem)
    · exact htyped p hmem
  unfold layout
  dsimp only
  rw [← optimised]
  generalize optimised config typed = kept at hkept ⊢
  split
  · rename_i p id hsome
    exact hkept p (unplaced?_mem hsome)
  · refine (fixPages_reported hkept).bind fun fixed hfixed => ?_
    split
    · rename_i p hp
      exact hfixed p (List.mem_of_getElem? hp)
    · intro i hi
      obtain ⟨p, hp, rfl⟩ := List.mem_map.1 hi
      exact hfixed p hp

theorem resolve_reported (config : Config) {items : List Item} (hitems : ∀ it ∈ items, it.Placed src) :
    Reports src (resolve config items) fun code => ∀ i ∈ code, PlacedAt src i.span i.line := by
  unfold resolve
  exact Reports.bind (Typing.elements_reported config.set hitems) fun typed htyped =>
    Reports.bind Reports.get fun s _ => Reports.lift (layout_reported config s.labelNames htyped)

theorem assemble_reported (config : Config) {doc : Document}
    (hdoc : RunPlaced src (asNodes doc.children)) :
    Reports src (assemble config doc) fun prog =>
      (∀ i ∈ prog.instructions, PlacedAt src i.span i.line) ∧
        ∀ w ∈ prog.warnings, PlacedAt src w.span w.line := by
  unfold assemble
  refine Reports.bind (Reports.note _) fun _ _ => ?_
  refine Reports.bind (Expansion.run_reported config _ MacroTable.empty_placed hdoc)
    fun items hitems => ?_
  refine Reports.bind Reports.get fun _ _ => ?_
  refine Reports.bind (Reports.note _) fun _ _ => ?_
  refine Reports.bind (resolve_reported config hitems) fun code hcode => ?_
  refine Reports.bind Reports.get fun s hs => ?_
  exact Reports.bind (Reports.note _) fun _ _ => Reports.pure ⟨hcode, hs⟩

end Compilation

theorem compile_reported (config : Config) (source : List Char) :
    Reported source (fun prog => (∀ i ∈ prog.instructions, PlacedAt source i.span i.line) ∧
      ∀ w ∈ prog.warnings, PlacedAt source w.span w.line) (compile config source).result := by
  have hread := read_reported source
  rcases hr : tokenize source >>= Document.ofTokens with d | doc
  · rw [Compilation.compile_of_unread hr]
    rw [hr] at hread
    exact hread
  · rw [Compilation.compile_of_read hr]
    rw [hr] at hread
    have hempty : ({} : Session).Placed source := fun d hd => by cases hd
    exact (Compilation.assemble_reported config hread {} hempty).mono fun _ ha => ha.1

theorem excerpt_names_line {source : List Char} {d : Diagnostic} (h : PlacedAt source d.span d.line)
    (fileName : String) :
    ∃ rest, d.excerpt fileName source = fileName ++ ":" ++ toString d.line ++ ": " ++ rest := by
  rw [placedAt_iff_enclosing] at h
  unfold Diagnostic.excerpt
  rw [h]
  exact ⟨_, by simp only [String.append_assoc]; rfl⟩

/-- **Reported lines agree with spans.** Every token of a text, every instruction of a compiled
program (the page switches included), every warning and every error of a compilation carries
the line that encloses the start of its span; so a printed warning or error names the line the
compilation reports. -/
theorem reported_lines_match_spans (config : Config) (source : List Char) :
    (∀ ts, tokenize source = .ok ts →
      ∀ t ∈ ts, t.line = (Line.enclosing source t.span.start).number) ∧
    (∀ prog, (compile config source).result = .ok prog →
      (∀ i ∈ prog.instructions, i.line = (Line.enclosing source i.span.start).number) ∧
      ∀ w ∈ prog.warnings, w.line = (Line.enclosing source w.span.start).number ∧
        ∀ fileName, ∃ rest,
          w.excerpt fileName source = fileName ++ ":" ++ toString w.line ++ ": " ++ rest) ∧
    ∀ d, (compile config source).result = .error d →
      d.line = (Line.enclosing source d.span.start).number ∧
        ∀ fileName, ∃ rest,
          d.excerpt fileName source = fileName ++ ":" ++ toString d.line ++ ": " ++ rest := by
  have hcompile := compile_reported config source
  refine ⟨fun ts hts t ht => ?_, fun prog hprog => ?_, fun d hd => ?_⟩
  · have htokens := tokenize_reported source
    rw [hts] at htokens
    exact placedAt_iff_enclosing.1 (htokens.tokensPlaced.placed t ht)
  · rw [hprog] at hcompile
    obtain ⟨hinsns, hwarnings⟩ := hcompile
    exact ⟨fun i hi => placedAt_iff_enclosing.1 (hinsns i hi), fun w hw =>
      ⟨placedAt_iff_enclosing.1 (hwarnings w hw), excerpt_names_line (hwarnings w hw)⟩⟩
  · rw [hd] at hcompile
    exact ⟨placedAt_iff_enclosing.1 hcompile, excerpt_names_line hcompile⟩

end PagedAsm
