import PagedAsm.Proofs.Paging.Pass

/-!
# The page fix-up keeps the meaning of the code

`fixPages` repeats passes until one changes nothing. Each pass keeps the block shape of the
code (`pass_blocks`), so the whole fix-up only puts page switches before the instructions whose
addresses it pages, and moves each label to the start of the block of the instruction it named.
The pass that ends it changed nothing, so it found every paged address in the page its tracker
selects (`pass_unchanged`).

Main statement: `fixPages_preserves_meaning`, for the code and labels that label placement
(`excise`) makes of typed code.
-/

namespace PagedAsm

namespace Paging

variable {set : InstructionSet}

/-- Every placed label starts a block of `bs`, or stands at its end. -/
def Placed (bs : List Block) (placed : Placement) : Prop :=
  ∀ (id j : Nat), placed[id]? = some (some j) → ∃ k ≤ bs.length, j = start bs k

theorem settle_blocks : ∀ (fuel : Nat) {bs : List Block} {placed : Placement}
    {code' : List Pending} {placed' : Placement}, (∀ b ∈ bs, b.WF set) → Placed bs placed →
    settle set fuel (flatten bs) placed = .ok (code', placed') →
    ∃ bs', code' = flatten bs' ∧ bs'.map Block.insn = bs.map Block.insn ∧
      (∀ b ∈ bs', b.WF set) ∧
      (∀ (id k : Nat), k ≤ bs.length → placed[id]? = some (some (start bs k)) →
        placed'[id]? = some (some (start bs' k))) ∧
      Tracked set (labelAt placed') 0 0 code'
  | 0, bs, placed, code', placed', _, _, h => by
    simp only [settle] at h
    split at h <;> cases h
  | fuel + 1, bs, placed, code', placed', hwf, hplaced, h => by
    simp only [settle] at h
    obtain ⟨⟨code₁, placed₁, changed⟩, hpass, hrest⟩ := bind_eq_ok h
    obtain ⟨bs₁, rfl, hinsns₁, hwf₁, hmove₁, hback₁⟩ := pass_blocks hwf hpass
    cases changed with
    | false =>
      cases hrest
      obtain ⟨hcode, rfl, htrack⟩ := pass_unchanged hpass
      refine ⟨bs₁, rfl, hinsns₁, hwf₁, hmove₁, ?_⟩
      rw [hcode]
      exact htrack
    | true =>
      have hlen : bs₁.length = bs.length := by simpa using congrArg List.length hinsns₁
      have hplaced₁ : Placed bs₁ placed₁ := by
        intro id j' hj'
        obtain ⟨j, hj⟩ := hback₁ id j' hj'
        obtain ⟨k, hk, rfl⟩ := hplaced id j hj
        rw [hmove₁ id k hk hj] at hj'
        cases hj'
        exact ⟨k, hlen ▸ hk, rfl⟩
      obtain ⟨bs', hcode', hinsns', hwf', hmove', htrack'⟩ := settle_blocks fuel hwf₁ hplaced₁ hrest
      refine ⟨bs', hcode', hinsns'.trans hinsns₁, hwf', ?_, htrack'⟩
      intro id k hk hj
      exact hmove' id k (hlen ▸ hk) (hmove₁ id k hk hj)

/-! ### Reading the code back from its blocks -/

theorem filter_flatten {bs : List Block} (hwf : ∀ b ∈ bs, b.WF set) :
    (flatten bs).filter (fun p => !p.synthetic) = bs.map Block.insn := by
  induction bs with
  | nil => rfl
  | cons b bs ih =>
    have hb := hwf b (by simp)
    have hrest := ih (fun c hc => hwf c (by simp [hc]))
    obtain ⟨hx, hsw⟩ := hb
    rcases b with ⟨_ | s, x⟩
    · simp_all [flatten, Block.toList]
    · have hs := (hsw s rfl).1.1
      simp_all [flatten, Block.toList]

theorem countP_flatten {bs : List Block} (hwf : ∀ b ∈ bs, b.WF set) :
    (flatten bs).countP (fun p => !p.synthetic) = bs.length := by
  rw [List.countP_eq_length_filter, filter_flatten hwf, List.length_map]

theorem take_start (bs : List Block) (k : Nat) :
    (flatten bs).take (start bs k) = flatten (bs.take k) := by
  have hsplit : flatten bs = flatten (bs.take k) ++ flatten (bs.drop k) := by
    rw [← flatten_append, List.take_append_drop]
  rw [hsplit, start, List.take_left]

theorem switch_before {bs : List Block} (hwf : ∀ b ∈ bs, b.WF set) :
    ∀ (i : Nat) (s : Pending), (flatten bs)[i]? = some s → s.synthetic = true →
      ∃ x, (flatten bs)[i + 1]? = some x ∧ x.synthetic = false ∧ Addressed set x ∧
        IsSwitchFor set x s := by
  induction bs with
  | nil => simp
  | cons b bs ih =>
    intro i s hi hs
    have hrest := ih (fun c hc => hwf c (by simp [hc]))
    obtain ⟨hx, hsw⟩ := hwf b (by simp)
    simp only [flatten, List.flatMap_cons] at hi ⊢
    rcases b with ⟨_ | s', x⟩
    · cases i with
      | zero => simp_all [Block.toList]
      | succ i =>
        simp only [Block.toList, List.singleton_append, List.getElem?_cons_succ] at hi ⊢
        exact hrest i s hi hs
    · obtain ⟨hsw', haddr⟩ := hsw s' rfl
      rcases i with _ | _ | i
      · simp only [Block.toList, List.cons_append, List.getElem?_cons_zero,
          Option.some.injEq] at hi
        subst hi
        exact ⟨x, by simp [Block.toList], hx, haddr, hsw'⟩
      · simp_all [Block.toList]
      · simp only [Block.toList, List.cons_append, List.getElem?_cons_succ] at hi ⊢
        exact hrest i s hi hs

/-! ### Placing labels -/

/-- The instructions of typed code, in order. -/
def instructionsOf (es : List Element) : List Pending :=
  es.filterMap fun
    | .instruction p => some p
    | .label _ => none

/-- One element read by label placement. -/
def exciseStep (acc : Array Pending × Placement) : Element → Array Pending × Placement
  | .label id => (acc.1, acc.2.set! id (some acc.1.size))
  | .instruction p => (acc.1.push p, acc.2)

theorem excise_eq (n : Nat) (es : List Element) :
    excise n es =
      ((es.foldl exciseStep (#[], Array.replicate n none)).1.toList,
        (es.foldl exciseStep (#[], Array.replicate n none)).2) := rfl

theorem foldl_exciseStep : ∀ (es : List Element) (acc : Array Pending × Placement),
    (∀ (id j : Nat), acc.2[id]? = some (some j) → j ≤ acc.1.size) →
    (es.foldl exciseStep acc).1.toList = acc.1.toList ++ instructionsOf es ∧
      ∀ (id j : Nat), (es.foldl exciseStep acc).2[id]? = some (some j) →
        j ≤ (es.foldl exciseStep acc).1.size
  | [], acc, h => ⟨by simp [instructionsOf], h⟩
  | e :: es, acc, h => by
    have hstep : ∀ (id j : Nat), (exciseStep acc e).2[id]? = some (some j) →
        j ≤ (exciseStep acc e).1.size := by
      intro id j hj
      cases e with
      | label l =>
        simp only [exciseStep, Array.set!_eq_setIfInBounds, Array.getElem?_setIfInBounds] at hj
        split at hj
        · split at hj
          · simp only [Option.some.injEq] at hj
            simp [exciseStep, hj]
          · simp at hj
        · exact h id j hj
      | instruction p =>
        have := h id j hj
        simp [exciseStep]
        omega
    obtain ⟨hcode, hplaced⟩ := foldl_exciseStep es (exciseStep acc e) hstep
    refine ⟨?_, hplaced⟩
    rw [List.foldl_cons, hcode]
    cases e <;> simp [exciseStep, instructionsOf]

theorem excise_spec {n : Nat} {es : List Element} {code : List Pending} {placed : Placement}
    (h : excise n es = (code, placed)) :
    code = instructionsOf es ∧ ∀ (id j : Nat), placed[id]? = some (some j) → j ≤ code.length := by
  rw [excise_eq] at h
  simp only [Prod.mk.injEq] at h
  obtain ⟨rfl, rfl⟩ := h
  have hinit : ∀ (id j : Nat), (Array.replicate n (none : Option Nat))[id]? = some (some j) →
      j ≤ (#[] : Array Pending).size := by
    intro id j hj
    simp [Array.getElem?_replicate] at hj
  obtain ⟨hcode, hplaced⟩ := foldl_exciseStep es (#[], Array.replicate n none) hinit
  exact ⟨by simpa using hcode, fun id j hj => by simpa using hplaced id j hj⟩

theorem mem_instructionsOf {es : List Element} {p : Pending} (h : p ∈ instructionsOf es) :
    Element.instruction p ∈ es := by
  simp only [instructionsOf, List.mem_filterMap] at h
  obtain ⟨e, he, hp⟩ := h
  cases e with
  | label _ => cases hp
  | instruction q =>
    cases hp
    exact he

/-- Written code as blocks without switches. -/
def plain (code : List Pending) : List Block := code.map fun x => ⟨none, x⟩

theorem flatten_plain (code : List Pending) : flatten (plain code) = code := by
  induction code with
  | nil => rfl
  | cons x code ih => simpa [plain, flatten, Block.toList] using ih

theorem plain_wf {code : List Pending} (hwritten : ∀ x ∈ code, x.synthetic = false) :
    ∀ b ∈ plain code, b.WF set := by
  intro b hb
  simp only [plain, List.mem_map] at hb
  obtain ⟨x, hx, rfl⟩ := hb
  exact ⟨hwritten x hx, by simp⟩

theorem start_plain {code : List Pending} {k : Nat} (hk : k ≤ code.length) :
    start (plain code) k = k := by
  have htake : (plain code).take k = plain (code.take k) := by simp [plain, List.map_take]
  rw [start, htake, flatten_plain, List.length_take]
  omega

theorem fixPages_blocks {n : Nat} {typed : List Element}
    (htyped : ∀ p, Element.instruction p ∈ typed → p.synthetic = false)
    {code code' : List Pending} {placed placed' : Placement}
    (hex : excise n typed = (code, placed))
    (hfix : fixPages set code placed = .ok (code', placed')) :
    ∃ bs', code' = flatten bs' ∧ bs'.map Block.insn = code ∧ (∀ b ∈ bs', b.WF set) ∧
      (∀ (id j : Nat), placed[id]? = some (some j) →
        j ≤ bs'.length ∧ placed'[id]? = some (some (start bs' j))) ∧
      Tracked set (labelAt placed') 0 0 code' := by
  obtain ⟨hcode, hle⟩ := excise_spec hex
  have hwf₀ : ∀ b ∈ plain code, b.WF set :=
    plain_wf fun x hx => htyped x (mem_instructionsOf (hcode ▸ hx))
  have hplaced₀ : Placed (plain code) placed := by
    intro id j hj
    have hjle := hle id j hj
    exact ⟨j, by simpa [plain] using hjle, (start_plain hjle).symm⟩
  unfold fixPages at hfix
  rw [← flatten_plain code] at hfix
  obtain ⟨bs', rfl, hinsns, hwf', hmove, htrack⟩ := settle_blocks _ hwf₀ hplaced₀ hfix
  have hlen : bs'.length = code.length := by simpa [plain] using congrArg List.length hinsns
  refine ⟨bs', rfl, by simpa [plain, Function.comp_def] using hinsns, hwf', ?_, htrack⟩
  intro id j hj
  have hjle := hle id j hj
  exact ⟨by omega,
    hmove id j (by simpa [plain] using hjle) (by rw [start_plain hjle]; exact hj)⟩

theorem fixPages_moves_label {n : Nat} {typed : List Element}
    (htyped : ∀ p, Element.instruction p ∈ typed → p.synthetic = false)
    {code code' : List Pending} {placed placed' : Placement}
    (hex : excise n typed = (code, placed))
    (hfix : fixPages set code placed = .ok (code', placed')) {id j : Nat}
    (hj : placed[id]? = some (some j)) :
    ∃ j', placed'[id]? = some (some j') ∧ j' ≤ code'.length ∧
      (code'.take j').countP (fun p => !p.synthetic) = j ∧
      ∀ s ∈ (code'.take j').getLast?, s.synthetic = false := by
  obtain ⟨bs', rfl, -, hwf', hmove, -⟩ := fixPages_blocks htyped hex hfix
  obtain ⟨hjle, hmoved⟩ := hmove id j hj
  have hwfk : ∀ b ∈ bs'.take j, b.WF set := fun b hb => hwf' b (List.mem_of_mem_take hb)
  refine ⟨start bs' j, hmoved, start_le_length bs' j, ?_, ?_⟩
  · rw [take_start, countP_flatten hwfk, List.length_take]
    omega
  · rw [take_start]
    exact last_not_synthetic hwfk

theorem getElem?_filter_countP {α : Type} {f : α → Bool} {l : List α} {k : Nat} {x : α}
    (h : l[k]? = some x) (hx : f x = true) : (l.filter f)[(l.take k).countP f]? = some x := by
  obtain ⟨hk, rfl⟩ := List.getElem?_eq_some_iff.1 h
  have hsplit : l.filter f = (l.take k).filter f ++ l[k] :: (l.drop (k + 1)).filter f := by
    rw [← List.filter_cons_of_pos hx, ← List.filter_append, ← List.drop_eq_getElem_cons hk,
      List.take_append_drop]
  rw [hsplit, List.countP_eq_length_filter, List.getElem?_append_right (Nat.le_refl _),
    Nat.sub_self, List.getElem?_cons_zero]

theorem fixPages_written_at {n : Nat} {typed : List Element}
    (htyped : ∀ p, Element.instruction p ∈ typed → p.synthetic = false)
    {code code' : List Pending} {placed placed' : Placement}
    (hex : excise n typed = (code, placed))
    (hfix : fixPages set code placed = .ok (code', placed')) {k : Nat} {q : Pending}
    (h : code'[k]? = some q) (hq : q.synthetic = false) :
    code[(code'.take k).countP (fun p => !p.synthetic)]? = some q := by
  obtain ⟨bs', rfl, hinsns, hwf', -, -⟩ := fixPages_blocks htyped hex hfix
  rw [← hinsns, ← filter_flatten hwf']
  exact getElem?_filter_countP h (by simp [hq])

/-- **The page fix-up keeps the meaning of the code.** Given the code and labels that label
placement makes of typed code, when the fix-up succeeds:
(a) removing the synthetic instructions gives the code back, and each synthetic instruction is
a switch made for the written instruction right after it: `CRP` before a jump, `CCP` before
anything else, selecting a page from 0 to 255, before an instruction whose address the fix-up
pages;
(b) a label placed after `j` instructions ends after exactly `j` written instructions, and not
after a switch (a label at an insertion point names the switch);
(c) scanning the new code from both trackers at 0 finds every paged address in 64 KiB and in
the page its tracker selects. -/
theorem fixPages_preserves_meaning (set : InstructionSet) (n : Nat) (typed : List Element)
    (htyped : ∀ p, Element.instruction p ∈ typed → p.synthetic = false)
    {code code' : List Pending} {placed placed' : Placement}
    (hex : excise n typed = (code, placed))
    (hfix : fixPages set code placed = .ok (code', placed')) :
    code'.filter (fun p => !p.synthetic) = code ∧
      (∀ (i : Nat) (s : Pending), code'[i]? = some s → s.synthetic = true →
        ∃ x, code'[i + 1]? = some x ∧ x.synthetic = false ∧ Addressed set x ∧
          IsSwitchFor set x s) ∧
      (∀ (id j : Nat), placed[id]? = some (some j) → ∃ j', placed'[id]? = some (some j') ∧
        (code'.take j').countP (fun p => !p.synthetic) = j ∧
        ∀ s ∈ (code'.take j').getLast?, s.synthetic = false) ∧
      Tracked set (labelAt placed') 0 0 code' := by
  have hmoves := fun id j (hj : placed[id]? = some (some j)) =>
    fixPages_moves_label htyped hex hfix hj
  obtain ⟨bs', rfl, hinsns, hwf', -, htrack⟩ := fixPages_blocks htyped hex hfix
  refine ⟨by rw [filter_flatten hwf', hinsns], switch_before hwf', fun id j hj => ?_, htrack⟩
  obtain ⟨j', hmoved, -, hcount, hlast⟩ := hmoves id j hj
  exact ⟨j', hmoved, hcount, hlast⟩

/-- `NOP / l: / LRA $300 / JMP $l`: the cache switch goes before the load, and the label,
which stood at the load, now names the switch. -/
theorem fixPages_label_names_switch :
    (∀ p, Element.instruction p ∈ [.instruction ⟨"NOP", .none, 1, Span.point 0, false⟩,
        .label 0, .instruction ⟨"LRA", .pointer 300, 2, Span.point 0, false⟩,
        .instruction ⟨"JMP", .label 0, 3, Span.point 0, false⟩] → p.synthetic = false) ∧
      excise 1 [.instruction ⟨"NOP", .none, 1, Span.point 0, false⟩, .label 0,
          .instruction ⟨"LRA", .pointer 300, 2, Span.point 0, false⟩,
          .instruction ⟨"JMP", .label 0, 3, Span.point 0, false⟩] =
        ([⟨"NOP", .none, 1, Span.point 0, false⟩, ⟨"LRA", .pointer 300, 2, Span.point 0, false⟩,
          ⟨"JMP", .label 0, 3, Span.point 0, false⟩], #[some 1]) ∧
      fixPages InstructionSet.standard
          [⟨"NOP", .none, 1, Span.point 0, false⟩, ⟨"LRA", .pointer 300, 2, Span.point 0, false⟩,
            ⟨"JMP", .label 0, 3, Span.point 0, false⟩] #[some 1] =
        .ok ([⟨"NOP", .none, 1, Span.point 0, false⟩, ⟨"CCP", .integer 1, 2, Span.point 0, true⟩,
          ⟨"LRA", .pointer 300, 2, Span.point 0, false⟩, ⟨"JMP", .label 0, 3, Span.point 0, false⟩],
          #[some 1]) ∧
      ([⟨"NOP", .none, 1, Span.point 0, false⟩, ⟨"CCP", .integer 1, 2, Span.point 0, true⟩,
          ⟨"LRA", .pointer 300, 2, Span.point 0, false⟩, ⟨"JMP", .label 0, 3, Span.point 0, false⟩] :
          List Pending).filter (fun p => !p.synthetic) =
        [⟨"NOP", .none, 1, Span.point 0, false⟩, ⟨"LRA", .pointer 300, 2, Span.point 0, false⟩,
          ⟨"JMP", .label 0, 3, Span.point 0, false⟩] ∧
      (∀ (i : Nat) (s : Pending), ([⟨"NOP", .none, 1, Span.point 0, false⟩,
          ⟨"CCP", .integer 1, 2, Span.point 0, true⟩, ⟨"LRA", .pointer 300, 2, Span.point 0, false⟩,
          ⟨"JMP", .label 0, 3, Span.point 0, false⟩] : List Pending)[i]? = some s →
          s.synthetic = true →
        ∃ x, ([⟨"NOP", .none, 1, Span.point 0, false⟩, ⟨"CCP", .integer 1, 2, Span.point 0, true⟩,
            ⟨"LRA", .pointer 300, 2, Span.point 0, false⟩,
            ⟨"JMP", .label 0, 3, Span.point 0, false⟩] : List Pending)[i + 1]? = some x ∧
          x.synthetic = false ∧ Addressed InstructionSet.standard x ∧
          IsSwitchFor InstructionSet.standard x s) ∧
      (∀ (id j : Nat), (#[some 1] : Placement)[id]? = some (some j) →
        ∃ j', (#[some 1] : Placement)[id]? = some (some j') ∧
          (([⟨"NOP", .none, 1, Span.point 0, false⟩, ⟨"CCP", .integer 1, 2, Span.point 0, true⟩,
            ⟨"LRA", .pointer 300, 2, Span.point 0, false⟩,
            ⟨"JMP", .label 0, 3, Span.point 0, false⟩] : List Pending).take j').countP
              (fun p => !p.synthetic) = j ∧
          ∀ s ∈ (([⟨"NOP", .none, 1, Span.point 0, false⟩,
            ⟨"CCP", .integer 1, 2, Span.point 0, true⟩,
            ⟨"LRA", .pointer 300, 2, Span.point 0, false⟩,
            ⟨"JMP", .label 0, 3, Span.point 0, false⟩] : List Pending).take j').getLast?,
            s.synthetic = false) ∧
      Tracked InstructionSet.standard (labelAt #[some 1]) 0 0
        [⟨"NOP", .none, 1, Span.point 0, false⟩, ⟨"CCP", .integer 1, 2, Span.point 0, true⟩,
          ⟨"LRA", .pointer 300, 2, Span.point 0, false⟩, ⟨"JMP", .label 0, 3, Span.point 0, false⟩] := by
  have htyped : ∀ p, Element.instruction p ∈ [.instruction ⟨"NOP", .none, 1, Span.point 0, false⟩,
      .label 0, .instruction ⟨"LRA", .pointer 300, 2, Span.point 0, false⟩,
      .instruction ⟨"JMP", .label 0, 3, Span.point 0, false⟩] → p.synthetic = false := by
    intro p hp
    simp only [List.mem_cons, Element.instruction.injEq, List.not_mem_nil, or_false,
      reduceCtorEq, false_or] at hp
    rcases hp with rfl | rfl | rfl <;> rfl
  have hex : excise 1 [.instruction ⟨"NOP", .none, 1, Span.point 0, false⟩, .label 0,
      .instruction ⟨"LRA", .pointer 300, 2, Span.point 0, false⟩,
      .instruction ⟨"JMP", .label 0, 3, Span.point 0, false⟩] =
      ([⟨"NOP", .none, 1, Span.point 0, false⟩, ⟨"LRA", .pointer 300, 2, Span.point 0, false⟩,
        ⟨"JMP", .label 0, 3, Span.point 0, false⟩], #[some 1]) := rfl
  have hfix : fixPages InstructionSet.standard
      [⟨"NOP", .none, 1, Span.point 0, false⟩, ⟨"LRA", .pointer 300, 2, Span.point 0, false⟩,
        ⟨"JMP", .label 0, 3, Span.point 0, false⟩] #[some 1] =
      .ok ([⟨"NOP", .none, 1, Span.point 0, false⟩, ⟨"CCP", .integer 1, 2, Span.point 0, true⟩,
        ⟨"LRA", .pointer 300, 2, Span.point 0, false⟩, ⟨"JMP", .label 0, 3, Span.point 0, false⟩],
        #[some 1]) := by with_unfolding_all rfl
  exact ⟨htyped, hex, hfix, fixPages_preserves_meaning _ _ _ htyped hex hfix⟩

end Paging

end PagedAsm
