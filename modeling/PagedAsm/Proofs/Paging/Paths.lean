import PagedAsm.Proofs.Paging.FixPages
import PagedAsm.Assembly.Compile
import Mathlib.Logic.Relation

/-!
# Page registers along the paths of a run

A run of finished code starts at index 0 with both page registers at 0. A `CRP` or `CCP` with
an integer operand, or none, sets its register to its operand; with any other operand, to some
page. A jump to a label may fall through or go to the address its ROM page and operand make. A
`RET`, and a jump to a pointer, end the path. Everything else falls through.

The fix-up scans the code in a straight line only, and does not forget the pages it tracks at a
label. A run reaches the instruction of a label from every jump to it as well, and the pages the
scan holds there need not be the pages a jump brings (`backward_jump_misses_cache_page`). Where
every jump to a label brings the pages the scan holds at the label (`EntriesAgree`), a run keeps
the registers the scan holds (`reachable_consistent`), and every instruction reaches the
address it means (`paths_reach_meant_addresses`).
-/

namespace PagedAsm

namespace Paging

open Compilation

variable {set : InstructionSet}

/-! ### Runs -/

/-- A point of a run: the index of the next instruction and the two page registers. -/
structure Machine where
  pc : Nat
  rom : Int
  cache : Int

/-- One step of a run of finished code. -/
inductive Step (set : InstructionSet) (code : List Instruction) : Machine → Machine → Prop
  | romSwitch {m : Machine} {x : Instruction} (r : Int) (hx : code[m.pc]? = some x)
      (hm : x.mnemonic = "CRP") (hr : x.kind = .integer ∨ x.kind = .none → r = x.value) :
      Step set code m ⟨m.pc + 1, r, m.cache⟩
  | cacheSwitch {m : Machine} {x : Instruction} (c : Int) (hx : code[m.pc]? = some x)
      (hm : x.mnemonic = "CCP") (hc : x.kind = .integer ∨ x.kind = .none → c = x.value) :
      Step set code m ⟨m.pc + 1, m.rom, c⟩
  | jump {m : Machine} {x : Instruction} (t : Nat) (hx : code[m.pc]? = some x)
      (hrom : x.mnemonic ≠ "CRP") (hcache : x.mnemonic ≠ "CCP")
      (hj : set.isJump x.mnemonic = true) (hk : x.kind = .label)
      (ht : (t : Int) = m.rom * 256 + x.value % 256) :
      Step set code m ⟨t, m.rom, m.cache⟩
  | next {m : Machine} {x : Instruction} (hx : code[m.pc]? = some x)
      (hrom : x.mnemonic ≠ "CRP") (hcache : x.mnemonic ≠ "CCP") (hret : x.mnemonic ≠ "RET")
      (hend : ¬(set.isJump x.mnemonic = true ∧ x.kind = .pointer)) :
      Step set code m ⟨m.pc + 1, m.rom, m.cache⟩

/-- The points a run of `code` reaches. -/
def Reachable (set : InstructionSet) (code : List Instruction) (m : Machine) : Prop :=
  Relation.ReflTransGen (Step set code) ⟨0, 0, 0⟩ m

/-- The address an instruction means: for a jump to a label the label's index, for a pointer
its value as typed. -/
def meant (set : InstructionSet) (placed : Placement) (p : Pending) : Option Int :=
  match p.argument with
  | .label id => if set.isJump p.mnemonic then some (labelAt placed id) else none
  | .pointer v => some v
  | _ => none

/-- At point `m`, instruction `p` reaches the address it means: its ROM page (for a jump) or
cache page (otherwise) and its finished operand make that address. -/
def Lands (set : InstructionSet) (placed : Placement) (m : Machine) (p : Pending) : Prop :=
  ∀ a ∈ meant set placed p,
    (if set.isJump p.mnemonic then m.rom else m.cache) * 256 + (finish placed p).value % 256 = a

/-! ### The straight-line scan -/

/-- The pages the fix-up's scan holds after `p`. -/
def track (pages : Int × Int) (p : Pending) : Int × Int :=
  if p.mnemonic = "CRP" then (selectedPage p.argument, pages.2)
  else if p.mnemonic = "CCP" then (pages.1, selectedPage p.argument)
  else pages

/-- The pages the scan holds before instruction `i`. -/
def pagesAt (code : List Pending) (i : Nat) : Int × Int :=
  (code.take i).foldl track (0, 0)

/-- A register holding `actual` where the scan holds `scanned`: equal wherever the scan holds a
page. -/
def Agrees (scanned actual : Int) : Prop :=
  0 ≤ scanned → scanned ≤ maxPage → actual = scanned

instance (scanned actual : Int) : Decidable (Agrees scanned actual) := by
  unfold Agrees
  infer_instance

/-- A point agrees with the scan on each register that the instruction there does not set. -/
def Consistent (code : List Pending) (m : Machine) : Prop :=
  ((code[m.pc]?).map Pending.mnemonic ≠ some "CRP" → Agrees (pagesAt code m.pc).1 m.rom) ∧
    ((code[m.pc]?).map Pending.mnemonic ≠ some "CCP" → Agrees (pagesAt code m.pc).2 m.cache)

/-- Every jump to a label brings the pages the scan holds at the label: for a jump at `i` to the
label at `t`, each register the instruction at `t` does not set holds at `i`, in the scan, the
page it holds at `t`, wherever it holds one at `t`. -/
def EntriesAgree (set : InstructionSet) (code : List Pending) (placed : Placement) : Prop :=
  ∀ (i id : Nat) (p : Pending), code[i]? = some p → p.mnemonic ≠ "CRP" → p.mnemonic ≠ "CCP" →
    set.isJump p.mnemonic = true → p.argument = .label id →
    ((code[(placed.getD id none).getD 0]?).map Pending.mnemonic ≠ some "CRP" →
      Agrees (pagesAt code ((placed.getD id none).getD 0)).1 (pagesAt code i).1) ∧
    ((code[(placed.getD id none).getD 0]?).map Pending.mnemonic ≠ some "CCP" →
      Agrees (pagesAt code ((placed.getD id none).getD 0)).2 (pagesAt code i).2)

theorem pagesAt_zero (code : List Pending) : pagesAt code 0 = (0, 0) := by
  simp [pagesAt]

theorem pagesAt_succ {code : List Pending} {i : Nat} {p : Pending} (h : code[i]? = some p) :
    pagesAt code (i + 1) = track (pagesAt code i) p := by
  simp [pagesAt, List.take_add_one, h]

theorem track_of_not_switch {p : Pending} (hr : p.mnemonic ≠ "CRP") (hc : p.mnemonic ≠ "CCP")
    (pages : Int × Int) : track pages p = pages := by
  simp [track, hr, hc]

theorem Agrees.trans {a b c : Int} (hab : Agrees a b) (hbc : Agrees b c) : Agrees a c := by
  intro h0 hmax
  have hb := hab h0 hmax
  subst hb
  exact hbc h0 hmax

theorem agrees_selected {placed : Placement} {p : Pending} {r : Int}
    (hr : (finish placed p).kind = .integer ∨ (finish placed p).kind = .none →
      r = (finish placed p).value) :
    Agrees (selectedPage p.argument) r := by
  intro h0 hmax
  cases harg : p.argument with
  | none => simpa [finish, harg, selectedPage] using hr
  | integer v =>
    simp only [finish, harg, selectedPage, true_or, forall_const] at hr h0 hmax ⊢
    simp only [maxPage] at hmax
    omega
  | pointer v => simp [selectedPage, harg] at h0
  | label id => simp [selectedPage, harg] at h0

theorem tracked_at {index : Nat → Int} : ∀ {code : List Pending} {rom cache : Int} {i : Nat}
    {p : Pending}, Tracked set index rom cache code → code[i]? = some p →
    ∀ addr ∈ addressOf set index p, 0 ≤ addr ∧ addr / 256 ≤ maxPage ∧
      addr / 256 = if set.isJump p.mnemonic then ((code.take i).foldl track (rom, cache)).1
        else ((code.take i).foldl track (rom, cache)).2
  | [], _, _, _, _, _, h => by simp at h
  | q :: rest, rom, cache, 0, p, htrack, h => by
    simp only [List.getElem?_cons_zero, Option.some.injEq] at h
    subst h
    intro addr haddr
    unfold Tracked at htrack
    by_cases hr : q.mnemonic = "CRP"
    · simp [addressOf, hr] at haddr
    by_cases hc : q.mnemonic = "CCP"
    · simp [addressOf, hc] at haddr
    simp only [hr, hc, if_false] at htrack
    simpa using htrack.1 addr haddr
  | q :: rest, rom, cache, i + 1, p, htrack, h => by
    simp only [List.getElem?_cons_succ] at h
    have hrest : Tracked set index (track (rom, cache) q).1 (track (rom, cache) q).2 rest := by
      unfold Tracked at htrack
      by_cases hr : q.mnemonic = "CRP"
      · simpa [track, hr] using htrack
      by_cases hc : q.mnemonic = "CCP"
      · simpa [track, hr, hc] using htrack
      simp only [hr, hc, if_false] at htrack
      simpa [track, hr, hc] using htrack.2
    simpa using tracked_at hrest h

/-! ### Finished instructions -/

@[simp] theorem finish_mnemonic (placed : Placement) (p : Pending) :
    (finish placed p).mnemonic = p.mnemonic := by
  cases h : p.argument <;> simp [finish, h]

@[simp] theorem finish_synthetic (placed : Placement) (p : Pending) :
    (finish placed p).synthetic = p.synthetic := by
  cases h : p.argument <;> simp [finish, h]

theorem countP_written_finish (placed : Placement) (code : List Pending) :
    (code.map (finish placed)).countP (fun i => !i.synthetic) =
      code.countP (fun p => !p.synthetic) := by
  simp [List.countP_map, Function.comp_def]

theorem getElem?_finish {placed : Placement} {code : List Pending} {i : Nat} {x : Instruction}
    (h : (code.map (finish placed))[i]? = some x) :
    ∃ p, code[i]? = some p ∧ finish placed p = x := by
  simpa [List.getElem?_map] using h

theorem finish_label {placed : Placement} {p : Pending} (h : (finish placed p).kind = .label) :
    ∃ id, p.argument = .label id ∧ (finish placed p).value = labelAt placed id := by
  cases harg : p.argument with
  | label id => exact ⟨id, rfl, by simp [finish, harg, labelAt]⟩
  | _ => simp [finish, harg] at h

theorem finish_emod {placed : Placement} {p : Pending} {a : Int}
    (ha : meant set placed p = some a) : (finish placed p).value % 256 = a % 256 := by
  cases harg : p.argument with
  | label id =>
    simp only [meant, harg, Option.ite_none_right_eq_some, Option.some.injEq] at ha
    simp [finish, harg, ← ha.2, labelAt]
  | pointer v =>
    simp only [meant, harg, Option.some.injEq] at ha
    simp [finish, harg, ha]
  | none => simp [meant, harg] at ha
  | integer v => simp [meant, harg] at ha

theorem addressOf_eq_meant {placed : Placement} {p : Pending} (hr : p.mnemonic ≠ "CRP")
    (hc : p.mnemonic ≠ "CCP") : addressOf set (labelAt placed) p = meant set placed p := by
  cases harg : p.argument <;> simp [addressOf, meant, hr, hc, harg]

/-! ### Runs keep the scan's pages -/

section Run

variable {placed : Placement} {code : List Pending}

theorem consistent_start : Consistent code ⟨0, 0, 0⟩ := by
  refine ⟨fun _ => ?_, fun _ => ?_⟩ <;> simp [pagesAt_zero, Agrees]

theorem Consistent.step (htrack : Tracked set (labelAt placed) 0 0 code)
    (hentry : EntriesAgree set code placed) {m m' : Machine} (hm : Consistent code m)
    (hs : Step set (code.map (finish placed)) m m') : Consistent code m' := by
  cases hs with
  | romSwitch r hx hmn hr =>
    obtain ⟨p, hp, rfl⟩ := getElem?_finish hx
    rw [finish_mnemonic] at hmn
    have hpages : pagesAt code (m.pc + 1) = (selectedPage p.argument, (pagesAt code m.pc).2) := by
      simp [pagesAt_succ hp, track, hmn]
    refine ⟨fun _ => ?_, fun _ => ?_⟩
    · rw [hpages]
      exact agrees_selected hr
    · rw [hpages]
      exact hm.2 (by simp [hp, hmn])
  | cacheSwitch c hx hmn hc =>
    obtain ⟨p, hp, rfl⟩ := getElem?_finish hx
    rw [finish_mnemonic] at hmn
    have hpages : pagesAt code (m.pc + 1) = ((pagesAt code m.pc).1, selectedPage p.argument) := by
      simp [pagesAt_succ hp, track, hmn]
    refine ⟨fun _ => ?_, fun _ => ?_⟩
    · rw [hpages]
      exact hm.1 (by simp [hp, hmn])
    · rw [hpages]
      exact agrees_selected hc
  | jump t hx hr hc hj hk ht =>
    obtain ⟨p, hp, rfl⟩ := getElem?_finish hx
    rw [finish_mnemonic] at hr hc hj
    obtain ⟨id, harg, hval⟩ := finish_label hk
    -- the scan holds the label's page at the jump, so the run's ROM page is that page and the
    -- jump lands on the label
    have haddr : addressOf set (labelAt placed) p = some (labelAt placed id) := by
      simp [addressOf, hr, hc, harg, hj]
    obtain ⟨h0, hmax, hpage⟩ := tracked_at htrack hp _ haddr
    have hscan : (pagesAt code m.pc).1 = labelAt placed id / 256 := by
      rw [if_pos hj] at hpage
      exact hpage.symm
    have hrom : m.rom = labelAt placed id / 256 := by
      rw [← hscan]
      exact hm.1 (by simp [hp, hr]) (by omega) (by omega)
    have htarget : t = (placed.getD id none).getD 0 := by
      rw [hval, hrom] at ht
      simp only [labelAt] at ht
      omega
    subst htarget
    obtain ⟨hrom', hcache'⟩ := hentry m.pc id p hp hr hc hj harg
    exact ⟨fun h => (hrom' h).trans (hm.1 (by simp [hp, hr])),
      fun h => (hcache' h).trans (hm.2 (by simp [hp, hc]))⟩
  | next hx hr hc _ _ =>
    obtain ⟨p, hp, rfl⟩ := getElem?_finish hx
    rw [finish_mnemonic] at hr hc
    have hpages : pagesAt code (m.pc + 1) = pagesAt code m.pc := by
      rw [pagesAt_succ hp, track_of_not_switch hr hc]
    exact ⟨fun _ => hpages ▸ hm.1 (by simp [hp, hr]), fun _ => hpages ▸ hm.2 (by simp [hp, hc])⟩

/-- Every point a run reaches agrees with the scan. -/
theorem reachable_consistent (htrack : Tracked set (labelAt placed) 0 0 code)
    (hentry : EntriesAgree set code placed) {m : Machine}
    (hm : Reachable set (code.map (finish placed)) m) : Consistent code m := by
  induction hm with
  | refl => exact consistent_start
  | tail _ hs ih => exact ih.step htrack hentry hs

theorem lands_of_consistent (htrack : Tracked set (labelAt placed) 0 0 code)
    (hswitch : ∀ p ∈ code, p.mnemonic = "CRP" ∨ p.mnemonic = "CCP" → meant set placed p = none)
    {m : Machine} (hm : Consistent code m) {p : Pending} (hp : code[m.pc]? = some p) :
    Lands set placed m p := by
  intro a ha
  have hmem : p ∈ code := List.mem_of_getElem? hp
  by_cases hr : p.mnemonic = "CRP"
  · simp [hswitch p hmem (Or.inl hr)] at ha
  by_cases hc : p.mnemonic = "CCP"
  · simp [hswitch p hmem (Or.inr hc)] at ha
  have haddr : addressOf set (labelAt placed) p = some a := by
    rw [addressOf_eq_meant hr hc]
    exact ha
  obtain ⟨h0, hmax, hpage⟩ := tracked_at htrack hp a haddr
  have hmod := finish_emod ha
  by_cases hj : set.isJump p.mnemonic = true
  · have hscan : (pagesAt code m.pc).1 = a / 256 := by
      rw [if_pos hj] at hpage
      exact hpage.symm
    have hrom : m.rom = a / 256 := by
      rw [← hscan]
      exact hm.1 (by simp [hp, hr]) (by omega) (by omega)
    rw [if_pos hj, hrom, hmod]
    omega
  · have hscan : (pagesAt code m.pc).2 = a / 256 := by
      rw [if_neg hj] at hpage
      exact hpage.symm
    have hcache : m.cache = a / 256 := by
      rw [← hscan]
      exact hm.2 (by simp [hp, hc]) (by omega) (by omega)
    rw [if_neg hj, hcache, hmod]
    omega

end Run

/-- **Pages are right on every path whose label entries agree with the scan.** For the code and
labels the fix-up makes of placed typed code: if every jump to a label brings the pages the
scan holds at the label (a switch at the label exempts the register it sets), and no page switch
is written with an address, then on every run from index 0 with both pages 0, every jump to a
label reaches the label's index, and every jump to a pointer and every other instruction with a
pointer reaches the pointer's value as typed. -/
theorem paths_reach_meant_addresses (set : InstructionSet) (n : Nat) (typed : List Element)
    (htyped : ∀ p, Element.instruction p ∈ typed → p.synthetic = false)
    {code code' : List Pending} {placed placed' : Placement}
    (hex : excise n typed = (code, placed))
    (hfix : fixPages set code placed = .ok (code', placed'))
    (hentry : EntriesAgree set code' placed')
    (hswitch : ∀ p ∈ code', p.mnemonic = "CRP" ∨ p.mnemonic = "CCP" → meant set placed' p = none)
    {m : Machine} (hm : Reachable set (code'.map (finish placed')) m) :
    ∀ p ∈ code'[m.pc]?, Lands set placed' m p := by
  obtain ⟨-, -, -, -, -, htrack⟩ := fixPages_blocks htyped hex hfix
  intro p hp
  exact lands_of_consistent htrack hswitch (reachable_consistent htrack hentry hm) hp

/-- `NOP / l: / LRA $300 / JMP $l`: the jump back to `l` enters the cache switch the label names,
so the load finds page 1 selected again. -/
theorem jump_to_switch_reaches_pointer :
    (∀ p, Element.instruction p ∈ [.instruction ⟨"NOP", .none, 1, Span.point 0, false⟩,
        .label 0, .instruction ⟨"LRA", .pointer 300, 2, Span.point 0, false⟩,
        .instruction ⟨"JMP", .label 0, 3, Span.point 0, false⟩] → p.synthetic = false) ∧
      excise 1 [.instruction ⟨"NOP", .none, 1, Span.point 0, false⟩, .label 0,
          .instruction ⟨"LRA", .pointer 300, 2, Span.point 0, false⟩,
          .instruction ⟨"JMP", .label 0, 3, Span.point 0, false⟩] =
        ([⟨"NOP", .none, 1, Span.point 0, false⟩, ⟨"LRA", .pointer 300, 2, Span.point 0, false⟩,
          ⟨"JMP", .label 0, 3, Span.point 0, false⟩], #[some 1]) ∧
      fixPages InstructionSet.standard
          [⟨"NOP", .none, 1, Span.point 0, false⟩, ⟨"LRA", .pointer 300, 2, Span.point 0, false⟩,
            ⟨"JMP", .label 0, 3, Span.point 0, false⟩] #[some 1] =
        .ok ([⟨"NOP", .none, 1, Span.point 0, false⟩, ⟨"CCP", .integer 1, 2, Span.point 0, true⟩,
          ⟨"LRA", .pointer 300, 2, Span.point 0, false⟩, ⟨"JMP", .label 0, 3, Span.point 0, false⟩],
          #[some 1]) ∧
      EntriesAgree InstructionSet.standard
        [⟨"NOP", .none, 1, Span.point 0, false⟩, ⟨"CCP", .integer 1, 2, Span.point 0, true⟩,
          ⟨"LRA", .pointer 300, 2, Span.point 0, false⟩, ⟨"JMP", .label 0, 3, Span.point 0, false⟩]
        #[some 1] ∧
      (∀ p ∈ ([⟨"NOP", .none, 1, Span.point 0, false⟩, ⟨"CCP", .integer 1, 2, Span.point 0, true⟩,
          ⟨"LRA", .pointer 300, 2, Span.point 0, false⟩,
          ⟨"JMP", .label 0, 3, Span.point 0, false⟩] : List Pending),
        p.mnemonic = "CRP" ∨ p.mnemonic = "CCP" → meant InstructionSet.standard #[some 1] p = none) ∧
      Reachable InstructionSet.standard
        (([⟨"NOP", .none, 1, Span.point 0, false⟩, ⟨"CCP", .integer 1, 2, Span.point 0, true⟩,
          ⟨"LRA", .pointer 300, 2, Span.point 0, false⟩,
          ⟨"JMP", .label 0, 3, Span.point 0, false⟩] : List Pending).map (finish #[some 1]))
        ⟨2, 0, 1⟩ ∧
      Lands InstructionSet.standard #[some 1] ⟨2, 0, 1⟩
        ⟨"LRA", .pointer 300, 2, Span.point 0, false⟩ := by
  have htyped : ∀ p, Element.instruction p ∈ [.instruction ⟨"NOP", .none, 1, Span.point 0, false⟩,
      .label 0, .instruction ⟨"LRA", .pointer 300, 2, Span.point 0, false⟩,
      .instruction ⟨"JMP", .label 0, 3, Span.point 0, false⟩] → p.synthetic = false := by
    intro p hp
    simp only [List.mem_cons, Element.instruction.injEq, List.not_mem_nil, or_false,
      reduceCtorEq, false_or] at hp
    rcases hp with rfl | rfl | rfl <;> rfl
  have hex : excise 1 [.instruction ⟨"NOP", .none, 1, Span.point 0, false⟩, .label 0,
      .instruction ⟨"LRA", .pointer 300, 2, Span.point 0, false⟩,
      .instruction ⟨"JMP", .label 0, 3, Span.point 0, false⟩] =
      ([⟨"NOP", .none, 1, Span.point 0, false⟩, ⟨"LRA", .pointer 300, 2, Span.point 0, false⟩,
        ⟨"JMP", .label 0, 3, Span.point 0, false⟩], #[some 1]) := rfl
  have hfix : fixPages InstructionSet.standard
      [⟨"NOP", .none, 1, Span.point 0, false⟩, ⟨"LRA", .pointer 300, 2, Span.point 0, false⟩,
        ⟨"JMP", .label 0, 3, Span.point 0, false⟩] #[some 1] =
      .ok ([⟨"NOP", .none, 1, Span.point 0, false⟩, ⟨"CCP", .integer 1, 2, Span.point 0, true⟩,
        ⟨"LRA", .pointer 300, 2, Span.point 0, false⟩, ⟨"JMP", .label 0, 3, Span.point 0, false⟩],
        #[some 1]) := by with_unfolding_all rfl
  have hentry : EntriesAgree InstructionSet.standard
      [⟨"NOP", .none, 1, Span.point 0, false⟩, ⟨"CCP", .integer 1, 2, Span.point 0, true⟩,
        ⟨"LRA", .pointer 300, 2, Span.point 0, false⟩, ⟨"JMP", .label 0, 3, Span.point 0, false⟩]
      #[some 1] := by
    intro i id p hp hr hc hj harg
    rcases i with _ | _ | _ | _ | i
    · cases hp
      exact absurd hj (by decide)
    · cases hp
      exact absurd rfl hc
    · cases hp
      exact absurd hj (by decide)
    · cases hp
      cases harg
      exact ⟨fun _ => by decide, fun h => absurd rfl h⟩
    · simp at hp
  have hswitch : ∀ p ∈ ([⟨"NOP", .none, 1, Span.point 0, false⟩,
      ⟨"CCP", .integer 1, 2, Span.point 0, true⟩, ⟨"LRA", .pointer 300, 2, Span.point 0, false⟩,
      ⟨"JMP", .label 0, 3, Span.point 0, false⟩] : List Pending),
      p.mnemonic = "CRP" ∨ p.mnemonic = "CCP" → meant InstructionSet.standard #[some 1] p = none := by
    intro p hp h
    simp only [List.mem_cons, List.not_mem_nil, or_false] at hp
    rcases hp with rfl | rfl | rfl | rfl <;> first | rfl | exact absurd h (by decide)
  have hm : Reachable InstructionSet.standard
      (([⟨"NOP", .none, 1, Span.point 0, false⟩, ⟨"CCP", .integer 1, 2, Span.point 0, true⟩,
        ⟨"LRA", .pointer 300, 2, Span.point 0, false⟩,
        ⟨"JMP", .label 0, 3, Span.point 0, false⟩] : List Pending).map (finish #[some 1]))
      ⟨2, 0, 1⟩ :=
    .tail (.tail (.tail (.tail (.tail .refl
      (.next rfl (by decide) (by decide) (by decide) (by decide) : Step _ _ ⟨0, 0, 0⟩ ⟨1, 0, 0⟩))
      (.cacheSwitch 1 rfl rfl (fun _ => rfl) : Step _ _ ⟨1, 0, 0⟩ ⟨2, 0, 1⟩))
      (.next rfl (by decide) (by decide) (by decide) (by decide) : Step _ _ ⟨2, 0, 1⟩ ⟨3, 0, 1⟩))
      (.jump 1 rfl (by decide) (by decide) rfl rfl (by decide) : Step _ _ ⟨3, 0, 1⟩ ⟨1, 0, 1⟩))
      (.cacheSwitch 1 rfl rfl (fun _ => rfl) : Step _ _ ⟨1, 0, 1⟩ ⟨2, 0, 1⟩)
  exact ⟨htyped, hex, hfix, hentry, hswitch, hm,
    paths_reach_meant_addresses _ _ _ htyped hex hfix hentry hswitch hm _ rfl⟩

/-- `LRA $300 / l: / LRA $301 / LRA $10 / JMP $l` compiles, but the jump back to `l` brings
cache page 0, selected for `LRA $10`, while the scan holds page 1 at `l`, so `LRA $301` then
loads from address 45. -/
theorem backward_jump_misses_cache_page :
    (compile {} "LRA $300\nl:\nLRA $301\nLRA $10\nJMP $l".toList).result.toOption.map
        Program.instructions =
      some (([⟨"CCP", .integer 1, 1, ⟨0, 8, by omega⟩, true⟩,
          ⟨"LRA", .pointer 300, 1, ⟨0, 8, by omega⟩, false⟩,
          ⟨"LRA", .pointer 301, 3, ⟨12, 20, by omega⟩, false⟩,
          ⟨"CCP", .integer 0, 4, ⟨21, 28, by omega⟩, true⟩,
          ⟨"LRA", .pointer 10, 4, ⟨21, 28, by omega⟩, false⟩,
          ⟨"JMP", .label 0, 5, ⟨29, 35, by omega⟩, false⟩] : List Pending).map (finish #[some 2])) ∧
      excise 1 [.instruction ⟨"LRA", .pointer 300, 1, ⟨0, 8, by omega⟩, false⟩, .label 0,
          .instruction ⟨"LRA", .pointer 301, 3, ⟨12, 20, by omega⟩, false⟩,
          .instruction ⟨"LRA", .pointer 10, 4, ⟨21, 28, by omega⟩, false⟩,
          .instruction ⟨"JMP", .label 0, 5, ⟨29, 35, by omega⟩, false⟩] =
        ([⟨"LRA", .pointer 300, 1, ⟨0, 8, by omega⟩, false⟩,
          ⟨"LRA", .pointer 301, 3, ⟨12, 20, by omega⟩, false⟩,
          ⟨"LRA", .pointer 10, 4, ⟨21, 28, by omega⟩, false⟩,
          ⟨"JMP", .label 0, 5, ⟨29, 35, by omega⟩, false⟩], #[some 1]) ∧
      fixPages InstructionSet.standard
          [⟨"LRA", .pointer 300, 1, ⟨0, 8, by omega⟩, false⟩,
            ⟨"LRA", .pointer 301, 3, ⟨12, 20, by omega⟩, false⟩,
            ⟨"LRA", .pointer 10, 4, ⟨21, 28, by omega⟩, false⟩,
            ⟨"JMP", .label 0, 5, ⟨29, 35, by omega⟩, false⟩] #[some 1] =
        .ok ([⟨"CCP", .integer 1, 1, ⟨0, 8, by omega⟩, true⟩,
          ⟨"LRA", .pointer 300, 1, ⟨0, 8, by omega⟩, false⟩,
          ⟨"LRA", .pointer 301, 3, ⟨12, 20, by omega⟩, false⟩,
          ⟨"CCP", .integer 0, 4, ⟨21, 28, by omega⟩, true⟩,
          ⟨"LRA", .pointer 10, 4, ⟨21, 28, by omega⟩, false⟩,
          ⟨"JMP", .label 0, 5, ⟨29, 35, by omega⟩, false⟩], #[some 2]) ∧
      Reachable InstructionSet.standard
        (([⟨"CCP", .integer 1, 1, ⟨0, 8, by omega⟩, true⟩,
          ⟨"LRA", .pointer 300, 1, ⟨0, 8, by omega⟩, false⟩,
          ⟨"LRA", .pointer 301, 3, ⟨12, 20, by omega⟩, false⟩,
          ⟨"CCP", .integer 0, 4, ⟨21, 28, by omega⟩, true⟩,
          ⟨"LRA", .pointer 10, 4, ⟨21, 28, by omega⟩, false⟩,
          ⟨"JMP", .label 0, 5, ⟨29, 35, by omega⟩, false⟩] : List Pending).map (finish #[some 2]))
        ⟨2, 0, 0⟩ ∧
      ¬Lands InstructionSet.standard #[some 2] ⟨2, 0, 0⟩
        ⟨"LRA", .pointer 301, 3, ⟨12, 20, by omega⟩, false⟩ := by
  refine ⟨by decide +kernel, rfl, by with_unfolding_all rfl, ?_, ?_⟩
  · exact .tail (.tail (.tail (.tail (.tail (.tail .refl
      (.cacheSwitch 1 rfl rfl (fun _ => rfl) : Step _ _ ⟨0, 0, 0⟩ ⟨1, 0, 1⟩))
      (.next rfl (by decide) (by decide) (by decide) (by decide) : Step _ _ ⟨1, 0, 1⟩ ⟨2, 0, 1⟩))
      (.next rfl (by decide) (by decide) (by decide) (by decide) : Step _ _ ⟨2, 0, 1⟩ ⟨3, 0, 1⟩))
      (.cacheSwitch 0 rfl rfl (fun _ => rfl) : Step _ _ ⟨3, 0, 1⟩ ⟨4, 0, 0⟩))
      (.next rfl (by decide) (by decide) (by decide) (by decide) : Step _ _ ⟨4, 0, 0⟩ ⟨5, 0, 0⟩))
      (.jump 2 rfl (by decide) (by decide) rfl rfl (by decide) : Step _ _ ⟨5, 0, 0⟩ ⟨2, 0, 0⟩)
  · intro h
    have h301 := h 301 rfl
    simp [finish] at h301

end Paging

end PagedAsm
