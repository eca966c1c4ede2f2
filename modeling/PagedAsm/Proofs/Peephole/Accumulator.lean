import PagedAsm.Proofs.Paging.FixPages
import PagedAsm.Assembly.Compile
import Mathlib.Data.List.Induction

/-!
# What the accumulator is known to hold around dropped loads

Dropping loads follows a scan of typed code (`learn`): an immediate load makes its value modulo
256 known, and a label, a load that is not immediate or an instruction that may change the
accumulator makes it unknown. A load is dropped where the scan knows its value (`redundant`).

The page fix-up runs after that and puts synthetic switches into the code. `restore` puts the
dropped loads back into the fixed-up code where they stood among the labels and the written
instructions. Scanning the result, a put-back load finds its value known exactly when no
synthetic instruction that the instruction set counts as changing the accumulator stands after
the last load before it (`put_back_load_known_iff`). In the standard set a `CRP` keeps the
accumulator and a `CCP` does not, so a cache switch put before a store hides a dropped load
(`cache_switch_hides_dropped_load`).
-/

namespace PagedAsm

/-- Whether an element is an instruction that the page fix-up made. -/
def Element.synthetic : Element → Bool
  | .label _ => false
  | .instruction p => p.synthetic

@[simp] theorem Element.synthetic_label (l : Nat) : (Element.label l).synthetic = false := rfl

@[simp] theorem Element.synthetic_instruction (p : Pending) :
    (Element.instruction p).synthetic = p.synthetic := rfl

namespace Paging

@[simp] theorem instructionsOf_nil : instructionsOf [] = [] := rfl

@[simp] theorem instructionsOf_label_cons (l : Nat) (es : List Element) :
    instructionsOf (.label l :: es) = instructionsOf es := rfl

@[simp] theorem instructionsOf_instruction_cons (p : Pending) (es : List Element) :
    instructionsOf (.instruction p :: es) = p :: instructionsOf es := rfl

@[simp] theorem instructionsOf_append (es es' : List Element) :
    instructionsOf (es ++ es') = instructionsOf es ++ instructionsOf es' := by
  simp [instructionsOf]

@[simp] theorem instructionsOf_map (code : List Pending) :
    instructionsOf (code.map Element.instruction) = code := by
  induction code with
  | nil => rfl
  | cons p ps ih => rw [List.map_cons, instructionsOf_instruction_cons, ih]

end Paging

namespace Peephole

open Paging

variable (set : InstructionSet)

/-- What the accumulator is known to hold, modulo 256, after an element, when it was known to
hold `known` before it. -/
def learn (known : Option Int) : Element → Option Int
  | .label _ => none
  | .instruction p =>
    if p.mnemonic = "LRA" then (immediate? p.argument).map (· % 256)
    else if set.isNonModifying p.mnemonic then known else none

/-- What the accumulator is known to hold before the element at index `i`, scanning from the
start of the code with nothing known. -/
def knownBefore (es : List Element) (i : Nat) : Option Int :=
  (es.take i).foldl (learn set) none

/-- Whether an instruction loads the value the accumulator is known to hold. -/
def redundant (known : Option Int) (p : Pending) : Bool :=
  p.mnemonic == "LRA" && (immediate? p.argument).any fun v => known == some (v % 256)

/-- A synthetic instruction that may change the accumulator stands in the code, with no load
after it. -/
def SwitchedSinceLoad (es : List Element) : Prop :=
  ∃ a s b, es = a ++ .instruction s :: b ∧ s.synthetic = true ∧
    set.isNonModifying s.mnemonic = false ∧ ∀ q, Element.instruction q ∈ b → q.mnemonic ≠ "LRA"

/-- Typed code `es` with the loads that `dropLoads` drops from it put back into `code`, the code
the page fix-up made of the instructions it kept: labels and dropped loads stand where they
stood in `es`, and each kept instruction takes from `code` the synthetic instructions before it
and itself. Each entry says whether it is a load put back. -/
def restore : Option Int → List Element → List Pending → List (Bool × Element)
  | _, [], code => code.map fun q => (false, .instruction q)
  | _, .label id :: es, code => (false, .label id) :: restore none es code
  | known, .instruction p :: es, code =>
    if redundant known p then (true, .instruction p) :: restore known es code
    else
      let rest := code.dropWhile (·.synthetic)
      (code.takeWhile (·.synthetic) ++ rest.take 1).map (fun q => (false, .instruction q)) ++
        restore (learn set known (.instruction p)) es (rest.drop 1)

variable {set}

theorem redundant_iff {known : Option Int} {p : Pending} :
    redundant known p = true ↔
      p.mnemonic = "LRA" ∧ ∃ v, immediate? p.argument = some v ∧ known = some (v % 256) := by
  unfold redundant
  cases immediate? p.argument <;> simp

theorem learn_of_redundant {known : Option Int} {p : Pending} (h : redundant known p = true) :
    learn set known (.instruction p) = known := by
  obtain ⟨hl, v, hv, rfl⟩ := redundant_iff.1 h
  simp [learn, hl, hv]

theorem dropLoads_label (known : Option Int) (id : Nat) (es : List Element) :
    dropLoads set known (.label id :: es) = .label id :: dropLoads set none es := rfl

theorem dropLoads_instruction (known : Option Int) (p : Pending) (es : List Element) :
    dropLoads set known (.instruction p :: es) =
      if redundant known p then dropLoads set known es
      else .instruction p :: dropLoads set (learn set known (.instruction p)) es := by
  by_cases hl : p.mnemonic = "LRA"
  · cases hv : immediate? p.argument with
    | none => simp [dropLoads, redundant, learn, hl, hv]
    | some v =>
      by_cases hk : known = some (v % 256) <;> simp [dropLoads, redundant, learn, hl, hv, hk]
  · by_cases hm : set.isNonModifying p.mnemonic <;> simp [dropLoads, redundant, learn, hl, hm]

theorem dropLoads_sublist (set : InstructionSet) :
    ∀ (known : Option Int) (es : List Element), (dropLoads set known es).Sublist es
  | _, [] => .slnil
  | _, .label _ :: es => (dropLoads_sublist set none es).cons_cons _
  | known, .instruction p :: es => by
    rw [dropLoads_instruction]
    split
    · exact (dropLoads_sublist set known es).cons _
    · exact (dropLoads_sublist set _ es).cons_cons _

theorem label_mem_dropLoads (set : InstructionSet) {id : Nat} (known : Option Int)
    (es : List Element) (h : Element.label id ∈ es) : Element.label id ∈ dropLoads set known es := by
  fun_induction dropLoads set known es <;> grind

theorem instruction_mem_dropLoads (set : InstructionSet) {p : Pending} (known : Option Int)
    (es : List Element) (h : Element.instruction p ∈ es) (hp : p.mnemonic ≠ "LRA") :
    Element.instruction p ∈ dropLoads set known es := by
  fun_induction dropLoads set known es <;> grind

/-! ### Scanning code with synthetic instructions -/

theorem foldl_learn_of_no_load :
    ∀ {b : List Element}, (∀ q, Element.instruction q ∈ b → q.mnemonic ≠ "LRA") →
      b.foldl (learn set) none = none
  | [], _ => rfl
  | e :: b, hb => by
    have he : learn set none e = none := by
      cases e with
      | label _ => rfl
      | instruction q =>
        have hq := hb q List.mem_cons_self
        by_cases hm : set.isNonModifying q.mnemonic <;> simp [learn, hq, hm]
    rw [List.foldl_cons, he]
    exact foldl_learn_of_no_load fun q hq => hb q (List.mem_cons_of_mem _ hq)

theorem SwitchedSinceLoad.snoc {es : List Element} (h : SwitchedSinceLoad set es) {e : Element}
    (he : ∀ q, e = .instruction q → q.mnemonic ≠ "LRA") : SwitchedSinceLoad set (es ++ [e]) := by
  obtain ⟨a, s, b, rfl, hs, hm, hb⟩ := h
  refine ⟨a, s, b ++ [e], by simp, hs, hm, fun q hq => ?_⟩
  rcases List.mem_append.1 hq with hq | hq
  · exact hb q hq
  · exact he q (List.mem_singleton.1 hq).symm

theorem foldl_learn_of_switched {es : List Element} (h : SwitchedSinceLoad set es)
    (hsw : ∀ q, Element.instruction q ∈ es → q.synthetic = true → q.mnemonic ≠ "LRA")
    (known : Option Int) : es.foldl (learn set) known = none := by
  obtain ⟨a, s, b, rfl, hs, hm, hb⟩ := h
  have hsl : s.mnemonic ≠ "LRA" := hsw s (by simp) hs
  rw [List.foldl_append, List.foldl_cons]
  have : learn set (a.foldl (learn set) known) (.instruction s) = none := by
    simp [learn, hsl, hm]
  rw [this]
  exact foldl_learn_of_no_load hb

theorem foldl_learn_written {es : List Element} (h : ¬SwitchedSinceLoad set es)
    (hsw : ∀ q, Element.instruction q ∈ es → q.synthetic = true → q.mnemonic ≠ "LRA")
    (known : Option Int) :
    es.foldl (learn set) known = (es.filter (!·.synthetic)).foldl (learn set) known := by
  induction es using List.reverseRecOn with
  | nil => rfl
  | append_singleton es e ih =>
    have hsw' : ∀ q, Element.instruction q ∈ es → q.synthetic = true → q.mnemonic ≠ "LRA" :=
      fun q hq => hsw q (List.mem_append_left _ hq)
    have hbefore (he : ∀ q, e = .instruction q → q.mnemonic ≠ "LRA") :
        es.foldl (learn set) known = (es.filter (!·.synthetic)).foldl (learn set) known :=
      ih (fun hs => h (hs.snoc he)) hsw'
    rw [List.filter_append, List.foldl_append, List.foldl_append]
    cases e with
    | label _ => simp [learn]
    | instruction q =>
      by_cases hl : q.mnemonic = "LRA"
      · have hq : q.synthetic = false :=
          Bool.eq_false_iff.2 fun hq => hsw q (by simp) hq hl
        simp [learn, hl, hq]
      · have hq := hbefore fun q' hq' => by cases hq'; exact hl
        cases hs : q.synthetic with
        | false => simp [hs, hq]
        | true =>
          cases hm : set.isNonModifying q.mnemonic with
          | false => exact absurd ⟨es, q, [], rfl, hs, hm, by simp⟩ h
          | true => simp [learn, hs, hl, hm, hq]

/-! ### Putting dropped loads back -/

theorem switchFor_ne_load (p : Pending) : switchFor set p ≠ "LRA" := by
  unfold switchFor
  split <;> decide

theorem not_load_of_synthetic {bs : List Block} (hwf : ∀ b ∈ bs, b.WF set) {q : Pending}
    (hq : q ∈ flatten bs) (hs : q.synthetic = true) : q.mnemonic ≠ "LRA" := by
  obtain ⟨i, hi⟩ := List.mem_iff_getElem?.1 hq
  obtain ⟨x, -, -, -, -, hm, -⟩ := switch_before hwf i q hi hs
  rw [hm]
  exact switchFor_ne_load x

theorem flatten_cons_split {b : Block} (hb : b.WF set) (bs : List Block) :
    (flatten (b :: bs)).takeWhile (·.synthetic) ++
        ((flatten (b :: bs)).dropWhile (·.synthetic)).take 1 = b.toList ∧
      ((flatten (b :: bs)).dropWhile (·.synthetic)).drop 1 = flatten bs := by
  have hcons : flatten (b :: bs) = b.toList ++ flatten bs := by simp [flatten]
  rw [hcons]
  rcases b with ⟨_ | sw, x⟩
  all_goals obtain ⟨hx, hsw⟩ := hb; dsimp only at hx hsw
  · simp [Block.toList, hx]
  · have hs : sw.synthetic = true := (hsw sw rfl).1.1
    simp [Block.toList, hx, hs]

theorem mem_restore : ∀ {known : Option Int} {es : List Element} {code : List Pending}
    {e : Element}, e ∈ (restore set known es code).map Prod.snd →
      e ∈ es ∨ ∃ q ∈ code, e = .instruction q
  | _, [], code, e, h => by
    simp only [restore, List.map_map, List.mem_map, Function.comp_def] at h
    obtain ⟨q, hq, rfl⟩ := h
    exact .inr ⟨q, hq, rfl⟩
  | _, .label id :: es, code, e, h => by
    simp only [restore, List.map_cons, List.mem_cons] at h
    rcases h with rfl | h
    · exact .inl List.mem_cons_self
    · exact (mem_restore h).imp (List.mem_cons_of_mem _) fun h => h
  | known, .instruction p :: es, code, e, h => by
    simp only [restore] at h
    split at h
    · simp only [List.map_cons, List.mem_cons] at h
      rcases h with rfl | h
      · exact .inl List.mem_cons_self
      · exact (mem_restore h).imp (List.mem_cons_of_mem _) fun h => h
    · rw [List.map_append, List.mem_append] at h
      rcases h with h | h
      · simp only [List.map_map, List.mem_map, Function.comp_def] at h
        obtain ⟨q, hq, rfl⟩ := h
        refine .inr ⟨q, ?_, rfl⟩
        rcases List.mem_append.1 hq with hq | hq
        · exact (List.takeWhile_prefix _).subset hq
        · exact (List.dropWhile_suffix _).subset (List.mem_of_mem_take hq)
      · rcases mem_restore h with h | ⟨q, hq, rfl⟩
        · exact .inl (List.mem_cons_of_mem _ h)
        · exact .inr ⟨q, (List.dropWhile_suffix _).subset (List.mem_of_mem_drop hq), rfl⟩

theorem block_written {b : Block} (hb : b.WF set) :
    ((b.toList.map fun q => (false, Element.instruction q)).map Prod.snd).filter
      (!·.synthetic) = [.instruction b.insn] := by
  have h : (flatten [b]).filter (fun p => !p.synthetic) = [b].map Block.insn :=
    filter_flatten (by simpa using hb)
  simp only [flatten_singleton, List.map_cons, List.map_nil] at h
  rw [List.map_map, List.filter_map]
  simp [Function.comp_def, h]

section Blocks

variable {known : Option Int} {es : List Element} {bs : List Block}

theorem blocks_eq_nil (hbs : bs.map Block.insn = instructionsOf (dropLoads set known [])) :
    bs = [] := by
  simpa [dropLoads] using hbs

theorem restore_cons {e : Element} (he : e.synthetic = false) (hwf : ∀ b ∈ bs, b.WF set)
    (hbs : bs.map Block.insn = instructionsOf (dropLoads set known (e :: es))) :
    ∃ chunk bs', restore set known (e :: es) (flatten bs) =
        chunk ++ restore set (learn set known e) es (flatten bs') ∧
      (∀ b ∈ bs', b.WF set) ∧
      bs'.map Block.insn = instructionsOf (dropLoads set (learn set known e) es) ∧
      (chunk.map Prod.snd).filter (!·.synthetic) = [e] ∧
      flatten bs = instructionsOf ((chunk.filter (!·.1)).map Prod.snd) ++ flatten bs' ∧
      ∀ j e', chunk[j]? = some (true, e') →
        j = 0 ∧ ∃ p, e = .instruction p ∧ e' = e ∧ redundant known p = true := by
  cases e with
  | label l =>
    refine ⟨[(false, .label l)], bs, rfl, hwf, by simpa [dropLoads_label, learn] using hbs, rfl, rfl,
      ?_⟩
    intro j e' h
    cases j <;> simp at h
  | instruction p =>
    rw [dropLoads_instruction] at hbs
    cases hr : redundant known p with
    | true =>
      rw [if_pos hr, ← learn_of_redundant hr] at hbs
      refine ⟨[(true, .instruction p)], bs, ?_, hwf, hbs, by simpa using he, rfl, ?_⟩
      · simp [restore, hr, learn_of_redundant hr]
      · intro j e' h
        cases j <;> simp at h
        exact ⟨rfl, p, rfl, h.symm, hr⟩
    | false =>
      rw [if_neg (by simp [hr])] at hbs
      cases bs with
      | nil => simp at hbs
      | cons b bs' =>
        simp only [List.map_cons, instructionsOf_instruction_cons, List.cons.injEq] at hbs
        obtain ⟨rfl, hbs'⟩ := hbs
        obtain ⟨hb, hwf'⟩ := List.forall_mem_cons.1 hwf
        obtain ⟨h1, h2⟩ := flatten_cons_split hb bs'
        refine ⟨b.toList.map fun q => (false, .instruction q), bs', ?_, hwf', hbs',
          block_written hb, ?_, ?_⟩
        · simp only [restore, hr, Bool.false_eq_true, if_false, h1, h2]
        · simp only [flatten, List.flatMap_cons, List.filter_map, Function.comp_def,
            List.map_map, instructionsOf_map, Bool.not_false]
          rw [List.filter_eq_self.2 fun _ _ => rfl]
        · intro j e' h
          simpa using List.mem_of_getElem? h

theorem restore_written (hes : ∀ e ∈ es, e.synthetic = false) (hwf : ∀ b ∈ bs, b.WF set)
    (hbs : bs.map Block.insn = instructionsOf (dropLoads set known es)) :
    ((restore set known es (flatten bs)).map Prod.snd).filter (!·.synthetic) = es := by
  induction es generalizing known bs with
  | nil => rw [blocks_eq_nil hbs]; rfl
  | cons e es ih =>
    obtain ⟨he, hes'⟩ := List.forall_mem_cons.1 hes
    obtain ⟨chunk, bs', h, hwf', hbs', hwritten, -, -⟩ := restore_cons he hwf hbs
    rw [h, List.map_append, List.filter_append, hwritten, ih hes' hwf' hbs']
    rfl

theorem restore_kept_code (hes : ∀ e ∈ es, e.synthetic = false) (hwf : ∀ b ∈ bs, b.WF set)
    (hbs : bs.map Block.insn = instructionsOf (dropLoads set known es)) :
    instructionsOf (((restore set known es (flatten bs)).filter (!·.1)).map Prod.snd) =
      flatten bs := by
  induction es generalizing known bs with
  | nil => rw [blocks_eq_nil hbs]; rfl
  | cons e es ih =>
    obtain ⟨he, hes'⟩ := List.forall_mem_cons.1 hes
    obtain ⟨chunk, bs', h, hwf', hbs', -, hcode, -⟩ := restore_cons he hwf hbs
    rw [h, List.filter_append, List.map_append, instructionsOf_append, ih hes' hwf' hbs', hcode]

theorem restore_put_back (hes : ∀ e ∈ es, e.synthetic = false) (hwf : ∀ b ∈ bs, b.WF set)
    (hbs : bs.map Block.insn = instructionsOf (dropLoads set known es)) {i : Nat} {e : Element}
    (hi : (restore set known es (flatten bs))[i]? = some (true, e)) :
    ∃ p, e = .instruction p ∧ redundant ((((restore set known es (flatten bs)).map
      Prod.snd).take i).filter (!·.synthetic) |>.foldl (learn set) known) p = true := by
  induction es generalizing known bs i with
  | nil =>
    rw [blocks_eq_nil hbs] at hi
    simp [restore] at hi
  | cons e' es ih =>
    obtain ⟨he, hes'⟩ := List.forall_mem_cons.1 hes
    obtain ⟨chunk, bs', h, hwf', hbs', hwritten, -, hput⟩ := restore_cons he hwf hbs
    rw [h] at hi ⊢
    by_cases hlt : i < chunk.length
    · rw [List.getElem?_append_left hlt] at hi
      obtain ⟨rfl, p, rfl, rfl, hr⟩ := hput i e hi
      exact ⟨p, rfl, by simpa using hr⟩
    · have hle := Nat.le_of_not_lt hlt
      rw [List.getElem?_append_right hle] at hi
      obtain ⟨q, rfl, hq⟩ := ih hes' hwf' hbs' hi
      refine ⟨q, rfl, ?_⟩
      rw [List.map_append, List.take_append, List.take_of_length_le (by simpa using hle),
        List.filter_append, hwritten]
      simpa using hq

theorem restore_not_load (hes : ∀ e ∈ es, e.synthetic = false) (hwf : ∀ b ∈ bs, b.WF set)
    {q : Pending} (hq : Element.instruction q ∈ (restore set known es (flatten bs)).map Prod.snd)
    (hs : q.synthetic = true) : q.mnemonic ≠ "LRA" := by
  rcases mem_restore hq with h | ⟨q', hq', h⟩
  · simpa [hs] using hes _ h
  · cases h
    exact not_load_of_synthetic hwf hq' hs

end Blocks

/-- **What is known before a load put back.** Drop the redundant loads of typed code, place its
labels and fix up its pages, then put the dropped loads back (`restore`). Leaving the loads put
back out gives the fixed-up code, and leaving the synthetic instructions out gives the typed
code. Each entry put back is an immediate load, and scanning the restored code from the start
knows its value before it exactly when no synthetic instruction that may change the accumulator
stands after the last load before it. -/
theorem put_back_load_known_iff (set : InstructionSet) (n : Nat) (typed : List Element)
    (htyped : ∀ p, Element.instruction p ∈ typed → p.synthetic = false)
    {code code' : List Pending} {placed placed' : Placement}
    (hex : excise n (optimise set typed) = (code, placed))
    (hfix : fixPages set code placed = .ok (code', placed')) :
    instructionsOf (((restore set none typed code').filter (!·.1)).map Prod.snd) = code' ∧
      ((restore set none typed code').map Prod.snd).filter (!·.synthetic) = typed ∧
      ∀ (i : Nat) (p : Pending), (restore set none typed code')[i]? = some (true, .instruction p) →
        p.mnemonic = "LRA" ∧ ∃ v, immediate? p.argument = some v ∧
          (knownBefore set ((restore set none typed code').map Prod.snd) i = some (v % 256) ↔
            ¬SwitchedSinceLoad set (((restore set none typed code').map Prod.snd).take i)) := by
  have hopt : ∀ p, Element.instruction p ∈ optimise set typed → p.synthetic = false :=
    fun p hp => htyped p ((dropLoads_sublist set none typed).subset hp)
  have hes : ∀ e ∈ typed, e.synthetic = false := by
    intro e he
    cases e with
    | label _ => rfl
    | instruction p => exact htyped p he
  obtain ⟨bs', rfl, hinsns, hwf, -, -⟩ := fixPages_blocks hopt hex hfix
  have hbs : bs'.map Block.insn = instructionsOf (dropLoads set none typed) := by
    rw [hinsns, (excise_spec hex).1]
    rfl
  refine ⟨restore_kept_code hes hwf hbs, restore_written hes hwf hbs, fun i p hi => ?_⟩
  obtain ⟨q, hq, hred⟩ := restore_put_back hes hwf hbs hi
  cases hq
  obtain ⟨hl, v, hv, hknown⟩ := redundant_iff.1 hred
  refine ⟨hl, v, hv, ?_⟩
  have hsw : ∀ q, Element.instruction q ∈ ((restore set none typed (flatten bs')).map
      Prod.snd).take i → q.synthetic = true → q.mnemonic ≠ "LRA" :=
    fun q hq hs => restore_not_load hes hwf (List.mem_of_mem_take hq) hs
  unfold knownBefore
  constructor
  · intro h hswitched
    rw [foldl_learn_of_switched hswitched hsw] at h
    cases h
  · intro h
    rw [foldl_learn_written h hsw, hknown]

/-- `LRA 5 / SRA $10 / LRA 5`: the store needs no switch, the second load is dropped, and put back
it finds 5 known. -/
theorem store_in_page_keeps_load_known :
    (∀ p, Element.instruction p ∈ [.instruction ⟨"LRA", .integer 5, 1, Span.point 0, false⟩,
        .instruction ⟨"SRA", .pointer 10, 2, Span.point 0, false⟩,
        .instruction ⟨"LRA", .integer 5, 3, Span.point 0, false⟩] → p.synthetic = false) ∧
      excise 0 (optimise InstructionSet.standard
          [.instruction ⟨"LRA", .integer 5, 1, Span.point 0, false⟩,
            .instruction ⟨"SRA", .pointer 10, 2, Span.point 0, false⟩,
            .instruction ⟨"LRA", .integer 5, 3, Span.point 0, false⟩]) =
        ([⟨"LRA", .integer 5, 1, Span.point 0, false⟩, ⟨"SRA", .pointer 10, 2, Span.point 0, false⟩],
          #[]) ∧
      fixPages InstructionSet.standard
          [⟨"LRA", .integer 5, 1, Span.point 0, false⟩, ⟨"SRA", .pointer 10, 2, Span.point 0, false⟩]
          #[] =
        .ok ([⟨"LRA", .integer 5, 1, Span.point 0, false⟩,
          ⟨"SRA", .pointer 10, 2, Span.point 0, false⟩], #[]) ∧
      (restore InstructionSet.standard none
          [.instruction ⟨"LRA", .integer 5, 1, Span.point 0, false⟩,
            .instruction ⟨"SRA", .pointer 10, 2, Span.point 0, false⟩,
            .instruction ⟨"LRA", .integer 5, 3, Span.point 0, false⟩]
          [⟨"LRA", .integer 5, 1, Span.point 0, false⟩,
            ⟨"SRA", .pointer 10, 2, Span.point 0, false⟩])[2]? =
        some (true, .instruction ⟨"LRA", .integer 5, 3, Span.point 0, false⟩) ∧
      ("LRA" = "LRA" ∧ ∃ v, immediate? (.integer 5) = some v ∧
        (knownBefore InstructionSet.standard ((restore InstructionSet.standard none
            [.instruction ⟨"LRA", .integer 5, 1, Span.point 0, false⟩,
              .instruction ⟨"SRA", .pointer 10, 2, Span.point 0, false⟩,
              .instruction ⟨"LRA", .integer 5, 3, Span.point 0, false⟩]
            [⟨"LRA", .integer 5, 1, Span.point 0, false⟩,
              ⟨"SRA", .pointer 10, 2, Span.point 0, false⟩]).map Prod.snd) 2 = some (v % 256) ↔
          ¬SwitchedSinceLoad InstructionSet.standard (((restore InstructionSet.standard none
            [.instruction ⟨"LRA", .integer 5, 1, Span.point 0, false⟩,
              .instruction ⟨"SRA", .pointer 10, 2, Span.point 0, false⟩,
              .instruction ⟨"LRA", .integer 5, 3, Span.point 0, false⟩]
            [⟨"LRA", .integer 5, 1, Span.point 0, false⟩,
              ⟨"SRA", .pointer 10, 2, Span.point 0, false⟩]).map Prod.snd).take 2))) := by
  have htyped : ∀ p, Element.instruction p ∈ [.instruction ⟨"LRA", .integer 5, 1, Span.point 0, false⟩,
      .instruction ⟨"SRA", .pointer 10, 2, Span.point 0, false⟩,
      .instruction ⟨"LRA", .integer 5, 3, Span.point 0, false⟩] → p.synthetic = false := by
    intro p hp
    simp only [List.mem_cons, Element.instruction.injEq, List.not_mem_nil, or_false] at hp
    rcases hp with rfl | rfl | rfl <;> rfl
  have hex : excise 0 (optimise InstructionSet.standard
      [.instruction ⟨"LRA", .integer 5, 1, Span.point 0, false⟩,
        .instruction ⟨"SRA", .pointer 10, 2, Span.point 0, false⟩,
        .instruction ⟨"LRA", .integer 5, 3, Span.point 0, false⟩]) =
      ([⟨"LRA", .integer 5, 1, Span.point 0, false⟩, ⟨"SRA", .pointer 10, 2, Span.point 0, false⟩],
        #[]) := by decide +kernel
  have hfix : fixPages InstructionSet.standard
      [⟨"LRA", .integer 5, 1, Span.point 0, false⟩, ⟨"SRA", .pointer 10, 2, Span.point 0, false⟩]
      #[] =
      .ok ([⟨"LRA", .integer 5, 1, Span.point 0, false⟩,
        ⟨"SRA", .pointer 10, 2, Span.point 0, false⟩], #[]) := by with_unfolding_all rfl
  have hi : (restore InstructionSet.standard none
      [.instruction ⟨"LRA", .integer 5, 1, Span.point 0, false⟩,
        .instruction ⟨"SRA", .pointer 10, 2, Span.point 0, false⟩,
        .instruction ⟨"LRA", .integer 5, 3, Span.point 0, false⟩]
      [⟨"LRA", .integer 5, 1, Span.point 0, false⟩,
        ⟨"SRA", .pointer 10, 2, Span.point 0, false⟩])[2]? =
      some (true, .instruction ⟨"LRA", .integer 5, 3, Span.point 0, false⟩) := by decide +kernel
  exact ⟨htyped, hex, hfix, hi, (put_back_load_known_iff _ _ _ htyped hex hfix).2.2 2 _ hi⟩

/-- `LRA 5 / SRA $300 / LRA 5` compiles to `LRA 5 / CCP 1 / SRA $44`: the second load is dropped
before the fix-up puts `CCP 1` before the store, so put back after the store it finds nothing
known. -/
theorem cache_switch_hides_dropped_load :
    (compile {} "LRA 5\nSRA $300\nLRA 5".toList).result.toOption.map Program.instructions =
      some (([⟨"LRA", .integer 5, 1, ⟨0, 5, by omega⟩, false⟩,
          ⟨"CCP", .integer 1, 2, ⟨6, 14, by omega⟩, true⟩,
          ⟨"SRA", .pointer 300, 2, ⟨6, 14, by omega⟩, false⟩] : List Pending).map
        (Compilation.finish #[])) ∧
      optimise InstructionSet.standard
          [.instruction ⟨"LRA", .integer 5, 1, ⟨0, 5, by omega⟩, false⟩,
            .instruction ⟨"SRA", .pointer 300, 2, ⟨6, 14, by omega⟩, false⟩,
            .instruction ⟨"LRA", .integer 5, 3, ⟨15, 20, by omega⟩, false⟩] =
        [.instruction ⟨"LRA", .integer 5, 1, ⟨0, 5, by omega⟩, false⟩,
          .instruction ⟨"SRA", .pointer 300, 2, ⟨6, 14, by omega⟩, false⟩] ∧
      fixPages InstructionSet.standard
          [⟨"LRA", .integer 5, 1, ⟨0, 5, by omega⟩, false⟩,
            ⟨"SRA", .pointer 300, 2, ⟨6, 14, by omega⟩, false⟩] #[] =
        .ok ([⟨"LRA", .integer 5, 1, ⟨0, 5, by omega⟩, false⟩,
          ⟨"CCP", .integer 1, 2, ⟨6, 14, by omega⟩, true⟩,
          ⟨"SRA", .pointer 300, 2, ⟨6, 14, by omega⟩, false⟩], #[]) ∧
      restore InstructionSet.standard none
          [.instruction ⟨"LRA", .integer 5, 1, ⟨0, 5, by omega⟩, false⟩,
            .instruction ⟨"SRA", .pointer 300, 2, ⟨6, 14, by omega⟩, false⟩,
            .instruction ⟨"LRA", .integer 5, 3, ⟨15, 20, by omega⟩, false⟩]
          [⟨"LRA", .integer 5, 1, ⟨0, 5, by omega⟩, false⟩,
            ⟨"CCP", .integer 1, 2, ⟨6, 14, by omega⟩, true⟩,
            ⟨"SRA", .pointer 300, 2, ⟨6, 14, by omega⟩, false⟩] =
        [(false, .instruction ⟨"LRA", .integer 5, 1, ⟨0, 5, by omega⟩, false⟩),
          (false, .instruction ⟨"CCP", .integer 1, 2, ⟨6, 14, by omega⟩, true⟩),
          (false, .instruction ⟨"SRA", .pointer 300, 2, ⟨6, 14, by omega⟩, false⟩),
          (true, .instruction ⟨"LRA", .integer 5, 3, ⟨15, 20, by omega⟩, false⟩)] ∧
      knownBefore InstructionSet.standard
          [.instruction ⟨"LRA", .integer 5, 1, ⟨0, 5, by omega⟩, false⟩,
            .instruction ⟨"CCP", .integer 1, 2, ⟨6, 14, by omega⟩, true⟩,
            .instruction ⟨"SRA", .pointer 300, 2, ⟨6, 14, by omega⟩, false⟩,
            .instruction ⟨"LRA", .integer 5, 3, ⟨15, 20, by omega⟩, false⟩] 3 = none := by
  refine ⟨by decide +kernel, by decide +kernel, by with_unfolding_all rfl, by decide +kernel,
    by decide +kernel⟩

end Peephole

end PagedAsm
