import PagedAsm.Proofs.Expansion.Mnemonics
import PagedAsm.Proofs.Peephole.ProgramSize
import PagedAsm.Proofs.Image.RoundTrip

/-!
# Compiled programs can be written as images

Writing a program as an image fails on an instruction whose mnemonic has no opcode, on an
include name with a byte from `0x80` on, and on an include section over 65535 bytes. A compiled
program never has the first: its instructions are those of statements headed by mnemonics of
the set, the loads and stores of strings, and the page switches of the fix-up
(`fixPages_code`), so when the set has `LRA`, `SRA`, `CRP` and `CCP` every one has an opcode.
Its operands fit their words: integers, pointers and bare instructions hold a byte, and the code
has at most 65536 instructions. A label operand holds the final index of its label
(`LabelOperandsFinal`): where the written instruction the label stands before begins in the
code, with the page switches the fix-up put before it, at most the length of the code. Writing
the program then fails exactly on the names of its includes (`compiled_programs_encode`).
-/

namespace PagedAsm

/-! ### The bytes of a name -/

theorem ascii_iff_utf8EncodeChar (c : Char) :
    c.toNat < 0x80 ↔ ∀ b ∈ String.utf8EncodeChar c, b < 0x80 := by
  have hhigh : ∀ y z : UInt8, 0x80 ≤ z → ¬(y ||| z) < 0x80 := by
    intro y z hz h
    have h1 : z ≤ y ||| z := UInt8.right_le_or
    simp only [UInt8.le_iff_toNat_le, UInt8.lt_iff_toNat_lt] at hz h h1
    omega
  have hone : c.utf8Size = 1 ↔ c.toNat < 0x80 := by
    rw [Char.utf8Size_eq_one_iff, UInt32.le_iff_toNat_le]
    have h2 : c.toNat = c.val.toNat := rfl
    have h3 : (127 : UInt32).toNat = 127 := rfl
    omega
  rcases hs : c.utf8Size with _ | _ | _ | _ | _ | n
  · have := Char.utf8Size_pos c
    omega
  · rw [String.utf8EncodeChar_eq_singleton hs]
    have hlt := hone.1 hs
    simp only [List.mem_singleton, forall_eq, hlt, true_iff]
    have h2 : c.toNat = c.val.toNat := rfl
    rw [UInt8.lt_iff_toNat_lt, UInt32.toNat_toUInt8]
    show c.val.toNat % 256 < 128
    omega
  · rw [String.utf8EncodeChar_eq_cons_cons hs]
    simp [hhigh _ 0xc0 (by decide)]
    omega
  · rw [String.utf8EncodeChar_eq_cons_cons_cons hs]
    simp [hhigh _ 0xe0 (by decide)]
    omega
  · rw [String.utf8EncodeChar_eq_cons_cons_cons_cons hs]
    simp [hhigh _ 0xf0 (by decide)]
    omega
  · have := Char.utf8Size_le_four c
    omega

theorem toList_toUTF8 (s : String) :
    s.toUTF8.toList = s.toList.flatMap String.utf8EncodeChar := by
  have h := String.toByteArray_ofList (l := s.toList)
  rw [String.ofList_toList] at h
  rw [String.toUTF8_eq_toByteArray, h, byteArray_toList]
  simp [List.utf8Encode]

theorem ascii_iff_bytes (s : String) :
    (∀ c ∈ s.toList, c.toNat < 0x80) ↔ ∀ b ∈ s.toUTF8.toList, b < 0x80 := by
  rw [toList_toUTF8]
  simp only [List.mem_flatMap]
  constructor
  · rintro h b ⟨c, hc, hb⟩
    exact (ascii_iff_utf8EncodeChar c).1 (h c hc) b hb
  · intro h c hc
    exact (ascii_iff_utf8EncodeChar c).2 fun b hb => h b ⟨c, hc, hb⟩

namespace Image

theorem build_ok_iff {includes : List String} {code : List UInt16} :
    (∃ img, build includes code = .ok img) ↔
      (∀ n ∈ includes, ∀ c ∈ n.toList, c.toNat < 0x80) ∧
        includeSectionSize includes ≤ maxIncludeSize := by
  constructor
  · rintro ⟨img, h⟩
    unfold build at h
    cases hfind : includes.find? (fun n => n.toList.any (·.toNat ≥ 0x80)) with
    | some bad =>
      rw [hfind] at h
      cases h
    | none =>
      rw [hfind] at h
      refine ⟨fun n hn c hc => ?_, ?_⟩
      · have hn' := List.find?_eq_none.1 hfind n hn
        simp only [List.any_eq_true, decide_eq_true_eq, not_exists, not_and, Nat.not_le] at hn'
        exact hn' c hc
      · unfold includeSectionSize
        by_contra hbig
        simp only [bind, Except.bind, pure, Except.pure] at h
        rw [if_pos (Nat.lt_of_not_le hbig)] at h
        cases h
  · rintro ⟨hascii, hsize⟩
    exact ⟨_, build_ok hascii hsize⟩

theorem assemble_ok_iff {set : InstructionSet} {prog : Program}
    (hknown : ∀ i ∈ prog.instructions, (set.opcode? i.mnemonic).isSome) :
    (∃ img, assemble set prog = .ok img) ↔
      (∀ n ∈ prog.includes, ∀ c ∈ n.toList, c.toNat < 0x80) ∧
        includeSectionSize prog.includes ≤ maxIncludeSize := by
  have hasm : assemble set prog = build prog.includes ((prog.instructions.map fun i =>
      Word.make i.memoryFlag (i.value % 256).toNat.toUInt8
        ((set.opcode? i.mnemonic).getD 0).toUInt8).map (·.bits)) := by
    simp only [assemble, mapM_encode hknown, bind, Except.bind, pure, Except.pure]
  rw [hasm]
  exact build_ok_iff

end Image

namespace InstructionSet

theorem opcode?_isSome (s : InstructionSet) (m : String) :
    (s.opcode? m).isSome = s.isMnemonic m := by
  simp [opcode?, isMnemonic]

end InstructionSet

/-! ### The code the fix-up leaves -/

namespace Paging

open Compilation

variable {set : InstructionSet}

theorem mem_flatten {bs : List Block} {p : Pending} (h : p ∈ flatten bs) :
    ∃ b ∈ bs, p = b.insn ∨ b.switch = some p := by
  simp only [flatten, List.mem_flatMap] at h
  obtain ⟨⟨sw, x⟩, hb, hp⟩ := h
  refine ⟨_, hb, ?_⟩
  cases sw with
  | none => simp_all [Block.toList]
  | some s =>
    simp only [Block.toList, List.mem_cons, List.not_mem_nil, or_false] at hp
    rcases hp with rfl | rfl
    · exact .inr rfl
    · exact .inl rfl

/-- What the fix-up leaves of written typed code whose labels are all placed: each instruction is
one of the typed code, or a page switch selecting a page. -/
theorem fixPages_code {n : Nat} {typed : List Element}
    (htyped : ∀ p, Element.instruction p ∈ typed → p.synthetic = false)
    {fixed : List Pending × Placement}
    (hfix : fixPages set (excise n typed).1 (excise n typed).2 = .ok fixed) :
    ∀ p ∈ fixed.1, Element.instruction p ∈ typed ∨
      ((p.mnemonic = "CRP" ∨ p.mnemonic = "CCP") ∧ ∃ page, p.argument = .integer page) := by
  rcases fixed with ⟨code', placed'⟩
  have hex : excise n typed = ((excise n typed).1, (excise n typed).2) := rfl
  obtain ⟨bs, rfl, hins, hwf, -, -⟩ := fixPages_blocks htyped hex hfix
  intro p hp
  obtain ⟨b, hb, hpb | hsw⟩ := mem_flatten hp
  · subst hpb
    have hmem : b.insn ∈ (excise n typed).1 := hins ▸ List.mem_map_of_mem hb
    exact .inl (mem_instructionsOf (by rwa [← excise_fst]))
  · obtain ⟨⟨-, hmn, page, harg, -⟩, -⟩ := (hwf b hb).2 p hsw
    refine .inr ⟨?_, page, harg⟩
    unfold switchFor at hmn
    split at hmn
    · exact .inl hmn
    · exact .inr hmn

end Paging

/-! ### Compiled programs -/

namespace Compilation

open Expand Expansion Paging

theorem finish_value_byte {placed : Placement} {p : Pending}
    (h : (finish placed p).kind ≠ .label) :
    0 ≤ (finish placed p).value ∧ (finish placed p).value < 256 := by
  cases harg : p.argument with
  | label id => simp [finish, harg] at h
  | none => simp [finish, harg]
  | integer v =>
    simp only [finish, harg]
    omega
  | pointer v =>
    simp only [finish, harg]
    omega

theorem mem_optimised {config : Config} {typed : List Element} {p : Pending}
    (h : Element.instruction p ∈ optimised config typed) : Element.instruction p ∈ typed := by
  unfold optimised at h
  split at h
  · exact (Peephole.dropLoads_sublist config.set none typed).subset h
  · exact h

/-- The typed code that compiling `source` lays out, and the number of its labels: the source
read as a document, expanded from the top and typed. -/
def TypedFrom (config : Config) (source : List Char) (labels : Nat) (typed : List Element) :
    Prop :=
  ∃ doc items s₁ s₂, (tokenize source >>= Document.ofTokens) = .ok doc ∧
    exec (run config config.maxDepth Context.top (topNodes doc))
        (recorded {} (.parsed doc.depth)) = (.ok items, s₁) ∧
    exec (Typing.elements config.set items)
        (recorded s₁ (.expanded items.length s₁.labelNames.size)) = (.ok typed, s₂) ∧
    labels = s₂.labelNames.size

/-- Index `k` of the code is where its written instruction `j` (from 0), with the page switches
put before it, begins: before `k` stand exactly `j` written instructions, the last of them right
before `k`. -/
def FinalIndex (code : List Instruction) (j k : Nat) : Prop :=
  (code.take k).countP (fun i => !i.synthetic) = j ∧
    ∀ i ∈ (code.take k).getLast?, i.synthetic = false

/-- Every label operand of `code` holds the final index of its label. The operand at index `k`
is the written instruction of the placed code `placedCode.1` numbered by the written ones before
`k`; it names a label that `placedCode.2` places before written instruction `j`; and its value is
where that instruction begins in `code`. -/
def LabelOperandsFinal (placedCode : List Pending × Placement) (code : List Instruction) :
    Prop :=
  ∀ k i, code[k]? = some i → i.kind = .label →
    ∃ p id j, placedCode.1[(code.take k).countP (fun i => !i.synthetic)]? = some p ∧
      p.mnemonic = i.mnemonic ∧ p.argument = .label id ∧ placedCode.2[id]? = some (some j) ∧
      0 ≤ i.value ∧ i.value ≤ (code.length : Int) ∧ FinalIndex code j i.value.toNat

/-- Laid out code holds the final index of each label in each label operand. -/
theorem layout_labels_final {config : Config} {names : Array String} {typed : List Element}
    {code : List Instruction}
    (htyped : ∀ p, Element.instruction p ∈ optimised config typed → p.synthetic = false)
    (h : layout config names typed = .ok code) :
    LabelOperandsFinal (excise names.size (optimised config typed)) code := by
  obtain ⟨hplaced, fixed, hfix, -, rfl⟩ := layout_ok h
  have hex : excise names.size (optimised config typed) =
      ((excise names.size (optimised config typed)).1,
        (excise names.size (optimised config typed)).2) := rfl
  intro k i hi hk
  obtain ⟨q, hq, rfl⟩ := getElem?_finish hi
  obtain ⟨id, harg, hval⟩ := finish_label hk
  -- a page switch selects a page, so the operand is a written instruction
  have hwritten : q.synthetic = false := by
    rcases fixPages_code htyped hfix q (List.mem_of_getElem? hq) with hty | ⟨-, page, hpage⟩
    · exact htyped q hty
    · rw [hpage] at harg
      cases harg
  have hat := fixPages_written_at htyped hex hfix hq hwritten
  obtain ⟨j, hj⟩ := placed_of_unplaced?_eq_none hplaced q (List.mem_of_getElem? hat) id harg
  obtain ⟨j', hj', hlen, hcount, hlast⟩ := fixPages_moves_label htyped hex hfix hj
  have hlabel : (finish fixed.2 q).value = j' := by
    rw [hval]
    simp [labelAt, Array.getD_eq_getD_getElem?, hj']
  refine ⟨q, id, j, ?_, (finish_mnemonic _ q).symm, harg, hj, ?_, ?_, ?_, ?_⟩
  · rwa [← List.map_take, countP_written_finish]
  · omega
  · rw [List.length_map]
    omega
  · rw [hlabel, Int.toNat_natCast, ← List.map_take, countP_written_finish]
    exact hcount
  · rw [hlabel, Int.toNat_natCast, ← List.map_take, List.getLast?_map]
    intro x hx
    obtain ⟨s, hs, rfl⟩ := Option.map_eq_some_iff.1 hx
    rw [finish_synthetic]
    exact hlast s hs

/-- **Compiled programs can be written.** When the instruction set has `LRA`, `SRA`, `CRP` and
`CCP`, every program that compiles has an opcode for every mnemonic; integer, pointer and bare
operands are bytes; a label operand holds the final index of its label, from 0 to the length of
the code; there are at most 65536 instructions; and writing the program as an image fails
exactly when an include name has a byte from `0x80` on, or the names with their line ends take
more than 65535 bytes. -/
theorem compiled_programs_encode {config : Config} {source : List Char} {prog : Program}
    (hset : ∀ m ∈ ["LRA", "SRA", "CRP", "CCP"], config.set.isMnemonic m = true)
    (h : (compile config source).result = .ok prog) :
    (∀ i ∈ prog.instructions, (config.set.opcode? i.mnemonic).isSome) ∧
      (∀ i ∈ prog.instructions, i.kind ≠ .label → 0 ≤ i.value ∧ i.value < 256) ∧
      (∃ labels typed, TypedFrom config source labels typed ∧
        LabelOperandsFinal (excise labels (optimised config typed)) prog.instructions) ∧
      prog.instructions.length ≤ 65536 ∧
      ((∃ img, Image.assemble config.set prog = .ok img) ↔
        (∀ n ∈ prog.includes, ∀ b ∈ n.toUTF8.toList, b < 0x80) ∧
          Image.includeSectionSize prog.includes ≤ maxIncludeSize) := by
  cases hread : (tokenize source >>= Document.ofTokens) with
  | error d =>
    rw [compile_of_unread hread] at h
    cases h
  | ok doc =>
    rw [compile_of_read hread] at h
    obtain ⟨items, s₁, code, s₂, hrun, hres, rfl⟩ := assemble_ok (Prod.ext h rfl)
    obtain ⟨typed, htyping, hlay⟩ := resolve_ok hres
    obtain ⟨-, fixed, hfix, hsize, hcode⟩ := layout_ok hlay
    have hitems := run_mnemonics config ⟨hset "LRA" (by simp), hset "SRA" (by simp)⟩ _ hrun
    have hkept : ∀ p, Element.instruction p ∈ optimised config typed →
        config.set.isMnemonic p.mnemonic = true ∧ p.synthetic = false := by
      intro p hp
      obtain ⟨⟨m, o, hmem, hm⟩, hw⟩ := elements_instructions htyping p (mem_optimised hp)
      exact ⟨hm ▸ hitems m o hmem, hw⟩
    have hfixed := fixPages_code (fun p hp => (hkept p hp).2) hfix
    have hknown : ∀ i ∈ code, (config.set.opcode? i.mnemonic).isSome := by
      intro i hi
      rw [hcode] at hi
      obtain ⟨p, hp, rfl⟩ := List.mem_map.1 hi
      rw [finish_mnemonic, InstructionSet.opcode?_isSome]
      rcases hfixed p hp with hty | ⟨hsw, -⟩
      · exact (hkept p hty).1
      · rcases hsw with hsw | hsw <;> rw [hsw] <;> exact hset _ (by simp)
    refine ⟨hknown, ?_, ⟨_, typed, ⟨doc, items, s₁, s₂, hread, hrun, htyping, rfl⟩,
      layout_labels_final (fun p hp => (hkept p hp).2) hlay⟩, ?_, ?_⟩
    · intro i hi hk
      rw [hcode] at hi
      obtain ⟨p, -, rfl⟩ := List.mem_map.1 hi
      exact finish_value_byte hk
    · rw [hcode, List.length_map]
      exact List.getElem?_eq_none_iff.1 hsize
    · rw [Image.assemble_ok_iff hknown]
      simp only [ascii_iff_bytes]

/-- A program that includes a package, loads from past the first cache page and jumps to a label
is written as an image: the load needs a cache switch, and the jump lands on the last
instruction. -/
theorem include_load_jump_encode :
    (∀ m ∈ ["LRA", "SRA", "CRP", "CCP"], InstructionSet.standard.isMnemonic m = true) ∧
      ∃ prog, (compile {} "INCLUDE terminal\nLRA $300\nJMP $done\ndone:\nHALT".toList).result =
          .ok prog ∧
        prog.instructions.length ≤ 65536 ∧ ∃ img, Image.assemble .standard prog = .ok img := by
  have hset : ∀ m ∈ ["LRA", "SRA", "CRP", "CCP"], InstructionSet.standard.isMnemonic m = true := by
    decide +kernel
  have hinc : ((compile {} "INCLUDE terminal\nLRA $300\nJMP $done\ndone:\nHALT".toList).result
      |>.toOption.map Program.includes) = some ["terminal"] := by
    decide +kernel
  cases hres : (compile {} "INCLUDE terminal\nLRA $300\nJMP $done\ndone:\nHALT".toList).result with
  | error d =>
    rw [hres] at hinc
    cases hinc
  | ok prog =>
    rw [hres] at hinc
    have hprog : prog.includes = ["terminal"] := by simpa [Except.toOption] using hinc
    obtain ⟨-, -, -, hlen, hasm⟩ := compiled_programs_encode hset hres
    refine ⟨hset, prog, rfl, hlen, hasm.2 ⟨?_, ?_⟩⟩
    · rw [hprog]
      intro n hn
      rw [List.mem_singleton.1 hn]
      decide +kernel
    · rw [hprog]
      decide +kernel

end Compilation

end PagedAsm
