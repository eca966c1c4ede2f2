import PagedAsm.Proofs.Image.Layout
import Mathlib.Data.List.Forall2
import Mathlib.Data.List.Nodup

/-!
# Reading and writing executable images

`Readable` is the grammar of an executable: a header of the CPU's version, an even code size, a
body exactly as long as the header says, and an include section that is empty or ends in a line
end. Reading accepts exactly the readable byte strings, and writing what was read gives the
bytes back (`decode_accepts_exactly_readable`).

The other way round, assembling instructions with known mnemonics and ASCII include names that
fit the header always succeeds, and reading the bytes back gives the header, the words and the
names (`encode_then_decode`). A word gives back its instruction's opcode and mnemonic, because
the opcodes of the instruction set are distinct and below 128. An include name comes back cut
at its line ends, since the include section has no other separator
(`line_end_splits_include`); names without line ends come back as they were written.
-/

namespace PagedAsm

namespace InstructionSet

variable {s : InstructionSet} {m : String} {op : Nat}

theorem mem_of_opcode? (h : s.opcode? m = some op) :
    ∃ e ∈ s.entries, e.mnemonic = m ∧ e.opcode = op := by
  obtain ⟨e, he, rfl⟩ := Option.map_eq_some_iff.1 h
  exact ⟨e, List.mem_of_find?_eq_some he, by simpa using List.find?_some he, rfl⟩

theorem mnemonic?_opcode? (hnodup : (s.entries.map (·.opcode)).Nodup)
    (h : s.opcode? m = some op) : s.mnemonic? op = some m := by
  obtain ⟨e, hmem, hm, rfl⟩ := mem_of_opcode? h
  cases hfind : s.entries.find? (·.opcode == e.opcode) with
  | none =>
    have := List.find?_eq_none.1 hfind e hmem
    simp at this
  | some e' =>
    have hmem' := List.mem_of_find?_eq_some hfind
    have hop : e'.opcode = e.opcode := by simpa using List.find?_some hfind
    have : e' = e := List.inj_on_of_nodup_map hnodup hmem' hmem hop
    simp [mnemonic?, hfind, this, hm]

theorem standard_opcodes_nodup : (standard.entries.map (·.opcode)).Nodup := by decide

theorem standard_opcode_lt : ∀ e ∈ standard.entries, e.opcode < 128 := by decide

end InstructionSet

namespace Image

/-! ## Reading -/

/-- The include-section size that the header of `data` records. -/
def includeSizeField (data : List UInt8) : Nat := ofLittleEndian ((data.drop 4).take 2)

/-- The code-section size that the header of `data` records. -/
def codeSizeField (data : List UInt8) : Nat := ofLittleEndian ((data.drop 6).take 4)

/-- The byte strings that are executables: a whole header naming the CPU's version, an even code
size, a body of the recorded sizes, and an include section that is empty or ends in a line
end. -/
def Readable (data : List UInt8) : Prop :=
  headerSize ≤ data.length ∧ data.take 4 = InstructionSet.cpuVersion ∧
    codeSizeField data % 2 = 0 ∧
    data.length - headerSize = includeSizeField data + codeSizeField data ∧
    (includeSizeField data = 0 ∨ data[headerSize + includeSizeField data - 1]? = some 0x0A)

instance (data : List UInt8) : Decidable (Readable data) :=
  inferInstanceAs (Decidable (_ ∧ _ ∧ _ ∧ _ ∧ _))

theorem header_bytes {data : List UInt8} (h : headerSize ≤ data.length) :
    data.take 4 ++ littleEndian 2 (includeSizeField data) ++
      littleEndian 4 (codeSizeField data) = data.take headerSize := by
  have h2 : ((data.drop 4).take 2).length = 2 := by simp [headerSize] at h ⊢; omega
  have h4 : ((data.drop 6).take 4).length = 4 := by simp [headerSize] at h ⊢; omega
  have e2 : littleEndian 2 (includeSizeField data) = (data.drop 4).take 2 := by
    have := littleEndian_ofLittleEndian ((data.drop 4).take 2)
    rwa [h2] at this
  have e4 : littleEndian 4 (codeSizeField data) = (data.drop 6).take 4 := by
    have := littleEndian_ofLittleEndian ((data.drop 6).take 4)
    rwa [h4] at this
  rw [e2, e4, ← List.take_add, show 6 = 4 + 2 from rfl, ← List.take_add]
  rfl

theorem section_bytes {sec : List UInt8} (h : sec.getLast? = some 0x0A) :
    ((splitLines sec.dropLast).map (· ++ [0x0A])).flatten = sec := by
  obtain ⟨ys, rfl⟩ := List.getLast?_eq_some_iff.1 h
  rw [List.dropLast_concat, names_splitOn]

theorem getLast?_section {data : List UInt8}
    (hbody : data.length - headerSize = includeSizeField data + codeSizeField data) :
    ((data.drop headerSize).take (includeSizeField data)).getLast? =
      if includeSizeField data = 0 then none
      else data[headerSize + includeSizeField data - 1]? := by
  rw [List.getLast?_eq_getElem?]
  split
  · simp [*]
  · rw [List.getElem?_take, List.getElem?_drop]
    simp only [List.length_take, List.length_drop]
    rw [if_pos (by omega)]
    congr 1
    omega

theorem bytes_of_read {data : List UInt8} (hlen : headerSize ≤ data.length)
    (hbody : data.length - headerSize = includeSizeField data + codeSizeField data)
    (hodd : codeSizeField data % 2 = 0) {names : List (List UInt8)}
    (hnames : (names.map (· ++ [0x0A])).flatten =
      (data.drop headerSize).take (includeSizeField data)) :
    bytes ⟨⟨data.take 4, includeSizeField data, codeSizeField data⟩, names,
      wordsOf ((data.drop headerSize).drop (includeSizeField data))⟩ = data := by
  have hcode : ((data.drop headerSize).drop (includeSizeField data)).length % 2 = 0 := by
    simp only [List.length_drop]
    omega
  simp only [bytes]
  rw [header_bytes hlen, hnames, words_wordsOf _ hcode, List.append_assoc, List.take_append_drop,
    List.take_append_drop]

theorem decode_ok {data : List UInt8} {img : Image} (h : decode data = .ok img) :
    Readable data ∧ img.bytes = data := by
  unfold decode at h
  simp only [bind, Except.bind, pure, Except.pure, throw, throwThe, MonadExceptOf.throw] at h
  split at h; · cases h
  rename_i hlen
  split at h; · cases h
  rename_i hver
  split at h; · cases h
  rename_i hodd
  split at h; · cases h
  rename_i hbody
  generalize hI : ofLittleEndian ((data.drop 4).take 2) = I at h hbody
  generalize hA : ofLittleEndian ((data.drop 6).take 4) = A at h hbody hodd
  have hIf : includeSizeField data = I := hI
  have hAf : codeSizeField data = A := hA
  have hlen' : headerSize ≤ data.length := by omega
  have hver' : data.take 4 = InstructionSet.cpuVersion := Decidable.of_not_not hver
  have hodd' : A % 2 = 0 := by omega
  have hbody' : data.length - headerSize = I + A := by
    simp only [List.length_drop] at hbody
    omega
  have hsec := @getLast?_section data (by rw [hIf, hAf]; exact hbody')
  rw [hIf] at hsec
  split at h
  · rename_i hnone
    cases h
    have hempty := List.getLast?_eq_none_iff.1 hnone
    have hI0 : I = 0 := by
      rcases List.take_eq_nil_iff.1 hempty with h0 | h0
      · exact h0
      · simp only [List.drop_eq_nil_iff] at h0
        omega
    refine ⟨⟨hlen', hver', hAf ▸ hodd', hIf ▸ hAf ▸ hbody', .inl (hIf ▸ hI0)⟩, ?_⟩
    rw [← hIf, ← hAf]
    exact bytes_of_read hlen' (hIf ▸ hAf ▸ hbody') (hAf ▸ hodd') (by rw [hIf, hempty]; rfl)
  · -- a section that ends in a line end
    rename_i hlast
    cases h
    have hend : includeSizeField data = 0 ∨
        data[headerSize + includeSizeField data - 1]? = some 0x0A := by
      by_cases hI0 : I = 0
      · exact .inl (hIf ▸ hI0)
      · rw [hlast, if_neg hI0] at hsec
        exact .inr (hIf ▸ hsec.symm)
    refine ⟨⟨hlen', hver', hAf ▸ hodd', hIf ▸ hAf ▸ hbody', hend⟩, ?_⟩
    rw [← hIf, ← hAf]
    exact bytes_of_read hlen' (hIf ▸ hAf ▸ hbody') (hAf ▸ hodd') (section_bytes (hIf ▸ hlast))
  · cases h

theorem decode_readable {data : List UInt8} (h : Readable data) :
    ∃ img, decode data = .ok img := by
  obtain ⟨hlen, hver, hodd, hbody, hend⟩ := h
  have hsec := getLast?_section hbody
  unfold decode
  simp only [bind, Except.bind, pure, Except.pure, throw, throwThe, MonadExceptOf.throw]
  split
  · omega
  split
  · contradiction
  split
  · rename_i hne
    exact absurd hodd hne
  split
  · rename_i hne
    simp only [List.length_drop] at hne
    exact absurd hbody hne
  split
  · exact ⟨_, rfl⟩
  · exact ⟨_, rfl⟩
  · rename_i v hv hlast
    change (((data.drop headerSize).take (includeSizeField data)).getLast? = some v) at hlast
    rw [hsec] at hlast
    rcases hend with h0 | hnl
    · simp [h0] at hlast
    · rw [if_neg (by rintro h0; simp [h0] at hlast), hnl] at hlast
      exact absurd (Option.some.inj hlast).symm hv

/-- Reading accepts exactly the readable byte strings, and writing an image that was read gives
back the bytes it was read from. -/
theorem decode_accepts_exactly_readable (data : List UInt8) :
    ((∃ img, decode data = .ok img) ↔ Readable data) ∧
      ∀ img, decode data = .ok img → img.bytes = data :=
  ⟨⟨fun ⟨_, h⟩ => (decode_ok h).1, decode_readable⟩, fun _ h => (decode_ok h).2⟩

example : Readable [0x31, 0x2E, 0x31, 0x20, 2, 0, 2, 0, 0, 0, 0x41, 0x0A, 5, 6] := by decide

example : ¬ Readable [0x31, 0x2E, 0x31, 0x20, 2, 0, 2, 0, 0, 0, 0x41, 0x42, 5, 6] := by decide

/-! ## Writing, then reading -/

theorem getLast?_names {names : List (List UInt8)} (h : names ≠ []) :
    ((names.map (· ++ [0x0A])).flatten).getLast? = some 0x0A := by
  rw [flatten_names_eq_intercalate h, List.getLast?_concat]

theorem decode_bytes {img : Image} (hver : img.header.version = InstructionSet.cpuVersion)
    (hinc : img.header.includeSize = ((img.includes.map (· ++ [0x0A])).flatten).length)
    (hincs : img.header.includeSize < 2 ^ 16)
    (hcode : img.header.codeSize = 2 * img.code.length) (hcodes : img.header.codeSize < 2 ^ 32) :
    decode img.bytes =
      .ok ⟨img.header, (img.includes.map (·.splitOn 0x0A)).flatten, img.code⟩ := by
  obtain ⟨⟨v, I, A⟩, names, code⟩ := img
  simp only at hver hinc hincs hcode hcodes
  subst hver
  generalize hsec : (names.map (· ++ [0x0A])).flatten = sec at hinc
  generalize hws : (code.map fun w => littleEndian 2 w.toNat).flatten = ws
  have hwsl : ws.length = A := by rw [← hws, length_words, hcode]
  have hsplit : bytes ⟨⟨InstructionSet.cpuVersion, I, A⟩, names, code⟩ =
      InstructionSet.cpuVersion ++ (littleEndian 2 I ++ (littleEndian 4 A ++ (sec ++ ws))) := by
    simp [bytes, hsec, hws]
  have hv : InstructionSet.cpuVersion.length = 4 := rfl
  generalize hd : InstructionSet.cpuVersion ++
    (littleEndian 2 I ++ (littleEndian 4 A ++ (sec ++ ws))) = d at hsplit
  have hlen : d.length = headerSize + I + A := by
    subst hd
    simp [hv, hwsl, headerSize, hinc]
    omega
  have h4 : d.take 4 = InstructionSet.cpuVersion := by subst hd; simp [hv]
  have h2 : (d.drop 4).take 2 = littleEndian 2 I := by subst hd; simp [hv]
  have h6 : (d.drop 6).take 4 = littleEndian 4 A := by
    subst hd
    simp [List.drop_append, hv, List.drop_of_length_le]
  have hbody : d.drop headerSize = sec ++ ws := by
    subst hd
    simp [List.drop_append, hv, headerSize, List.drop_of_length_le]
  rw [hsplit]
  unfold decode
  simp only [bind, Except.bind, pure, Except.pure, throw, throwThe, MonadExceptOf.throw, h4, h2,
    h6, hbody, ofLittleEndian_littleEndian]
  have hI : I % 256 ^ 2 = I := Nat.mod_eq_of_lt (by simpa using hincs)
  have hA : A % 256 ^ 4 = A := Nat.mod_eq_of_lt (by simpa using hcodes)
  rw [hI, hA, if_neg (by omega), if_neg (by simp), if_neg (by omega),
    if_neg (by simp [hinc, hwsl]), hinc, List.take_left, List.drop_left]
  have hcode' : wordsOf ws = code := by rw [← hws, wordsOf_words]
  by_cases hne : names = []
  · subst hne hsec
    simp [hcode']
  · rw [← hsec, getLast?_names hne]
    simp only [splitOn_names hne, hcode']

theorem length_bytes (img : Image) :
    img.bytes.length = img.header.version.length + 6 +
      ((img.includes.map (· ++ [0x0A])).flatten).length + 2 * img.code.length := by
  simp only [bytes, List.length_append, length_littleEndian, length_words]

theorem splitOn_names_of_no_line_end {names : List (List UInt8)}
    (h : ∀ n ∈ names, 0x0A ∉ n) : (names.map (·.splitOn 0x0A)).flatten = names := by
  induction names with
  | nil => rfl
  | cons n ns ih =>
    rw [List.map_cons, List.flatten_cons, List.splitOn_eq_singleton (h n (by simp)),
      ih (fun n' hn' => h n' (by simp [hn']))]
    rfl

/-- The size of the include section of `includes`: each name and its line end. -/
def includeSectionSize (includes : List String) : Nat :=
  (includes.map (·.utf8ByteSize + 1)).foldr (· + ·) 0

theorem length_names (includes : List String) :
    ((includes.map (·.toUTF8.toList)).map (· ++ [0x0A])).flatten.length =
      includeSectionSize includes := by
  induction includes with
  | nil => rfl
  | cons n ns ih =>
    simp only [includeSectionSize, List.map_cons, List.flatten_cons, List.length_append,
      List.foldr_cons] at ih ⊢
    rw [ih, length_toList_toUTF8]
    simp

theorem build_ok {includes : List String} {code : List UInt16}
    (hascii : ∀ n ∈ includes, ∀ c ∈ n.toList, c.toNat < 0x80)
    (hsize : includeSectionSize includes ≤ maxIncludeSize) :
    build includes code = .ok ⟨⟨InstructionSet.cpuVersion, includeSectionSize includes,
      2 * code.length⟩, includes.map (·.toUTF8.toList), code⟩ := by
  have hfind : includes.find? (fun n => n.toList.any (·.toNat ≥ 0x80)) = none := by
    apply List.find?_eq_none.2
    intro n hn
    simpa using hascii n hn
  unfold build
  simp only [hfind, bind, Except.bind, pure, Except.pure, throw, throwThe, MonadExceptOf.throw]
  rw [if_neg (by unfold includeSectionSize at hsize; omega)]
  rfl

theorem mapM_encode {set : InstructionSet} {code : List Instruction}
    (h : ∀ i ∈ code, (set.opcode? i.mnemonic).isSome) :
    code.mapM (Instruction.encode set) = .ok (code.map fun i =>
      Word.make i.memoryFlag (i.value % 256).toNat.toUInt8
        ((set.opcode? i.mnemonic).getD 0).toUInt8) := by
  induction code with
  | nil => rfl
  | cons i code ih =>
    obtain ⟨op, hop⟩ := Option.isSome_iff_exists.1 (h i (by simp))
    have hi : i.encode set =
        .ok (Word.make i.memoryFlag (i.value % 256).toNat.toUInt8 op.toUInt8) := by
      simp [Instruction.encode, hop]
    rw [List.mapM_cons, hi, ih (fun j hj => h j (by simp [hj]))]
    simp [hop, bind, Except.bind, pure, Except.pure]

end Image

namespace Word

/-- A word says what an instruction is: its opcode is the instruction's and names its mnemonic
back, its flag is the instruction's memory flag, and its value is the operand modulo 256. -/
def Encodes (set : InstructionSet) (w : Word) (i : Instruction) : Prop :=
  set.opcode? i.mnemonic = some w.opcode.toNat ∧ set.mnemonic? w.opcode.toNat = some i.mnemonic ∧
    w.flag = i.memoryFlag ∧ (w.value.toNat : Int) = i.value % 256

theorem encodes_make {i : Instruction} {op : Nat}
    (hop : InstructionSet.standard.opcode? i.mnemonic = some op) :
    (make i.memoryFlag (i.value % 256).toNat.toUInt8 op.toUInt8).Encodes .standard i := by
  obtain ⟨e, hmem, -, rfl⟩ := InstructionSet.mem_of_opcode? hop
  have hlt := InstructionSet.standard_opcode_lt e hmem
  have hopcode : (make i.memoryFlag (i.value % 256).toNat.toUInt8 e.opcode.toUInt8).opcode.toNat =
      e.opcode := by
    rw [toNat_opcode_make]
    simp [Nat.toUInt8_eq, UInt8.toNat_ofNat']
    omega
  have hnonneg : 0 ≤ i.value % 256 := Int.emod_nonneg _ (by decide)
  have hsmall : (i.value % 256).toNat < 256 := by omega
  refine ⟨by rw [hopcode, hop], ?_, flag_make _ _ _, ?_⟩
  · rw [hopcode]
    exact InstructionSet.mnemonic?_opcode? InstructionSet.standard_opcodes_nodup hop
  · simp [Nat.toUInt8_eq, UInt8.toNat_ofNat', Nat.mod_eq_of_lt hsmall]
    omega

end Word

namespace Image

/-- Writing instructions of the standard set with ASCII include names that fit the header, and
reading the bytes back: writing succeeds with the size the header gives, and reading gives the
header, one word per instruction saying what the instruction is, and the names cut at their line
ends; names without line ends come back as they were. -/
theorem encode_then_decode (includes : List String) (code : List Instruction)
    (hascii : ∀ n ∈ includes, ∀ c ∈ n.toList, c.toNat < 0x80)
    (hsize : includeSectionSize includes ≤ maxIncludeSize)
    (hcount : code.length < 2 ^ 31)
    (hknown : ∀ i ∈ code, (InstructionSet.standard.opcode? i.mnemonic).isSome) :
    ∃ img bs img', assemble .standard ⟨code, includes, []⟩ = .ok img ∧
      encode .standard includes code = .ok bs ∧
      bs.length = img.size ∧ img.size = headerSize + includeSectionSize includes + 2 * code.length ∧
      decode bs = .ok img' ∧
      img'.header = ⟨InstructionSet.cpuVersion, includeSectionSize includes, 2 * code.length⟩ ∧
      img'.includes = (includes.map fun n => n.toUTF8.toList.splitOn 0x0A).flatten ∧
      ((∀ n ∈ includes, 0x0A ∉ n.toUTF8.toList) → img'.includes = includes.map (·.toUTF8.toList)) ∧
      List.Forall₂ (fun w i => (Word.mk w).Encodes .standard i) img'.code code := by
  generalize hws : code.map (fun i => Word.make i.memoryFlag (i.value % 256).toNat.toUInt8
    ((InstructionSet.standard.opcode? i.mnemonic).getD 0).toUInt8) = ws
  have hasm : assemble .standard ⟨code, includes, []⟩ = build includes (ws.map (·.bits)) := by
    simp only [assemble, Image.mapM_encode hknown, hws, bind, Except.bind, pure, Except.pure]
  have hn : (ws.map (·.bits)).length = code.length := by simp [← hws]
  have hbuild := @build_ok includes (ws.map (·.bits)) hascii hsize
  rw [hn] at hbuild
  have hdecode := @decode_bytes ⟨⟨InstructionSet.cpuVersion, includeSectionSize includes,
      2 * code.length⟩, includes.map (·.toUTF8.toList), ws.map (·.bits)⟩ rfl
    (length_names includes).symm
    (by show includeSectionSize includes < 2 ^ 16; unfold maxIncludeSize at hsize; omega)
    (by show 2 * code.length = 2 * (ws.map (·.bits)).length; rw [hn])
    (by show 2 * code.length < 2 ^ 32; omega)
  refine ⟨_, _, _, hasm.trans hbuild, by simp [encode, hasm, hbuild, Except.map], ?_, ?_,
    hdecode, rfl, by rw [List.map_map]; rfl, ?_, ?_⟩
  · rw [length_bytes, length_names, hn]
    rfl
  · rfl
  · intro hnl
    exact splitOn_names_of_no_line_end (by simpa using hnl)
  · rw [← hws, List.map_map]
    apply List.forall₂_map_left_iff.2 (List.forall₂_same.2 fun i hi => ?_)
    obtain ⟨op, hop⟩ := Option.isSome_iff_exists.1 (hknown i hi)
    simpa [hop] using Word.encodes_make hop

theorem terminal_program_reads_back :
    (∀ n ∈ ["terminal"], ∀ c ∈ n.toList, c.toNat < 0x80) ∧
      includeSectionSize ["terminal"] ≤ maxIncludeSize ∧
      [(⟨"LRA", .pointer, 300, 1, Span.point 0, false⟩ : Instruction)].length < 2 ^ 31 ∧
      (∀ i ∈ [(⟨"LRA", .pointer, 300, 1, Span.point 0, false⟩ : Instruction)],
        (InstructionSet.standard.opcode? i.mnemonic).isSome) ∧
      ∃ bs img', encode .standard ["terminal"]
          [⟨"LRA", .pointer, 300, 1, Span.point 0, false⟩] = .ok bs ∧
        decode bs = .ok img' ∧ img'.header = ⟨InstructionSet.cpuVersion, 9, 2⟩ ∧
        List.Forall₂ (fun w i => (Word.mk w).Encodes .standard i) img'.code
          [⟨"LRA", .pointer, 300, 1, Span.point 0, false⟩] := by
  have hascii : ∀ n ∈ ["terminal"], ∀ c ∈ n.toList, c.toNat < 0x80 := by simp
  have hsize : includeSectionSize ["terminal"] ≤ maxIncludeSize := by decide
  have hcount : [(⟨"LRA", .pointer, 300, 1, Span.point 0, false⟩ : Instruction)].length < 2 ^ 31 := by
    decide
  have hknown : ∀ i ∈ [(⟨"LRA", .pointer, 300, 1, Span.point 0, false⟩ : Instruction)],
      (InstructionSet.standard.opcode? i.mnemonic).isSome := by decide
  obtain ⟨_, bs, img', -, henc, -, -, hdec, hhdr, -, -, hwords⟩ :=
    encode_then_decode ["terminal"] _ hascii hsize hcount hknown
  exact ⟨hascii, hsize, hcount, hknown, bs, img', henc, hdec, hhdr, hwords⟩

/-- A name with a line end in it is read back as two names. -/
theorem line_end_splits_include :
    ∃ bs img, encode .standard ["a\nb"] [] = .ok bs ∧ decode bs = .ok img ∧
      ["a\nb"].map (·.toUTF8.toList) = [[0x61, 0x0A, 0x62]] ∧ img.includes = [[0x61], [0x62]] := by
  have hname : "a\nb".toUTF8.toList = [0x61, 0x0A, 0x62] := by
    rw [String.toUTF8_eq_toByteArray, byteArray_toList]
    decide
  have hbuild := @build_ok ["a\nb"] [] (by simp) (by decide)
  have hasm : assemble .standard ⟨[], ["a\nb"], []⟩ = build ["a\nb"] [] := rfl
  have hdec := @decode_bytes ⟨⟨InstructionSet.cpuVersion, includeSectionSize ["a\nb"],
      2 * ([] : List UInt16).length⟩, ["a\nb"].map (·.toUTF8.toList), []⟩ rfl
    (length_names ["a\nb"]).symm (by decide) rfl (by decide)
  refine ⟨_, _, by simp [encode, hasm, hbuild, Except.map], hdec, by rw [List.map_singleton, hname], ?_⟩
  simp only [List.map_cons, List.map_nil, hname]
  decide

end Image

end PagedAsm
