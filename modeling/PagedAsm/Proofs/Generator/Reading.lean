import PagedAsm.Generator.Declarations
import PagedAsm.Proofs.Text.Numerals
import PagedAsm.Proofs.Image.RoundTrip

/-!
# Reading instruction set declarations

A declaration text is read exactly when each of its lines fits the reader's 64 KiB line buffer
and declares something, nothing, a package or an instruction, and no instruction shares its
mnemonic or its opcode with another (`Declarations.Reads`). The set read lists the declared
instructions and packages in order (`ofDeclarations_ok_iff`). Its table is then collision free:
a mnemonic and an opcode look each other up, and every opcode is below 128, so it passes
unchanged through the 7-bit opcode field of an instruction word.

A line that does not fit the buffer is refused, even a comment (`long_comment_line_refused`).
-/

namespace PagedAsm

namespace Declarations

/-! ## What a line declares -/

/-- What one line of a declaration text declares. -/
inductive Declaration where
  | blank
  | package (name : String)
  | op (entry : OpcodeEntry)

namespace Declaration

/-- The instructions a declaration adds to the set. -/
def entries : Declaration → List OpcodeEntry
  | op e => [e]
  | _ => []

/-- The packages a declaration adds to the set. -/
def packages : Declaration → List String
  | package name => [name]
  | _ => []

@[simp] theorem entries_blank : blank.entries = [] := rfl

@[simp] theorem entries_package (name : String) : (package name).entries = [] := rfl

@[simp] theorem entries_op (e : OpcodeEntry) : (op e).entries = [e] := rfl

@[simp] theorem packages_blank : blank.packages = [] := rfl

@[simp] theorem packages_package (name : String) : (package name).packages = [name] := rfl

@[simp] theorem packages_op (e : OpcodeEntry) : (op e).packages = [] := rfl

end Declaration

/-- The text of a 7-bit opcode: decimal digits, at least one, whose value is below 128. -/
def OpcodeNumeral (s : String) (v : Nat) : Prop :=
  s.toList ≠ [] ∧ (∀ c ∈ s.toList, c.isDigit) ∧ Nat.ofDigitChars 10 s.toList 0 = v ∧ v < 128

/-- `Declares fs d`: a line whose fields are `fs` declares `d`. -/
inductive Declares : List String → Declaration → Prop where
  | blank : Declares [] .blank
  | package (name : String) : Declares ["package", name] (.package name)
  | op {code mnemonic : String} {attrs : List String} {v : Nat} :
      OpcodeNumeral code v → (∀ a ∈ attrs, a = "nomod" ∨ a = "jump") →
      Declares ("op" :: code :: mnemonic :: attrs)
        (.op { mnemonic, opcode := v, nonModifying := "nomod" ∈ attrs, jump := "jump" ∈ attrs })

/-- Two instructions share neither their mnemonic nor their opcode. -/
def Apart (a b : OpcodeEntry) : Prop := a.mnemonic ≠ b.mnemonic ∧ a.opcode ≠ b.opcode

/-- `Reads text ds`: the lines of `text` declare `ds`, in order. Every line fits the reader's
buffer and declares something, and no two instructions declared share a mnemonic or an
opcode. -/
structure Reads (text : String) (ds : List Declaration) : Prop where
  fits : ∀ line ∈ rawLines text, line.utf8ByteSize ≤ maxLineBytes
  declares : List.Forall₂ (fun line d => Declares (lineFields line) d) (rawLines text) ds
  apart : (ds.flatMap Declaration.entries).Pairwise Apart

/-! ## Opcodes and attributes -/

theorem isDigit_of_digitValue? {c : Char} {d : Nat} (h : digitValue? c = some d) (hd : d < 10) :
    c.isDigit ∧ d = c.toNat - '0'.toNat := by
  unfold digitValue? at h
  split at h
  · rename_i hc
    refine ⟨?_, (Option.some.inj h).symm⟩
    simp only [Char.isDigit, Bool.and_eq_true, decide_eq_true_eq]
    exact hc
  · dsimp only at h
    split at h
    · cases h
      omega
    · cases h

theorem readDigits_decimal_ok {limit : Nat} {seen : Bool} :
    ∀ {cs : List Char} {acc v : Nat} {seen' : Bool}, acc ≤ limit →
      readDigits 10 limit false acc seen cs = .ok (v, seen') →
      (∀ c ∈ cs, c.isDigit) ∧ Nat.ofDigitChars 10 cs acc = v ∧ v ≤ limit ∧ seen' = seen
  | [], _, _, _, hacc, h => by
    cases h
    exact ⟨by simp, rfl, hacc, rfl⟩
  | c :: cs, acc, v, seen', hacc, h => by
    unfold readDigits at h
    rw [if_neg (by simp)] at h
    split at h
    · cases h
    · rename_i d hd
      split at h
      · cases h
      · split at h
        · cases h
        · obtain ⟨hc, rfl⟩ := isDigit_of_digitValue? hd (by omega)
          obtain ⟨hcs, hval, hv, hseen⟩ := readDigits_decimal_ok (by omega) h
          refine ⟨?_, ?_, hv, hseen⟩
          · rintro c' (_ | ⟨_, hc'⟩)
            · exact hc
            · exact hcs c' hc'
          · rw [← hval, Nat.mul_comm]
            rfl

theorem parseNat_opcode_ok_iff {s : String} {v : Nat} :
    parseNat (.fixed 10) 7 s = .ok v ↔ OpcodeNumeral s v := by
  have hlimit : Nat.pow 2 7 - 1 = 127 := rfl
  have hu : decide (Radix.fixed 10 = Radix.auto) = false := by decide
  unfold parseNat readUnsigned OpcodeNumeral
  rw [hlimit, hu]
  cases s.toList with
  | nil => simp
  | cons c cs =>
    simp only [List.isEmpty_cons, Bool.false_eq_true, if_false, splitPrefix, ne_eq,
      reduceCtorEq, not_false_eq_true, true_and]
    constructor
    · intro h
      split at h
      · cases h
      · rename_i n seen hread
        obtain ⟨hdig, hval, hle, rfl⟩ := readDigits_decimal_ok (Nat.zero_le _) hread
        simp only [Bool.false_eq_true, false_and, if_false, Except.ok.injEq] at h
        subst h
        exact ⟨hdig, hval, by omega⟩
    · rintro ⟨hdig, hval, hlt⟩
      rw [readDigits_decimal hdig (by omega)]
      simp [hval]

theorem withAttribute_ok_iff {n : Nat} {e e' : OpcodeEntry} {a : String} :
    withAttribute n e a = .ok e' ↔ (a = "nomod" ∨ a = "jump") ∧
      e' = { e with nonModifying := e.nonModifying || decide (a = "nomod"),
                    jump := e.jump || decide (a = "jump") } := by
  unfold withAttribute
  by_cases hn : a = "nomod"
  · subst hn
    cases e
    simp [eq_comm]
  · by_cases hj : a = "jump"
    · subst hj
      cases e
      simp [eq_comm]
    · simp [hn, hj]

theorem foldlM_withAttribute_ok_iff {n : Nat} :
    ∀ {attrs : List String} {e e' : OpcodeEntry},
      attrs.foldlM (withAttribute n) e = .ok e' ↔ (∀ a ∈ attrs, a = "nomod" ∨ a = "jump") ∧
        e' = { e with nonModifying := e.nonModifying || decide ("nomod" ∈ attrs),
                      jump := e.jump || decide ("jump" ∈ attrs) }
  | [], e, e' => by
    cases e
    simp only [List.foldlM_nil, List.not_mem_nil, decide_false, Bool.or_false]
    constructor
    · intro h
      cases h
      exact ⟨by simp, rfl⟩
    · rintro ⟨-, rfl⟩
      rfl
  | a :: attrs, e, e' => by
    rw [List.foldlM_cons]
    cases ha : withAttribute n e a with
    | error err =>
      constructor
      · intro h
        cases h
      rintro ⟨hall, -⟩
      have hok := (withAttribute_ok_iff (n := n) (e := e)).2 ⟨hall a (List.mem_cons_self ..), rfl⟩
      rw [ha] at hok
      cases hok
    | ok e₁ =>
      obtain ⟨hknown, rfl⟩ := withAttribute_ok_iff.1 ha
      show attrs.foldlM (withAttribute n) _ = .ok e' ↔ _
      rw [foldlM_withAttribute_ok_iff]
      cases e
      have hk : "nomod" = a ∨ "jump" = a := hknown.imp Eq.symm Eq.symm
      simp only [List.mem_cons, forall_eq_or_imp, Bool.decide_or, Bool.or_assoc, eq_comm (a := a),
        hk, true_and]

theorem instruction_ok_iff {n : Nat} {code mnemonic : String} {attrs : List String}
    {e : OpcodeEntry} :
    instruction n code mnemonic attrs = .ok e ↔ ∃ v, OpcodeNumeral code v ∧
      (∀ a ∈ attrs, a = "nomod" ∨ a = "jump") ∧
      e = { mnemonic, opcode := v, nonModifying := "nomod" ∈ attrs, jump := "jump" ∈ attrs } := by
  unfold instruction
  cases hp : parseNat (.fixed 10) 7 code with
  | error err =>
    simp only [reduceCtorEq, false_iff, not_exists, not_and]
    intro v hv
    rw [parseNat_opcode_ok_iff.2 hv] at hp
    cases hp
  | ok v =>
    have hv := parseNat_opcode_ok_iff.1 hp
    simp only [foldlM_withAttribute_ok_iff, Bool.false_or]
    constructor
    · rintro ⟨hall, rfl⟩
      exact ⟨v, hv, hall, rfl⟩
    · rintro ⟨v', hv', hall, rfl⟩
      have : v' = v := hv'.2.2.1.symm.trans hv.2.2.1
      subst this
      exact ⟨hall, rfl⟩

/-! ## Lines -/

theorem declares_unique {fs : List String} {d d' : Declaration} (h : Declares fs d)
    (h' : Declares fs d') : d = d' := by
  cases h with
  | blank => cases h'; rfl
  | package name =>
    generalize hfs : ["package", name] = fs at h'
    cases h' with
    | blank => cases hfs
    | package => cases hfs; rfl
    | op => simp at hfs
  | op hv hattrs =>
    generalize hfs : "op" :: _ :: _ :: _ = fs at h'
    cases h' with
    | blank => cases hfs
    | package => simp at hfs
    | op hv' hattrs' =>
      simp only [List.cons.injEq, true_and] at hfs
      obtain ⟨rfl, rfl, rfl⟩ := hfs
      rw [← hv.2.2.1, ← hv'.2.2.1]

theorem any_clash_eq_false_iff {entries : List OpcodeEntry} {e : OpcodeEntry} :
    entries.any (fun d => decide (d.mnemonic = e.mnemonic ∨ d.opcode = e.opcode)) = false ↔
      ∀ x ∈ entries, Apart x e := by
  simp [List.any_eq_false, Apart]

theorem declare_ok_iff {set set' : InstructionSet} {n : Nat} {fs : List String} :
    declare set n fs = .ok set' ↔ ∃ d, Declares fs d ∧
      (∀ x ∈ set.entries, ∀ y ∈ d.entries, Apart x y) ∧
      set' = ⟨set.entries ++ d.entries, set.packages ++ d.packages⟩ := by
  constructor
  · intro h
    unfold declare at h
    split at h
    · cases h
      exact ⟨.blank, .blank, by simp, by simp⟩
    · cases h
      exact ⟨.package _, .package _, by simp, by simp⟩
    · rename_i code mnemonic attrs
      cases hi : instruction n code mnemonic attrs with
      | error err => simp [hi, bind, Except.bind] at h
      | ok e =>
        simp only [hi, bind, Except.bind] at h
        split at h
        · cases h
        · rename_i hclash
          cases h
          obtain ⟨v, hv, hattrs, rfl⟩ := instruction_ok_iff.1 hi
          refine ⟨.op _, .op hv hattrs, ?_, by simp⟩
          intro x hx y hy
          rw [Declaration.entries_op, List.mem_singleton] at hy
          subst hy
          exact any_clash_eq_false_iff.1 (Bool.eq_false_iff.2 hclash) x hx
    · cases h
  · rintro ⟨d, hd, hapart, rfl⟩
    cases hd with
    | blank => simp [declare]
    | package name => simp [declare]
    | op hv hattrs =>
      simp only [declare, instruction_ok_iff.2 ⟨_, hv, hattrs, rfl⟩, bind, Except.bind]
      rw [if_neg (by rw [any_clash_eq_false_iff.2 fun x hx =>
        hapart x hx _ (List.mem_singleton_self _)]; simp)]
      simp [pure, Except.pure]

theorem readFrom_ok_iff {set set' : InstructionSet} {n : Nat} {lines : List String}
    (hset : set.entries.Pairwise Apart) :
    readFrom set n lines = .ok set' ↔
      (∀ line ∈ lines, line.utf8ByteSize ≤ maxLineBytes) ∧
      ∃ ds, List.Forall₂ (fun line d => Declares (lineFields line) d) lines ds ∧
        (set.entries ++ ds.flatMap Declaration.entries).Pairwise Apart ∧
        set' = ⟨set.entries ++ ds.flatMap Declaration.entries,
          set.packages ++ ds.flatMap Declaration.packages⟩ := by
  induction lines generalizing set n with
  | nil =>
    constructor
    · intro h
      cases h
      exact ⟨by simp, [], .nil, by simpa using hset, by simp⟩
    · rintro ⟨-, ds, hds, -, rfl⟩
      cases hds
      simp [readFrom]
  | cons line rest ih =>
    unfold readFrom
    by_cases hlong : line.utf8ByteSize > maxLineBytes
    · rw [if_pos hlong]
      constructor
      · intro h
        cases h
      · rintro ⟨hfits, -⟩
        exact absurd (hfits line (List.mem_cons_self ..)) (by omega)
    · rw [if_neg hlong]
      cases hd : declare set n (lineFields line) with
      | error err =>
        simp only [bind, Except.bind, reduceCtorEq, false_iff]
        rintro ⟨-, ds, hds, hpw, -⟩
        cases hds with
        | cons hdecl hrest =>
          rename_i d ds'
          rw [List.flatMap_cons, ← List.append_assoc] at hpw
          have hapart : ∀ x ∈ set.entries, ∀ y ∈ d.entries, Apart x y := fun x hx y hy =>
            (List.pairwise_append.1 (List.pairwise_append.1 hpw).1).2.2 x hx y hy
          have hok := (declare_ok_iff (n := n)).2 ⟨d, hdecl, hapart, rfl⟩
          rw [hd] at hok
          cases hok
      | ok mid =>
        obtain ⟨d, hdecl, hapart, rfl⟩ := declare_ok_iff.1 hd
        have hmid : (set.entries ++ d.entries).Pairwise Apart := by
          refine List.pairwise_append.2 ⟨hset, ?_, hapart⟩
          cases d <;> simp
        show readFrom _ (n + 1) rest = .ok set' ↔ _
        rw [ih hmid]
        simp only [List.forall_mem_cons, List.forall₂_cons_left_iff, List.append_assoc]
        constructor
        · rintro ⟨hfits, ds, hds, hpw, rfl⟩
          exact ⟨⟨by omega, hfits⟩, d :: ds, ⟨d, ds, hdecl, hds, rfl⟩, hpw, rfl⟩
        · rintro ⟨⟨-, hfits⟩, _, ⟨d', ds, hdecl', hds, rfl⟩, hpw, rfl⟩
          have : d' = d := declares_unique hdecl' hdecl
          subst this
          exact ⟨hfits, ds, hds, hpw, rfl⟩

/-- A declaration text is read exactly as its lines declare, in order. -/
theorem ofDeclarations_ok_iff {text : String} {set : InstructionSet} :
    InstructionSet.ofDeclarations text = .ok set ↔
      ∃ ds, Reads text ds ∧
        set = ⟨ds.flatMap Declaration.entries, ds.flatMap Declaration.packages⟩ := by
  unfold InstructionSet.ofDeclarations
  rw [readFrom_ok_iff List.Pairwise.nil]
  simp only [List.nil_append]
  constructor
  · rintro ⟨hfits, ds, hds, hpw, rfl⟩
    exact ⟨ds, ⟨hfits, hds, hpw⟩, rfl⟩
  · rintro ⟨ds, ⟨hfits, hds, hpw⟩, rfl⟩
    exact ⟨hfits, ds, hds, hpw, rfl⟩

/-! ## The table read -/

theorem Declares.opcode_lt {fs : List String} {d : Declaration} (h : Declares fs d) :
    ∀ e ∈ d.entries, e.opcode < 128 := by
  cases h with
  | blank => simp
  | package => simp
  | op hv _ =>
    intro e he
    rw [Declaration.entries_op, List.mem_singleton] at he
    subst he
    exact hv.2.2.2

theorem opcode_lt_of_declares {lines : List String} {ds : List Declaration}
    (h : List.Forall₂ (fun line d => Declares (lineFields line) d) lines ds) :
    ∀ e ∈ ds.flatMap Declaration.entries, e.opcode < 128 := by
  induction h with
  | nil => simp
  | cons hd _ ih =>
    intro e he
    rw [List.flatMap_cons, List.mem_append] at he
    rcases he with he | he
    · exact hd.opcode_lt e he
    · exact ih e he

theorem table_of_reads {text : String} {ds : List Declaration} (h : Reads text ds) :
    ((ds.flatMap Declaration.entries).map (·.mnemonic)).Nodup ∧
      ((ds.flatMap Declaration.entries).map (·.opcode)).Nodup ∧
      ∀ e ∈ ds.flatMap Declaration.entries, e.opcode < 128 := by
  refine ⟨?_, ?_, opcode_lt_of_declares h.declares⟩
  · exact List.pairwise_map.2 (h.apart.imp fun hab => hab.1)
  · exact List.pairwise_map.2 (h.apart.imp fun hab => hab.2)

end Declarations

namespace InstructionSet

theorem mem_of_mnemonic? {s : InstructionSet} {m : String} {op : Nat}
    (h : s.mnemonic? op = some m) : ∃ e ∈ s.entries, e.mnemonic = m ∧ e.opcode = op := by
  obtain ⟨e, he, rfl⟩ := Option.map_eq_some_iff.1 h
  exact ⟨e, List.mem_of_find?_eq_some he, rfl, by simpa using List.find?_some he⟩

theorem opcode?_mnemonic? {s : InstructionSet} {m : String} {op : Nat}
    (hnodup : (s.entries.map (·.mnemonic)).Nodup) (h : s.mnemonic? op = some m) :
    s.opcode? m = some op := by
  obtain ⟨e, hmem, rfl, hop⟩ := mem_of_mnemonic? h
  cases hfind : s.entries.find? (·.mnemonic == e.mnemonic) with
  | none =>
    have := List.find?_eq_none.1 hfind e hmem
    simp at this
  | some e' =>
    have hmem' := List.mem_of_find?_eq_some hfind
    have hm : e'.mnemonic = e.mnemonic := by simpa using List.find?_some hfind
    have : e' = e := List.inj_on_of_nodup_map hnodup hmem' hmem hm
    simp [opcode?, find?, hfind, this, hop]

end InstructionSet

namespace Word

theorem toNat_opcode_make_of_lt (f : Bool) (v : UInt8) {o : Nat} (h : o < 128) :
    (make f v o.toUInt8).opcode.toNat = o := by
  rw [toNat_opcode_make]
  simp
  omega

end Word

namespace Declarations

/-- The reader accepts exactly the declaration texts whose lines fit its buffer and each declare
something, with no two instructions sharing a mnemonic or an opcode. The set read lists the
declarations in order, and its table is collision free: mnemonics and opcodes look each other up,
and every opcode is below 128, so it passes unchanged through the opcode field of a word. -/
theorem reads_exactly_collision_free_tables (text : String) :
    ((∃ set, InstructionSet.ofDeclarations text = .ok set) ↔ ∃ ds, Reads text ds) ∧
    ∀ set, InstructionSet.ofDeclarations text = .ok set →
      (∃ ds, Reads text ds ∧ set.entries = ds.flatMap Declaration.entries ∧
        set.packages = ds.flatMap Declaration.packages) ∧
      (set.entries.map (·.mnemonic)).Nodup ∧ (set.entries.map (·.opcode)).Nodup ∧
      (∀ m op, set.opcode? m = some op ↔ set.mnemonic? op = some m) ∧
      ∀ e ∈ set.entries, e.opcode < 128 ∧
        ∀ f v, (Word.make f v e.opcode.toUInt8).opcode.toNat = e.opcode := by
  refine ⟨⟨?_, ?_⟩, fun set h => ?_⟩
  · rintro ⟨_, h⟩
    obtain ⟨ds, hds, -⟩ := ofDeclarations_ok_iff.1 h
    exact ⟨ds, hds⟩
  · rintro ⟨ds, h⟩
    exact ⟨_, ofDeclarations_ok_iff.2 ⟨ds, h, rfl⟩⟩
  · obtain ⟨ds, hds, rfl⟩ := ofDeclarations_ok_iff.1 h
    obtain ⟨hmn, hop, hlt⟩ := table_of_reads hds
    refine ⟨⟨ds, hds, rfl, rfl⟩, hmn, hop, fun m op => ⟨InstructionSet.mnemonic?_opcode? hop,
      InstructionSet.opcode?_mnemonic? hmn⟩, fun e he => ⟨hlt e he, fun f v => ?_⟩⟩
    exact Word.toNat_opcode_make_of_lt f v (hlt e he)

/-! ## A line the buffer cannot hold -/

theorem rawLines_single {l : List Char} (hne : l ≠ []) (hnl : '\n' ∉ l) :
    rawLines (String.ofList l) = [String.ofList l] := by
  unfold rawLines
  rw [String.toList_ofList, List.splitOn_eq_singleton hnl]
  obtain ⟨c, cs, rfl⟩ := List.exists_cons_of_ne_nil hne
  rfl

theorem utf8ByteSize_replicate (n : Nat) :
    (String.ofList (List.replicate n 'x')).utf8ByteSize = n := by
  induction n with
  | zero => rfl
  | succ n ih =>
    rw [List.replicate_succ, String.ofList_cons, String.utf8ByteSize_append,
      String.utf8ByteSize_singleton, ih, Nat.add_comm]
    rfl

theorem lineFields_comment (n : Nat) :
    lineFields (String.ofList (';' :: List.replicate n 'x')) = [] := by
  have hcontent : content (String.ofList (';' :: List.replicate n 'x')) =
      String.ofList (';' :: List.replicate n 'x') := by
    unfold content
    cases n with
    | zero => rfl
    | succ n =>
      rw [String.toList_ofList, List.reverse_cons, List.reverse_replicate, List.replicate_succ,
        List.cons_append]
      rfl
  rw [lineFields, hcontent, String.toList_ofList, List.takeWhile_cons_of_neg (by decide)]
  rfl

/-- A comment line of 65536 bytes declares nothing, yet the reader refuses it: its buffer holds
lines of at most 65535 bytes. -/
theorem long_comment_line_refused :
    (∀ line ∈ rawLines (String.ofList (';' :: List.replicate 65535 'x')),
      Declares (lineFields line) .blank) ∧
    InstructionSet.ofDeclarations (String.ofList (';' :: List.replicate 65535 'x')) =
      .error .lineTooLong := by
  have hnl : '\n' ∉ ';' :: List.replicate 65535 'x' := by
    rw [List.mem_cons, List.mem_replicate]
    decide
  refine ⟨?_, ?_⟩
  · rw [rawLines_single (List.cons_ne_nil _ _) hnl]
    intro line hline
    rw [List.mem_singleton] at hline
    subst hline
    rw [lineFields_comment]
    exact .blank
  · have hsize :
        (String.ofList (';' :: List.replicate 65535 'x')).utf8ByteSize > maxLineBytes := by
      rw [String.ofList_cons, String.utf8ByteSize_append, String.utf8ByteSize_singleton,
        utf8ByteSize_replicate]
      decide
    unfold InstructionSet.ofDeclarations
    rw [rawLines_single (List.cons_ne_nil _ _) hnl, readFrom, if_pos hsize]

end Declarations

end PagedAsm
