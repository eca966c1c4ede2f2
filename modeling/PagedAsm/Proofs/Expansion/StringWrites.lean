import PagedAsm.Proofs.Expansion.ByteOrder
import PagedAsm.Proofs.Compilation.Encodable
import PagedAsm.Proofs.Loops.Ranges
import Mathlib.Data.List.FinRange

/-!
# Writing a string stores each byte once

`__WRITE_STR__ $base "text"` writes the UTF-8 bytes of a text from address `base` on. Its
instructions are loads `LRA v` and stores `SRA $a`; what each does on a machine with an
accumulator and a memory is its `Access`. For each byte value of the text, in ascending order,
there is one load of it, followed by a store at each position that holds it
(`stringAccesses`). Run from any state, the stores put byte `i` at address `base + i`, each
position once and no other address; there is exactly one load per byte value, and a store right
after each load. Addresses are signed 64-bit: past the largest one they wrap to negative
addresses, and a compilation whose expansion stores at a negative address fails
(`compile_error_of_store`).
-/

namespace PagedAsm

/-- What a raw instruction does on a machine with an accumulator and a memory. -/
inductive Access where
  /-- Load a value into the accumulator. -/
  | load (v : Int)
  /-- Store the accumulator at an address. -/
  | store (a : Int)
  deriving DecidableEq, Repr

/-- The value an access loads. -/
def Access.load? : Access → Option Int
  | .load v => some v
  | .store _ => none

/-- The access of a raw instruction, read as the compiler types it: `LRA` with an integer operand
loads it, `SRA` with a pointer stores at it; any other instruction is neither. -/
def Item.access? : Item → Option Access
  | .instruction op (some (.token t)) =>
    if op.text = "LRA" then
      match Typing.argumentOf t with
      | .ok (.integer v) => some (.load v)
      | _ => none
    else if op.text = "SRA" then
      match Typing.argumentOf t with
      | .ok (.pointer a) => some (.store a)
      | _ => none
    else none
  | _ => none

/-- A machine with an accumulator, and the stores made so far as (address, value) pairs, in
order. -/
structure Machine where
  acc : Int
  stores : List (Int × Int)

namespace Machine

/-- One access. -/
def apply (m : Machine) : Access → Machine
  | .load v => { m with acc := v }
  | .store a => { m with stores := m.stores ++ [(a, m.acc)] }

/-- Accesses run in order. -/
def run (m : Machine) (accs : List Access) : Machine := accs.foldl apply m

end Machine

/-! ### Loads followed by stores -/

/-- The accesses of blocks, each a load of a value and stores of it at addresses. -/
def blockAccesses (blocks : List (Int × List Int)) : List Access :=
  blocks.flatMap fun b => .load b.1 :: b.2.map .store

theorem run_stores (v : Int) (st : List (Int × Int)) :
    ∀ as : List Int, (Machine.run ⟨v, st⟩ (as.map .store)) = ⟨v, st ++ as.map fun a => (a, v)⟩
  | [] => by simp [Machine.run]
  | a :: as => by
    simp only [List.map_cons, Machine.run, List.foldl_cons, Machine.apply]
    rw [← Machine.run, run_stores v (st ++ [(a, v)]) as]
    simp

theorem run_blockAccesses : ∀ (blocks : List (Int × List Int)) (m : Machine),
    (m.run (blockAccesses blocks)).stores = m.stores ++ blocks.flatMap fun b => b.2.map (·, b.1)
  | [], m => by simp [Machine.run, blockAccesses]
  | b :: blocks, m => by
    have hstep : m.run (blockAccesses (b :: blocks)) =
        (Machine.run ⟨b.1, m.stores⟩ (b.2.map .store)).run (blockAccesses blocks) := by
      simp only [blockAccesses, List.flatMap_cons, Machine.run, List.cons_append, List.foldl_cons,
        List.foldl_append, Machine.apply]
    rw [hstep, run_blockAccesses blocks, run_stores]
    simp

theorem loads_blockAccesses (blocks : List (Int × List Int)) :
    (blockAccesses blocks).filterMap Access.load? = blocks.map Prod.fst := by
  induction blocks with
  | nil => rfl
  | cons b blocks ih =>
    simp only [blockAccesses, List.flatMap_cons, List.filterMap_append, List.filterMap_cons,
      Access.load?, List.map_cons] at ih ⊢
    rw [ih]
    simp [List.filterMap_map, Function.comp_def, Access.load?]

theorem store_after_load : ∀ {blocks : List (Int × List Int)}, (∀ b ∈ blocks, b.2 ≠ []) →
    ∀ k v, (blockAccesses blocks)[k]? = some (.load v) →
      ∃ a, (blockAccesses blocks)[k + 1]? = some (.store a)
  | [], _, k, v, h => by simp [blockAccesses] at h
  | ⟨w, as⟩ :: blocks, hne, k, v, h => by
    have hrest := store_after_load (fun b hb => hne b (List.mem_cons_of_mem _ hb))
    have has : as ≠ [] := hne _ List.mem_cons_self
    have hsplit : blockAccesses (⟨w, as⟩ :: blocks) =
        .load w :: (as.map .store ++ blockAccesses blocks) := by
      simp [blockAccesses]
    rw [hsplit] at h ⊢
    rcases k with _ | j
    · obtain ⟨a, as', rfl⟩ := List.exists_cons_of_ne_nil has
      exact ⟨a, by simp⟩
    · simp only [List.getElem?_cons_succ] at h ⊢
      by_cases hj : j < as.length
      · -- a store of the block is no load
        rw [List.getElem?_append_left (by simpa using hj)] at h
        simp [List.getElem?_map, List.getElem?_eq_getElem hj] at h
      · -- past the block's stores, the next blocks
        have hlen : (as.map Access.store).length ≤ j := by simp; omega
        rw [List.getElem?_append_right hlen] at h
        rw [List.getElem?_append_right (by omega)]
        obtain ⟨a, ha⟩ := hrest _ v h
        refine ⟨a, ?_⟩
        rw [← ha]
        congr 1
        simp only [List.length_map] at hlen ⊢
        omega

/-! ### The accesses of a string -/

namespace Expansion

/-- The blocks that write `text` from `base` on: each byte value, ascending, with the addresses
of the positions that hold it. -/
def stringBlocks (base : Int) (text : String) : List (Int × List Int) :=
  (byteOrder text.toUTF8.toList).map fun g =>
    ((g.1.toNat : Int), g.2.map fun (i : Nat) => wrapInt64 (base + i))

/-- The accesses that write `text` from `base` on. -/
def stringAccesses (base : Int) (text : String) : List Access :=
  blockAccesses (stringBlocks base text)

@[simp] theorem text_withText (t : Token) (text : String) : (t.withText text).text = text := rfl

theorem argumentOf_numeral {t : Token} {v : Int} (h : parseInt64 t.text = .ok v) :
    Typing.argumentOf t = .ok (.integer v) := by
  unfold Typing.argumentOf
  split
  · rename_i rest hrest
    exact absurd (hrest ▸ List.mem_cons_self) (dollar_not_mem_of_parseInt64 h)
  · rw [Loop.isQuoted_eq_false (Loop.head?_ne_quote_of_parseInt64 h), h]
    rfl

theorem argumentOf_byte (t : Token) (b : UInt8) :
    Typing.argumentOf (t.withText (toString b.toNat)) = .ok (.integer b.toNat) := by
  apply argumentOf_numeral
  have hb : b.toNat < 256 := b.toNat_lt
  exact parseInt64_toString (z := (b.toNat : Int)) (by omega) (by omega)

theorem argumentOf_wrapped (t : Token) (z : Int) :
    Typing.argumentOf (t.withText ("$" ++ toString (wrapInt64 z))) = .ok (.pointer (wrapInt64 z)) := by
  have hb := wrapInt64_bounds z
  have htext : (t.withText ("$" ++ toString (wrapInt64 z))).text.toList =
      '$' :: (toString (wrapInt64 z)).toList := by
    simp
  unfold Typing.argumentOf
  rw [htext]
  simp only [String.ofList_toList, parseInt64_toString hb.1 hb.2]

theorem access_load (keyword str : Token) (b : UInt8) :
    (Item.instruction (keyword.withText "LRA")
      (some (.token (str.withText (toString b.toNat))))).access? = some (.load b.toNat) := by
  simp only [Item.access?, text_withText, argumentOf_byte, if_true]

theorem access_store (keyword ptr : Token) (z : Int) :
    (Item.instruction (keyword.withText "SRA")
      (some (.token (ptr.withText ("$" ++ toString (wrapInt64 z)))))).access? =
      some (.store (wrapInt64 z)) := by
  have hne : ("SRA" : String) ≠ "LRA" := by simp
  simp only [Item.access?, text_withText, argumentOf_wrapped, if_neg hne, if_true]

theorem stringItems_access (keyword ptr str : Token) (base : Int) (text : String) :
    (stringItems keyword ptr str base text).map Item.access? = (stringAccesses base text).map some := by
  simp only [stringItems, stringAccesses, blockAccesses, stringBlocks, List.map_flatMap,
    List.flatMap_map]
  congr 1
  funext g
  rcases g with ⟨b, ps⟩
  simp only [List.map_cons, List.map_map, Function.comp_def, access_load, access_store]

theorem zipIdx_map_eq_ofFn {α β : Type} (l : List α) (f : α → Nat → β) :
    l.zipIdx.map (fun x => f x.1 x.2) = List.ofFn fun i : Fin l.length => f l[i] i := by
  apply List.ext_getElem <;> simp

theorem stringBlocks_stores (base : Int) (text : String) :
    ((stringBlocks base text).flatMap fun b => b.2.map (·, b.1)).Perm
      (List.ofFn fun i : Fin text.toUTF8.toList.length =>
        (wrapInt64 (base + i), (text.toUTF8.toList[i].toNat : Int))) := by
  have heq : (stringBlocks base text).flatMap (fun b => b.2.map (·, b.1)) =
      ((byteOrder text.toUTF8.toList).flatMap spread).map
        fun x => (wrapInt64 (base + x.2), (x.1.toNat : Int)) := by
    simp [stringBlocks, spread, List.map_flatMap, List.flatMap_map, Function.comp_def]
  rw [heq, ← zipIdx_map_eq_ofFn text.toUTF8.toList
    fun b (i : Nat) => (wrapInt64 (base + i), (b.toNat : Int))]
  exact (byteOrder_spread _).map _

theorem stringAccesses_loads (base : Int) (text : String) :
    (stringAccesses base text).filterMap Access.load? =
      (byteOrder text.toUTF8.toList).map fun g => (g.1.toNat : Int) := by
  rw [stringAccesses, loads_blockAccesses, stringBlocks, List.map_map]
  rfl

theorem stringAccesses_loads_nodup (base : Int) (text : String) :
    ((stringAccesses base text).filterMap Access.load?).Nodup := by
  rw [stringAccesses_loads, List.Nodup, List.pairwise_map]
  have hs := List.pairwise_map.1 (byteOrder_values_sorted text.toUTF8.toList)
  exact hs.imp fun h => by
    have := UInt8.lt_iff_toNat_lt.1 h
    omega

theorem mem_stringAccesses_loads {base : Int} {text : String} {v : Int} :
    v ∈ (stringAccesses base text).filterMap Access.load? ↔
      ∃ b ∈ text.toUTF8.toList, v = b.toNat := by
  rw [stringAccesses_loads]
  simp only [List.mem_map]
  constructor
  · rintro ⟨g, hg, rfl⟩
    exact ⟨g.1, mem_byteOrder_values.1 (List.mem_map_of_mem hg), rfl⟩
  · rintro ⟨b, hb, rfl⟩
    obtain ⟨g, hg, hgb⟩ := List.mem_map.1 (mem_byteOrder_values.2 hb)
    exact ⟨g, hg, by rw [hgb]⟩

theorem stringAccesses_store_after_load (base : Int) (text : String) :
    ∀ k v, (stringAccesses base text)[k]? = some (.load v) →
      ∃ a, (stringAccesses base text)[k + 1]? = some (.store a) := by
  apply store_after_load
  intro b hb
  obtain ⟨g, hg, rfl⟩ := List.mem_map.1 hb
  simpa using byteOrder_ne_nil _ g hg

theorem store_mem_stringItems (keyword ptr str : Token) (base : Int) (text : String) {i : Nat}
    (hi : i < text.toUTF8.toList.length) :
    Item.instruction (keyword.withText "SRA")
      (some (.token (ptr.withText ("$" ++ toString (wrapInt64 (base + i)))))) ∈
      stringItems keyword ptr str base text := by
  have hz : (text.toUTF8.toList[i], i) ∈ text.toUTF8.toList.zipIdx :=
    List.mem_zipIdx_iff_getElem?.2 (by simp)
  obtain ⟨g, hg, hgi⟩ := List.mem_flatMap.1 ((byteOrder_spread _).symm.subset hz)
  obtain ⟨j, hj, hji⟩ := List.mem_map.1 hgi
  simp only [Prod.mk.injEq] at hji
  obtain ⟨-, rfl⟩ := hji
  simp only [stringItems, List.mem_flatMap]
  exact ⟨g, hg, List.mem_cons_of_mem _ (List.mem_map.2 ⟨j, hj, rfl⟩)⟩

end Expansion

/-! ### Stores at negative addresses are refused -/

namespace Paging

variable {set : InstructionSet} {placed : Placement}

theorem step_error_of_negative {q : Pending} {a : Int} (h1 : q.mnemonic ≠ "CRP")
    (h2 : q.mnemonic ≠ "CCP") (harg : q.argument = .pointer a) (ha : a < 0) (st : Pass) :
    ∃ d, Pass.step set placed st q = .error d := by
  rw [step_of_not_switch h1 h2]
  have haddr : addressOf set (st.noted.labelIndex placed) q = some a := by
    simp [addressOf, h1, h2, harg]
  rw [haddr]
  exact ⟨_, if_pos (.inl ha)⟩

theorem fold_error_of_mem {q : Pending} (hq : ∀ st, ∃ d, Pass.step set placed st q = .error d) :
    ∀ {code : List Pending} (st : Pass), q ∈ code →
      ∃ d, code.foldlM (Pass.step set placed) st = .error d
  | [], _, h => absurd h List.not_mem_nil
  | p :: rest, st, h => by
    simp only [List.foldlM_cons]
    cases h₁ : Pass.step set placed st p with
    | error e => exact ⟨e, rfl⟩
    | ok st₁ =>
      rcases List.mem_cons.1 h with rfl | h
      · obtain ⟨d, hd⟩ := hq st
        rw [hd] at h₁
        cases h₁
      · exact fold_error_of_mem hq st₁ h

theorem fixPages_error_of_negative {code : List Pending} {q : Pending} {a : Int} (hq : q ∈ code)
    (h1 : q.mnemonic ≠ "CRP") (h2 : q.mnemonic ≠ "CCP") (harg : q.argument = .pointer a)
    (ha : a < 0) : ∃ d, fixPages set code placed = .error d := by
  obtain ⟨d, hd⟩ := fold_error_of_mem (step_error_of_negative h1 h2 harg ha) {} hq
  have hpass : pass set placed code = .error d := by
    unfold pass
    rw [hd]
    rfl
  exact ⟨d, settle_succ_of_error hpass⟩

end Paging

namespace Compilation

open Expand Paging

theorem instruction_token {set : InstructionSet} {m t : Token} {arg : Argument} {p : Pending}
    {s s' : Session} (ht : Typing.argumentOf t = .ok arg)
    (h : exec (Typing.instruction set m (some (.token t))) s = (.ok p, s')) : p.argument = arg := by
  unfold Typing.instruction at h
  dsimp only at h
  rw [ht] at h
  dsimp only at h
  obtain ⟨_, _, h₁, h₂⟩ := bind_ok h
  obtain ⟨rfl, rfl⟩ := pure_ok h₁
  split at h₂
  · split at h₂
    · obtain ⟨_, _, -, h₄⟩ := bind_ok h₂
      obtain ⟨rfl, rfl⟩ := pure_ok h₄
      rfl
    · obtain ⟨rfl, rfl⟩ := pure_ok h₂
      rfl
  · obtain ⟨rfl, rfl⟩ := pure_ok h₂
    rfl

theorem elements_token {set : InstructionSet} {m t : Token} {arg : Argument}
    (ht : Typing.argumentOf t = .ok arg) : ∀ {items : List Item} {s s' : Session}
    {typed : List Element}, exec (Typing.elements set items) s = (.ok typed, s') →
    Item.instruction m (some (.token t)) ∈ items →
    ∃ p, Element.instruction p ∈ typed ∧ p.mnemonic = m.text ∧ p.argument = arg
  | [], _, _, _, _, hmem => absurd hmem List.not_mem_nil
  | it :: rest, s, s', typed, h, hmem => by
    unfold Typing.elements at h
    rw [List.mapM_cons] at h
    obtain ⟨e, s₁, h₁, h₂⟩ := bind_ok h
    obtain ⟨es, s₂, h₃, h₄⟩ := bind_ok h₂
    obtain ⟨rfl, rfl⟩ := pure_ok h₄
    rcases List.mem_cons.1 hmem with rfl | hmem
    · -- the item itself
      obtain ⟨q, s₃, h₅, h₆⟩ := bind_ok h₁
      obtain ⟨rfl, rfl⟩ := pure_ok h₆
      exact ⟨q, List.mem_cons_self, (instruction_ok h₅).1, instruction_token ht h₅⟩
    · obtain ⟨p, hp, hpm, hpa⟩ := elements_token ht h₃ hmem
      exact ⟨p, List.mem_cons_of_mem _ hp, hpm, hpa⟩

theorem layout_error_of_store {config : Config} {names : Array String} {typed : List Element}
    {q : Pending} {a : Int} (hq : Element.instruction q ∈ typed) (hm : q.mnemonic = "SRA")
    (harg : q.argument = .pointer a) (ha : a < 0) (code : List Instruction) :
    layout config names typed ≠ .ok code := by
  intro h
  obtain ⟨-, fixed, hfix, -, -⟩ := layout_ok h
  have hkept : Element.instruction q ∈ optimised config typed := by
    unfold optimised
    split
    · exact Peephole.instruction_mem_dropLoads _ _ _ hq (by rw [hm]; simp)
    · exact hq
  have hmem : q ∈ (excise names.size (optimised config typed)).1 := by
    rw [excise_fst]
    exact List.mem_filterMap.2 ⟨_, hkept, rfl⟩
  obtain ⟨d, hd⟩ : ∃ d, fixPages config.set (excise names.size (optimised config typed)).1
      (excise names.size (optimised config typed)).2 = .error d :=
    fixPages_error_of_negative hmem (by rw [hm]; simp) (by rw [hm]; simp) harg ha
  rw [hd] at hfix
  cases hfix

theorem resolve_error_of_store {config : Config} {items : List Item} {op t : Token} {a : Int}
    (hmem : Item.instruction op (some (.token t)) ∈ items) (hop : op.text = "SRA")
    (ha : Typing.argumentOf t = .ok (.pointer a)) (hneg : a < 0) (s : Session) :
    ∃ d, (exec (resolve config items) s).1 = .error d := by
  rcases hres : exec (resolve config items) s with ⟨_ | code, s'⟩
  · exact ⟨_, rfl⟩
  · obtain ⟨typed, htyping, hlay⟩ := resolve_ok hres
    obtain ⟨q, hq, hqm, hqa⟩ := elements_token ha htyping hmem
    exact absurd hlay (layout_error_of_store hq (hqm.trans hop) hqa hneg code)

/-- A compilation whose expansion gives a store to a negative address fails. -/
theorem compile_error_of_store {config : Config} {source : List Char} {doc : Document}
    {items : List Item} {s₁ : Session} {op t : Token} {a : Int}
    (hread : (tokenize source >>= Document.ofTokens) = .ok doc)
    (hrun : exec (Expansion.run config config.maxDepth Context.top (topNodes doc))
      (recorded {} (.parsed doc.depth)) = (.ok items, s₁))
    (hmem : Item.instruction op (some (.token t)) ∈ items) (hop : op.text = "SRA")
    (ha : Typing.argumentOf t = .ok (.pointer a)) (hneg : a < 0) :
    ∃ d, (compile config source).result = .error d := by
  rw [compile_of_read hread]
  rcases hasm : exec (assemble config doc) {} with ⟨d | prog, s'⟩
  · exact ⟨d, rfl⟩
  · obtain ⟨items', s₁', code, s₂, hrun', hres, -⟩ := assemble_ok hasm
    rw [hrun] at hrun'
    simp only [Prod.mk.injEq, Except.ok.injEq] at hrun'
    obtain ⟨rfl, rfl⟩ := hrun'
    obtain ⟨d, hd⟩ : ∃ d, (exec (resolve config items)
        (recorded s₁ (.expanded items.length s₁.labelNames.size))).1 = .error d :=
      resolve_error_of_store hmem hop ha hneg _
    rw [hres] at hd
    cases hd

end Compilation

namespace Expansion

open Expand

theorem writeString_eq {ctx : Context} {keyword ptr str : Token} {line : List Node} {base : Int}
    {text : String} (hops : operands ctx line [] = .ok [.token ptr, .token str])
    (hptr : ptr.text.startsWith "$" = true)
    (hbase : parseInt64 (String.ofList (ptr.text.toList.drop 1)) = .ok base)
    (htext : Loop.unquoteAt str = .ok text) :
    writeString ctx keyword line = (do
      Session.emit keyword (stringItems keyword ptr str base text).length
      return stringItems keyword ptr str base text) := by
  unfold writeString
  simp only [hops, lift, pure_bind, hptr, if_true, hbase, htext]
  rfl

/-- **Writing a string stores each byte once, with one load per byte value.** For a
`__WRITE_STR__` of a `$` word with base address `base` and a string word whose text has at most
`2^63` bytes `b 0, …, b (n-1)`:
(a) it counts and gives the instructions `stringItems`, which are exactly the loads and stores
`stringAccesses`;
(b) run from any state, the stores put `b i` at address `base + i`, wrapped to 64 bits, each
position once and at no other address, and the `n` addresses differ;
(c) there is one load of each byte value of the text and no other load, and a store comes right
after each load;
(d) when `base + i` is past the largest signed 64-bit number, the wrapped address is negative, and
a compilation whose expansion holds the text's instructions fails. -/
theorem write_string_stores_each_byte_once {ctx : Context} {keyword ptr str : Token}
    {line : List Node} {base : Int} {text : String}
    (hops : operands ctx line [] = .ok [.token ptr, .token str])
    (hptr : ptr.text.startsWith "$" = true)
    (hbase : parseInt64 (String.ofList (ptr.text.toList.drop 1)) = .ok base)
    (htext : Loop.unquoteAt str = .ok text)
    (hlen : text.toUTF8.toList.length ≤ 9223372036854775808) :
    writeString ctx keyword line = (do
        Session.emit keyword (stringItems keyword ptr str base text).length
        return stringItems keyword ptr str base text) ∧
      (stringItems keyword ptr str base text).map Item.access? =
        (stringAccesses base text).map some ∧
      (∀ m : Machine, ∃ stores, (m.run (stringAccesses base text)).stores = m.stores ++ stores ∧
        stores.Perm (List.ofFn fun i : Fin text.toUTF8.toList.length =>
          (wrapInt64 (base + i), (text.toUTF8.toList[i].toNat : Int)))) ∧
      (List.ofFn fun i : Fin text.toUTF8.toList.length => wrapInt64 (base + i)).Nodup ∧
      ((stringAccesses base text).filterMap Access.load?).Nodup ∧
      (∀ v, v ∈ (stringAccesses base text).filterMap Access.load? ↔
        ∃ b ∈ text.toUTF8.toList, v = b.toNat) ∧
      (∀ k v, (stringAccesses base text)[k]? = some (.load v) →
        ∃ a, (stringAccesses base text)[k + 1]? = some (.store a)) ∧
      ∀ i < text.toUTF8.toList.length, 9223372036854775808 ≤ base + i →
        wrapInt64 (base + i) < 0 ∧
        ∀ (config : Config) (source : List Char) (doc : Document) (items : List Item)
          (s₁ : Session), (tokenize source >>= Document.ofTokens) = .ok doc →
          exec (run config config.maxDepth Context.top (Compilation.topNodes doc))
            (Compilation.recorded {} (.parsed doc.depth)) = (.ok items, s₁) →
          stringItems keyword ptr str base text ⊆ items →
          ∃ d, (compile config source).result = .error d := by
  -- the positions are below `2^63`, so their addresses do not wrap onto each other
  have hdistinct : (List.ofFn fun i : Fin text.toUTF8.toList.length =>
      wrapInt64 (base + i)).Nodup :=
    List.nodup_ofFn.2 fun i j h =>
      Fin.ext (wrapInt64_add_injective (by have := i.isLt; omega) (by have := j.isLt; omega) h)
  refine ⟨writeString_eq hops hptr hbase htext, stringItems_access .., fun m =>
    ⟨_, run_blockAccesses _ m, stringBlocks_stores base text⟩, hdistinct,
    stringAccesses_loads_nodup base text, fun _ => mem_stringAccesses_loads,
    stringAccesses_store_after_load base text, ?_⟩
  intro i hi hover
  have hneg := wrapInt64_negative (parseInt64_bounds hbase).2 (by omega) hover
  refine ⟨hneg, fun config source doc items s₁ hread hrun hsub => ?_⟩
  exact Compilation.compile_error_of_store hread hrun
    (hsub (store_mem_stringItems keyword ptr str base text hi)) (text_withText _ _)
    (argumentOf_wrapped ptr (base + i)) hneg

/-- `__WRITE_STR__ $300 "hi"`: the operands are the pointer and the string, the string reads
`hi`, and run from an empty memory the stores put `h` at 300 and `i` at 301. -/
theorem hi_written_from_300 :
    operands Context.top [.leaf (.token ⟨.word, "$300", Span.point 0, 1⟩),
        .leaf (.token ⟨.word, "\"hi\"", Span.point 0, 1⟩)] [] =
      .ok [.token ⟨.word, "$300", Span.point 0, 1⟩, .token ⟨.word, "\"hi\"", Span.point 0, 1⟩] ∧
      Loop.unquoteAt ⟨.word, "\"hi\"", Span.point 0, 1⟩ = .ok "hi" ∧
      ∃ stores, (Machine.run ⟨0, []⟩ (stringAccesses 300 "hi")).stores = [] ++ stores ∧
        stores.Perm (List.ofFn fun i : Fin "hi".toUTF8.toList.length =>
          (wrapInt64 (300 + i), ("hi".toUTF8.toList[i].toNat : Int))) := by
  have hops : operands Context.top [.leaf (.token ⟨.word, "$300", Span.point 0, 1⟩),
      .leaf (.token ⟨.word, "\"hi\"", Span.point 0, 1⟩)] [] =
      .ok [.token ⟨.word, "$300", Span.point 0, 1⟩, .token ⟨.word, "\"hi\"", Span.point 0, 1⟩] := by
    decide +kernel
  have htext : Loop.unquoteAt ⟨.word, "\"hi\"", Span.point 0, 1⟩ = .ok "hi" := by
    decide +kernel
  exact ⟨hops, htext, (@write_string_stores_each_byte_once Context.top
    ⟨.word, "__WRITE_STR__", Span.point 0, 1⟩ _ _ _ 300 "hi" hops (by decide +kernel)
    (by decide +kernel) htext (by decide +kernel)).2.2.1 ⟨0, []⟩⟩

end Expansion

end PagedAsm
