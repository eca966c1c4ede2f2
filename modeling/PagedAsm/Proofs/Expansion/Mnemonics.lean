import PagedAsm.Proofs.Expansion.Labels

/-!
# Expansion writes only mnemonics of the set

Expansion makes instructions in two ways: a statement whose head word is a mnemonic of the
instruction set, and the loads and stores (`LRA`, `SRA`) of `__WRITE_STR__`. Macro calls and loops
only gather the instructions of the runs nested in them. So when the set has `LRA` and `SRA`,
every instruction item of every run names a mnemonic of the set (`run_mnemonics`).

`writeString_ok` reads a successful `__WRITE_STR__` back: its pointer, string, base address and
text, and the items `stringItems` it writes.
-/

namespace PagedAsm

namespace Expansion

open Expand

/-- Every instruction of `items` names a mnemonic of `set`. -/
def Mnemonics (set : InstructionSet) (items : List Item) : Prop :=
  ∀ m o, Item.instruction m o ∈ items → set.isMnemonic m.text = true

variable {set : InstructionSet}

theorem mnemonics_nil (set : InstructionSet) : Mnemonics set [] :=
  fun _ _ h => absurd h List.not_mem_nil

theorem mnemonics_label (set : InstructionSet) (l : LabelSite) : Mnemonics set [.label l] := by
  simp [Mnemonics]

theorem Mnemonics.append {xs ys : List Item} (hx : Mnemonics set xs) (hy : Mnemonics set ys) :
    Mnemonics set (xs ++ ys) := by
  intro m o h
  rcases List.mem_append.1 h with h | h
  exacts [hx m o h, hy m o h]

/-! ### Writing a string -/

/-- The loads and stores that write `text` from address `base` on: for each byte value, in
ascending order, a load of it and a store at each of its positions. -/
def stringItems (keyword ptr str : Token) (base : Int) (text : String) : List Item :=
  (byteOrder text.toUTF8.toList).flatMap fun (b, positions) =>
    .instruction (keyword.withText "LRA") (some (.token (str.withText (toString b.toNat)))) ::
    positions.map fun (i : Nat) => Item.instruction (keyword.withText "SRA")
      (some (.token (ptr.withText ("$" ++ toString (wrapInt64 (base + (i : Int)))))))

/-- A `__WRITE_STR__` that succeeds read a `$` word and a string word, a base address and a
text; it counted and gave the loads and stores of the text. -/
theorem writeString_ok {ctx : Context} {keyword : Token} {line : List Node} {s s' : Session}
    {items : List Item} (h : exec (writeString ctx keyword line) s = (.ok items, s')) :
    ∃ ptr str base text, operands ctx line [] = .ok [.token ptr, .token str] ∧
      ptr.text.startsWith "$" = true ∧
      parseInt64 (String.ofList (ptr.text.toList.drop 1)) = .ok base ∧
      Loop.unquoteAt str = .ok text ∧
      exec (Session.emit keyword (stringItems keyword ptr str base text).length) s = (.ok (), s') ∧
      items = stringItems keyword ptr str base text := by
  unfold writeString at h
  obtain ⟨ops, s₁, h₁, h₂⟩ := bind_ok h
  obtain ⟨hops, rfl⟩ := lift_ok h₁
  split at h₂
  · dsimp only at h₂
    split at h₂
    case h_2 => exact (fail_bind_ok h₂).elim
    split at h₂
    case isFalse => exact (fail_bind_ok h₂).elim
    rename_i hdollar
    obtain ⟨_, _, h₃, h₄⟩ := bind_ok h₂
    obtain ⟨rfl, rfl⟩ := pure_ok h₃
    split at h₄
    case h_2 => exact (fail_bind_ok h₄).elim
    obtain ⟨_, _, h₅, h₆⟩ := bind_ok h₄
    obtain ⟨rfl, rfl⟩ := pure_ok h₅
    split at h₆
    case h_2 => exact (fail_bind_ok h₆).elim
    rename_i hbase
    obtain ⟨_, _, h₇, h₈⟩ := bind_ok h₆
    obtain ⟨rfl, rfl⟩ := pure_ok h₇
    obtain ⟨_, _, h₉, h₁₀⟩ := bind_ok h₈
    obtain ⟨htext, rfl⟩ := lift_ok h₉
    obtain ⟨_, _, h₁₁, h₁₂⟩ := bind_ok h₁₀
    obtain ⟨rfl, rfl⟩ := pure_ok h₁₂
    exact ⟨_, _, _, _, hops, hdollar, hbase, htext, h₁₁, rfl⟩
  · exact (fail_ok h₂).elim

theorem stringItems_mnemonics (hset : set.isMnemonic "LRA" = true ∧ set.isMnemonic "SRA" = true)
    (keyword ptr str : Token) (base : Int) (text : String) :
    Mnemonics set (stringItems keyword ptr str base text) := by
  intro m o h
  simp only [stringItems, List.mem_flatMap, List.mem_cons, List.mem_map] at h
  obtain ⟨_, -, h | ⟨_, -, h⟩⟩ := h
  · cases h
    exact hset.1
  · cases h
    exact hset.2

/-! ### Statements -/

theorem instruction_mnemonic {ctx : Context} {mnemonic : Token} {line : List Node}
    {s s' : Session} {items : List Item} (h : exec (instruction ctx mnemonic line) s = (.ok items, s')) :
    ∀ m o, Item.instruction m o ∈ items → m = mnemonic := by
  unfold instruction at h
  obtain ⟨_, _, -, h₂⟩ := bind_ok h
  obtain ⟨_, _, -, h₃⟩ := bind_ok h₂
  split at h₃
  · obtain ⟨rfl, rfl⟩ := pure_ok h₃
    simp
  · obtain ⟨_, _, -, h₄⟩ := bind_ok h₃
    obtain ⟨rfl, rfl⟩ := pure_ok h₄
    simp
  · exact (fail_ok h₃).elim

section Descending

variable {descend : Descend}
  (hd : ∀ site c ns s s' out, exec (descend site c ns) s = (.ok out, s') → Mnemonics set out)
include hd

theorem loop_mnemonics {ctx : Context} {keyword : Token} {ns : List Node} {s s' : Session}
    {items : List Item} {r : {r : List Node // r.length ≤ ns.length}}
    (h : exec (loop descend ctx keyword ns) s = (.ok (items, r), s')) : Mnemonics set items := by
  unfold loop at h
  obtain ⟨_, _, -, h₂⟩ := bind_ok h
  dsimp only at h₂
  obtain ⟨-, h₃⟩ := Session.throwIf_ok h₂
  obtain ⟨_, _, -, h₅⟩ := bind_ok h₃
  split at h₅
  · obtain ⟨_, _, -, h₇⟩ := bind_ok h₅
    obtain ⟨acc, _, h₈, h₉⟩ := bind_ok h₇
    obtain ⟨heq, rfl⟩ := pure_ok h₉
    cases heq
    exact forIn_inv (fun _ (acc : Array Item) => Mnemonics set acc.toList)
      (fun _ _ acc step s₁ s₂ hacc hstep => by
        obtain ⟨out, _, h₁₀, h₁₁⟩ := bind_ok hstep
        obtain ⟨rfl, rfl⟩ := pure_ok h₁₁
        simpa only [ForInStep.value, Array.toList_appendList] using
          hacc.append (hd _ _ _ _ _ _ h₁₀))
      (mnemonics_nil set) h₈
  · exact (fail_ok h₅).elim

theorem call_mnemonics {ctx : Context} {name : Token} {ns : List Node} {s s' : Session}
    {items : List Item} {r : {r : List Node // r.length ≤ ns.length}}
    (h : exec (call descend ctx name ns) s = (.ok (items, r), s')) : Mnemonics set items := by
  unfold call at h
  split at h
  · obtain ⟨_, _, -, h₂⟩ := bind_ok h
    split at h₂
    · exact (fail_ok h₂).elim
    · obtain ⟨_, _, h₃, h₄⟩ := bind_ok h₂
      obtain ⟨heq, rfl⟩ := pure_ok h₄
      cases heq
      exact hd _ _ _ _ _ _ h₃
  · exact (fail_ok h).elim

end Descending

section Statements

variable {config : Config} {descend : Descend}
  (hset : config.set.isMnemonic "LRA" = true ∧ config.set.isMnemonic "SRA" = true)
  (hd : ∀ site c ns s s' out, exec (descend site c ns) s = (.ok out, s') →
    Mnemonics config.set out)
include hset hd

theorem statement_mnemonics {ctx ctx' : Context} {n : Node} {rest : List Node} {s s' : Session}
    {items : List Item} {r : {r : List Node // r.length ≤ rest.length}}
    (h : exec (statement config descend ctx n rest) s = (.ok (items, ctx', r), s')) :
    Mnemonics config.set items := by
  unfold statement at h
  split at h
  · obtain ⟨heq, rfl⟩ := pure_ok h
    cases heq
    exact mnemonics_label _ _
  · exact (fail_ok h).elim
  · exact (fail_ok h).elim
  · split at h
    · -- a line end
      obtain ⟨heq, rfl⟩ := pure_ok h
      cases heq
      exact mnemonics_nil _
    · dsimp only at h
      split at h
      case h_2 => exact (fail_bind_ok h).elim
      obtain ⟨_, _, h₁, h₂⟩ := bind_ok h
      obtain ⟨rfl, rfl⟩ := pure_ok h₁
      split at h₂
      · split at h₂
        · -- `FOR`
          obtain ⟨_, _, h₃, h₄⟩ := bind_ok h₂
          obtain ⟨heq, rfl⟩ := pure_ok h₄
          cases heq
          exact loop_mnemonics hd h₃
        · -- `ASSIGN`
          obtain ⟨_, _, -, h₄⟩ := bind_ok h₂
          obtain ⟨heq, rfl⟩ := pure_ok h₄
          cases heq
          exact mnemonics_nil _
        · -- `INCLUDE`
          obtain ⟨_, _, -, h₄⟩ := bind_ok h₂
          obtain ⟨heq, rfl⟩ := pure_ok h₄
          cases heq
          exact mnemonics_nil _
        · -- `__WRITE_STR__`
          obtain ⟨_, _, h₃, h₄⟩ := bind_ok h₂
          obtain ⟨heq, rfl⟩ := pure_ok h₄
          cases heq
          obtain ⟨_, _, _, _, -, -, -, -, -, rfl⟩ := writeString_ok h₃
          exact stringItems_mnemonics hset _ _ _ _ _
        · exact (fail_ok h₂).elim
      · split at h₂
        · -- an instruction
          rename_i hmnemonic
          obtain ⟨_, _, h₃, h₄⟩ := bind_ok h₂
          obtain ⟨heq, rfl⟩ := pure_ok h₄
          cases heq
          intro m o hm
          rw [instruction_mnemonic h₃ m o hm]
          exact hmnemonic
        · split at h₂
          · -- a macro call
            obtain ⟨_, _, h₃, h₄⟩ := bind_ok h₂
            obtain ⟨heq, rfl⟩ := pure_ok h₄
            cases heq
            exact call_mnemonics hd h₃
          · split at h₂ <;> exact (fail_ok h₂).elim

theorem statements_mnemonics : ∀ (ctx : Context) (nodes : List Node) {s s' : Session}
    {items : List Item}, exec (statements config descend ctx nodes) s = (.ok items, s') →
    Mnemonics config.set items := by
  intro ctx nodes
  induction ctx, nodes using statements.induct with
  | case1 ctx =>
    intro s s' items h
    rw [statements.eq_1] at h
    obtain ⟨rfl, rfl⟩ := pure_ok h
    exact mnemonics_nil _
  | case2 ctx n rest ih =>
    intro s s' items h
    rw [statements.eq_2] at h
    obtain ⟨⟨_, ctx₁, r, hr⟩, _, h₁, h₂⟩ := bind_ok h
    obtain ⟨_, _, h₃, h₄⟩ := bind_ok h₂
    obtain ⟨rfl, rfl⟩ := pure_ok h₄
    exact (statement_mnemonics hset hd h₁).append (ih ctx₁ r hr h₃)

end Statements

theorem run_mnemonics_of {config : Config}
    (hset : config.set.isMnemonic "LRA" = true ∧ config.set.isMnemonic "SRA" = true)
    (budget : Nat) (hd : ∀ site c ns s s' out,
      exec (descendAt config budget site c ns) s = (.ok out, s') → Mnemonics config.set out)
    {ctx : Context} {nodes : List Node} {s s' : Session} {items : List Item}
    (h : exec (run config budget ctx nodes) s = (.ok items, s')) : Mnemonics config.set items := by
  rw [run_eq] at h
  obtain ⟨_, _, -, h₂⟩ := bind_ok h
  obtain ⟨_, _, -, h₄⟩ := bind_ok h₂
  exact statements_mnemonics hset hd _ _ h₄

/-- When the set has `LRA` and `SRA`, every instruction that a run expands to names a mnemonic
of the set. -/
theorem run_mnemonics (config : Config)
    (hset : config.set.isMnemonic "LRA" = true ∧ config.set.isMnemonic "SRA" = true) :
    ∀ (budget : Nat) {ctx : Context} {nodes : List Node} {s s' : Session} {items : List Item},
      exec (run config budget ctx nodes) s = (.ok items, s') → Mnemonics config.set items
  -- on the budget: at 0 nested runs fail, below it they are runs one level lower
  | 0 => run_mnemonics_of hset 0 fun _ _ _ _ _ _ h => (fail_ok h).elim
  | b + 1 => run_mnemonics_of hset (b + 1) fun _ _ _ _ _ _ h => run_mnemonics config hset b h

end Expansion

end PagedAsm
