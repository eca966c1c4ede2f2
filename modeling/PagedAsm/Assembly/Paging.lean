import PagedAsm.Assembly.Typing

/-!
# Placing labels and switching pages

Labels are placed at the index of the instruction that follows them. Then page switches are
inserted. ROM and cache are each split in pages of 256 words, and the machine has a current
ROM page and a current cache page, both 0 at the start. A jump (`CALL`, `JMP`, `JMPP`, `JMPZ`,
`JMPN`, `JMPC`) to a label or a pointer needs the ROM page of its target; any other instruction
with a pointer needs the cache page of the pointer. Where the page is not the current one, a
synthetic `CRP` (ROM) or `CCP` (cache) is put before the instruction, or the synthetic switch
right before it is updated. A user `CRP` or `CCP` sets its page to its integer operand (0 when
bare), or to unknown for any other operand.

Inserting a switch moves the instructions after it, and so the labels after it; labels at the
instruction itself stay and so name the switch. Passes repeat until nothing changes. An address
below 0 or past 64 KiB is an error.
-/

namespace PagedAsm

namespace Paging

/-- Where each label is: its index in the code, by label number. -/
abbrev Placement := Array (Option Nat)

def excise (labels : Nat) (code : List Element) : List Pending × Placement :=
  let step := fun (acc : Array Pending × Placement) (e : Element) =>
    match e with
    | .label id => (acc.1, acc.2.set! id (some acc.1.size))
    | .instruction p => (acc.1.push p, acc.2)
  let (insns, placed) := code.foldl step (#[], Array.replicate labels none)
  (insns.toList, placed)

def unplaced? (placed : Placement) (code : List Pending) : Option (Pending × Nat) :=
  code.findSome? fun p =>
    match p.argument with
    | .label id => if (placed.getD id none).isNone then some (p, id) else none
    | _ => none

def selectedPage : Argument → Int
  | .none => 0
  | .integer v => v
  | _ => -1

/-- The state of a pass: the code so far, the current ROM and cache pages, whether anything
changed, the number of switches inserted, and for each instruction already seen how many
switches were inserted before it. -/
structure Pass where
  out : Array Pending := #[]
  rom : Int := 0
  cache : Int := 0
  changed : Bool := false
  inserted : Nat := 0
  before : Array Nat := #[]

def Pass.labelIndex (st : Pass) (placed : Placement) (id : Nat) : Int :=
  match placed.getD id none with
  | some j => (j + st.before.getD j st.inserted : Nat)
  | none => 0

/-- Handle one instruction of a pass. -/
def Pass.step (set : InstructionSet) (placed : Placement) (st : Pass) (p : Pending) :
    Except Diagnostic Pass :=
  let st := { st with before := st.before.push st.inserted }
  if p.mnemonic = "CRP" then .ok { st with out := st.out.push p, rom := selectedPage p.argument }
  else if p.mnemonic = "CCP" then
    .ok { st with out := st.out.push p, cache := selectedPage p.argument }
  else
    let jump := set.isJump p.mnemonic
    let address? : Option Int := match p.argument with
      | .label id => if jump then some (st.labelIndex placed id) else none
      | .pointer v => some v
      | _ => none
    match address? with
    | none => .ok { st with out := st.out.push p }
    | some addr =>
      let page := addr / 256
      if addr < 0 ∨ page > maxPage then
        .error ⟨.addressTooLarge addr, p.span, p.line⟩
      else
        let current := if jump then st.rom else st.cache
        if page = current then .ok { st with out := st.out.push p }
        else
          let switch := if jump then "CRP" else "CCP"
          let st := match st.out.back? with
            | some prev =>
              if prev.synthetic ∧ prev.mnemonic = switch then
                let updated : Pending := { prev with argument := .integer page }
                { st with out := st.out.set! (st.out.size - 1) updated }
              else
                { st with out := st.out.push ⟨switch, .integer page, p.line, p.span, true⟩,
                          inserted := st.inserted + 1 }
            | none =>
              { st with out := st.out.push ⟨switch, .integer page, p.line, p.span, true⟩,
                        inserted := st.inserted + 1 }
          let st := if jump then { st with rom := page } else { st with cache := page }
          .ok { st with out := st.out.push p, changed := true }

/-- One pass over the code: the new code, the new placement, and whether anything changed. -/
def pass (set : InstructionSet) (placed : Placement) (code : List Pending) :
    Except Diagnostic (List Pending × Placement × Bool) := do
  let st ← code.foldlM (Pass.step set placed) {}
  let moved := placed.map fun
    | some j => some (j + st.before.getD j st.inserted)
    | none => none
  return (st.out.toList, moved, st.changed)

def settle (set : InstructionSet) : Nat → List Pending → Placement →
    Except Diagnostic (List Pending × Placement)
  | 0, code, _ =>
    match code with
    | p :: _ => .error ⟨.pagingDiverged, p.span, p.line⟩
    | [] => .error ⟨.pagingDiverged, Span.point 0, 0⟩
  | fuel + 1, code, placed => do
    let (code', placed', changed) ← pass set placed code
    if changed then settle set fuel code' placed' else return (code', placed')

def fixPages (set : InstructionSet) (code : List Pending) (placed : Placement) :
    Except Diagnostic (List Pending × Placement) :=
  settle set (code.length + 2 * (maxPage + 1) + 2) code placed

end Paging

end PagedAsm
