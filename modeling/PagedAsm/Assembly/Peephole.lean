import PagedAsm.Assembly.Typing

/-!
# Dropping redundant loads

The accumulator is known after a load of an immediate value (`LRA n`, or a bare `LRA`, which
loads 0), as that value modulo 256. A later immediate load of the same value is dropped while
it is still known. It stops being known at every label (control may arrive from elsewhere) and
at every instruction that may change the accumulator: all but `SRA`, `CCF`, `CRP`, `UO`, `UOC`,
`UOCR`, `PRW` and `INT`, and a load that is not immediate.
-/

namespace PagedAsm

namespace Peephole

def immediate? : Argument → Option Int
  | .none => some 0
  | .integer v => some v
  | _ => none

def dropLoads (set : InstructionSet) : Option Int → List Element → List Element
  | _, [] => []
  | _, .label id :: rest => .label id :: dropLoads set none rest
  | known, .instruction p :: rest =>
    if p.mnemonic = "LRA" then
      match immediate? p.argument with
      | some v =>
        if known = some (v % 256) then dropLoads set known rest
        else .instruction p :: dropLoads set (some (v % 256)) rest
      | none => .instruction p :: dropLoads set none rest
    else if set.isNonModifying p.mnemonic then .instruction p :: dropLoads set known rest
    else .instruction p :: dropLoads set none rest

def optimise (set : InstructionSet) (code : List Element) : List Element :=
  dropLoads set none code

end Peephole

end PagedAsm
