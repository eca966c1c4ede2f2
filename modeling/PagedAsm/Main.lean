import PagedAsm.CommandLine.Assembler

/-!
# The `mqa` program

The program runs the assembler's command line on its arguments against the files of the
machine, prints what the run printed on standard output and standard error, and exits with its
status. Failed file accesses are reported by the fault the system gives.
-/

namespace PagedAsm

def isCode (reported : UInt32) (code : Nat) : Bool :=
  reported.toNat = code || reported.toNat + code = Nat.pow 2 32

def faultOf (e : IO.Error) : FileFault :=
  match e with
  | .noFileOrDirectory .. => .missing
  | .inappropriateType _ code _ =>
    if isCode code 21 then .isDirectory
    else if isCode code 20 then .notDirectory
    else .other (toString e)
  | .permissionDenied .. => .other "permission denied"
  | _ => .other (toString e)

def fileErrorOf (step : FileStep) (path : String) (e : IO.Error) : FileError :=
  let fault := faultOf e
  let step := if step = .reading ∧ fault ≠ .isDirectory then .opening
    else if step = .writing then .opening else step
  ⟨step, path, fault⟩

instance : Storage IO where
  read path := do
    try return .ok (← IO.FS.readBinFile path).toList
    catch e => return .error (fileErrorOf .reading path e)
  write path bytes := do
    try
      IO.FS.writeBinFile path ⟨bytes.toArray⟩
      return .ok ()
    catch e => return .error (fileErrorOf .writing path e)

end PagedAsm

def main (args : List String) : IO UInt32 := do
  let o ← (PagedAsm.Assembler.run args : IO PagedAsm.Outcome)
  IO.print o.stdout
  IO.eprint o.stderr
  return o.exit.toUInt32
