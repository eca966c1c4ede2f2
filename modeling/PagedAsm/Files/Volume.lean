import PagedAsm.Files.Path

/-!
# Files and volumes

The command line reads and writes whole files through `Storage`, a small interface with one
read and one write. A `Volume` is a directory tree held as data: its files by path, each path a
list of names, with a directory wherever some file lies below it. A `Volume` answers reads and
writes as a file system does for a process whose working directory is its top:

* a name is resolved part by part; every part before the last must name a directory, else the
  access fails while opening (`no such file or directory`, `not a directory`);
* reading a directory opens it but fails at the read (`is a directory`);
* writing creates a missing file in an existing directory and replaces an existing one, and
  fails while opening a directory;
* a part longer than 255 bytes, or a whole name of 4096 bytes or more, names nothing that can
  exist: looking it up fails with `file name too long`.

An empty name and a name from the root of the machine name nothing in a volume.
-/

namespace PagedAsm

/-- Why a file access failed. -/
inductive FileFault where
  | missing
  | isDirectory
  | notDirectory
  | nameTooLong
  | other (text : String)
  deriving DecidableEq, Repr

/-- The text of a file fault. -/
def FileFault.text : FileFault → String
  | .missing => "no such file or directory"
  | .isDirectory => "is a directory"
  | .notDirectory => "not a directory"
  | .nameTooLong => "file name too long"
  | .other t => t

/-- The step of a file access that failed. -/
inductive FileStep where
  | opening
  | reading
  | writing
  deriving DecidableEq, Repr

def FileStep.verb : FileStep → String
  | .opening => "open"
  | .reading => "read"
  | .writing => "write"

/-- A failed file access: the step, the name as given, and the fault. -/
structure FileError where
  step : FileStep
  path : String
  fault : FileFault
  deriving DecidableEq, Repr

def FileError.message (e : FileError) : String :=
  e.step.verb ++ " " ++ e.path ++ ": " ++ e.fault.text

/-- Where the command line reads and writes whole files. -/
class Storage (m : Type → Type) where
  read : String → m (Except FileError (List UInt8))
  write : String → List UInt8 → m (Except FileError Unit)

/-- A directory tree: its files by path, in the order they were made. -/
structure Volume where
  files : List (List String × List UInt8) := []
  deriving DecidableEq, Repr

/-- What a name resolves to in a volume. -/
inductive Place where
  /-- An existing file, with its path and contents. -/
  | file (key : List String) (bytes : List UInt8)
  | directory
  /-- A missing file in an existing directory. -/
  | vacant (key : List String)
  /-- A part before the last is missing or not a directory. -/
  | unreachable (fault : FileFault)
  deriving DecidableEq, Repr

namespace Volume

def get? (v : Volume) (key : List String) : Option (List UInt8) :=
  v.files.lookup key

def isDirectory (v : Volume) (key : List String) : Bool :=
  key.isEmpty || v.files.any fun (k, _) => key.length < k.length && key.isPrefixOf k

/-- Put a file, replacing the file at the same path in place. -/
def put (v : Volume) (key : List String) (bytes : List UInt8) : Volume :=
  if (v.get? key).isSome then
    ⟨v.files.map fun (k, b) => if k = key then (k, bytes) else (k, b)⟩
  else ⟨v.files ++ [(key, bytes)]⟩

theorem lookup_map_replace (files : List (List String × List UInt8)) (key : List String)
    (bytes : List UInt8) (h : (files.lookup key).isSome) :
    (files.map fun (k, b) => if k = key then (k, bytes) else (k, b)).lookup key = some bytes := by
  induction files with
  | nil => simp at h
  | cons e rest ih =>
    obtain ⟨k, b⟩ := e
    by_cases hk : k = key
    · subst hk; simp
    · have hk' : (key == k) = false := beq_eq_false_iff_ne.2 (Ne.symm hk)
      simp only [List.lookup_cons, hk'] at h
      simp [List.lookup_cons, hk, hk', ih h]

theorem lookup_append_single (files : List (List String × List UInt8)) (key other : List String)
    (bytes : List UInt8) :
    (files ++ [(key, bytes)]).lookup other =
      (files.lookup other).or (if other = key then some bytes else none) := by
  induction files with
  | nil =>
    by_cases h : other = key
    · subst h; simp [List.lookup_nil]
    · have : (other == key) = false := beq_eq_false_iff_ne.2 h
      simp [List.lookup_cons, List.lookup_nil, this, h]
  | cons e rest ih =>
    obtain ⟨k, b⟩ := e
    by_cases hk : other = k
    · subst hk; simp
    · have : (other == k) = false := beq_eq_false_iff_ne.2 hk
      simp [List.lookup_cons, this, ih]

@[simp]
theorem get?_put_self (v : Volume) (key : List String) (bytes : List UInt8) :
    (v.put key bytes).get? key = some bytes := by
  unfold put get?
  split
  · exact lookup_map_replace _ _ _ (by assumption)
  · rename_i h
    simp [lookup_append_single, Option.not_isSome_iff_eq_none.1 h]

def partLimit : Nat := 255

def nameLimit : Nat := 4096

/-- Resolve the parts of a name from the directory `dir`. -/
def walk (v : Volume) (dir : List String) : List String → Place
  | [] => .directory
  | [last] =>
    if last = "" ∨ last = "." then .directory
    else if last = ".." then .directory
    else if last.utf8ByteSize > partLimit then .unreachable .nameTooLong
    else
      let key := dir ++ [last]
      match v.get? key with
      | some bytes => .file key bytes
      | none => if v.isDirectory key then .directory else .vacant key
  | part :: rest =>
    if part = "" ∨ part = "." then v.walk dir rest
    else if part = ".." then v.walk dir.dropLast rest
    else if part.utf8ByteSize > partLimit then .unreachable .nameTooLong
    else
      let key := dir ++ [part]
      if v.isDirectory key then v.walk key rest
      else if (v.get? key).isSome then .unreachable .notDirectory
      else .unreachable .missing

def locate (v : Volume) (path : String) : Place :=
  if path.utf8ByteSize ≥ nameLimit then .unreachable .nameTooLong
  else if path.isEmpty ∨ path.startsWith "/" then .unreachable .missing
  else v.walk [] (FileName.parts path)

/-- Read the file a name resolves to. -/
def read (v : Volume) (path : String) : Except FileError (List UInt8) :=
  match v.locate path with
  | .file _ bytes => .ok bytes
  | .directory => .error ⟨.reading, path, .isDirectory⟩
  | .vacant _ => .error ⟨.opening, path, .missing⟩
  | .unreachable f => .error ⟨.opening, path, f⟩

/-- Write the file a name resolves to. -/
def write (v : Volume) (path : String) (bytes : List UInt8) : Except FileError Volume :=
  match v.locate path with
  | .file key _ => .ok (v.put key bytes)
  | .vacant key => .ok (v.put key bytes)
  | .directory => .error ⟨.opening, path, .isDirectory⟩
  | .unreachable f => .error ⟨.opening, path, f⟩

def ofList (files : List (String × List UInt8)) : Volume :=
  files.foldl (fun v (name, bytes) =>
    v.put ((FileName.parts name).filter fun p => p ≠ "" ∧ p ≠ ".") bytes) {}

def changes (before after : Volume) : List (String × List UInt8) :=
  let changed := after.files.filter fun (k, b) => before.get? k ≠ some b
  (changed.map fun (k, b) => ("/".intercalate k, b)).mergeSort fun x y => x.1 ≤ y.1

end Volume

instance : Storage (StateM Volume) where
  read path := return (← get).read path
  write path bytes := do
    match (← get).write path bytes with
    | .ok v => set v; return .ok ()
    | .error e => return .error e

end PagedAsm
