/-! # File access

A run reads fact files, an options file and source files, and may write a dump. It reaches files
only through a `FileAccess` record, so the same run works against the real file system and
against a working directory held in memory. A failure is described the way the operating system
describes it, such as `No such file or directory (os error 2)`.

The working directory in memory holds files by relative path; a directory exists when some file
lies below it, and the working directory always exists. A path is followed component by component
from the working directory, as the operating system does: empty components are skipped, `.` stays
and `..` steps to the parent, and each of those and each name must be looked up in a directory, so
going on from a file fails with `Not a directory` and from something missing with `No such file or
directory`. A path that ends in `/` must name a directory. An empty path names nothing.

Outside the working directory little is known. An absolute path starts at the root directory,
which holds the directories `dev` and `tmp`; `dev` holds `null`, a file that reads empty and
takes every write without keeping it. The contents of `tmp` and of the directories above the
working directory are unknown, so nothing is found there, and a file created outside the working
directory is not kept. -/

namespace CheckedPointers.Cli

/-- Reading or writing a whole file by path, in some monad. -/
structure FileAccess (m : Type → Type) where
  read : String → m (Except String String)
  write : String → String → m (Except String Unit)

def notFound : String := "No such file or directory (os error 2)"
def isDirectory : String := "Is a directory (os error 21)"
def notDirectory : String := "Not a directory (os error 20)"

/-- The names of a path's components, without the empty ones. -/
def names (p : String) : List String := (p.splitOn "/").filter (· != "")

/-- The key a file is stored under: its components without empty ones and `.`. -/
def plainKey (p : String) : String := "/".intercalate ((names p).filter (· != "."))

/-- What a walk along a path has reached. -/
inductive Place where
  /-- A directory of the working directory, by its components. -/
  | directory (cs : List String)
  /-- A directory outside the working directory whose contents are unknown. -/
  | outside
  | file (cs : List String) (text : String)
  | missing
  /-- The root directory of the system. -/
  | root
  /-- The system's directory of devices. -/
  | devices
  /-- The null device: reads give nothing, writes are dropped. -/
  | null

/-- A working directory in memory: the text of each file by its plain path. -/
structure MemoryFiles where
  files : List (String × String)

namespace MemoryFiles

def key (cs : List String) : String := "/".intercalate cs

/-- What the components name, looked up directly. -/
def lookup (fs : MemoryFiles) (cs : List String) : Place :=
  match fs.files.lookup (key cs) with
  | some t => .file cs t
  | none =>
    let below := fs.files.any fun (k, _) =>
      let ks := k.splitOn "/"
      ks.length > cs.length && ks.take cs.length == cs
    if cs.isEmpty || below then .directory cs else .missing

/-- One component of a walk, looked up in the place reached so far. -/
def step (fs : MemoryFiles) : Place → String → Except String Place
  | .file .., _ => .error notDirectory
  | .null, _ => .error notDirectory
  | .missing, _ => .error notFound
  | .root, ".." | .root, "." => .ok .root
  | .root, "dev" => .ok .devices
  | .root, "tmp" => .ok .outside
  | .root, _ => .ok .missing
  | .devices, "." => .ok .devices
  | .devices, ".." => .ok .root
  | .devices, "null" => .ok .null
  | .devices, _ => .ok .missing
  | .directory cs, "." => .ok (.directory cs)
  | .directory cs, ".." => .ok (if cs.isEmpty then .outside else .directory cs.dropLast)
  | .directory cs, name => .ok (fs.lookup (cs ++ [name]))
  | .outside, "." | .outside, ".." => .ok .outside
  | .outside, _ => .ok .missing

/-- The place reached by following components from `start`. -/
def walk (fs : MemoryFiles) (start : Place) (cs : List String) : Except String Place :=
  cs.foldlM fs.step start

/-- Where a path starts: the root directory when it is absolute, else the working directory. -/
def startOf (p : String) : Place := if p.startsWith "/" then .root else .directory []

/-- The text of the file at `p`. -/
def read (fs : MemoryFiles) (p : String) : Except String String :=
  if p.isEmpty then .error notFound
  else match fs.walk (startOf p) (names p) with
    | .error e => .error e
    | .ok (.file _ t) => if p.endsWith "/" then .error notDirectory else .ok t
    | .ok .null => if p.endsWith "/" then .error notDirectory else .ok ""
    | .ok (.directory _) | .ok .outside | .ok .root | .ok .devices => .error isDirectory
    | .ok .missing => .error notFound

/-- The files with `k` set to `text`, in place if it exists and last otherwise. -/
def put (fs : MemoryFiles) (k : String) (text : String) : MemoryFiles :=
  if fs.files.any (·.1 == k) then ⟨fs.files.map fun (k2, t) => if k2 == k then (k2, text) else (k2, t)⟩
  else ⟨fs.files ++ [(k, text)]⟩

/-- The files written in order under the given names; a later name for the same path replaces
the text. -/
def ofList (fs : List (String × String)) : MemoryFiles :=
  fs.foldl (fun m (k, v) => m.put (plainKey k) v) ⟨[]⟩

/-- Creates or replaces the file at `p`: its last component is looked up in the directory the
others lead to. A write outside the working directory keeps nothing. -/
def write (fs : MemoryFiles) (p : String) (text : String) : Except String MemoryFiles :=
  let ns := names p
  let trailing := p.endsWith "/"
  if p.isEmpty then .error notFound
  else match fs.walk (startOf p) ns.dropLast, ns.getLast? with
    | .error e, _ => .error e
    | _, none => .error isDirectory
    | .ok (.file ..), _ | .ok .null, _ => .error notDirectory
    | .ok .missing, _ => .error notFound
    | .ok .devices, some "null" => if trailing then .error notDirectory else .ok fs
    | .ok .root, some "dev" | .ok .root, some "tmp" => .error isDirectory
    | .ok .outside, some name | .ok .root, some name | .ok .devices, some name =>
      if name == "." || name == ".." || trailing then .error isDirectory else .ok fs
    | .ok (.directory cs), some name =>
      if name == "." || name == ".." then .error isDirectory
      else match fs.lookup (cs ++ [name]) with
        | .file ds _ => if trailing then .error notDirectory else .ok (fs.put (key ds) text)
        | .missing => if trailing then .error isDirectory else .ok (fs.put (key (cs ++ [name])) text)
        | _ => .error isDirectory

/-- Access to a working directory held as state. -/
def access : FileAccess (StateM MemoryFiles) where
  read p := return (← get).read p
  write p text := do
    match (← get).write p text with
    | .ok fs => set fs; return .ok ()
    | .error e => return .error e

/-- The files of `after` whose plain path is none of the names `given`, compared as written: a
file given as `./a.c` is listed as `a.c`. -/
def listedBeside (after : MemoryFiles) (given : List String) : List (String × String) :=
  after.files.filter fun (k, _) => !given.contains k

end MemoryFiles

end CheckedPointers.Cli
