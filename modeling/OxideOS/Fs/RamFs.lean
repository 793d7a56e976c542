import OxideOS.Lib.Path
import OxideOS.Lib.Table

/-!
# The file system in memory

Files and directories are kept in one list of nodes; a node names its parent by
its position in the list, and the node at position 0 is the root. Removing a file
moves every node behind it one position down, so positions in parent links (and
in the descriptors of the tasks) have to follow.

Permission bits and owners are left out: nothing modelled here reads them.
-/

set_option autoImplicit false

namespace OxideOS.Fs

open Lib

def slash : UInt8 := 0x2F

/-- The bytes of an ASCII text. -/
def ascii (text : String) : List UInt8 := text.toList.map fun c => .ofNat c.toNat

def enoent : Int := -2
def eexist : Int := -17
def eisdir : Int := -21
def enotdir : Int := -20
def einval : Int := -22

inductive NodeKind where
  | file
  | directory
  deriving DecidableEq, Repr

structure INode where
  name : List UInt8
  /-- The position of the parent; the root has none. -/
  parentIdx : Option Nat
  kind : NodeKind
  data : List UInt8
  /-- How many nodes were created before this one; a history variable, which the
  code neither has nor needs. -/
  serial : Nat
  deriving DecidableEq

structure RamFs where
  inodes : List INode
  /-- The number of nodes created so far; a history variable. -/
  created : Nat
  deriving DecidableEq

namespace RamFs

/-! ## Path lookup -/

def findChild (fs : RamFs) (parentIdx : Nat) (name : List UInt8) : Option Nat :=
  fs.inodes.findIdx? fun n => n.parentIdx == some parentIdx && n.name == name

/-- Follow names from a node. -/
def walk (fs : RamFs) : Nat → List (List UInt8) → Option Nat
  | cur, [] => some cur
  | cur, name :: rest =>
    match fs.findChild cur name with
    | none => none
    | some next => walk fs next rest

def resolve (fs : RamFs) (path : List UInt8) : Option Nat :=
  if path = [slash] ∨ path = [] then some 0 else
  let stripped := if path.head? = some slash then path.tail else path
  fs.walk 0 (components slash stripped)

/-- Split `/foo/bar` into `/foo` and `bar`; there is nothing to split in the root. -/
def splitPath (path : List UInt8) : Option (List UInt8 × List UInt8) :=
  let path := path.rdropWhile (· = slash)
  if path = [] ∨ path = [slash] then none else
  let name := path.rtakeWhile (· ≠ slash)
  match path.rdropWhile (· ≠ slash) with
  | [] => some ([slash], name)
  | [_] => some ([slash], name)
  | dir => some (dir.dropLast, name)

/-- The node at a position is a directory. -/
def isDirAt (fs : RamFs) (idx : Nat) : Bool := (fs.inodes[idx]?).any fun n => n.kind = .directory

/-! ## Changes -/

/-- A new node at the end of the list. -/
def push (fs : RamFs) (name : List UInt8) (parentIdx : Nat) (kind : NodeKind) : RamFs :=
  ⟨fs.inodes ++ [⟨name, some parentIdx, kind, [], fs.created⟩], fs.created + 1⟩

/-- Put a new node where the path says, once it is known not to exist. -/
def create (fs : RamFs) (path : List UInt8) (kind : NodeKind) : Except Int Nat × RamFs :=
  match splitPath path with
  | none => (.error einval, fs)
  | some (parentPath, name) =>
    match fs.resolve parentPath with
    | none => (.error enoent, fs)
    | some parentIdx =>
      if !fs.isDirAt parentIdx then (.error enotdir, fs)
      else (.ok fs.inodes.length, fs.push name parentIdx kind)

def createDir (fs : RamFs) (path : List UInt8) : Except Int Nat × RamFs :=
  if (fs.resolve path).isSome then (.error eexist, fs) else fs.create path .directory

/-- Replace the content of the node at a position. -/
def setData (fs : RamFs) (idx : Nat) (data : List UInt8) : RamFs :=
  { fs with inodes := fs.inodes.modify idx fun n => { n with data := data } }

/-- Create a file, or empty the one that is there. -/
def createFile (fs : RamFs) (path : List UInt8) : Except Int Nat × RamFs :=
  match fs.resolve path with
  | some idx => if fs.isDirAt idx then (.error eisdir, fs) else (.ok idx, fs.setData idx [])
  | none => fs.create path .file

def writeFile (fs : RamFs) (path data : List UInt8) : Except Int Unit × RamFs :=
  match fs.createFile path with
  | (.error e, fs) => (.error e, fs)
  | (.ok idx, fs) =>
    (.ok (), { fs with inodes := fs.inodes.modify idx fun n => { n with data := n.data ++ data } })

/-- A parent link after the node at `idx` is gone. -/
def lower (idx : Nat) (parentIdx : Option Nat) : Option Nat :=
  parentIdx.map fun p => if idx < p then p - 1 else p

/-- Take the node at `idx` out of the list. -/
def removeAt (fs : RamFs) (idx : Nat) : RamFs :=
  { fs with
    inodes := (fs.inodes.map fun n => { n with parentIdx := lower idx n.parentIdx }).eraseIdx idx }

/-- Remove a file; its position is returned, for the descriptors. -/
def removeFile (fs : RamFs) (path : List UInt8) : Except Int Nat × RamFs :=
  match fs.resolve path with
  | none => (.error enoent, fs)
  | some idx => if fs.isDirAt idx then (.error eisdir, fs) else (.ok idx, fs.removeAt idx)

/-- The second half of `rename`, when nothing is in the way: the node gets its new
name and parent. The parent is not required to be a directory. -/
def renameInto (fs : RamFs) (oldPath newPath : List UInt8) : Except Int Unit × RamFs :=
  match fs.resolve oldPath with
  | none => (.error enoent, fs)
  | some idx =>
    match splitPath newPath with
    | none => (.error einval, fs)
    | some (newDir, newName) =>
      match if newDir = [slash] ∨ newDir = [] then some 0 else fs.resolve newDir with
      | none => (.error enoent, fs)
      | some newParent =>
        (.ok (), { fs with inodes := fs.inodes.modify idx fun n =>
          { n with name := newName, parentIdx := some newParent } })

/-- Rename a file; a file that has the new name is removed first. -/
def rename (fs : RamFs) (oldPath newPath : List UInt8) : Except Int Unit × RamFs :=
  match fs.resolve oldPath with
  | none => (.error enoent, fs)
  | some idx =>
    if fs.isDirAt idx then (.error eisdir, fs)
    else if (fs.resolve newPath).isSome then
      match fs.removeFile newPath with
      | (.error e, fs) => (.error e, fs)
      | (.ok _, fs) => fs.renameInto oldPath newPath
    else fs.renameInto oldPath newPath

/-- The file system the kernel starts with. -/
def new (etcVersion : List UInt8) : RamFs :=
  let fs : RamFs := ⟨[⟨ascii "/", none, .directory, [], 0⟩], 1⟩
  let fs := (fs.createDir (ascii "/etc")).2
  let fs := (fs.createDir (ascii "/tmp")).2
  let fs := (fs.createDir (ascii "/home")).2
  let fs := (fs.createDir (ascii "/bin")).2
  let fs := (fs.writeFile (ascii "/etc/hostname") (ascii "oxideos\n")).2
  let fs := (fs.writeFile (ascii "/etc/version") etcVersion).2
  (fs.writeFile (ascii "/etc/motd")
    (ascii "Welcome to OxideOS!\nType 'help' in the terminal for commands.\n")).2

/-! ## Changes in place -/

section Modify

variable {fs : RamFs} {idx : Nat} {f : INode → INode}

/-- Changing a node in place is not seen by tests for directories, -/
theorem isDirAt_modify (same : ∀ n, (f n).kind = n.kind) (i : Nat) :
    isDirAt { fs with inodes := fs.inodes.modify idx f } i = fs.isDirAt i := by
  have kinds := congrArg (fun l => l[i]?) (map_modify_of_eq same fs.inodes idx)
  simp only [List.getElem?_map] at kinds
  have any : ∀ n : Option INode,
      n.any (fun n => n.kind = .directory) = (n.map INode.kind).any (· = .directory) := by
    intro n
    cases n <;> rfl
  rw [isDirAt, isDirAt, any, any, kinds]

/-- nor by lookups, if the node keeps its name and its parent. -/
theorem findChild_modify (parent : ∀ n, (f n).parentIdx = n.parentIdx)
    (name : ∀ n, (f n).name = n.name) (p : Nat) (child : List UInt8) :
    findChild { fs with inodes := fs.inodes.modify idx f } p child = fs.findChild p child := by
  have tests : ∀ l : List INode,
      l.findIdx? (fun n => n.parentIdx == some p && n.name == child)
        = (l.map fun n => n.parentIdx == some p && n.name == child).findIdx? id := by
    intro l
    rw [List.findIdx?_map]
    rfl
  rw [findChild, findChild, tests, tests, map_modify_of_eq (fun n => by rw [parent, name])]

/-- What holds once the file has been created, and still holds when data is appended,
holds once the file has been written. -/
theorem writeFile_rule {P : RamFs → Prop} {path data : List UInt8}
    (created : P (fs.createFile path).2)
    (appended : ∀ {fs : RamFs} (idx : Nat), P fs → P { fs with
      inodes := fs.inodes.modify idx fun n => { n with data := n.data ++ data } }) :
    P (fs.writeFile path data).2 := by
  unfold writeFile
  split
  · next result =>
      rw [result] at created
      exact created
  · next result =>
      rw [result] at created
      exact appended _ created

end Modify

end RamFs

end OxideOS.Fs
