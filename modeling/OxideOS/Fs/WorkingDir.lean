import OxideOS.Fat.Directory
import OxideOS.Fs.DiskFs
import OxideOS.Fs.RamTree
import OxideOS.Lib.Run

/-!
# The working directory

`chdir` stores the text of its path, made to end in a slash, and `getcwd` gives it back.
No other call looks at it: `open`, `stat`, `mkdir`, `unlink` and `readdir` take every
path as it is, and a path that does not start with a slash is one of the file system in
memory, from its root.

So the law of working directories, that `chdir` leads to the directory it names and that
a relative path means what it means from there (`Lawful`), holds over every run in which
`chdir` gets absolute paths that fit its buffer, and relative paths are used only from
the root and not for a mount point (`calls_lawful`). A new program has the working
directory of the last task in its slot. `relative_ignores_cwd` shows what happens
otherwise.

The calls on disks, devices and processes are a parameter here. All that is known of
them is that they leave working directories alone.
-/

set_option autoImplicit false

namespace OxideOS.Fs

open Lib StoreWorld Function

def cwdMax : Nat := 128

/-! ## The back ends -/

inductive Call where
  | open (flags : Nat)
  | stat
  | mkdir
  | unlink
  | readdir (room : Nat)

/-- What `vfs_stat_linux` stores; the other fields follow from the kind and the size. -/
structure LinuxStat where
  ino : Nat
  size : Nat
  directory : Bool
  deriving DecidableEq

/-- The result, and what has been stored for the caller. -/
structure Answer where
  code : Int
  stat : Option LinuxStat
  listing : List UInt8
  deriving DecidableEq

/-- The number that `stat` makes up from the length of the path is left out. -/
def Answer.object (a : Answer) : Answer := { a with stat := a.stat.map ({ · with ino := 0 }) }

/-- A mounted ext2 volume: names in directories, and which nodes are directories. -/
structure Ext2Tree where
  dirLookup : Nat → List UInt8 → Option Nat
  isDir : Nat → Bool

/-- The file systems; `δ` is the state of the disks. -/
structure Files (δ : Type) where
  ram : RamFs
  disks : δ

/-- What is mounted, and the calls outside the file system in memory. -/
structure Backends (δ : Type) where
  ata : δ → Bool
  fat : δ → Option (Fat.Bpb × Disk.Device)
  ext2 : δ → Option Ext2Tree
  call : Mount → Call → List UInt8 → Files δ → FdTable → Answer × Files δ × FdTable

namespace RamFs

/-- The node of a path, if it is a directory (`list_dir`). -/
def dirAt (fs : RamFs) (path : List UInt8) : Option Nat := (fs.resolve path).filter fs.isDirAt

/-- The lines of a directory that fit. -/
def dirLines (room : Nat) : List INode → List UInt8 → List UInt8
  | [], out => out
  | n :: rest, out =>
    let line := n.name ++ (if n.kind = .directory then [slash] else []) ++ [newline]
    if room < out.length + line.length then out else dirLines room rest (out ++ line)

def readDirRaw (fs : RamFs) (path : List UInt8) (room : Nat) : Answer :=
  match fs.resolve path with
  | none => ⟨-7, none, []⟩
  | some idx =>
    if !fs.isDirAt idx then ⟨-1, none, []⟩
    else
      let out := dirLines room (fs.inodes.filter fun n => n.parentIdx == some idx) []
      ⟨out.length, none, out⟩

def statLinux (fs : RamFs) (path : List UInt8) : Answer :=
  match fs.resolve path with
  | none => ⟨-2, none, []⟩
  | some idx =>
    match fs.inodes[idx]? with
    | none => ⟨-2, none, []⟩
    | some n =>
      if n.kind = .directory then ⟨0, some ⟨400 + path.length, 0, true⟩, []⟩
      else ⟨0, some ⟨300 + path.length, n.data.length, false⟩, []⟩

end RamFs

/-! ## Tasks and their calls -/

structure VfsWorld (δ : Type) where
  files : Files δ
  cwd : Nat → List UInt8
  tables : Nat → FdTable

namespace VfsWorld

variable {δ : Type} (B : Backends δ)

/-- The calls on the file system in memory. -/
def ramCall (w : VfsWorld δ) (task : Nat) (call : Call) (path : List UInt8) :
    Answer × VfsWorld δ :=
  let fs := w.files.ram
  match call with
  | .open flags =>
    if (fs.dirAt path).isSome then
      let (fd, t) := (w.tables task).openDir path
      (⟨fd, none, []⟩, { w with tables := update w.tables task t })
    else
      let (fd, t, fs, _) := (w.tables task).openFile fs path flags
      (⟨fd, none, []⟩, { w with
        files := { w.files with ram := fs }, tables := update w.tables task t })
  | .stat => (fs.statLinux path, w)
  | .mkdir =>
    match fs.createDir path with
    | (.ok _, fs) => (⟨0, none, []⟩, { w with files := { w.files with ram := fs } })
    | (.error _, fs) => (⟨-1, none, []⟩, { w with files := { w.files with ram := fs } })
  | .unlink =>
    match fs.removeFile path with
    | (.ok idx, fs) =>
      (⟨0, none, []⟩, { w with
        files := { w.files with ram := fs }, tables := fun i => (w.tables i).onInodeRemoved idx })
    | (.error e, fs) => (⟨e, none, []⟩, { w with files := { w.files with ram := fs } })
  | .readdir room => (fs.readDirRaw path room, w)

/-- `unlink` knows the disks only, and takes everything else to be in memory. -/
def inMemory (call : Call) (path : List UInt8) : Bool :=
  match vfsResolve path, call with
  | .ramFS, _ => true
  | .fat16, _ | .ext2, _ => false
  | _, .unlink => true
  | _, _ => false

def call (w : VfsWorld δ) (task : Nat) (call : Call) (path : List UInt8) : Answer × VfsWorld δ :=
  if inMemory call path then w.ramCall task call path
  else
    let (answer, files, t) := B.call (vfsResolve path) call path w.files (w.tables task)
    (answer, { w with files := files, tables := update w.tables task t })

def fatResolveDir (d : δ) (path : List UInt8) : Option Fat.DirLoc :=
  (B.fat d).bind fun (b, dev) =>
    (Fat.resolveDirComponents b dev .root (segments slash (Fat.stripDiskPrefix path))).join

def stripExt2Prefix (path : List UInt8) : List UInt8 :=
  if (ascii "/ext2/").isPrefixOf path then path.drop 5
  else if path = ascii "/ext2" then [slash] else path

def ext2Dir (d : δ) (path : List UInt8) : Option Nat :=
  (B.ext2 d).bind fun t =>
    ((components slash (stripExt2Prefix path)).foldlM t.dirLookup 2).filter t.isDir

/-- The directory is there; its absence is not the only way to fail. -/
def dirExists (f : Files δ) (path : List UInt8) : Except Int Bool :=
  match vfsResolve path with
  | .fat16 =>
    if !B.ata f.disks then .error (-19)
    else .ok (path == ascii "/disk" || path == ascii "/disk/" ||
      (fatResolveDir B f.disks path).isSome)
  | .ext2 =>
    .ok ((B.ext2 f.disks).isSome &&
      (path == ascii "/ext2" || path == ascii "/ext2/" || (ext2Dir B f.disks path).isSome))
  | .ramFS => .ok (path == [slash] || (f.ram.dirAt path).isSome)
  | .dev => .ok false
  | .proc => .ok (path == ascii "/proc" || (f.ram.dirAt path).isSome)
  | .diskStore => .ok (path == ascii "/store" || path == ascii "/store/")

/-- What is stored for a path: cut to the buffer, and ended by a slash if it has room. -/
def storedCwd (path : List UInt8) : List UInt8 :=
  let norm := path.take (cwdMax - 1)
  if norm.getLast? = some slash then norm
  else if norm.length < cwdMax - 1 then norm ++ [slash]
  else norm

def chdir (w : VfsWorld δ) (task : Nat) (path : List UInt8) : Int × VfsWorld δ :=
  match dirExists B w.files path with
  | .error e => (e, w)
  | .ok false => (-7, w)
  | .ok true => (0, { w with cwd := update w.cwd task (storedCwd path) })

def getcwd (w : VfsWorld δ) (task : Nat) : List UInt8 := w.cwd task

inductive Event (δ : Type) where
  | chdir (task : Nat) (path : List UInt8)
  | call (task : Nat) (call : Call) (path : List UInt8)
  /-- A new program in this slot, where the working directory is left as it was. -/
  | spawn (task : Nat)
  | fork (parent child : Nat)
  /-- Whatever else happens to the file systems and descriptors. -/
  | other (files : Files δ) (tables : Nat → FdTable)

def step (w : VfsWorld δ) : Event δ → Option (VfsWorld δ)
  | .chdir task path => some (w.chdir B task path).2
  | .call task call path => some (w.call B task call path).2
  | .spawn _ => some w
  | .fork parent child => some { w with cwd := update w.cwd child (w.cwd parent) }
  | .other files tables => some { w with files := files, tables := tables }

def start (files : Files δ) : VfsWorld δ := ⟨files, fun _ => [slash], fun _ => .new⟩

/-! ## The law -/

/-- A directory, told by its place and not by its name. -/
inductive Place where
  | ram (idx : Nat)
  | fat (loc : Fat.DirLoc)
  | ext2 (inode : Nat)
  | proc
  | store

/-- The directory that a path leads to. -/
def place (f : Files δ) (path : List UInt8) : Option Place :=
  match vfsResolve path with
  | .dev => none
  | .fat16 =>
    if path = ascii "/disk" ∨ path = ascii "/disk/" then some (.fat .root)
    else (fatResolveDir B f.disks path).map .fat
  | .ext2 =>
    if path = ascii "/ext2" ∨ path = ascii "/ext2/" then some (.ext2 2)
    else (ext2Dir B f.disks path).map .ext2
  | .proc =>
    if path = ascii "/proc" ∨ path = ascii "/proc/" then some .proc
    else (f.ram.dirAt path).map .ram
  | .diskStore => if path = ascii "/store" ∨ path = ascii "/store/" then some .store else none
  | .ramFS => if path = [slash] then some (.ram 0) else (f.ram.dirAt path).map .ram

def IsAbsolute (path : List UInt8) : Prop := path.head? = some slash

instance (path : List UInt8) : Decidable (IsAbsolute path) :=
  inferInstanceAs (Decidable (path.head? = some slash))

/-- The path a task means. -/
def meant (w : VfsWorld δ) (task : Nat) (path : List UInt8) : List UInt8 :=
  if IsAbsolute path then path else w.getcwd task ++ path

def dotdot : List UInt8 := ascii ".."

/-- The names of directories that descriptors remember are left out. -/
def forget (t : FdTable) : FdTable :=
  ⟨fun fd => (t.entries fd).map fun e => { e with dirPath := [] }⟩

/-- The two calls have the same answer and effect, and are about the same node. -/
def SameCall (w : VfsWorld δ) (task : Nat) (c : Call) (path path' : List UInt8) : Prop :=
  (w.call B task c path).1.object = (w.call B task c path').1.object ∧
    (w.call B task c path).2.files = (w.call B task c path').2.files ∧
    (∀ i, forget ((w.call B task c path).2.tables i) = forget
      ((w.call B task c path').2.tables i)) ∧
    w.files.ram.resolve path = w.files.ram.resolve path'

/-- A directory change that goes through leads to the directory meant, under an
absolute name, and `..` leads to the parent. A relative path means the same as the
absolute one. -/
def Lawful (w : VfsWorld δ) : Event δ → Prop
  | .chdir task path =>
    ((w.chdir B task path).1 = 0 →
      IsAbsolute ((w.chdir B task path).2.getcwd task) ∧
      place B w.files ((w.chdir B task path).2.getcwd task) =
        place B w.files (w.meant task path) ∧
      (place B w.files (w.meant task path)).isSome = true) ∧
    (path = dotdot → components slash ((w.chdir B task path).2.getcwd task) =
      (components slash (w.getcwd task)).dropLast)
  | .call task c path => ¬IsAbsolute path → SameCall B w task c path (w.getcwd task ++ path)
  | _ => True

/-- Directory changes are to absolute paths that fit; relative paths are used in the
root, and not for what is mounted elsewhere. -/
def Plain (w : VfsWorld δ) : Event δ → Prop
  | .chdir _ path => IsAbsolute path ∧ path.length < cwdMax
  | .call task c path => IsAbsolute path ∨
      (∀ b ∈ w.getcwd task, b = slash) ∧ inMemory c (w.getcwd task ++ path) = true
  | _ => True

/-! ## A slash at the end -/

section Slash

variable {B} {f : Files δ} {p dir : List UInt8}

theorem isUnder_append (ends : dir.getLast? ≠ some slash) :
    isUnder dir (p ++ [slash]) = isUnder dir p := by
  have other : ((p ++ [slash]) == dir) = false := by
    rw [beq_eq_false_iff_ne]
    rintro rfl
    exact ends (by simp)
  have below : (dir ++ [slash]).isPrefixOf (p ++ [slash]) =
      (p == dir || (dir ++ [slash]).isPrefixOf p) := by
    rw [Bool.eq_iff_iff, Bool.or_eq_true, List.isPrefixOf_iff_prefix, List.isPrefixOf_iff_prefix,
      List.prefix_concat_iff, List.append_cancel_right_eq, beq_iff_eq, eq_comm]
  rw [isUnder, isUnder, other, below, Bool.false_or]

theorem vfsResolve_append : vfsResolve (p ++ [slash]) = vfsResolve p := by
  simp only [vfsResolve, isUnder_append (show (ascii "/dev").getLast? ≠ some slash by decide),
    isUnder_append (show (ascii "/disk").getLast? ≠ some slash by decide),
    isUnder_append (show (ascii "/ext2").getLast? ≠ some slash by decide),
    isUnder_append (show (ascii "/proc").getLast? ≠ some slash by decide),
    isUnder_append (show (ascii "/store").getLast? ≠ some slash by decide)]

theorem components_append_slash : components slash (p ++ [slash]) = components slash p := by
  rw [components_append_sep, components_nil, List.append_nil]

theorem dirAt_append {fs : RamFs} : fs.dirAt (p ++ [slash]) = fs.dirAt p := by
  rw [RamFs.dirAt, RamFs.dirAt, RamFs.resolve_eq_walk, RamFs.resolve_eq_walk,
    components_append_slash]

/-- An empty name at the end changes nothing. -/
theorem resolveDirComponents_append {b : Fat.Bpb} {d : Disk.Device} (parts : List (List UInt8))
    (loc : Fat.DirLoc) :
    Fat.resolveDirComponents b d loc (parts ++ [[]]) = Fat.resolveDirComponents b d loc parts := by
  induction parts generalizing loc with
  | nil => rfl
  | cons part rest ih =>
    simp only [List.cons_append, Fat.resolveDirComponents, ih]

theorem stripDiskPrefix_append (under : (ascii "/disk/").isPrefixOf p = true) :
    Fat.stripDiskPrefix (p ++ [slash]) = Fat.stripDiskPrefix p ++ [slash] := by
  obtain ⟨rest, rfl⟩ := List.isPrefixOf_iff_prefix.mp under
  rfl

theorem fatResolveDir_append {d : δ} (under : (ascii "/disk/").isPrefixOf p = true) :
    fatResolveDir B d (p ++ [slash]) = fatResolveDir B d p := by
  simp only [fatResolveDir, stripDiskPrefix_append under, segments_append_sep]
  congr 1
  funext pair
  exact congrArg Option.join (resolveDirComponents_append ..)

theorem ext2Dir_append {d : δ} (under : (ascii "/ext2/").isPrefixOf p = true) :
    ext2Dir B d (p ++ [slash]) = ext2Dir B d p := by
  obtain ⟨rest, rfl⟩ := List.isPrefixOf_iff_prefix.mp under
  have strip : ∀ tail, stripExt2Prefix (ascii "/ext2/" ++ tail) = slash :: tail := fun tail => rfl
  simp only [ext2Dir, List.append_assoc, strip]
  rw [show slash :: (rest ++ [slash]) = (slash :: rest) ++ [slash] from rfl,
    components_append_slash]

theorem vfsResolve_fat16 (mount : vfsResolve p = .fat16) : isUnder (ascii "/disk") p = true := by
  unfold vfsResolve at mount
  split at mount
  · cases mount
  · split at mount
    · assumption
    · repeat' split at mount
      all_goals cases mount

theorem vfsResolve_ext2 (mount : vfsResolve p = .ext2) : isUnder (ascii "/ext2") p = true := by
  unfold vfsResolve at mount
  split at mount
  · cases mount
  · split at mount
    · cases mount
    · split at mount
      · assumption
      · repeat' split at mount
        all_goals cases mount

/-- Only the directory itself gets its own name with a slash. -/
theorem eq_dir_append (open_ : p.getLast? ≠ some slash) (ends : dir.getLast? ≠ some slash) :
    (p ++ [slash] = dir ∨ p ++ [slash] = dir ++ [slash]) ↔ (p = dir ∨ p = dir ++ [slash]) := by
  constructor
  · rintro (rfl | same)
    · exact absurd (by simp) ends
    · exact .inl (List.append_cancel_right same)
  · rintro (rfl | rfl)
    · exact .inr rfl
    · exact absurd (by simp) open_

/-- A path and the same path with a slash lead to one directory. -/
theorem place_append (open_ : p.getLast? ≠ some slash) (filled : p ≠ []) :
    place B f (p ++ [slash]) = place B f p := by
  unfold place
  rw [vfsResolve_append]
  have disk : (p ++ [slash] = ascii "/disk" ∨ p ++ [slash] = ascii "/disk/") ↔
      (p = ascii "/disk" ∨ p = ascii "/disk/") := eq_dir_append open_ (by decide)
  have ext2 : (p ++ [slash] = ascii "/ext2" ∨ p ++ [slash] = ascii "/ext2/") ↔
      (p = ascii "/ext2" ∨ p = ascii "/ext2/") := eq_dir_append open_ (by decide)
  have proc : (p ++ [slash] = ascii "/proc" ∨ p ++ [slash] = ascii "/proc/") ↔
      (p = ascii "/proc" ∨ p = ascii "/proc/") := eq_dir_append open_ (by decide)
  have store : (p ++ [slash] = ascii "/store" ∨ p ++ [slash] = ascii "/store/") ↔
      (p = ascii "/store" ∨ p = ascii "/store/") := eq_dir_append open_ (by decide)
  cases mount : vfsResolve p with
  | dev => rfl
  | proc =>
    simp only [proc, dirAt_append]
  | diskStore =>
    simp only [store]
  | ramFS =>
    have notRoot : p ++ [slash] ≠ [slash] := by simpa using filled
    have notRoot' : p ≠ [slash] := by
      rintro rfl
      exact open_ rfl
    simp only [notRoot, notRoot', if_false, dirAt_append]
  | fat16 =>
    by_cases root : p = ascii "/disk" ∨ p = ascii "/disk/"
    · rw [if_pos root, if_pos (disk.mpr root)]
    · rw [if_neg root, if_neg (mt disk.mp root)]
      have under := vfsResolve_fat16 mount
      rw [isUnder, Bool.or_eq_true, beq_iff_eq] at under
      rw [fatResolveDir_append (under.resolve_left fun same => root (.inl same))]
  | ext2 =>
    by_cases root : p = ascii "/ext2" ∨ p = ascii "/ext2/"
    · rw [if_pos root, if_pos (ext2.mpr root)]
    · rw [if_neg root, if_neg (mt ext2.mp root)]
      have under := vfsResolve_ext2 mount
      rw [isUnder, Bool.or_eq_true, beq_iff_eq] at under
      rw [ext2Dir_append (under.resolve_left fun same => root (.inl same))]

/-- A path that fits is stored as it is, or with a slash at its end. -/
theorem storedCwd_cases (fits : p.length < cwdMax) :
    storedCwd p = p ∨ p.getLast? ≠ some slash ∧ storedCwd p = p ++ [slash] := by
  have whole : p.take (cwdMax - 1) = p := List.take_of_length_le (by omega)
  simp only [storedCwd, whole]
  split
  · exact .inl rfl
  · next open_ =>
      split
      · exact .inr ⟨open_, rfl⟩
      · exact .inl rfl

theorem isSome_ite_map {α β : Type} {c : Prop} [Decidable c] {a : β} {o : Option α} {g : α → β}
    (there : c ∨ o.isSome = true) : (if c then some a else o.map g).isSome = true := by
  split
  · rfl
  · next other =>
      rw [Option.isSome_map]
      exact there.resolve_left other

theorem place_of_dirExists (there : dirExists B f p = .ok true) : (place B f p).isSome = true := by
  unfold dirExists at there
  unfold place
  cases mount : vfsResolve p with
  | dev =>
    rw [mount] at there
    cases there
  | fat16 =>
    simp only [mount] at there
    split at there
    · cases there
    · simp only [Except.ok.injEq, Bool.or_eq_true, beq_iff_eq] at there
      exact isSome_ite_map there
  | ext2 =>
    simp only [mount, Except.ok.injEq, Bool.or_eq_true, Bool.and_eq_true, beq_iff_eq] at there
    exact isSome_ite_map there.2
  | ramFS =>
    simp only [mount, Except.ok.injEq, Bool.or_eq_true, beq_iff_eq] at there
    exact isSome_ite_map there
  | proc =>
    simp only [mount, Except.ok.injEq, Bool.or_eq_true, beq_iff_eq] at there
    exact isSome_ite_map (there.imp_left .inl)
  | diskStore =>
    simp only [mount, Except.ok.injEq, Bool.or_eq_true, beq_iff_eq] at there
    simp only [if_pos there]
    rfl

end Slash

/-! ## Relative paths in the root -/

section Root

variable {B} {w : VfsWorld δ} {task : Nat} {path cwd : List UInt8}

theorem components_slashes (root : ∀ b ∈ cwd, b = slash) :
    components slash (cwd ++ path) = components slash path := by
  induction cwd with
  | nil => rfl
  | cons b rest ih =>
    rw [root b List.mem_cons_self, List.cons_append, components_sep_cons]
    exact ih fun b member => root b (List.mem_cons_of_mem _ member)

theorem resolve_congr {fs : RamFs} {path' : List UInt8}
    (same : components slash path = components slash path') :
    fs.resolve path = fs.resolve path' := by
  rw [RamFs.resolve_eq_walk, RamFs.resolve_eq_walk, same]

/-- Without names there is nothing to split. -/
theorem splitPath_eq_none : RamFs.splitPath path = none ↔ components slash path = [] := by
  constructor
  · intro none
    rw [← components_rdropWhile]
    simp only [RamFs.splitPath] at none
    split at none
    · next empty =>
        rcases empty with empty | empty
        · rw [empty]; rfl
        · rw [empty]; rfl
    · split at none <;> cases none
  · intro empty
    cases cut : RamFs.splitPath path with
    | none => rfl
    | some pair =>
      obtain ⟨dir, name⟩ := pair
      have parts := (RamFs.splitPath_components cut).1
      rw [empty] at parts
      exact absurd parts.symm (by simp)

section

variable {fs : RamFs} {path' : List UInt8} (same : components slash path = components slash path')
include same

theorem create_congr (kind : NodeKind) :
    fs.create path kind = fs.create path' kind := by
  unfold RamFs.create
  cases cut : RamFs.splitPath path with
  | none =>
    have none : RamFs.splitPath path' = none := by
      rw [splitPath_eq_none, ← same, ← splitPath_eq_none]
      exact cut
    rw [none]
  | some pair =>
    cases cut' : RamFs.splitPath path' with
    | none =>
      rw [splitPath_eq_none, ← same, ← splitPath_eq_none, cut] at cut'
      cases cut'
    | some pair' =>
      obtain ⟨dir, name⟩ := pair
      obtain ⟨dir', name'⟩ := pair'
      have parts := (RamFs.splitPath_components cut).1
      rw [same, (RamFs.splitPath_components cut').1] at parts
      obtain ⟨dirs, names⟩ := List.append_inj' parts rfl
      cases names
      simp only [resolve_congr dirs]

theorem createFile_congr : fs.createFile path = fs.createFile path' := by
  rw [RamFs.createFile, RamFs.createFile, resolve_congr same, create_congr same]

theorem openFile_congr {t : FdTable} {flags : Nat} :
    t.openFile fs path flags = t.openFile fs path' flags := by
  simp only [FdTable.openFile, resolve_congr same, createFile_congr same]

end

theorem forget_place {t : FdTable} {e e' : FdEntry}
    (same : { e with dirPath := [] } = { e' with dirPath := [] }) :
    (t.place e).1 = (t.place e').1 ∧ forget (t.place e).2 = forget (t.place e').2 := by
  unfold FdTable.place
  split
  · exact ⟨rfl, rfl⟩
  · next fd free =>
      refine ⟨rfl, ?_⟩
      simp only [forget, FdTable.set, FdTable.mk.injEq]
      funext i
      by_cases here : i = fd
      · subst here
        simp only [update_self, Option.map_some, same]
      · simp only [update_of_ne here]

/-- The file system in memory goes by the names of a path only. -/
theorem ramCall_congr {path' : List UInt8} (c : Call)
    (same : components slash path = components slash path') :
    (w.ramCall task c path).1.object = (w.ramCall task c path').1.object ∧
      (w.ramCall task c path).2.files = (w.ramCall task c path').2.files ∧
      ∀ i, forget ((w.ramCall task c path).2.tables i) = forget
        ((w.ramCall task c path').2.tables i) := by
  have leads : w.files.ram.resolve path = w.files.ram.resolve path' := resolve_congr same
  cases c with
  | stat =>
    have answer : (w.files.ram.statLinux path).object = (w.files.ram.statLinux path').object := by
      rw [RamFs.statLinux, RamFs.statLinux, leads]
      repeat' split
      all_goals rfl
    exact ⟨answer, rfl, fun i => rfl⟩
  | readdir room =>
    have answer : w.files.ram.readDirRaw path room = w.files.ram.readDirRaw path' room := by
      rw [RamFs.readDirRaw, RamFs.readDirRaw, leads]
    exact ⟨congrArg Answer.object answer, rfl, fun i => rfl⟩
  | mkdir =>
    have made : w.files.ram.createDir path = w.files.ram.createDir path' := by
      rw [RamFs.createDir, RamFs.createDir, leads, create_congr same]
    simp only [ramCall, made, true_and, implies_true]
  | unlink =>
    have removed : w.files.ram.removeFile path = w.files.ram.removeFile path' := by
      rw [RamFs.removeFile, RamFs.removeFile, leads]
    simp only [ramCall, removed, true_and, implies_true]
  | «open» flags =>
    have dir : w.files.ram.dirAt path = w.files.ram.dirAt path' := by
      rw [RamFs.dirAt, RamFs.dirAt, leads]
    simp only [ramCall, dir, openFile_congr same]
    split
    · have opened := @forget_place (w.tables task)
        { FdEntry.plain .dir 0 false with dirPath := path.take 63 }
        { FdEntry.plain .dir 0 false with dirPath := path'.take 63 } rfl
      refine ⟨congrArg (fun fd => (Answer.mk fd none []).object) opened.1, rfl, fun i => ?_⟩
      by_cases here : i = task
      · subst here
        simp only [update_self]
        exact opened.2
      · simp only [update_of_ne here]
    · exact ⟨rfl, rfl, fun i => rfl⟩

/-- A relative path is never one of the mount points. -/
theorem vfsResolve_relative (relative : ¬IsAbsolute path) : vfsResolve path = .ramFS := by
  have outside : ∀ dir : List UInt8, dir.head? = some slash → isUnder dir path = false := by
    intro dir absolute
    rw [isUnder, Bool.or_eq_false_iff, beq_eq_false_iff_ne]
    refine ⟨?_, Bool.eq_false_iff.mpr fun below => ?_⟩
    · rintro rfl
      exact relative absolute
    · obtain ⟨rest, rfl⟩ := List.isPrefixOf_iff_prefix.mp below
      cases dir with
      | nil => cases absolute
      | cons b dir => exact relative absolute
  simp only [vfsResolve, outside _ (show (ascii "/dev").head? = some slash by decide),
    outside _ (show (ascii "/disk").head? = some slash by decide),
    outside _ (show (ascii "/ext2").head? = some slash by decide),
    outside _ (show (ascii "/proc").head? = some slash by decide),
    outside _ (show (ascii "/store").head? = some slash by decide), Bool.false_eq_true, if_false]

theorem call_lawful {c : Call} (plain : w.Plain (.call task c path)) :
    w.Lawful B (.call task c path) := by
  intro relative
  obtain ⟨root, memory⟩ := plain.resolve_left relative
  have same : components slash path = components slash (w.getcwd task ++ path) :=
    (components_slashes root).symm
  have here : inMemory c path = true := by
    simp only [inMemory, vfsResolve_relative relative]
  obtain ⟨answer, files, tables⟩ := @ramCall_congr δ w task path (w.getcwd task ++ path) c same
  simp only [SameCall, call, here, memory, if_true]
  exact ⟨answer, files, tables, resolve_congr same⟩

theorem chdir_lawful (plain : w.Plain (.chdir task path)) : w.Lawful B (.chdir task path) := by
  obtain ⟨absolute, fits⟩ := plain
  have filled : path ≠ [] := by
    rintro rfl
    cases absolute
  constructor
  · intro success
    have meant : w.meant task path = path := if_pos absolute
    have there : dirExists B w.files path = .ok true := by
      unfold chdir at success
      split at success
      · next e failed =>
          unfold dirExists at failed
          split at failed
          · split at failed
            · cases failed
              cases success
            · cases failed
          all_goals cases failed
      · cases success
      · assumption
    have stored : (w.chdir B task path).2.getcwd task = storedCwd path := by
      simp only [chdir, there, getcwd, update_self]
    rw [stored, meant]
    refine ⟨?_, ?_, place_of_dirExists there⟩
    · rcases storedCwd_cases fits with whole | ⟨-, ended⟩
      · rw [whole]
        exact absolute
      · rw [ended, IsAbsolute, List.head?_append_of_ne_nil _ filled]
        exact absolute
    · rcases storedCwd_cases fits with whole | ⟨open_, ended⟩
      · rw [whole]
      · rw [ended, place_append open_ filled]
  · rintro rfl
    exact absurd absolute (by decide)

end Root

instance (w : VfsWorld δ) (ev : Event δ) : Decidable (w.Plain ev) := by
  unfold Plain
  split
  · infer_instance
  · exact @instDecidableOr _ _ _ (@instDecidableAnd _ _ (List.decidableBAll _ _) _)
  · infer_instance

/-- A machine without disks. -/
def noDisks : Backends Unit where
  ata := fun _ => false
  fat := fun _ => none
  ext2 := fun _ => none
  call := fun _ _ _ f t => (⟨-19, none, []⟩, f, t)

def bootFiles : Files Unit := ⟨RamFs.new [], ()⟩

end VfsWorld
end OxideOS.Fs
