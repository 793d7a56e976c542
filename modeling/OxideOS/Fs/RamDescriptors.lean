import OxideOS.Fs.FdTable
import OxideOS.Fs.RamFs
import OxideOS.Lib.Run
import Mathlib.Data.List.Nodup

/-!
# Descriptors of files in memory

A descriptor of a file in memory holds the position of its node. Positions change
when a node is removed: `unlink` lowers them in the tables of all tasks and closes
the descriptors of the removed node. A `rename` onto an existing file removes a
node, too, but leaves the tables alone, so descriptors behind that position then
denote another node, or none at all.

`RamWorld` keeps, for each descriptor, the node it was opened on. In every run in
which no rename removes a node at or before the position of an open descriptor,
descriptors keep to their nodes and no position is out of range.

A write at a position within the file is laid over its content; behind the end the
bytes are appended to the content, wherever the position is (`write_at_iff`).
-/

set_option autoImplicit false

namespace OxideOS.Fs

open Lib Function

def eacces : Int := -13

/-! ## Calls on descriptors -/

namespace FdTable

/-- `open` on the file system in memory: find or create the node, then take a
descriptor for it. The node's position is returned, too. -/
def openFile (t : FdTable) (fs : RamFs) (path : List UInt8) (flags : Nat) :
    Int × FdTable × RamFs × Option Nat :=
  match fs.resolve path with
  | some idx =>
    let fs := if flags &&& oTrunc != 0 && !fs.isDirAt idx then fs.setData idx [] else fs
    finish fs idx
  | none =>
    if flags &&& oCreat != 0 then
      match fs.createFile path with
      | (.ok idx, fs) => finish fs idx
      | (.error _, fs) => (enoent, t, fs, none)
    else (enoent, t, fs, none)
where
  finish (fs : RamFs) (idx : Nat) : Int × FdTable × RamFs × Option Nat :=
    let length := ((fs.inodes[idx]?).map fun n => n.data.length).getD 0
    let (fd, t) := t.openRam idx (if flags &&& oAppend != 0 then length else 0) flags
    (fd, t, fs, some idx)

/-- What `unlink` does to every table for the node it removed. -/
def onInodeRemoved (t : FdTable) (removedIdx : Nat) : FdTable :=
  ⟨fun fd =>
    match t.entries fd with
    | none => none
    | some e =>
      if e.backend ≠ .ramFS then some e
      else if e.inodeIdx = removedIdx then none
      else if removedIdx < e.inodeIdx then some { e with inodeIdx := e.inodeIdx - 1 }
      else some e⟩

end FdTable

namespace RamFs

/-- `read` through an entry: the result, the bytes and the entry afterwards. -/
def readEntry (fs : RamFs) (e : FdEntry) (room : Nat) : Int × List UInt8 × FdEntry :=
  match fs.inodes[e.inodeIdx]? with
  | none => (ebadf, [], e)
  | some n =>
    if n.kind ≠ .file then (eisdir, [], e) else
    let bytes := (n.data.drop e.offset).take room
    (bytes.length, bytes, { e with offset := e.offset + bytes.length })

/-- The content of a file after a write: behind the end the bytes are appended. -/
def overwrite (data : List UInt8) (offset : Nat) (buf : List UInt8) : List UInt8 :=
  if data.length ≤ offset then data ++ buf
  else data.take offset ++ buf ++ data.drop (offset + buf.length)

def writeEntry (fs : RamFs) (e : FdEntry) (buf : List UInt8) : Int × RamFs × FdEntry :=
  if !e.writable then (eacces, fs, e) else
  match fs.inodes[e.inodeIdx]? with
  | none => (ebadf, fs, e)
  | some n =>
    if n.kind ≠ .file then (eisdir, fs, e) else
    (buf.length, fs.setData e.inodeIdx (overwrite n.data e.offset buf),
      { e with offset := e.offset + buf.length })

/-- `lseek` through an entry. The node is indexed without a check; `none` is the
panic of an index out of range. That of a sum beyond `i64` is left out. -/
def lseekEntry (fs : RamFs) (e : FdEntry) (offset : Int) (whence : Nat) :
    Option (Int × FdEntry) :=
  match fs.inodes[e.inodeIdx]? with
  | none => none
  | some n =>
    let newOff : Option Int :=
      match whence with
      | 0 => some offset
      | 1 => some (e.offset + offset)
      | 2 => some (n.data.length + offset)
      | _ => none
    match newOff with
    | none => some (einval, e)
    | some newOff =>
      if newOff < 0 then some (einval, e) else some (newOff, { e with offset := newOff.toNat })

/-- The size and the inode number `fstat` reports, indexed without a check. -/
def fstatEntry (fs : RamFs) (e : FdEntry) : Option (Nat × Nat) :=
  match fs.inodes[e.inodeIdx]? with
  | none => none
  | some n => some (n.data.length, 300 + e.inodeIdx)

end RamFs

/-! ## The machine -/

/-- The file system in memory and the descriptor tables of the tasks. -/
structure RamWorld where
  fs : RamFs
  tables : Nat → FdTable
  files : OpenFiles
  /-- The serial number of the node a descriptor was opened on, by task and
  descriptor; a history variable. -/
  opened : Nat → Nat → Nat

inductive RamEvent where
  | open (task : Nat) (path : List UInt8) (flags : Nat)
  | mkdir (path : List UInt8)
  | unlink (path : List UInt8)
  | rename (oldPath newPath : List UInt8)
  | read (task : Nat) (fd : Int) (room : Nat)
  | write (task : Nat) (fd : Int) (buf : List UInt8)
  | lseek (task : Nat) (fd : Int) (offset : Int) (whence : Nat)
  | fstat (task : Nat) (fd : Int)
  | close (task : Nat) (fd : Int)

namespace RamWorld

def start (etcVersion : List UInt8) : RamWorld :=
  ⟨.new etcVersion, fun _ => .new, .empty, fun _ _ => 0⟩

def setTable (w : RamWorld) (task : Nat) (t : FdTable) : RamWorld :=
  { w with tables := update w.tables task t }

/-- Note the node a new descriptor was opened on. -/
def note (w : RamWorld) (task : Nat) (fd : Int) (idx : Nat) : RamWorld :=
  let serial := ((w.fs.inodes[idx]?).map INode.serial).getD 0
  let row := update (w.opened task) fd.toNat serial
  { w with opened := update w.opened task row }

def openPath (w : RamWorld) (task : Nat) (path : List UInt8) (flags : Nat) : RamWorld :=
  if (w.fs.resolve path).any w.fs.isDirAt then
    w.setTable task ((w.tables task).openDir path).2
  else
    match (w.tables task).openFile w.fs path flags with
    | (fd, t, fs, idx) =>
      let w := { w.setTable task t with fs := fs }
      match idx with
      | none => w
      | some idx => if fd < 0 then w else w.note task fd idx

def unlink (w : RamWorld) (path : List UInt8) : RamWorld :=
  match w.fs.removeFile path with
  | (.error _, fs) => { w with fs := fs }
  | (.ok removedIdx, fs) =>
    { w with fs := fs, tables := fun task => (w.tables task).onInodeRemoved removedIdx }

/-- A call through a descriptor of a file in memory. Descriptors of other back
ends are the business of their drivers and do not touch this file system. -/
def through (w : RamWorld) (task : Nat) (fd : Int) (act : FdEntry → Option RamWorld) :
    Option RamWorld :=
  match (w.tables task).get fd with
  | none => some w
  | some e => if e.backend = .ramFS then act e else some w

def setEntry (w : RamWorld) (task : Nat) (fd : Int) (e : FdEntry) : RamWorld :=
  w.setTable task ((w.tables task).set fd.toNat (some e))

/-- One call; `none` is a panic of the kernel. -/
def next (w : RamWorld) : RamEvent → Option RamWorld
  | .open task path flags => some (w.openPath task path flags)
  | .mkdir path => some { w with fs := (w.fs.createDir path).2 }
  | .unlink path => some (w.unlink path)
  | .rename oldPath newPath => some { w with fs := (w.fs.rename oldPath newPath).2 }
  | .read task fd room =>
    w.through task fd fun e => some (w.setEntry task fd (w.fs.readEntry e room).2.2)
  | .write task fd buf =>
    w.through task fd fun e =>
      let (_, fs, e) := w.fs.writeEntry e buf
      some ({ w with fs := fs }.setEntry task fd e)
  | .lseek task fd offset whence =>
    w.through task fd fun e =>
      match w.fs.lseekEntry e offset whence with
      | none => none
      | some (_, e) => some (w.setEntry task fd e)
  | .fstat task fd =>
    w.through task fd fun e =>
      match w.fs.fstatEntry e with
      | none => none
      | some _ => some w
  | .close task fd =>
    let (_, t, files) := (w.tables task).close fd w.files
    some { w.setTable task t with files := files }

end RamWorld

/-! ## Serial numbers of the nodes -/

variable {e : FdEntry}

namespace RamFs

/-- The serial numbers in the order of the nodes. -/
def serials (fs : RamFs) : List Nat := fs.inodes.map INode.serial

/-- Nodes are told apart by their serial numbers, and the root is a directory. -/
structure Numbered (fs : RamFs) : Prop where
  root : fs.isDirAt 0 = true
  nodup : fs.serials.Nodup
  below : ∀ s ∈ fs.serials, s < fs.created

variable {fs : RamFs} {path : List UInt8} {idx : Nat}

variable {f : INode → INode}

theorem serials_modify (same : ∀ n, (f n).serial = n.serial) :
    (fs.inodes.modify idx f).map INode.serial = fs.serials :=
  map_modify_of_eq same fs.inodes idx

/-- Changing a node in place keeps the numbering. -/
theorem Numbered.modify (numbered : fs.Numbered)
    (serial : ∀ n, (f n).serial = n.serial) (kind : ∀ n, (f n).kind = n.kind) :
    Numbered { fs with inodes := fs.inodes.modify idx f } := by
  have same : serials { fs with inodes := fs.inodes.modify idx f } = fs.serials :=
    serials_modify serial
  refine ⟨?_, ?_, ?_⟩
  · rw [isDirAt_modify kind]
    exact numbered.root
  · rw [same]
    exact numbered.nodup
  · rw [same]
    exact numbered.below

theorem serials_push (name : List UInt8) (p : Nat) (kind : NodeKind) :
    (fs.push name p kind).serials = fs.serials ++ [fs.created] := by
  simp [push, serials]

theorem Numbered.push (numbered : fs.Numbered) (name : List UInt8) (p : Nat) (kind : NodeKind) :
    (fs.push name p kind).Numbered := by
  refine ⟨?_, ?_, ?_⟩
  · have root := numbered.root
    rw [isDirAt] at root ⊢
    cases here : fs.inodes[0]? with
    | none => simp [here] at root
    | some r =>
      have inside := (List.getElem?_eq_some_iff.mp here).1
      rw [RamFs.push, List.getElem?_append_left inside]
      exact root
  · rw [serials_push, List.nodup_append]
    refine ⟨numbered.nodup, by simp, fun s old t new => ?_⟩
    rw [List.mem_singleton.mp new]
    exact Nat.ne_of_lt (numbered.below s old)
  · rw [serials_push]
    intro s member
    rcases List.mem_append.mp member with old | new
    · exact Nat.lt_succ_of_lt (numbered.below s old)
    · rw [List.mem_singleton.mp new]
      exact Nat.lt_succ_self _

theorem serials_removeAt : (fs.removeAt idx).serials = fs.serials.eraseIdx idx := by
  refine List.ext_getElem? fun i => ?_
  rw [serials, serials, removeAt, List.getElem?_map, List.getElem?_eraseIdx, List.getElem?_eraseIdx]
  split <;> simp [Function.comp_def]

theorem Numbered.removeAt (numbered : fs.Numbered) (file : fs.isDirAt idx = false) :
    (fs.removeAt idx).Numbered := by
  have notRoot : 0 < idx := by
    rcases Nat.eq_zero_or_pos idx with rfl | positive
    · rw [numbered.root] at file
      cases file
    · exact positive
  refine ⟨?_, ?_, ?_⟩
  · have root := numbered.root
    rw [isDirAt] at root ⊢
    rw [RamFs.removeAt, List.getElem?_eraseIdx_of_lt notRoot, List.getElem?_map]
    cases here : fs.inodes[0]? with
    | none => simp [here] at root
    | some r => simpa [here] using root
  · rw [serials_removeAt]
    exact numbered.nodup.sublist (List.eraseIdx_sublist ..)
  · rw [serials_removeAt]
    intro s member
    exact numbered.below s (List.mem_of_mem_eraseIdx member)

/-! ### What the calls do to the numbering -/

/-- Nodes stay where they are; there may be new ones behind them. -/
structure Grows (fs fs' : RamFs) : Prop where
  numbered : fs.Numbered → fs'.Numbered
  serials : fs.serials <+: fs'.serials

theorem Grows.refl (fs : RamFs) : Grows fs fs := ⟨id, List.prefix_refl _⟩

theorem grows_modify (serial : ∀ n, (f n).serial = n.serial)
    (kind : ∀ n, (f n).kind = n.kind) :
    Grows fs { fs with inodes := fs.inodes.modify idx f } := by
  refine ⟨fun numbered => numbered.modify serial kind, ?_⟩
  have same : serials { fs with inodes := fs.inodes.modify idx f } = fs.serials :=
    serials_modify serial
  exact same ▸ List.prefix_refl fs.serials

theorem grows_setData (data : List UInt8) : Grows fs (fs.setData idx data) :=
  grows_modify (fun _ => rfl) fun _ => rfl

theorem grows_create (kind : NodeKind) : Grows fs (fs.create path kind).2 := by
  unfold create
  split
  · exact .refl fs
  split
  · exact .refl fs
  split
  · exact .refl fs
  · refine ⟨fun numbered => numbered.push _ _ kind, ?_⟩
    rw [serials_push]
    exact List.prefix_append _ _

theorem grows_createDir : Grows fs (fs.createDir path).2 := by
  unfold createDir
  split
  · exact .refl fs
  · exact grows_create .directory

theorem grows_createFile : Grows fs (fs.createFile path).2 := by
  unfold createFile
  split
  · split
    · exact .refl fs
    · exact grows_setData []
  · exact grows_create .file

theorem grows_renameInto {oldPath newPath : List UInt8} :
    Grows fs (fs.renameInto oldPath newPath).2 := by
  unfold renameInto
  split
  · exact .refl fs
  split
  · exact .refl fs
  split
  · exact .refl fs
  · exact grows_modify (fun _ => rfl) fun _ => rfl

/-- The rename takes a file out of the way of the new name, at the position given. -/
def replaces (fs : RamFs) (oldPath newPath : List UInt8) : Option Nat :=
  match fs.resolve oldPath, fs.resolve newPath with
  | some i, some j => if fs.isDirAt i || fs.isDirAt j then none else some j
  | _, _ => none

theorem rename_cases (oldPath newPath : List UInt8) :
    (fs.replaces oldPath newPath = none ∧ Grows fs (fs.rename oldPath newPath).2) ∨
    ∃ j, fs.replaces oldPath newPath = some j ∧ fs.isDirAt j = false ∧
      Grows (fs.removeAt j) (fs.rename oldPath newPath).2 := by
  unfold replaces rename
  cases fs.resolve oldPath with
  | none => exact .inl ⟨rfl, .refl fs⟩
  | some i =>
    by_cases source : fs.isDirAt i = true
    · refine .inl ⟨?_, ?_⟩
      · cases fs.resolve newPath <;> simp [source]
      · simp only [source, if_true]
        exact .refl fs
    · cases target : fs.resolve newPath with
      | none =>
        refine .inl ⟨rfl, ?_⟩
        simp only [source, Option.isSome_none, Bool.false_eq_true, if_false]
        exact grows_renameInto
      | some j =>
        by_cases directory : fs.isDirAt j = true
        · refine .inl ⟨by simp [directory], ?_⟩
          simp only [source, Option.isSome_some, Bool.false_eq_true, if_false, if_true,
            removeFile, target, directory]
          exact .refl fs
        · refine .inr ⟨j, by simp [source, directory], by simpa using directory, ?_⟩
          simp only [source, Option.isSome_some, Bool.false_eq_true, if_false, if_true,
            removeFile, target, directory]
          exact grows_renameInto

/-- Reading and writing leave an entry on its node. -/
theorem readEntry_spec (e : FdEntry) (room : Nat) :
    (fs.readEntry e room).2.2.backend = e.backend ∧
      (fs.readEntry e room).2.2.inodeIdx = e.inodeIdx := by
  unfold readEntry
  split
  · exact ⟨rfl, rfl⟩
  · split <;> exact ⟨rfl, rfl⟩

theorem writeEntry_spec {buf : List UInt8} :
    Grows fs (fs.writeEntry e buf).2.1 ∧ (fs.writeEntry e buf).2.2.backend = e.backend ∧
      (fs.writeEntry e buf).2.2.inodeIdx = e.inodeIdx := by
  unfold writeEntry
  split
  · exact ⟨.refl fs, rfl, rfl⟩
  split
  · exact ⟨.refl fs, rfl, rfl⟩
  split
  · exact ⟨.refl fs, rfl, rfl⟩
  · exact ⟨grows_setData _, rfl, rfl⟩

/-- A path leads to a node that exists. -/
theorem Numbered.resolve_lt (numbered : fs.Numbered) {i : Nat} (leads : fs.resolve path = some i) :
    i < fs.inodes.length := by
  have positive : 0 < fs.inodes.length := by
    have root := numbered.root
    rw [isDirAt] at root
    cases here : fs.inodes[0]? with
    | none => simp [here] at root
    | some r => exact (List.getElem?_eq_some_iff.mp here).1
  have walks : ∀ names start i, start < fs.inodes.length → fs.walk start names = some i →
      i < fs.inodes.length := by
    intro names
    induction names with
    | nil =>
      intro start i inside leads
      cases leads
      exact inside
    | cons name names ih =>
      intro start i inside leads
      rw [walk] at leads
      split at leads
      · cases leads
      · next child found =>
          exact ih child i (List.findIdx?_eq_some_iff_getElem.mp found).1 leads
  unfold resolve at leads
  split at leads
  · cases leads
    exact positive
  · exact walks _ 0 i positive leads

/-- A created node is at the end. -/
theorem Numbered.createFile_lt (numbered : fs.Numbered) {i : Nat} {fs' : RamFs}
    (created : fs.createFile path = (.ok i, fs')) : i < fs'.inodes.length := by
  unfold createFile at created
  split at created
  · next idx leads =>
      split at created
      · cases created
      · cases created
        have inside := numbered.resolve_lt leads
        simpa [setData] using inside
  · unfold create at created
    split at created
    · cases created
    split at created
    · cases created
    split at created
    · cases created
    · cases created
      simp [RamFs.push]

end RamFs

/-! ## Descriptors keep to their nodes -/

variable {fd : Int} {idx : Nat}

namespace FdTable

variable {t : FdTable}

/-- A new entry goes to a free descriptor, or nowhere. -/
theorem place_cases (e : FdEntry) :
    (t.place e).1 = emfile ∧ (t.place e).2 = t ∨
    ∃ fd, t.entries fd = none ∧ (t.place e).1 = (fd : Int) ∧ (t.place e).2 = t.set fd (some e) := by
  unfold place
  cases found : t.allocFd with
  | none => exact .inl ⟨rfl, rfl⟩
  | some fd =>
    obtain ⟨-, -, free, -⟩ := firstFrom_eq_some found
    exact .inr ⟨fd, by simpa using free, rfl, rfl⟩

theorem set_entries (fd : Nat) (e : Option FdEntry) (i : Nat) :
    (t.set fd e).entries i = if i = fd then e else t.entries i := by
  simp only [set, update_apply]

theorem get_some (here : t.get fd = some e) :
    t.entries fd.toNat = some e ∧ (fd.toNat : Int) = fd := by
  unfold get at here
  split at here
  · cases here
  · next inside => exact ⟨here, Int.toNat_of_nonneg (by omega)⟩

/-- What an entry becomes when the node at `idx` is gone. -/
theorem onInodeRemoved_entries {fd : Nat} (here : t.entries fd = some e)
    (ram : e.backend = .ramFS) :
    (t.onInodeRemoved idx).entries fd
      = if e.inodeIdx = idx then none
        else if idx < e.inodeIdx then some { e with inodeIdx := e.inodeIdx - 1 } else some e := by
  simp [onInodeRemoved, here, ram]

theorem onInodeRemoved_some {fd : Nat} {e' : FdEntry}
    (here : (t.onInodeRemoved idx).entries fd = some e') (ram : e'.backend = .ramFS) :
    ∃ e, t.entries fd = some e ∧ e.backend = .ramFS ∧ e.inodeIdx ≠ idx ∧
      e'.inodeIdx = if idx < e.inodeIdx then e.inodeIdx - 1 else e.inodeIdx := by
  cases was : t.entries fd with
  | none => simp [onInodeRemoved, was] at here
  | some e =>
    by_cases other : e.backend = .ramFS
    · rw [onInodeRemoved_entries was other] at here
      split at here
      · cases here
      · next apart =>
          refine ⟨e, rfl, other, apart, ?_⟩
          split at here
          · next later =>
              cases here
              rw [if_pos later]
          · next earlier =>
              cases here
              rw [if_neg earlier]
    · simp only [onInodeRemoved, was, ne_eq, other, not_false_eq_true, if_true] at here
      cases here
      exact absurd ram other

end FdTable

namespace RamWorld

/-- The descriptor is open on a file in memory. -/
def Holds (w : RamWorld) (task fd : Nat) (e : FdEntry) : Prop :=
  (w.tables task).entries fd = some e ∧ e.backend = .ramFS

/-- Every open descriptor denotes the node it was opened on. -/
structure Faithful (w : RamWorld) : Prop where
  numbered : w.fs.Numbered
  denotes : ∀ {task fd e}, w.Holds task fd e → w.fs.serials[e.inodeIdx]? = some (w.opened task fd)

/-- What may become of an open descriptor in a call: it stays with its node, the
call closes it, or its node is gone and so is the descriptor. -/
def Kept (w w' : RamWorld) (event : RamEvent) (task fd : Nat) : Prop :=
  (∃ e', w'.Holds task fd e' ∧ w'.opened task fd = w.opened task fd) ∨
  event = .close task fd ∨
  ((w'.tables task).entries fd = none ∧ w.opened task fd ∉ w'.fs.serials)

variable {w : RamWorld}

/-- The tables stay and the nodes stay where they are. -/
theorem Faithful.grows (inv : w.Faithful) {fs' : RamFs} (grows : RamFs.Grows w.fs fs') :
    Faithful { w with fs := fs' } := by
  refine ⟨grows.numbered inv.numbered, fun held => ?_⟩
  obtain ⟨more, equal⟩ := grows.serials
  have denoted := inv.denotes held
  rw [← equal, List.getElem?_append_left (List.getElem?_eq_some_iff.mp denoted).1]
  exact denoted

theorem setTable_entries (task fd : Nat) (e : Option FdEntry) (task' fd' : Nat) :
    ((w.setTable task ((w.tables task).set fd e)).tables task').entries fd'
      = if task' = task ∧ fd' = fd then e else (w.tables task').entries fd' := by
  simp only [setTable, update_apply]
  by_cases own : task' = task
  · subst own
    simp [FdTable.set_entries]
  · simp [own]

variable {task : Nat}

/-- An entry is replaced by one on the same node. -/
theorem Faithful.setEntry (inv : w.Faithful) {e' : FdEntry}
    (held : w.Holds task fd.toNat e) (backend : e'.backend = e.backend)
    (position : e'.inodeIdx = e.inodeIdx) :
    (w.setEntry task fd e').Faithful ∧
    ∀ task' fd' e₀, w.Holds task' fd' e₀ → ∃ e₁, (w.setEntry task fd e').Holds task' fd' e₁ := by
  have entries := @setTable_entries w task fd.toNat (some e')
  rw [RamWorld.setEntry]
  refine ⟨⟨inv.numbered, fun {task' fd' e₁} held' => ?_⟩, fun task' fd' e₀ held' => ?_⟩
  · obtain ⟨here, ram⟩ := held'
    rw [entries] at here
    split at here
    · next own =>
        cases here
        rw [position, own.1, own.2]
        exact inv.denotes held
    · exact inv.denotes ⟨here, ram⟩
  · by_cases own : task' = task ∧ fd' = fd.toNat
    · exact ⟨e', by rw [entries, if_pos own], by rw [backend]; exact held.2⟩
    · exact ⟨e₀, by rw [entries, if_neg own]; exact held'.1, held'.2⟩

/-- A new descriptor on an existing node, at a place that was free. -/
theorem Faithful.place (inv : w.Faithful)
    (inside : idx < w.fs.inodes.length) (position : e.inodeIdx = idx) :
    let placed := (w.tables task).place e
    let w' := w.setTable task placed.2
    let w' := if placed.1 < 0 then w' else w'.note task placed.1 idx
    w'.Faithful ∧ ∀ task' fd' e₀, w.Holds task' fd' e₀ →
      w'.Holds task' fd' e₀ ∧ w'.opened task' fd' = w.opened task' fd' := by
  rcases (w.tables task).place_cases e with ⟨failed, same⟩ | ⟨fd, free, result, table⟩
  · have unchanged : w.setTable task (w.tables task) = w := by
      rw [setTable, update_eq_self]
    simp only [failed, same, unchanged, show emfile < 0 by decide, if_true]
    exact ⟨inv, fun _ _ _ held => ⟨held, trivial⟩⟩
  · simp only [result, table, if_neg (show ¬ (fd : Int) < 0 by omega)]
    have entries := @setTable_entries w task fd (some e)
    have noted : ∀ task' fd', ¬ (task' = task ∧ fd' = fd) →
        ((w.setTable task ((w.tables task).set fd (some e))).note task fd idx).opened task' fd'
          = w.opened task' fd' := by
      intro task' fd' other
      simp only [note, setTable, update_apply, Int.toNat_natCast]
      by_cases own : task' = task
      · subst own
        have apart : fd' ≠ fd := fun same => other ⟨rfl, same⟩
        simp [apart]
      · simp [own]
    refine ⟨⟨inv.numbered, fun {task' fd' e'} held => ?_⟩, fun task' fd' e₀ held => ?_⟩
    · obtain ⟨here, ram⟩ := held
      rw [note, entries] at here
      split at here
      · next own =>
          cases here
          obtain ⟨rfl, rfl⟩ := own
          simp [note, setTable, RamFs.serials, position, List.getElem?_eq_getElem inside]
      · next other =>
          rw [noted task' fd' other]
          exact inv.denotes ⟨here, ram⟩
    · have other : ¬ (task' = task ∧ fd' = fd) := by
        rintro ⟨rfl, rfl⟩
        rw [held.1] at free
        cases free
      refine ⟨⟨?_, held.2⟩, noted task' fd' other⟩
      rw [note, entries, if_neg other]
      exact held.1

/-- A descriptor of another kind at a place that was free. -/
theorem Faithful.placeOther (inv : w.Faithful) (other : e.backend ≠ .ramFS) :
    (w.setTable task ((w.tables task).place e).2).Faithful ∧
    ∀ task' fd' e₀, w.Holds task' fd' e₀ →
      (w.setTable task ((w.tables task).place e).2).Holds task' fd' e₀ := by
  rcases (w.tables task).place_cases e with ⟨-, same⟩ | ⟨fd, free, -, table⟩
  · have unchanged : w.setTable task (w.tables task) = w := by
      rw [setTable, update_eq_self]
    rw [same, unchanged]
    exact ⟨inv, fun _ _ _ held => held⟩
  · rw [table]
    have entries := @setTable_entries w task fd (some e)
    refine ⟨⟨inv.numbered, fun {task' fd' e'} held => ?_⟩, fun task' fd' e₀ held => ?_⟩
    · obtain ⟨here, ram⟩ := held
      rw [entries] at here
      split at here
      · cases here
        exact absurd ram other
      · exact inv.denotes ⟨here, ram⟩
    · refine ⟨?_, held.2⟩
      rw [entries, if_neg, held.1]
      rintro ⟨rfl, rfl⟩
      rw [held.1] at free
      cases free

/-- What `openFile` returns: the nodes stay where they are, and either no
descriptor is taken or one for a node that exists. -/
theorem openFile_cases {t : FdTable} {fs : RamFs} (numbered : fs.Numbered) (path : List UInt8)
    (flags : Nat) :
    ∃ fs', RamFs.Grows fs fs' ∧
      (t.openFile fs path flags = (enoent, t, fs', none) ∨
      ∃ idx e, idx < fs'.inodes.length ∧ e.inodeIdx = idx ∧
        t.openFile fs path flags = ((t.place e).1, (t.place e).2, fs', some idx)) := by
  unfold FdTable.openFile
  cases leads : fs.resolve path with
  | some idx =>
    have inside := numbered.resolve_lt leads
    refine ⟨_, ?_, .inr ⟨idx, _, ?_, rfl, rfl⟩⟩
    · split
      · exact RamFs.grows_setData []
      · exact .refl fs
    · split
      · simpa [RamFs.setData] using inside
      · exact inside
  | none =>
    dsimp only
    split
    · rcases created : fs.createFile path with ⟨idx | idx, fs'⟩
      · have grows := @RamFs.grows_createFile fs path
        rw [created] at grows
        exact ⟨fs', grows, .inl rfl⟩
      · have grows := @RamFs.grows_createFile fs path
        rw [created] at grows
        exact ⟨fs', grows, .inr ⟨idx, _, numbered.createFile_lt created, rfl, rfl⟩⟩
    · exact ⟨fs, .refl fs, .inl rfl⟩

theorem Faithful.openPath (inv : w.Faithful) (task : Nat) (path : List UInt8) (flags : Nat) :
    (w.openPath task path flags).Faithful ∧
    ∀ task' fd' e₀, w.Holds task' fd' e₀ →
      (w.openPath task path flags).Holds task' fd' e₀ ∧
      (w.openPath task path flags).opened task' fd' = w.opened task' fd' := by
  unfold RamWorld.openPath
  split
  · have other : ({ FdEntry.plain .dir 0 false with dirPath := path.take 63 } : FdEntry).backend
        ≠ .ramFS := by
      simp [FdEntry.plain]
    obtain ⟨after, kept⟩ := @Faithful.placeOther _ w task inv other
    exact ⟨after, fun task' fd' e₀ held => ⟨kept task' fd' e₀ held, rfl⟩⟩
  · obtain ⟨fs', grows, failed | ⟨idx, e, inside, position, result⟩⟩ :=
      openFile_cases (t := w.tables task) inv.numbered path flags
    · rw [failed]
      have unchanged : w.setTable task (w.tables task) = w := by
        rw [setTable, update_eq_self]
      dsimp only
      rw [unchanged]
      exact ⟨inv.grows grows, fun _ _ _ held => ⟨held, rfl⟩⟩
    · rw [result]
      exact (inv.grows grows).place inside position

/-- `unlink` moves the descriptors with their nodes and closes those of the
removed node. -/
theorem Faithful.unlink (inv : w.Faithful) (path : List UInt8) :
    (w.unlink path).Faithful ∧
    ∀ task fd e, w.Holds task fd e → Kept w (w.unlink path) (.unlink path) task fd := by
  unfold RamWorld.unlink RamFs.removeFile
  cases leads : w.fs.resolve path with
  | none => exact ⟨inv, fun task fd e held => .inl ⟨e, held, rfl⟩⟩
  | some idx =>
    by_cases directory : w.fs.isDirAt idx = true
    · simp only [directory, if_true]
      exact ⟨inv, fun task fd e held => .inl ⟨e, held, rfl⟩⟩
    · have file : w.fs.isDirAt idx = false := by simpa using directory
      simp only [file, Bool.false_eq_true, if_false]
      constructor
      · refine ⟨inv.numbered.removeAt file, fun {task fd e'} held => ?_⟩
        obtain ⟨e, was, ram, apart, position⟩ := FdTable.onInodeRemoved_some held.1 held.2
        have denoted := inv.denotes ⟨was, ram⟩
        rw [RamFs.serials_removeAt, List.getElem?_eraseIdx, position]
        split
        · next later =>
            have back : e.inodeIdx - 1 + 1 = e.inodeIdx := by omega
            rw [if_neg (by omega), back]
            exact denoted
        · rw [if_pos (by omega)]
          exact denoted
      · intro task fd e held
        have after := @FdTable.onInodeRemoved_entries _ idx _ _ held.1 held.2
        by_cases own : e.inodeIdx = idx
        · refine .inr (.inr ⟨by rw [after, if_pos own], fun member => ?_⟩)
          have denoted := inv.denotes held
          rw [own] at denoted
          obtain ⟨inside, equal⟩ := List.getElem?_eq_some_iff.mp denoted
          rw [RamFs.serials_removeAt, ← equal] at member
          rw [← List.Nodup.erase_getElem inv.numbered.nodup idx inside] at member
          exact List.Nodup.not_mem_erase inv.numbered.nodup member
        · rw [if_neg own] at after
          refine .inl ?_
          split at after
          · exact ⟨_, ⟨after, held.2⟩, rfl⟩
          · exact ⟨_, ⟨after, held.2⟩, rfl⟩

theorem Faithful.close (inv : w.Faithful) (task : Nat) (fd : Int) :
    ∃ w', w.next (.close task fd) = some w' ∧ w'.Faithful ∧
    ∀ task' fd' e₀, w.Holds task' fd' e₀ → Kept w w' (.close task fd) task' fd' := by
  cases found : (w.tables task).get fd with
  | none =>
    have unchanged : w.setTable task (w.tables task) = w := by
      rw [setTable, update_eq_self]
    refine ⟨w, ?_, inv, fun task' fd' e₀ held => .inl ⟨e₀, held, rfl⟩⟩
    simp only [next, FdTable.close, found, unchanged]
  | some e =>
    obtain ⟨-, number⟩ := FdTable.get_some found
    have entries := @setTable_entries w task fd.toNat none
    have closed : w.next (.close task fd) = some { w.setTable task
        ((w.tables task).set fd.toNat none) with files := FdTable.release e w.files } := by
      simp only [next, FdTable.close, found]
    refine ⟨_, closed, ⟨inv.numbered, fun {task' fd' e'} held => ?_⟩, fun task' fd' e₀ held => ?_⟩
    · obtain ⟨here, ram⟩ := held
      rw [entries] at here
      split at here
      · cases here
      · exact inv.denotes ⟨here, ram⟩
    · by_cases own : task' = task ∧ fd' = fd.toNat
      · refine .inr (.inl ?_)
        rw [own.1, own.2, number]
      · refine .inl ⟨e₀, ⟨?_, held.2⟩, rfl⟩
        rw [entries, if_neg own]
        exact held.1

/-- No node at or before the position of an open descriptor is removed by a
rename. -/
def Undisturbed (w : RamWorld) : RamEvent → Prop
  | .rename oldPath newPath =>
    ∀ j, w.fs.replaces oldPath newPath = some j →
      ∀ task fd e, w.Holds task fd e → e.inodeIdx < j
  | _ => True

theorem Faithful.rename (inv : w.Faithful) {oldPath newPath : List UInt8}
    (undisturbed : w.Undisturbed (.rename oldPath newPath)) :
    Faithful { w with fs := (w.fs.rename oldPath newPath).2 } := by
  rcases w.fs.rename_cases oldPath newPath with ⟨-, grows⟩ | ⟨j, replaced, file, grows⟩
  · exact inv.grows grows
  · have removed : Faithful { w with fs := w.fs.removeAt j } := by
      refine ⟨inv.numbered.removeAt file, fun {task fd e} held => ?_⟩
      have before := undisturbed j replaced task fd e held
      rw [RamFs.serials_removeAt, List.getElem?_eraseIdx_of_lt before]
      exact inv.denotes held
    exact removed.grows grows

/-- A call through a descriptor that leaves its entry on the same node. -/
theorem Faithful.through (inv : w.Faithful) {act : FdEntry → Option RamWorld} {event : RamEvent}
    (acts : ∀ e, w.Holds task fd.toNat e →
      ∃ (w' : RamWorld) (e' : FdEntry), RamFs.Grows w.fs w'.fs ∧ w'.tables = w.tables ∧
        w'.opened = w.opened ∧
        e'.backend = e.backend ∧ e'.inodeIdx = e.inodeIdx ∧ act e = some (w'.setEntry task fd e')) :
    ∃ w', w.through task fd act = some w' ∧ w'.Faithful ∧
    ∀ task' fd' e₀, w.Holds task' fd' e₀ → Kept w w' event task' fd' := by
  have idle : w.Faithful ∧ ∀ task' fd' e₀, w.Holds task' fd' e₀ → Kept w w event task' fd' :=
    ⟨inv, fun task' fd' e₀ held => .inl ⟨e₀, held, rfl⟩⟩
  unfold RamWorld.through
  cases found : (w.tables task).get fd with
  | none => exact ⟨w, rfl, idle⟩
  | some e =>
    dsimp only
    split
    · next ram =>
        have held : w.Holds task fd.toNat e := ⟨(FdTable.get_some found).1, ram⟩
        obtain ⟨w', e', grows, tables, opened, backend, position, result⟩ := acts e held
        obtain ⟨fs', tables', files', opened'⟩ := w'
        dsimp only at tables opened
        subst tables opened
        have grown : Faithful ⟨fs', w.tables, files', w.opened⟩ :=
          ⟨(inv.grows grows).numbered, fun held => (inv.grows grows).denotes held⟩
        obtain ⟨after, kept⟩ := grown.setEntry held backend position
        refine ⟨_, result, after, fun task' fd' e₀ held' => ?_⟩
        obtain ⟨e₁, held₁⟩ := kept task' fd' e₀ held'
        exact .inl ⟨e₁, held₁, rfl⟩
    · exact ⟨w, rfl, idle⟩

/-- An open descriptor's position is in range. -/
theorem Faithful.node (inv : w.Faithful) {fd : Nat} (held : w.Holds task fd e) :
    ∃ n, w.fs.inodes[e.inodeIdx]? = some n ∧ n.serial = w.opened task fd := by
  have denoted := inv.denotes held
  rw [RamFs.serials, List.getElem?_map] at denoted
  exact Option.map_eq_some_iff.mp denoted

theorem setEntry_self (held : w.Holds task fd.toNat e) :
    w.setEntry task fd e = w := by
  have same : (w.tables task).set fd.toNat (some e) = w.tables task := by
    rw [FdTable.set, ← held.1, update_eq_self]
  rw [setEntry, same, setTable, update_eq_self]

/-- Every call that is allowed goes through, keeps the descriptors to their nodes
and loses none without reason. -/
theorem Faithful.step (inv : w.Faithful) {event : RamEvent} (undisturbed : w.Undisturbed event) :
    ∃ w', w.next event = some w' ∧ w'.Faithful ∧
      ∀ task fd e, w.Holds task fd e → Kept w w' event task fd := by
  cases event with
  | «open» task path flags =>
    obtain ⟨after, kept⟩ := inv.openPath task path flags
    exact ⟨_, rfl, after, fun task' fd' e held => .inl ⟨e, kept task' fd' e held⟩⟩
  | mkdir path =>
    exact ⟨_, rfl, inv.grows RamFs.grows_createDir, fun _ _ e held => .inl ⟨e, held, rfl⟩⟩
  | unlink path => exact ⟨_, rfl, inv.unlink path⟩
  | rename oldPath newPath =>
    exact ⟨_, rfl, inv.rename undisturbed, fun _ _ e held => .inl ⟨e, held, rfl⟩⟩
  | read task fd room =>
    exact inv.through fun e held => ⟨w, (w.fs.readEntry e room).2.2, .refl _, rfl, rfl,
      (RamFs.readEntry_spec e room).1, (RamFs.readEntry_spec e room).2, rfl⟩
  | write task fd buf =>
    refine inv.through fun e held => ?_
    obtain ⟨grows, backend, position⟩ := @RamFs.writeEntry_spec e w.fs buf
    exact ⟨{ w with fs := (w.fs.writeEntry e buf).2.1 }, (w.fs.writeEntry e buf).2.2,
      grows, rfl, rfl,
      backend, position, rfl⟩
  | lseek task fd offset whence =>
    refine inv.through fun e held => ?_
    obtain ⟨n, here, -⟩ := inv.node held
    have sought : ∃ result e', w.fs.lseekEntry e offset whence = some (result, e') ∧
        e'.backend = e.backend ∧ e'.inodeIdx = e.inodeIdx := by
      simp only [RamFs.lseekEntry, here]
      split
      · exact ⟨_, _, rfl, rfl, rfl⟩
      · split
        · exact ⟨_, _, rfl, rfl, rfl⟩
        · exact ⟨_, _, rfl, rfl, rfl⟩
    obtain ⟨result, e', sought, backend, position⟩ := sought
    exact ⟨w, e', .refl _, rfl, rfl, backend, position, by simp only [sought]⟩
  | fstat task fd =>
    refine inv.through fun e held => ⟨w, e, .refl _, rfl, rfl, rfl, rfl, ?_⟩
    obtain ⟨n, here, -⟩ := inv.node held
    simp only [RamFs.fstatEntry, here, setEntry_self held]
  | close task fd => exact inv.close task fd

theorem numbered_new (etcVersion : List UInt8) : (RamFs.new etcVersion).Numbered := by
  have root : RamFs.Numbered ⟨[⟨ascii "/", none, .directory, [], 0⟩], 1⟩ :=
    ⟨rfl, by simp [RamFs.serials], by simp [RamFs.serials]⟩
  have written : ∀ {fs : RamFs} {path data}, fs.Numbered → (fs.writeFile path data).2.Numbered := by
    intro fs path data numbered
    refine RamFs.writeFile_rule (RamFs.grows_createFile.numbered numbered) fun _ numbered => ?_
    exact numbered.modify (fun _ => rfl) fun _ => rfl
  have made : ∀ {fs : RamFs} {path}, fs.Numbered → (fs.createDir path).2.Numbered :=
    fun numbered => RamFs.grows_createDir.numbered numbered
  unfold RamFs.new
  exact written (written (written (made (made (made (made root))))))

theorem faithful_start (etcVersion : List UInt8) : (start etcVersion).Faithful :=
  ⟨numbered_new etcVersion, fun held => nomatch held.1⟩

/-- In every run in which no rename removes a node at or before the position of an
open descriptor: every open descriptor denotes the node it was opened on, nodes
are told apart by their serial numbers, no call panics because its node is gone, and a
descriptor stays open on its node until it is closed or the node is removed. -/
theorem run_identity (etcVersion : List UInt8) (events : List RamEvent) (w : RamWorld)
    (undisturbed : Along next Undisturbed (start etcVersion) events)
    (ran : run next (start etcVersion) events = some w) :
    (∀ task fd e, w.Holds task fd e →
      ∃ n, w.fs.inodes[e.inodeIdx]? = some n ∧ n.serial = w.opened task fd) ∧
    w.fs.serials.Nodup ∧
    (∀ event, w.Undisturbed event → ∃ w', w.next event = some w' ∧
      ∀ task fd e, w.Holds task fd e → Kept w w' event task fd) := by
  have inv : w.Faithful := by
    refine run_invariant ?_ (faithful_start etcVersion) undisturbed ran
    intro s event s' inv allowed stepped
    obtain ⟨s'', stepped', after, -⟩ := inv.step allowed
    rw [stepped] at stepped'
    cases stepped'
    exact after
  refine ⟨fun task fd e held => inv.node held, inv.numbered.nodup, fun event allowed => ?_⟩
  obtain ⟨w', stepped, -, kept⟩ := inv.step allowed
  exact ⟨w', stepped, kept⟩

/-- Two files are opened and the first is unlinked. -/
theorem run_identity_unlink :
    ∃ w, run next (start []) [.open 0 (ascii "/a") 0x41, .open 1 (ascii "/b") 0x41,
        .unlink (ascii "/a")] = some w ∧
      ((w.tables 0).entries 3).isNone = true ∧
      ∃ e, w.Holds 1 3 e ∧ ∃ n, w.fs.inodes[e.inodeIdx]? = some n ∧ n.serial = w.opened 1 3 :=
  ⟨_, rfl, by decide, _, ⟨rfl, rfl⟩,
    (run_identity [] [.open 0 (ascii "/a") 0x41, .open 1 (ascii "/b") 0x41, .unlink (ascii "/a")] _
      ⟨trivial, fun _ _ => ⟨trivial, fun _ _ => ⟨trivial, fun _ _ => trivial⟩⟩⟩ rfl).1 1 3 _
      ⟨rfl, rfl⟩⟩

/-- Task 1 has opened `/b` and `/c`, task 0 has opened `/a` and renames it to `/b`:
the descriptor of `/b` now denotes the node of `/c`, and a seek of task 0 on its
own descriptor panics. -/
theorem rename_confuses :
    ∃ w, run next (start []) [.open 1 (ascii "/b") 0x41, .open 1 (ascii "/c") 0x41,
        .open 0 (ascii "/a") 0x41, .rename (ascii "/a") (ascii "/b")] = some w ∧
      (∃ e, w.Holds 1 3 e ∧ (w.fs.inodes[e.inodeIdx]?).map INode.serial = some (w.opened 1 4)) ∧
      w.opened 1 3 ≠ w.opened 1 4 ∧
      (w.next (.lseek 0 3 0 0)).isNone = true :=
  ⟨_, rfl, ⟨_, ⟨rfl, rfl⟩, by decide⟩, by decide, by decide⟩

end RamWorld

/-! ## Writing at a position -/

namespace RamFs

/-- `pwrite64`: note the position, seek, write, and seek back. -/
def pwriteEntry (fs : RamFs) (e : FdEntry) (buf : List UInt8) (offset : Int) :
    Option (Int × RamFs × FdEntry) := do
  let (saved, e) ← fs.lseekEntry e 0 1
  if saved < 0 then return (saved, fs, e)
  let (r, e) ← fs.lseekEntry e offset 0
  if r < 0 then return (r, fs, e)
  let (n, fs, e) := fs.writeEntry e buf
  let (_, e) ← fs.lseekEntry e saved 0
  return (n, fs, e)

/-- The content `data` with `buf` laid over it at `p`, behind zeros if need be. -/
def overlaid (data : List UInt8) (p : Nat) (buf : List UInt8) : List UInt8 :=
  (data ++ List.replicate (p - data.length) 0).take p ++ buf ++ data.drop (p + buf.length)

/-- A write through the entry `e` has put `buf` at `p`, and it is read back there. -/
structure WritesAt (e : FdEntry) (data : List UInt8) (p : Nat) (buf : List UInt8) (answer : Int)
    (fs' : RamFs) : Prop where
  answer : answer = buf.length
  content : (fs'.inodes[e.inodeIdx]?).map INode.data = some (overlaid data p buf)
  reads : (fs'.readEntry { e with offset := p } buf.length).2.1 = buf

section Positions

variable {fs : RamFs} {e e' : FdEntry} {n : INode}

theorem overwrite_eq_overlaid_iff (data : List UInt8) (p : Nat) (buf : List UInt8) :
    overwrite data p buf = overlaid data p buf ↔ p ≤ data.length := by
  constructor
  · intro same
    have lengths := congrArg List.length same
    by_contra beyond
    rw [overwrite, if_pos (by omega), overlaid] at lengths
    simp only [List.length_append, List.length_take, List.length_replicate,
      List.length_drop] at lengths
    omega
  · intro within
    have zeros : data ++ List.replicate (p - data.length) 0 = data := by
      rw [Nat.sub_eq_zero_of_le within, List.replicate_zero, List.append_nil]
    rw [overwrite, overlaid, zeros]
    split
    · next atEnd =>
        rw [List.take_of_length_le atEnd, List.drop_eq_nil_of_le (by omega), List.append_nil]
    · rfl

theorem drop_take_overlaid (data : List UInt8) (p : Nat) (buf : List UInt8) :
    ((overlaid data p buf).drop p).take buf.length = buf := by
  have start : ((data ++ List.replicate (p - data.length) 0).take p).length = p := by
    rw [List.length_take, List.length_append, List.length_replicate]
    omega
  rw [overlaid, List.append_assoc, List.drop_left' start, List.take_left]

theorem setData_node (node : fs.inodes[e.inodeIdx]? = some n) (data : List UInt8) :
    (fs.setData e.inodeIdx data).inodes[e.inodeIdx]? = some { n with data := data } := by
  rw [setData, List.getElem?_modify_eq, node]
  rfl

theorem writeEntry_file (node : fs.inodes[e.inodeIdx]? = some n) (file : n.kind = .file)
    (writable : e.writable = true) (p : Nat) (buf : List UInt8) :
    fs.writeEntry { e with offset := p } buf =
      ((buf.length : Int), fs.setData e.inodeIdx (overwrite n.data p buf),
        { e with offset := p + buf.length }) := by
  simp only [writeEntry, writable, node, file, Bool.not_true, Bool.false_eq_true, if_false, ne_eq,
    not_true_eq_false]

/-- The write is at the position `p` of the entry iff `p` is within the file. -/
theorem writesAt_iff (node : fs.inodes[e.inodeIdx]? = some n) (file : n.kind = .file)
    (writable : e.writable = true) (p : Nat) (buf : List UInt8) :
    WritesAt e n.data p buf (fs.writeEntry { e with offset := p } buf).1
      (fs.writeEntry { e with offset := p } buf).2.1 ↔ p ≤ n.data.length := by
  have after := setData_node node (overwrite n.data p buf)
  rw [writeEntry_file node file writable, ← overwrite_eq_overlaid_iff n.data p buf]
  constructor
  · intro writes
    have content := writes.content
    rw [after] at content
    exact Option.some.inj content
  · intro same
    refine ⟨rfl, by rw [after, ← same]; rfl, ?_⟩
    simp only [readEntry, after, file, ne_eq, not_true_eq_false, if_false]
    rw [same]
    exact drop_take_overlaid n.data p buf

/-- A seek that answers `p` has set the position to `p`. -/
theorem lseekEntry_offset {offset : Int} {whence p : Nat}
    (sought : fs.lseekEntry e offset whence = some ((p : Int), e')) :
    e' = { e with offset := p } := by
  unfold lseekEntry at sought
  split at sought
  · cases sought
  · dsimp only at sought
    split at sought
    · have answer := (Prod.mk.inj (Option.some.inj sought)).1
      exact absurd answer (by rw [einval]; omega)
    · split at sought
      · have answer := (Prod.mk.inj (Option.some.inj sought)).1
        exact absurd answer (by rw [einval]; omega)
      · obtain ⟨answer, rfl⟩ := Prod.mk.inj (Option.some.inj sought)
        rw [answer, Int.toNat_natCast]

theorem lseekEntry_set (node : fs.inodes[e.inodeIdx]? = some n) (p : Nat) :
    fs.lseekEntry e p 0 = some ((p : Int), { e with offset := p }) := by
  simp only [lseekEntry, node, Int.toNat_natCast]
  exact if_neg (Int.not_lt.mpr (Int.natCast_nonneg p))

theorem lseekEntry_tell (node : fs.inodes[e.inodeIdx]? = some n) :
    fs.lseekEntry e 0 1 = some ((e.offset : Int), e) := by
  simp only [lseekEntry, node, Int.add_zero, Int.toNat_natCast]
  exact if_neg (Int.not_lt.mpr (Int.natCast_nonneg _))

/-- **Positional writes** to a file put the bytes at their position exactly if that is
not beyond the end, whether `lseek` has led there or `pwrite64` is given it. -/
theorem write_at_iff (node : fs.inodes[e.inodeIdx]? = some n) (file : n.kind = .file)
    (writable : e.writable = true) (p : Nat) (buf : List UInt8) :
    (∀ offset whence e', fs.lseekEntry e offset whence = some ((p : Int), e') →
      (WritesAt e n.data p buf (fs.writeEntry e' buf).1 (fs.writeEntry e' buf).2.1 ↔
        p ≤ n.data.length)) ∧
    ∃ answer fs' e', fs.pwriteEntry e buf p = some (answer, fs', e') ∧
      (WritesAt e n.data p buf answer fs' ↔ p ≤ n.data.length) := by
  constructor
  · intro offset whence e' sought
    rw [lseekEntry_offset sought]
    exact writesAt_iff node file writable p buf
  · have written := writesAt_iff node file writable p buf
    rw [writeEntry_file node file writable] at written
    refine ⟨_, _, { e with offset := e.offset }, ?_, written⟩
    have sought := @lseekEntry_set fs e n node p
    have back := @lseekEntry_set _ { e with offset := p + buf.length } _
      (setData_node node (overwrite n.data p buf)) e.offset
    simp only [pwriteEntry, lseekEntry_tell node, sought, writeEntry_file node file writable, back,
      Option.bind_eq_bind, Option.bind_some, Option.pure_def, Int.not_lt.mpr (Int.natCast_nonneg _),
      if_false]

end Positions

/-- A descriptor for writing to `/etc/version`. -/
def versionWriter : FdEntry := { FdEntry.plain .ramFS 0 true with inodeIdx := 6 }

/-- One byte is written at the end of a file of two bytes. -/
theorem write_at_iff_end :
    ∃ answer fs' e', (RamFs.new [1, 2]).pwriteEntry versionWriter [3] 2 = some (answer, fs', e') ∧
      WritesAt versionWriter [1, 2] 2 [3] answer fs' := by
  obtain ⟨answer, fs', e', written, exact⟩ :=
    (@write_at_iff (RamFs.new [1, 2]) versionWriter ⟨ascii "version", some 1, .file, [1, 2], 6⟩
      (by decide) rfl rfl 2 [3]).2
  exact ⟨answer, fs', e', written, exact.mpr (by decide)⟩

/-- One byte is written at the position 4 of a file of two bytes: it becomes the third. -/
theorem write_beyond_end :
    ∃ e', (RamFs.new [1, 2]).lseekEntry versionWriter 4 0 = some (4, e') ∧
      ((RamFs.new [1, 2]).inodes[6]?).map (fun n => (n.kind, n.data)) = some (.file, [1, 2]) ∧
      ¬WritesAt versionWriter [1, 2] 4 [3] ((RamFs.new [1, 2]).writeEntry e' [3]).1
        ((RamFs.new [1, 2]).writeEntry e' [3]).2.1 := by
  refine ⟨{ versionWriter with offset := 4 }, rfl, by decide, fun writes => ?_⟩
  have content := writes.content
  revert content
  decide

end RamFs

end OxideOS.Fs
