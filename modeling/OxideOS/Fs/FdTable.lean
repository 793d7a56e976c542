import OxideOS.Fat.Driver
import OxideOS.Ipc.Pipe

/-!
# Descriptor tables and what their entries refer to

Every task has a table of 32 descriptors. An entry names its back end and, for a
pipe or a file on disk, a raw descriptor: an end of a pipe, or a slot in the
table of open files of the FAT16 or ext2 driver. `OpenFiles` collects these
tables. Pipe ends are counted; the slots of the disk drivers are not.

What the path of an `open` leads to (`Target`) is an input here: the lookup
itself, on-disk creation and truncation are the business of the file systems.
-/

set_option autoImplicit false

namespace OxideOS.Fs

open Lib Ipc Function

/-! ## Open files of the disk drivers -/

def ext2FdBase : Nat := 80
def ext2FdCount : Nat := 16

def oWronly : Nat := Fat.oWronly.toNat
def oRdwr : Nat := Fat.oRdwr.toNat
def oCreat : Nat := Fat.oCreat.toNat
def oTrunc : Nat := Fat.oTrunc.toNat
def oAppend : Nat := 0x400

structure Ext2Fd where
  active : Bool
  inodeNo : Nat
  fileSize : Nat
  fileOffset : Nat
  directBlocks : Nat → Nat
  writable : Bool
  append : Bool

def Ext2Fd.empty : Ext2Fd := ⟨false, 0, 0, 0, fun _ => 0, false, false⟩

/-- What identifies a file on disk: its directory entry or its inode. -/
inductive FileId where
  | none
  | fat (sector offset : Nat)
  | ext2 (inodeNo : Nat)
  deriving DecidableEq, Repr

/-- The tables that raw descriptors point into. -/
structure OpenFiles where
  pipes : Nat → Pipe
  fat : Nat → Fat.FatFd
  ext2 : Nat → Ext2Fd

def OpenFiles.empty : OpenFiles := ⟨fun _ => .new, fun _ => .empty, fun _ => .empty⟩

/-- A file found on the FAT16 volume: the place of its directory entry, its
first cluster and its size. -/
structure FatFile where
  sector : Nat
  offset : Nat
  firstCluster : Nat
  size : Nat

/-- A file found on the ext2 volume: its inode number and what `open` reads from
the inode. -/
structure Ext2File where
  inodeNo : Nat
  size : Nat
  blocks : Nat → Nat

def isExt2Fd (fd : Nat) : Bool :=
  decide (ext2FdBase ≤ fd) && decide (fd < ext2FdBase + ext2FdCount)

def opensForWriting (flags : Nat) : Bool := flags &&& oWronly != 0 || flags &&& oRdwr != 0

/-- Take the first inactive slot of the FAT16 driver for a file. -/
def fatOpen (file : FatFile) (flags : Nat) (slots : Nat → Fat.FatFd) :
    Except Int (Nat × (Nat → Fat.FatFd)) :=
  match Fat.freeFd slots with
  | none => .error (-4)
  | some i =>
    .ok (Fat.fatFdBase + i, update slots i
      (.opened (opensForWriting flags) file.sector file.offset file.firstCluster file.size))

def fatClose (fd : Nat) (slots : Nat → Fat.FatFd) : Nat → Fat.FatFd :=
  if Fat.isFatFd fd then
    update slots (Fat.fdSlot fd) { slots (Fat.fdSlot fd) with active := false }
  else slots

/-- Take the first inactive slot of the ext2 driver for a file. -/
def ext2Open (file : Ext2File) (flags : Nat) (slots : Nat → Ext2Fd) :
    Except Int (Nat × (Nat → Ext2Fd)) :=
  match firstBelow ext2FdCount fun i => !(slots i).active with
  | none => .error (-24)
  | some i =>
    .ok (ext2FdBase + i, update slots i
      ⟨true, file.inodeNo, file.size, if flags &&& oAppend != 0 then file.size else 0,
        file.blocks, opensForWriting flags, flags &&& oAppend != 0⟩)

def ext2Close (fd : Nat) (slots : Nat → Ext2Fd) : Nat → Ext2Fd :=
  if isExt2Fd fd then
    update slots (fd - ext2FdBase) { slots (fd - ext2FdBase) with active := false }
  else slots

/-! ## Descriptor tables -/

def maxFd : Nat := 32
def ebadf : Int := -9
def emfile : Int := -24

inductive FdBackend where
  | ramFS | fat16 | ext2 | pipe | devNull | devTty | dir
  deriving DecidableEq, Repr

structure FdEntry where
  backend : FdBackend
  inodeIdx : Nat
  rawFd : Nat
  offset : Nat
  writable : Bool
  append : Bool
  dirPath : List UInt8
  /-- The file on disk the entry was opened on; a history variable, which the
  code neither has nor needs. -/
  file : FileId

structure FdTable where
  entries : Nat → Option FdEntry

/-- An entry with the fields most back ends leave at their defaults. -/
def FdEntry.plain (backend : FdBackend) (rawFd : Nat) (writable : Bool) : FdEntry :=
  ⟨backend, 0, rawFd, 0, writable, false, [], .none⟩

namespace FdTable

def new : FdTable := ⟨fun _ => none⟩

def set (t : FdTable) (fd : Nat) (e : Option FdEntry) : FdTable :=
  ⟨update t.entries fd e⟩

/-- The entry at a descriptor given by a program. -/
def get (t : FdTable) (fd : Int) : Option FdEntry :=
  if fd < 0 ∨ (maxFd : Int) ≤ fd then none else t.entries fd.toNat

/-- The lowest free descriptor from 3 on. -/
def allocFd (t : FdTable) : Option Nat := firstFrom (fun i => (t.entries i).isNone) 3 (maxFd - 3)

/-- Put an entry at the lowest free descriptor. -/
def place (t : FdTable) (e : FdEntry) : Int × FdTable :=
  match t.allocFd with
  | none => (emfile, t)
  | some fd => (fd, t.set fd (some e))

/-- Allocate two descriptors for the ends of a pipe. When only one is free the
read end stays in the table although the call fails. -/
def openPipe (t : FdTable) (rawReadFd rawWriteFd : Nat) : Option (Nat × Nat) × FdTable :=
  match t.allocFd with
  | none => (none, t)
  | some rslot =>
    let t := t.set rslot (some (.plain .pipe rawReadFd false))
    match t.allocFd with
    | none => (none, t)
    | some wslot => (some (rslot, wslot), t.set wslot (some (.plain .pipe rawWriteFd true)))

def openFat (t : FdTable) (fatRawFd : Nat) (writable : Bool) (file : FileId) : Int × FdTable :=
  t.place { FdEntry.plain .fat16 fatRawFd writable with file := file }

def openExt2 (t : FdTable) (ext2RawFd : Nat) (writable : Bool) (file : FileId) : Int × FdTable :=
  t.place { FdEntry.plain .ext2 ext2RawFd writable with file := file }

def openDev (t : FdTable) (backend : FdBackend) : Int × FdTable :=
  t.place (.plain backend 0 (backend != .devNull))

def openDir (t : FdTable) (path : List UInt8) : Int × FdTable :=
  t.place { FdEntry.plain .dir 0 false with dirPath := path.take 63 }

def openRam (t : FdTable) (inodeIdx offset flags : Nat) : Int × FdTable :=
  t.place { FdEntry.plain .ramFS 0 (opensForWriting flags) with
    inodeIdx := inodeIdx, offset := offset, append := flags &&& oAppend != 0 }

/-- The clean-up `close` does for an entry it has removed. -/
def release (e : FdEntry) (o : OpenFiles) : OpenFiles :=
  match e.backend with
  | .pipe => { o with pipes := Pipe.close o.pipes e.rawFd }
  | .fat16 => { o with fat := fatClose e.rawFd o.fat }
  | .ext2 => { o with ext2 := ext2Close e.rawFd o.ext2 }
  | _ => o

def close (t : FdTable) (fd : Int) (o : OpenFiles) : Int × FdTable × OpenFiles :=
  match t.get fd with
  | none => (ebadf, t, o)
  | some e => (0, t.set fd.toNat none, release e o)

/-- The clean-up `dup2` does for the entry it replaces: unlike `close` it does
nothing for ext2. -/
def releaseForDup2 (e : FdEntry) (o : OpenFiles) : OpenFiles :=
  match e.backend with
  | .pipe => { o with pipes := Pipe.close o.pipes e.rawFd }
  | .fat16 => { o with fat := fatClose e.rawFd o.fat }
  | _ => o

/-- The reference `dup2` and `fork` count for an entry they copy: pipes only. -/
def addref (e : FdEntry) (o : OpenFiles) : OpenFiles :=
  match e.backend with
  | .pipe => { o with pipes := Pipe.addref o.pipes e.rawFd }
  | _ => o

def dup2 (t : FdTable) (oldFd newFd : Int) (o : OpenFiles) : Int × FdTable × OpenFiles :=
  if oldFd < 0 ∨ (maxFd : Int) ≤ oldFd then (-5, t, o) else
  if newFd < 0 ∨ (maxFd : Int) ≤ newFd then (-5, t, o) else
  match t.entries oldFd.toNat with
  | none => (-5, t, o)
  | some e =>
    let o := addref e o
    let o := match t.entries newFd.toNat with
      | some old => releaseForDup2 old o
      | none => o
    (newFd, t.set newFd.toNat (some e), o)

/-- Copy an entry to the lowest free descriptor from `start` on, without counting
the copy: what `dup` (from 0) and `fcntl` with `F_DUPFD` do. -/
def dupFrom (t : FdTable) (fd : Int) (start : Nat) : Int × FdTable :=
  match t.get fd with
  | none => (ebadf, t)
  | some e =>
    match firstFrom (fun i => (t.entries i).isNone) start (maxFd - start) with
    | none => (emfile, t)
    | some newFd => (newFd, t.set newFd (some e))

/-- The references of a table copied by `fork`. -/
def addrefAll (t : FdTable) (o : OpenFiles) : OpenFiles :=
  loop (fun i o =>
    match t.entries i with
    | some e => addref e o
    | none => o) 0 maxFd o

/-- The table `exec` leaves: the first three entries stay, the others are dropped. -/
def execTable (t : FdTable) : FdTable := ⟨fun fd => if fd < 3 then t.entries fd else none⟩

end FdTable

/-! ## Opening a path -/

/-- What a path leads to. -/
inductive Target where
  | error (code : Int)
  /-- A name under `/dev`: `tty`, or anything else, which is the null device. -/
  | dev (tty : Bool)
  | dir (path : List UInt8)
  | ram (inodeIdx offset : Nat)
  | fat (file : FatFile)
  | ext2 (file : Ext2File)

/-- The descriptor part of `open`. A slot of a disk driver is taken before the
descriptor; when no descriptor is free the slot is not given back. -/
def vfsOpen (target : Target) (flags : Nat) (t : FdTable) (o : OpenFiles) :
    Int × FdTable × OpenFiles :=
  match target with
  | .error code => (code, t, o)
  | .dev tty =>
    let (fd, t) := t.openDev (if tty then .devTty else .devNull)
    (fd, t, o)
  | .dir path =>
    let (fd, t) := t.openDir path
    (fd, t, o)
  | .ram inodeIdx offset =>
    let (fd, t) := t.openRam inodeIdx offset flags
    (fd, t, o)
  | .fat file =>
    match fatOpen file flags o.fat with
    | .error code => (code, t, o)
    | .ok (rawFd, slots) =>
      let (fd, t) := t.openFat rawFd (opensForWriting flags) (.fat file.sector file.offset)
      (fd, t, { o with fat := slots })
  | .ext2 file =>
    match ext2Open file flags o.ext2 with
    | .error code => (code, t, o)
    | .ok (rawFd, slots) =>
      let (fd, t) := t.openExt2 rawFd (opensForWriting flags) (.ext2 file.inodeNo)
      (fd, t, { o with ext2 := slots })

end OxideOS.Fs
