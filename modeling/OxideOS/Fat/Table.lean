import OxideOS.Lib.Prog
import OxideOS.Fat.Volume

/-!
# The driver's state and its allocation table

The table of a FAT16 volume holds one word of sixteen bits for every cluster: 0
for a free cluster, the number of the next cluster of a chain, or 0xFFF8 and
above at the end of a chain. It is stored in several copies; `fatWriteEntry`
changes an entry in each of them, and everything else that changes the table goes
through it.

`FatFs` is the driver's state. Two fields are histories that no code reads: what
the current call has done to the table, and which clusters start a directory.
-/

set_option autoImplicit false

namespace OxideOS.Fat

open Lib Disk

structure FatFd where
  active : Bool
  writable : Bool
  fileSize : Nat
  firstCluster : Nat
  curCluster : Nat
  curSector : Nat
  fileOffset : Nat
  dirEntrySector : Nat
  dirEntryOffset : Nat
  deriving DecidableEq

def FatFd.empty : FatFd := ⟨false, false, 0, 0, 0, 0, 0, 0, 0⟩

/-- What a call does to an entry of the table. -/
inductive Change where
  | allocated (cluster : Nat)
  | freed (cluster : Nat)
  /-- The last cluster of a chain is given a successor. -/
  | linked (cluster next : Nat)
  deriving DecidableEq

/-- The cluster whose entry is changed. -/
def Change.cluster : Change → Nat
  | .allocated cluster => cluster
  | .freed cluster => cluster
  | .linked cluster _ => cluster

structure FatFs where
  device : Device
  ready : Bool
  bpb : Bpb
  fds : Nat → FatFd
  /-- History: what the current call has done to the table, last change first. -/
  changes : List Change
  /-- History: the first clusters of the subdirectories that are allocated. -/
  dirs : List Nat

def fatFdBase : Nat := 64

def fatFdCount : Nat := 16

/-- The driver after it has found a volume; `dirs` are the subdirectories the volume
comes with. -/
def FatFs.mounted (device : Device) (bpb : Bpb) (dirs : List Nat) : FatFs :=
  ⟨device, true, bpb, fun _ => .empty, [], dirs⟩

/-! ## Entries -/

/-- The sector of the table's first copy that holds the entry of `cluster`. -/
def Bpb.entryLba (b : Bpb) (cluster : Nat) : Nat := b.fatStartLba + cluster * 2 / 512

/-- The position of the entry in its sector. -/
def entryByte (cluster : Nat) : Nat := cluster * 2 % 512

/-- The stored word, in the first copy. -/
def tableEntry (b : Bpb) (d : Device) (cluster : Nat) : Nat :=
  leRead (d.readSector (b.entryLba cluster)) (entryByte cluster) 2

/-- One read-modify-write for each copy. -/
def fatWriteEntry (b : Bpb) (d : Device) (cluster value : Nat) : Device :=
  loop (fun copy d =>
    let lba := b.entryLba cluster + copy * b.fatSize16
    d.writeSector lba (leWrite (d.readSector lba) (entryByte cluster) 2 value)) 0 b.fatCount d

/-- The successor of a cluster; 0xFFFF at the end of a chain. -/
def fatNext (b : Bpb) (d : Device) (cluster : Nat) : Nat :=
  let val := tableEntry b d cluster
  if 0xFFF8 ≤ val then 0xFFFF else val

/-- The free clusters among the 256 whose entries sector `s` of the table holds;
their numbers are cut to sixteen bits. -/
def scanTableSector (buf : Sector) (s : Nat) : Option Nat :=
  (List.range 256).findSome? fun j =>
    let cluster := (s * 256 + j) % 65536
    if cluster < 2 then none
    else if buf (2 * j) = 0 ∧ buf (2 * j + 1) = 0 then some cluster
    else none

def findFreeCluster (b : Bpb) (d : Device) : Option Nat :=
  (List.range b.fatSize16).findSome? fun s => scanTableSector (d.readSector (b.fatStartLba + s)) s

namespace FatFs

def setEntry (fs : FatFs) (change : Change) (value : Nat) : FatFs :=
  { fs with
    device := fatWriteEntry fs.bpb fs.device change.cluster value
    changes := change :: fs.changes }

/-- The first free cluster becomes a chain of its own; 0 when the disk is full. -/
def fatAllocCluster (fs : FatFs) : Nat × FatFs :=
  match findFreeCluster fs.bpb fs.device with
  | none => (0, fs)
  | some cluster => (cluster, fs.setEntry (.allocated cluster) 0xFFFF)

/-- Free the clusters of a chain one by one. `O_TRUNC` has a loop of its own that
stops one test later and does the same. -/
def freeClusterChain : (fuel : Nat) → FatFs → (cl : Nat) → Option FatFs
  | 0, _, _ => none
  | fuel + 1, fs, cl =>
    if 2 ≤ cl ∧ cl < 0xFFF8 then
      let next := fatNext fs.bpb fs.device cl
      let fs := fs.setEntry (.freed cl) 0
      if next = 0 ∨ next = 0xFFFF then some fs else freeClusterChain fuel fs next
    else some fs

end FatFs

/-- More steps than there are cluster numbers. A walk along a chain that has not
stopped by then does not stop. -/
def chainFuel : Nat := 65537

end OxideOS.Fat
