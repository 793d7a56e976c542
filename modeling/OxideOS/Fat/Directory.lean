import OxideOS.Lib.Path
import OxideOS.Fat.Table

/-!
# Directories of a FAT16 volume

A directory is a sequence of slots of 32 bytes: the root directory in a fixed
range of sectors, a subdirectory in the clusters of its chain. The first byte of
a slot tells whether it was never used (0x00, and no slot behind it is looked at),
is deleted (0xE5) or holds an entry.

`findEntry` is `for_each_fat_entry` with a callback that stops at the first entry
it wants; paths are resolved with it. Its result is `none` when the walk along a
chain does not end.
-/

set_option autoImplicit false

namespace OxideOS.Fat

open Lib Disk

/-! ## Names -/

def slash : UInt8 := 0x2F

def dot : UInt8 := 0x2E

def space : UInt8 := 0x20

def toAsciiUppercase (b : UInt8) : UInt8 := if 0x61 ≤ b ∧ b ≤ 0x7A then b - 0x20 else b

def toAsciiLowercase (b : UInt8) : UInt8 := if 0x41 ≤ b ∧ b ≤ 0x5A then b + 0x20 else b

/-- At most `width` bytes in upper case, filled up with blanks. -/
def nameField (width : Nat) (bytes : List UInt8) : List UInt8 :=
  let kept := (bytes.take width).map toAsciiUppercase
  kept ++ List.replicate (width - kept.length) space

/-- The eleven bytes under which a path component is stored. -/
def componentTo83 (part : List UInt8) : Option (List UInt8) :=
  let name := part.takeWhile (· != dot)
  let ext := (part.dropWhile (· != dot)).drop 1
  if name = [] then none else some (nameField 8 name ++ nameField 3 ext)

/-- The name as it is shown: in lower case, with a dot before an extension. -/
def fat83ToString (name83 : List UInt8) : List UInt8 :=
  let name := ((name83.take 8).takeWhile (· != space)).map toAsciiLowercase
  let ext := ((name83.drop 8).rdropWhile (· == space)).map toAsciiLowercase
  if ext = [] then name else name ++ dot :: ext

/-- `/disk/` -/
def diskPrefix : List UInt8 := [slash, 0x64, 0x69, 0x73, 0x6B, slash]

def stripDiskPrefix (raw : List UInt8) : List UInt8 :=
  if diskPrefix.isPrefixOf raw then raw.drop 6
  else if raw = diskPrefix.take 5 then []
  else if raw.head? = some slash then raw.drop 1
  else raw

/-- The name of the entry `.` -/
def dotName : List UInt8 := dot :: List.replicate 10 space

/-- The name of the entry `..` -/
def dotdotName : List UInt8 := dot :: dot :: List.replicate 9 space

/-! ## Slots -/

inductive DirLoc where
  | root
  | subdir (firstCluster : Nat)
  deriving DecidableEq

/-- What the entry `..` of a directory in `dir` holds. -/
def DirLoc.cluster : DirLoc → Nat
  | .root => 0
  | .subdir firstCluster => firstCluster

structure DirEntryInfo where
  name83 : List UInt8
  firstCluster : Nat
  size : Nat
  entrySector : Nat
  entryOffset : Nat
  isDir : Bool
  deriving DecidableEq

/-- The entry at position `off` of the sector `lba` with contents `buf`. -/
def entryInfo (buf : Sector) (lba off : Nat) : DirEntryInfo :=
  { name83 := (List.range 11).map fun i => buf (off + i)
    firstCluster := leRead buf (off + 26) 2
    size := leRead buf (off + 28) 4
    entrySector := lba
    entryOffset := off
    isDir := buf (off + 11) &&& 0x10 != 0 }

/-- A slot without an entry. -/
def isFreeSlot (buf : Sector) (off : Nat) : Bool := buf off == 0x00 || buf off == 0xE5

/-- A slot whose entry the driver looks at: volume labels are passed over. -/
def isLiveSlot (buf : Sector) (off : Nat) : Bool :=
  !isFreeSlot buf off && buf (off + 11) &&& 0x08 == 0

/-- The entries of a sector, up to the first that is wanted or the first slot that
was never used: `none` when the search goes on behind the sector. -/
def scanSlots (wanted : DirEntryInfo → Bool) (buf : Sector) (lba : Nat) :
    List Nat → Option (Option DirEntryInfo)
  | [] => none
  | e :: rest =>
    let off := e * 32
    if buf off == 0x00 then some none
    else if isLiveSlot buf off && wanted (entryInfo buf lba off) then
      some (some (entryInfo buf lba off))
    else scanSlots wanted buf lba rest

def scanSectors (wanted : DirEntryInfo → Bool) (d : Device) :
    List Nat → Option (Option DirEntryInfo)
  | [] => none
  | lba :: rest =>
    match scanSlots wanted (d.readSector lba) lba (List.range 16) with
    | some result => some result
    | none => scanSectors wanted d rest

def Bpb.rootSectors (b : Bpb) : Nat := (b.rootEntryCount * 32 + 511) / 512

def Bpb.rootLbas (b : Bpb) : List Nat := (List.range b.rootSectors).map (b.rootDirLba + ·)

def Bpb.clusterLbas (b : Bpb) (cluster : Nat) : List Nat :=
  (List.range b.sectorsPerCluster).map (b.clusterToLba cluster + ·)

def scanChain (wanted : DirEntryInfo → Bool) (b : Bpb) (d : Device) :
    (fuel cluster : Nat) → Option (Option DirEntryInfo)
  | 0, _ => none
  | fuel + 1, cluster =>
    if cluster < 2 ∨ 0xFFF8 ≤ cluster then some none
    else
      match scanSectors wanted d (b.clusterLbas cluster) with
      | some result => some result
      | none => scanChain wanted b d fuel (fatNext b d cluster)

/-- The first entry of a directory that is wanted. -/
def findEntry (b : Bpb) (d : Device) (dir : DirLoc) (wanted : DirEntryInfo → Bool) :
    Option (Option DirEntryInfo) :=
  match dir with
  | .root => some ((scanSectors wanted d b.rootLbas).join)
  | .subdir firstCluster => scanChain wanted b d chainFuel firstCluster

/-! ## Paths -/

def resolveDirComponents (b : Bpb) (d : Device) :
    DirLoc → List (List UInt8) → Option (Option DirLoc)
  | current, [] => some (some current)
  | current, part :: rest =>
    if part = [] ∨ part = [dot] then resolveDirComponents b d current rest
    else if part = [dot, dot] then
      match current with
      | .root => resolveDirComponents b d current rest
      | .subdir _ => some none
    else
      match componentTo83 part with
      | none => some none
      | some name =>
        match findEntry b d current (·.name83 == name) with
        | none => none
        | some none => some none
        | some (some e) =>
          if e.isDir then resolveDirComponents b d (.subdir e.firstCluster) rest
          else some none

/-- The directory a path ends in and the name it has there. -/
def resolveParent (b : Bpb) (d : Device) (rawPath : List UInt8) :
    Option (Option (DirLoc × List UInt8)) :=
  let rel := stripDiskPrefix rawPath
  if rel = [] then some none
  else
    match resolveDirComponents b d .root
      (segments slash (rel.rdropWhile (· != slash)).dropLast) with
    | none => none
    | some none => some none
    | some (some parent) =>
      some ((componentTo83 (rel.rtakeWhile (· != slash))).map fun name => (parent, name))

/-! ## Changing slots -/

/-- The sector with an entry at `off`: name, attributes, fourteen zero bytes, first
cluster and size. -/
def putEntry (buf : Sector) (off : Nat) (name83 : List UInt8) (attr : UInt8)
    (firstCluster size : Nat) : Sector :=
  leWrite (leWrite (fun i =>
    if off ≤ i ∧ i < off + 11 then name83.getD (i - off) 0
    else if i = off + 11 then attr
    else if off + 12 ≤ i ∧ i < off + 26 then 0
    else buf i) (off + 26) 2 firstCluster) (off + 28) 4 size

/-- The sector with another name for the entry at `off`. -/
def putName (buf : Sector) (off : Nat) (name83 : List UInt8) : Sector := fun i =>
  if off ≤ i ∧ i < off + 11 then name83.getD (i - off) 0 else buf i

/-- The sector with another first cluster and size for the entry at `off`. -/
def putExtent (buf : Sector) (off firstCluster size : Nat) : Sector :=
  leWrite (leWrite buf (off + 26) 2 firstCluster) (off + 28) 4 size

/-- A sector of a directory is changed in place. -/
def patchSector (d : Device) (lba : Nat) (patch : Sector → Sector) : Device :=
  d.writeSector lba (patch (d.readSector lba))

/-- The first free slot of the sectors. -/
def freeSlot (d : Device) : List Nat → Option (Nat × Nat)
  | [] => none
  | lba :: rest =>
    match (List.range 16).find? fun e => isFreeSlot (d.readSector lba) (e * 32) with
    | some e => some (lba, e * 32)
    | none => freeSlot d rest

namespace FatFs

def zeroCluster (fs : FatFs) (cluster : Nat) : FatFs :=
  { fs with
    device := loop (fun s d => d.writeSector (fs.bpb.clusterToLba cluster + s) Sector.zero) 0
      fs.bpb.sectorsPerCluster fs.device }

/-- The free slot of a subdirectory that `create_dir_entry` takes; a full directory
is given another cluster. -/
def slotInChain : (fuel : Nat) → FatFs → (cluster : Nat) → Option (Option (Nat × Nat) × FatFs)
  | 0, _, _ => none
  | fuel + 1, fs, cluster =>
    if cluster < 2 ∨ 0xFFF8 ≤ cluster then some (none, fs)
    else
      match freeSlot fs.device (fs.bpb.clusterLbas cluster) with
      | some slot => some (some slot, fs)
      | none =>
        let next := fatNext fs.bpb fs.device cluster
        if 0xFFF8 ≤ next ∨ next = 0 then
          let (newCl, fs) := fs.fatAllocCluster
          if newCl = 0 then some (none, fs)
          else
            let fs := fs.setEntry (.linked cluster newCl) newCl
            slotInChain fuel (fs.zeroCluster newCl) newCl
        else slotInChain fuel fs next

def takeSlot (fs : FatFs) : DirLoc → Option (Option (Nat × Nat) × FatFs)
  | .root => some (freeSlot fs.device fs.bpb.rootLbas, fs)
  | .subdir firstCluster => slotInChain chainFuel fs firstCluster

/-- A new entry in a directory; the result is its position, or `none` when there is no
room. -/
def createDirEntry (fs : FatFs) (dir : DirLoc) (name83 : List UInt8) (attr : UInt8)
    (firstCluster size : Nat) : Option (Option (Nat × Nat) × FatFs) :=
  match fs.takeSlot dir with
  | none => none
  | some (none, fs) => some (none, fs)
  | some (some (lba, off), fs) =>
    let patch := fun buf => putEntry buf off name83 attr firstCluster size
    some (some (lba, off), { fs with device := patchSector fs.device lba patch })

end FatFs

end OxideOS.Fat
