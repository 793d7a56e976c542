import OxideOS.Fat.Directory

/-!
# The calls of the FAT16 driver

`open`, `write_fd`, `close`, `mkdir`, `unlink` and `rename`. A descriptor keeps the
first cluster, the size and the position of the directory entry of its file, and
writes the first two back to that position.

A call that changes the volume returns its result and the new state, or `none` when it
does not return: a walk along a chain does not end, or the arithmetic of the kernel, which
is built with overflow checks, stops it. `read_fd` always returns here; on a malformed
volume, whose file starts at cluster 1 or leads to it, the subtraction in `cluster_to_lba`
would stop it. Transfers to and from the disk succeed.
-/

set_option autoImplicit false

namespace OxideOS.Fat

open Lib Disk

/-! ## Flags and error numbers -/

def oWronly : UInt32 := 1

def oRdwr : UInt32 := 2

def oCreat : UInt32 := 0x40

def oTrunc : UInt32 := 0x200

def isWritable (flags : UInt32) : Bool := flags &&& oWronly != 0 || flags &&& oRdwr != 0

def enoent : Int := -2

def eexist : Int := -17

def einval : Int := -22

def enospc : Int := -28

def enotempty : Int := -39

def isFatFd (fd : Int) : Bool := fatFdBase ≤ fd && fd < fatFdBase + fatFdCount

def fdSlot (fd : Int) : Nat := (fd - fatFdBase).toNat

/-- The first descriptor that is not in use. -/
def freeFd (fds : Nat → FatFd) : Option Nat :=
  (List.range fatFdCount).find? fun i => !(fds i).active

/-- The descriptor `open` makes for the file whose entry is at `lba`, `off`. -/
def FatFd.opened (writable : Bool) (lba off firstCluster size : Nat) : FatFd where
  active := true
  writable := writable
  fileSize := size
  firstCluster := firstCluster
  curCluster := firstCluster
  curSector := 0
  fileOffset := 0
  dirEntrySector := lba
  dirEntryOffset := off

namespace FatFs

/-! ## open -/

/-- `O_TRUNC` on a file whose entry is at `lba`, `off`: its chain is freed and the
entry is given a new first cluster, 0 when there is none. -/
def truncate (fs : FatFs) (lba off firstCluster : Nat) : Option (Nat × FatFs) :=
  match freeClusterChain chainFuel fs firstCluster with
  | none => none
  | some fs =>
    let (newCl, fs) := fs.fatAllocCluster
    some (newCl, { fs with
      device := patchSector fs.device lba fun buf => putExtent buf off newCl 0 })

/-- A descriptor for the file whose entry is at `lba`, `off`. -/
def allocFd (fs : FatFs) (writable : Bool) (lba off firstCluster size : Nat) : Int × FatFs :=
  match freeFd fs.fds with
  | none => (-4, fs)
  | some i =>
    (fatFdBase + i,
      { fs with fds := Function.update fs.fds i (.opened writable lba off firstCluster size) })

/-- The file is there: truncate it if that is wanted, and open it. -/
def openFound (fs : FatFs) (flags : UInt32) (lba off firstCluster size : Nat) :
    Option (Int × FatFs) :=
  if flags &&& oTrunc != 0 && isWritable flags && firstCluster != 0 then
    match fs.truncate lba off firstCluster with
    | none => none
    | some (newCl, fs) => some (fs.allocFd (isWritable flags) lba off newCl 0)
  else some (fs.allocFd (isWritable flags) lba off firstCluster size)

/-- The file is not there: create it with a first cluster, and open it. -/
def openNew (fs : FatFs) (flags : UInt32) (parent : DirLoc) (name : List UInt8) :
    Option (Int × FatFs) :=
  let (newCluster, fs) := fs.fatAllocCluster
  if newCluster = 0 then some (enospc, fs)
  else
    match fs.createDirEntry parent name 0x20 newCluster 0 with
    | none => none
    | some (none, fs) => some (enospc, fs)
    | some (some (lba, off), fs) => fs.openFound flags lba off newCluster 0

def openPath (fs : FatFs) (rawPath : List UInt8) (flags : UInt32) : Option (Int × FatFs) :=
  if !fs.ready then some (-2, fs)
  else
    match resolveParent fs.bpb fs.device rawPath with
    | none => none
    | some none => some (einval, fs)
    | some (some (parent, name)) =>
      match findEntry fs.bpb fs.device parent fun e => e.name83 == name && !e.isDir with
      | none => none
      | some (some e) => fs.openFound flags e.entrySector e.entryOffset e.firstCluster e.size
      | some none => if flags &&& oCreat == 0 then some (-7, fs) else fs.openNew flags parent name

/-! ## mkdir -/

/-- The first sector of a new directory: the entries `.` and `..`. -/
def dotEntries (cluster parentCluster : Nat) (buf : Sector) : Sector :=
  putEntry (putEntry buf 0 dotName 0x10 cluster 0) 32 dotdotName 0x10 parentCluster 0

/-- The cluster of a new directory is filled. -/
def initDir (fs : FatFs) (cluster : Nat) (parent : DirLoc) : FatFs :=
  let fs := fs.zeroCluster cluster
  { fs with
    device :=
      patchSector fs.device (fs.bpb.clusterToLba cluster) (dotEntries cluster parent.cluster)
    dirs := cluster :: fs.dirs }

def mkdir (fs : FatFs) (rawPath : List UInt8) : Option (Int × FatFs) :=
  if !fs.ready then some (-2, fs)
  else
    match resolveParent fs.bpb fs.device rawPath with
    | none => none
    | some none => some (einval, fs)
    | some (some (parent, name)) =>
      let (newCluster, fs) := fs.fatAllocCluster
      if newCluster = 0 then some (enospc, fs)
      else
        let fs := fs.initDir newCluster parent
        match fs.createDirEntry parent name 0x10 newCluster 0 with
        | none => none
        | some (none, fs) => some (enospc, fs)
        | some (some _, fs) => some (0, fs)

/-! ## unlink -/

/-- An entry that keeps its directory from being removed. -/
def isChild (e : DirEntryInfo) : Bool :=
  fat83ToString e.name83 != [dot] && fat83ToString e.name83 != [dot, dot]

/-- The slot at `lba`, `off` is marked as deleted. -/
def deleteSlot (fs : FatFs) (lba off : Nat) : FatFs :=
  { fs with device := patchSector fs.device lba fun buf => Function.update buf off 0xE5 }

/-- The chain of the entry is freed and its slot deleted. -/
def removeEntry (fs : FatFs) (e : DirEntryInfo) : Option (Int × FatFs) :=
  let freed := if 2 ≤ e.firstCluster then freeClusterChain chainFuel fs e.firstCluster else some fs
  match freed with
  | none => none
  | some fs =>
    let fs := if e.isDir then { fs with dirs := fs.dirs.filter (· != e.firstCluster) } else fs
    some (0, fs.deleteSlot e.entrySector e.entryOffset)

def unlink (fs : FatFs) (rawPath : List UInt8) : Option (Int × FatFs) :=
  if !fs.ready then some (-2, fs)
  else
    match resolveParent fs.bpb fs.device rawPath with
    | none => none
    | some none => some (einval, fs)
    | some (some (parent, name)) =>
      match findEntry fs.bpb fs.device parent (·.name83 == name) with
      | none => none
      | some none => some (enoent, fs)
      | some (some e) =>
        if e.isDir then
          match findEntry fs.bpb fs.device (.subdir e.firstCluster) isChild with
          | none => none
          | some (some _) => some (enotempty, fs)
          | some none => fs.removeEntry e
        else fs.removeEntry e

/-! ## rename -/

/-- The entry `..` of a directory that has moved is changed. A directory without a
cluster stops the kernel: the subtraction in `cluster_to_lba` overflows. -/
def adopt (fs : FatFs) (e : DirEntryInfo) (newParent : DirLoc) : Option FatFs :=
  if !e.isDir then some fs
  else if e.firstCluster < 2 then none
  else
    some { fs with
      device := patchSector fs.device (fs.bpb.clusterToLba e.firstCluster) fun buf =>
        leWrite buf 58 2 newParent.cluster }

/-- The entry is created in another directory, and the old slot is deleted. -/
def moveEntry (fs : FatFs) (e : DirEntryInfo) (newParent : DirLoc) (newName : List UInt8) :
    Option (Int × FatFs) :=
  match fs.createDirEntry newParent newName (if e.isDir then 0x10 else 0x20)
    e.firstCluster e.size with
  | none => none
  | some (none, fs) => some (enospc, fs)
  | some (some _, fs) =>
    match fs.adopt e newParent with
    | none => none
    | some fs => some (0, fs.deleteSlot e.entrySector e.entryOffset)

/-- The entry is given another name where it is. -/
def renameSlot (fs : FatFs) (e : DirEntryInfo) (newName : List UInt8) : FatFs :=
  { fs with
    device := patchSector fs.device e.entrySector fun buf => putName buf e.entryOffset newName }

def rename (fs : FatFs) (oldPath newPath : List UInt8) : Option (Int × FatFs) :=
  if !fs.ready then some (-2, fs)
  else
    match resolveParent fs.bpb fs.device oldPath with
    | none => none
    | some none => some (einval, fs)
    | some (some (oldParent, oldName)) =>
      match resolveParent fs.bpb fs.device newPath with
      | none => none
      | some none => some (einval, fs)
      | some (some (newParent, newName)) =>
        match findEntry fs.bpb fs.device oldParent (·.name83 == oldName) with
        | none => none
        | some none => some (enoent, fs)
        | some (some e) =>
          match findEntry fs.bpb fs.device newParent (·.name83 == newName) with
          | none => none
          | some (some _) => some (eexist, fs)
          | some none =>
            if oldParent = newParent then some (0, fs.renameSlot e newName)
            else fs.moveEntry e newParent newName

/-! ## write and close -/

/-- The size and the first cluster a descriptor keeps are written to the place where
the entry of its file was when it was opened. -/
def flushDirSize (fs : FatFs) (slot : FatFd) : FatFs :=
  if slot.dirEntrySector = 0 then fs
  else
    { fs with
      device := patchSector fs.device slot.dirEntrySector fun buf =>
        putExtent buf slot.dirEntryOffset slot.firstCluster slot.fileSize }

/-- The sector with `chunk` at position `off`. -/
def putBytes (buf : Sector) (off : Nat) (chunk : List UInt8) : Sector := fun i =>
  if off ≤ i ∧ i < off + chunk.length then chunk.getD (i - off) 0 else buf i

/-- A descriptor without a cluster is given one. -/
def ensureCluster (fs : FatFs) (slot : FatFd) : Option FatFd × FatFs :=
  if slot.curCluster < 2 then
    let (cl, fs) := fs.fatAllocCluster
    if cl = 0 then (none, fs)
    else (some { slot with firstCluster := cl, curCluster := cl, curSector := 0 }, fs)
  else (some slot, fs)

/-- The next piece of data that fits into the current sector. -/
def chunkOf (slot : FatFd) (data : List UInt8) : List UInt8 :=
  data.take (512 - slot.fileOffset % 512)

/-- The data is stored in the current sector. -/
def storeChunk (fs : FatFs) (slot : FatFd) (chunk : List UInt8) : FatFs :=
  let lba := fs.bpb.clusterToLba slot.curCluster + slot.curSector
  let byteOff := slot.fileOffset % 512
  let buf := if byteOff ≠ 0 ∨ chunk.length < 512 then fs.device.readSector lba else Sector.zero
  { fs with device := fs.device.writeSector lba (putBytes buf byteOff chunk) }

/-- The offset and the size after `avail` more bytes. -/
def movedBy (slot : FatFd) (avail : Nat) : FatFd :=
  let offset := slot.fileOffset + avail
  { slot with fileOffset := offset, fileSize := max slot.fileSize offset }

/-- The position moves to the next sector, and at the end of a cluster to the next
cluster; there is a new cluster only if there is more to write. The first result is
`false` when the disk is full. -/
def advance (fs : FatFs) (slot : FatFd) (more : Bool) : Bool × FatFd × FatFs :=
  if slot.fileOffset % 512 ≠ 0 then (true, slot, fs)
  else if slot.curSector + 1 < fs.bpb.sectorsPerCluster then
    (true, { slot with curSector := slot.curSector + 1 }, fs)
  else
    let slot := { slot with curSector := 0 }
    let next := fatNext fs.bpb fs.device slot.curCluster
    if 0xFFF8 ≤ next ∨ next = 0 then
      if !more then (true, slot, fs)
      else
        let (newCl, fs) := fs.fatAllocCluster
        if newCl = 0 then (false, slot, fs)
        else
          (true, { slot with curCluster := newCl },
            fs.setEntry (.linked slot.curCluster newCl) newCl)
    else (true, { slot with curCluster := next }, fs)

/-- Every round of the loop stores at least one byte, so that the length of the data
is enough fuel. The result is the number of bytes stored. -/
def writeLoop : (fuel : Nat) → FatFs → FatFd → List UInt8 → Option (Nat × FatFd × FatFs)
  | 0, fs, slot, _ => some (0, slot, fs)
  | fuel + 1, fs, slot, data =>
    if data = [] then some (0, slot, fs)
    else
      match fs.ensureCluster slot with
      | (none, fs) => some (0, slot, fs)
      | (some slot, fs) =>
        let chunk := chunkOf slot data
        let fs := fs.storeChunk slot chunk
        let slot := movedBy slot chunk.length
        if 4294967296 ≤ slot.fileOffset then none
        else
          let rest := data.drop chunk.length
          match fs.advance slot (rest != []) with
          | (false, slot, fs) => some (chunk.length, slot, fs)
          | (true, slot, fs) =>
            match writeLoop fuel fs slot rest with
            | none => none
            | some (done, slot, fs) => some (chunk.length + done, slot, fs)

def setFd (fs : FatFs) (i : Nat) (slot : FatFd) : FatFs :=
  { fs with fds := Function.update fs.fds i slot }

def writeFd (fs : FatFs) (fd : Int) (data : List UInt8) : Option (Int × FatFs) :=
  if !fs.ready || !isFatFd fd then some (-5, fs)
  else
    let slot := fs.fds (fdSlot fd)
    if !slot.active then some (-5, fs)
    else if !slot.writable then some (-9, fs)
    else
      match writeLoop data.length fs slot data with
      | none => none
      | some (done, slot, fs) => some (done, (fs.setFd (fdSlot fd) slot).flushDirSize slot)

def close (fs : FatFs) (fd : Int) : Int × FatFs :=
  if !isFatFd fd then (-5, fs)
  else
    let slot := fs.fds (fdSlot fd)
    let fs := if slot.active && slot.writable then fs.flushDirSize slot else fs
    (0, fs.setFd (fdSlot fd) { slot with active := false })

/-! ## read -/

/-- The position moves to the next sector, and at the end of a cluster along the
chain; the first result is `false` at the end of the chain. -/
def advanceRead (fs : FatFs) (slot : FatFd) : Bool × FatFd :=
  if slot.fileOffset % 512 ≠ 0 then (true, slot)
  else if slot.curSector + 1 < fs.bpb.sectorsPerCluster then
    (true, { slot with curSector := slot.curSector + 1 })
  else
    let slot := { slot with curSector := 0 }
    let next := fatNext fs.bpb fs.device slot.curCluster
    if next = 0xFFFF ∨ next = 0 then (false, slot) else (true, { slot with curCluster := next })

/-- Every round of the loop reads at least one byte, so that the number of bytes
still to be read is enough fuel. Clusters 0 and 1 are read as cluster 2, where the kernel
stops. -/
def readLoop : (fuel : Nat) → FatFs → FatFd → (left : Nat) → List UInt8 × FatFd
  | 0, _, slot, _ => ([], slot)
  | fuel + 1, fs, slot, left =>
    if left = 0 then ([], slot)
    else
      let buf := fs.device.readSector (fs.bpb.clusterToLba slot.curCluster + slot.curSector)
      let byteOff := slot.fileOffset % 512
      let avail := min (512 - byteOff) left
      let bytes := (List.range avail).map fun i => buf (byteOff + i)
      match fs.advanceRead { slot with fileOffset := slot.fileOffset + avail } with
      | (false, slot) => (bytes, slot)
      | (true, slot) =>
        let (rest, slot) := readLoop fuel fs slot (left - avail)
        (bytes ++ rest, slot)

/-- Read up to `room` bytes: an error code, 0 at the end of the file, or the number
of bytes read. -/
def readFd (fs : FatFs) (fd : Int) (room : Nat) : Int × List UInt8 × FatFs :=
  if !fs.ready || !isFatFd fd then (-5, [], fs)
  else
    let slot := fs.fds (fdSlot fd)
    if !slot.active then (-5, [], fs)
    else
      let remaining := slot.fileSize - slot.fileOffset
      if remaining = 0 then (0, [], fs)
      else
        let (bytes, slot) := readLoop (min room remaining) fs slot (min room remaining)
        (bytes.length, bytes, fs.setFd (fdSlot fd) slot)

end FatFs

/-! ## Runs -/

inductive FatOp where
  | openPath (rawPath : List UInt8) (flags : UInt32)
  | write (fd : Int) (data : List UInt8)
  | close (fd : Int)
  | mkdir (rawPath : List UInt8)
  | unlink (rawPath : List UInt8)
  | rename (oldPath newPath : List UInt8)

namespace FatFs

def perform (fs : FatFs) : FatOp → Option (Int × FatFs)
  | .openPath rawPath flags => fs.openPath rawPath flags
  | .write fd data => fs.writeFd fd data
  | .close fd => some (fs.close fd)
  | .mkdir rawPath => fs.mkdir rawPath
  | .unlink rawPath => fs.unlink rawPath
  | .rename oldPath newPath => fs.rename oldPath newPath

/-- The state after a call; the history of changes is that of the call. -/
def next (fs : FatFs) (op : FatOp) : Option FatFs :=
  match ({ fs with changes := [] } : FatFs).perform op with
  | none => none
  | some (_, fs') => some fs'

end FatFs

end OxideOS.Fat
