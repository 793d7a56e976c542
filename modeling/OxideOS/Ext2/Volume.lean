import OxideOS.Disk.Device
import OxideOS.Fs.FdTable

/-!
# Reading files of an ext2 volume

The driver keeps up to sixteen open files, each with the twelve direct block
numbers it found in the inode. A read goes from block to block; a block number 0
is a hole and reads as zeros, and a file has nothing behind its twelfth block.
-/

set_option autoImplicit false

namespace OxideOS.Ext2

open Lib Disk Fs

/-- The driver, with the disk it works on. -/
structure Ext2State where
  device : Device
  ready : Bool
  lbaOffset : Nat
  blockSize : Nat
  sectsPerBlock : Nat
  fds : Nat → Ext2Fd

namespace Ext2State

/-- The driver before a volume is found. -/
def new (device : Device) : Ext2State := ⟨device, false, 0, 1024, 2, fun _ => .empty⟩

/-- The bytes of a block. On a malformed volume the product overflows, which stops the
kernel; here it does not. -/
def readBlock (s : Ext2State) (blockNo : Nat) : Nat → UInt8 := fun i =>
  s.device.readSector (s.lbaOffset + blockNo * s.sectsPerBlock + i / 512) (i % 512)

/-- The bytes from position `done` of the request on; there are no indirect blocks. Every
round of the loop reads at least one byte, so that the length of the request is enough
fuel. -/
def readLoop (s : Ext2State) (slot : Ext2Fd) (toRead : Nat) : (fuel done : Nat) → List UInt8
  | 0, _ => []
  | fuel + 1, done =>
    if toRead ≤ done then []
    else
      let fileOffset := slot.fileOffset + done
      let byteInBlk := fileOffset % s.blockSize
      if 12 ≤ fileOffset / s.blockSize then []
      else
        let blk := slot.directBlocks (fileOffset / s.blockSize)
        let avail := min (s.blockSize - byteInBlk) (toRead - done)
        let bytes :=
          if blk = 0 then List.replicate avail 0
          else (List.range avail).map fun i => s.readBlock blk (byteInBlk + i)
        bytes ++ readLoop s slot toRead fuel (done + avail)

def setFd (s : Ext2State) (i : Nat) (slot : Ext2Fd) : Ext2State :=
  { s with fds := Function.update s.fds i slot }

/-- Read up to `room` bytes: an error code, 0 at the end of the file, or the number
of bytes read. -/
def readFd (s : Ext2State) (fd room : Nat) : Int × List UInt8 × Ext2State :=
  if !s.ready || !isExt2Fd fd then (-5, [], s)
  else
    let slot := s.fds (fd - ext2FdBase)
    if !slot.active then (-5, [], s)
    else
      let remaining := slot.fileSize - slot.fileOffset
      if remaining = 0 then (0, [], s)
      else
        let bytes := readLoop s slot (min room remaining) (min room remaining) 0
        (bytes.length, bytes,
          s.setFd (fd - ext2FdBase) { slot with fileOffset := slot.fileOffset + bytes.length })

end Ext2State

end OxideOS.Ext2
