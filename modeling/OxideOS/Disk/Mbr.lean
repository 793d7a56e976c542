import OxideOS.Disk.Device

/-!
# Partition tables

Sector 0 of a disk is the boot sector of a file system that takes the whole disk
or a master boot record with four partition entries; `mbrInit` tells them apart
as the kernel does. `installerMbr` is the record the installer writes.
-/

set_option autoImplicit false

namespace OxideOS.Disk

open Lib

def ptypeFat16Small : UInt8 := 0x04
def ptypeFat16Large : UInt8 := 0x06
def ptypeFat16Lba : UInt8 := 0x0E

/-- The two bytes at the end of every boot sector. -/
def hasBootSignature (buf : Sector) : Bool := buf 510 == 0x55 && buf 511 == 0xAA

structure PartEntry where
  status : UInt8
  partitionType : UInt8
  startLba : Nat
  sizeSectors : Nat
  deriving DecidableEq

structure MbrState where
  entries : List PartEntry
  wholeDisk : Bool
  valid : Bool
  deriving DecidableEq

/-- Entry `i` of the partition table. -/
def partEntry (buf : Sector) (i : Nat) : PartEntry :=
  let off := 446 + i * 16
  { status := buf off
    partitionType := buf (off + 4)
    startLba := leRead buf (off + 8) 4
    sizeSectors := leRead buf (off + 12) 4 }

/-- A jump instruction at the start makes it the boot sector of a file system on the whole
disk. -/
def mbrInit (d : Device) : MbrState :=
  let buf := d.readSector 0
  if !hasBootSignature buf then ⟨List.replicate 4 ⟨0, 0, 0, 0⟩, true, false⟩
  else if buf 0 == 0xEB || buf 0 == 0xE9 then ⟨List.replicate 4 ⟨0, 0, 0, 0⟩, true, true⟩
  else
    let entries := (List.range 4).map (partEntry buf)
    ⟨entries, !entries.any fun e => e.partitionType != 0, true⟩

namespace MbrState

def fat16LbaOffset (m : MbrState) : Nat :=
  if !m.valid || m.wholeDisk then 0 else
  match m.entries.find? fun e =>
      e.partitionType == ptypeFat16Small || e.partitionType == ptypeFat16Large
        || e.partitionType == ptypeFat16Lba with
  | some e => e.startLba
  | none => 0

/-- The partitions the record lists. -/
def partitions (m : MbrState) : List PartEntry :=
  if !m.valid || m.wholeDisk then [] else m.entries.filter fun e => e.partitionType != 0

end MbrState

/-! ## The installer's record -/

def efiPartStart : Nat := 2048
def efiPartSectors : Nat := 131072
def dataPartStart : Nat := 133120
def dataPartSectors : Nat := 131072

/-- A partition entry at `off`, with the addresses beyond the range of cylinders
and heads. -/
def writePartEntry (buf : Sector) (off : Nat) (status ptype : UInt8) (lbaStart sectors : Nat) :
    Sector :=
  let head : List UInt8 := [status, 0xFE, 0xFF, 0xFF, ptype, 0xFE, 0xFF, 0xFF]
  let buf := fun i => if off ≤ i ∧ i < off + 8 then head.getD (i - off) 0 else buf i
  leWrite (leWrite buf (off + 8) 4 lbaStart) (off + 12) 4 sectors

/-- The sector `write_mbr` puts in place; `bootstrap` is the boot loader's code,
and DE AD BE EF the disk signature. -/
def installerMbr (bootstrap : List UInt8) : Sector :=
  let mbr : Sector := fun i => if i < 440 then bootstrap.getD i 0 else 0
  let mbr := leWrite mbr 440 4 0xEFBEADDE
  let mbr := writePartEntry mbr 446 0x80 0xEF efiPartStart efiPartSectors
  let mbr := writePartEntry mbr 462 0x00 0x06 dataPartStart dataPartSectors
  leWrite mbr 510 2 0xAA55

end OxideOS.Disk
