import OxideOS.Disk.Mbr

/-!
# The layout of a FAT16 volume

`fatInit` reads the parameter block of the boot sector and places the parts of
the volume one behind the other: reserved sectors, the copies of the table, the
root directory and the clusters.
-/

set_option autoImplicit false

namespace OxideOS.Fat

open Lib Disk

structure Bpb where
  bytesPerSector : Nat
  sectorsPerCluster : Nat
  reservedSectors : Nat
  fatCount : Nat
  rootEntryCount : Nat
  fatSize16 : Nat
  fatStartLba : Nat
  rootDirLba : Nat
  dataStartLba : Nat
  deriving DecidableEq

/-- The parameter block of the boot sector `buf` of a volume that starts at
`partOffset`. -/
def readBpb (buf : Sector) (partOffset : Nat) : Bpb :=
  let reserved := leRead buf 0x0E 2
  let fatCount := (buf 0x10).toNat
  let rde := leRead buf 0x11 2
  let fatSize := leRead buf 0x16 2
  { bytesPerSector := leRead buf 0x0B 2
    sectorsPerCluster := (buf 0x0D).toNat
    reservedSectors := reserved
    fatCount := fatCount
    rootEntryCount := rde
    fatSize16 := fatSize
    fatStartLba := partOffset + reserved
    rootDirLba := partOffset + reserved + fatCount * fatSize
    dataStartLba := partOffset + reserved + fatCount * fatSize + (rde * 32 + 511) / 512 }

/-- The volume the driver mounts, if it finds a boot sector. -/
def fatInit (d : Device) : Option Bpb :=
  let partOffset := (mbrInit d).fat16LbaOffset
  let buf := d.readSector partOffset
  if !hasBootSignature buf then none else some (readBpb buf partOffset)

namespace Bpb

/-- The first sector of the volume. -/
def firstLba (b : Bpb) : Nat := b.fatStartLba - b.reservedSectors

/-- The clusters are those with an entry in the table and a number of 16 bits; the
first two numbers stand for no cluster. -/
def clusterEnd (b : Bpb) : Nat := min (b.fatSize16 * 256) 65536

def clusterToLba (b : Bpb) (cluster : Nat) : Nat :=
  b.dataStartLba + (cluster - 2) * b.sectorsPerCluster

/-- The number of sectors up to the end of the last cluster. -/
def sizeSectors (b : Bpb) : Nat := b.clusterToLba b.clusterEnd - b.firstLba

end Bpb

end OxideOS.Fat
