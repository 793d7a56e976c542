import OxideOS.Lib.Words

/-!
# Disks

A disk is an array of sectors of 512 bytes, read and written one sector at a
time. Transfers succeed; a disk that fails or is absent is not modelled here.
-/

set_option autoImplicit false

namespace OxideOS.Disk

open Lib

/-- The bytes of a sector. Positions from 512 on are not on the disk and nothing
reads them. -/
abbrev Sector := Nat → UInt8

def Sector.zero : Sector := fun _ => 0

structure Device where
  sectors : Nat → Sector
  /-- The sectors written so far; a history variable, which no code reads. -/
  written : List Nat

namespace Device

def readSector (d : Device) (lba : Nat) : Sector := d.sectors lba

def writeSector (d : Device) (lba : Nat) (buf : Sector) : Device :=
  ⟨Function.update d.sectors lba buf, lba :: d.written⟩

variable (d : Device) (buf : Sector) {lba other : Nat}

@[simp] theorem readSector_writeSector_self : (d.writeSector lba buf).readSector lba = buf :=
  Function.update_self ..

theorem readSector_writeSector_of_ne (apart : other ≠ lba) :
    (d.writeSector lba buf).readSector other = d.readSector other :=
  Function.update_of_ne apart ..

@[simp] theorem written_writeSector : (d.writeSector lba buf).written = lba :: d.written := rfl

end Device

/-- The disk as it leaves the factory. -/
def Device.blank : Device := ⟨fun _ => .zero, []⟩

end OxideOS.Disk
