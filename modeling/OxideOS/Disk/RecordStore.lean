import OxideOS.Disk.Device
import OxideOS.Lib.Prog
import OxideOS.Lib.Table

/-!
# The record store

A store of small records at a fixed place on a disk: a header in sector 2048 and
255 slots of one sector each behind it. A used slot holds a magic number, the
record's number, the length of its data, a checksum and up to 496 bytes.

`mount` takes over a disk that has the header, leaves an ext2 volume alone and
formats any other disk.
-/

set_option autoImplicit false

namespace OxideOS.Disk

open Lib

def storeMagic : UInt32 := 0x4F584453
def recordMagic : UInt32 := 0x52454358
def storeBaseLba : Nat := 2048
def maxRecords : Nat := 255
def recordDataMax : Nat := 496
def ext2Magic : Nat := 0xEF53

/-! ## Slots -/

structure RecordSlot where
  magic : UInt32
  id : UInt32
  dataLen : UInt32
  checksum : UInt32
  /-- The data area; positions below 496. -/
  data : Nat → UInt8

def headerLba : Nat := storeBaseLba

def recordLba (slot : Nat) : Nat := storeBaseLba + 1 + slot

def checksum (data : List UInt8) : UInt32 := data.foldl (fun acc b => acc ^^^ b.toUInt32) 0

namespace RecordSlot

/-- The first `count` bytes of the data area. -/
def take (s : RecordSlot) (count : Nat) : List UInt8 := (List.range count).map s.data

/-- The packed structure as it lies in a sector. -/
def toSector (s : RecordSlot) : Sector :=
  leWrite (leWrite (leWrite (leWrite (fun i => s.data (i - 16))
    0 4 s.magic.toNat) 4 4 s.id.toNat) 8 4 s.dataLen.toNat) 12 4 s.checksum.toNat

def ofSector (buf : Sector) : RecordSlot where
  magic := .ofNat (leRead buf 0 4)
  id := .ofNat (leRead buf 4 4)
  dataLen := .ofNat (leRead buf 8 4)
  checksum := .ofNat (leRead buf 12 4)
  data := fun i => buf (16 + i)

end RecordSlot

def readSlot (d : Device) (slot : Nat) : RecordSlot := .ofSector (d.readSector (recordLba slot))

def writeSlot (d : Device) (slot : Nat) (s : RecordSlot) : Device :=
  d.writeSector (recordLba slot) s.toSector

/-! ## Mounting -/

/-- The header `mount` looks for. -/
def hasStoreHeader (d : Device) : Bool :=
  let buf := d.readSector headerLba
  leRead buf 0 4 == storeMagic.toNat && leRead buf 4 4 == 1 && leRead buf 8 4 == maxRecords

def isExt2Disk (d : Device) : Bool := leRead (d.readSector 2) 56 2 == ext2Magic

def storeHeader : Sector :=
  leWrite (leWrite (leWrite (leWrite Sector.zero
    0 4 storeMagic.toNat) 4 4 1) 8 4 maxRecords) 12 4 recordDataMax

/-- Write the header and empty every slot. -/
def format (d : Device) : Device :=
  loop (fun slot d => d.writeSector (recordLba slot) Sector.zero) 0 maxRecords
    (d.writeSector headerLba storeHeader)

/-- A disk position with its mark that the store is mounted. -/
structure Store where
  device : Device
  mounted : Bool

def mount (s : Store) (present : Bool) : Bool × Store :=
  if !present then (false, s)
  else if hasStoreHeader s.device then (true, { s with mounted := true })
  else if isExt2Disk s.device then (false, s)
  else (true, ⟨format s.device, true⟩)

/-! ## Records -/

/-- The slot is in use for the record `id`. -/
def holds (d : Device) (id : UInt32) (slot : Nat) : Bool :=
  (readSlot d slot).magic == recordMagic && (readSlot d slot).id == id

/-- The scan of `writeRecord`: it ends at the slot of the record, if there is
one, and notes the first empty slot on its way. -/
def findSlot (d : Device) (id : UInt32) :
    (slot count : Nat) → (firstEmpty : Option Nat) → Option Nat × Option Nat
  | _, 0, firstEmpty => (none, firstEmpty)
  | slot, count + 1, firstEmpty =>
    if holds d id slot then (some slot, firstEmpty)
    else if (readSlot d slot).magic != recordMagic && firstEmpty.isNone then
      findSlot d id (slot + 1) count (some slot)
    else findSlot d id (slot + 1) count firstEmpty

/-- The slot a record is written with: at most 496 bytes of the data, zeros
behind them. -/
def newRecord (id : UInt32) (data : List UInt8) : RecordSlot :=
  let dataLen := min data.length recordDataMax
  { magic := recordMagic
    id := id
    dataLen := .ofNat dataLen
    checksum := checksum (data.take dataLen)
    data := fun i => (data.take dataLen).getD i 0 }

def writeRecord (s : Store) (id : UInt32) (data : List UInt8) : Bool × Store :=
  if !s.mounted then (false, s) else
  let (targetSlot, firstEmpty) := findSlot s.device id 0 maxRecords none
  match targetSlot.or firstEmpty with
  | none => (false, s)
  | some slot => (true, { s with device := writeSlot s.device slot (newRecord id data) })

/-- Read a record into a buffer of `room` bytes: the bytes copied, if the record
is there and its checksum is right. -/
def readRecord (s : Store) (id : UInt32) (room : Nat) : Option (List UInt8) :=
  if !s.mounted then none else
  match firstBelow maxRecords (holds s.device id) with
  | none => none
  | some slot =>
    let r := readSlot s.device slot
    let dlen := min r.dataLen.toNat recordDataMax
    if checksum (r.take dlen) != r.checksum then none
    else some (r.take (min dlen room))

def deleteRecord (s : Store) (id : UInt32) : Bool × Store :=
  if !s.mounted then (false, s) else
  match firstBelow maxRecords (holds s.device id) with
  | none => (false, s)
  | some slot => (true, { s with device := s.device.writeSector (recordLba slot) Sector.zero })

/-- The numbers in the used slots from `slot` on, as many as there is room for. -/
def listFrom (d : Device) : (slot count room : Nat) → List UInt32
  | _, 0, _ => []
  | slot, count + 1, room =>
    if room = 0 then []
    else if (readSlot d slot).magic == recordMagic then
      (readSlot d slot).id :: listFrom d (slot + 1) count (room - 1)
    else listFrom d (slot + 1) count room

def listRecords (s : Store) (room : Nat) : List UInt32 :=
  if !s.mounted then [] else listFrom s.device 0 maxRecords room

end OxideOS.Disk
