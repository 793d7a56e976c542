import OxideOS.Disk.RecordStore
import OxideOS.Fs.RamDescriptors
import OxideOS.Lib.Decimal

/-!
# The record store as a directory

Records of the store on the first disk appear as files `/store/<number>`. The
descriptors of such files are descriptors of shadow files in memory: opening a
path copies the record there first. `stat` and the listing of the directory ask
the store itself.
-/

set_option autoImplicit false

namespace OxideOS.Fs

open Lib Disk

/-! ## Mount points -/

/-- The back ends a path can lead to. -/
inductive Mount where
  | dev | fat16 | ext2 | proc | diskStore | ramFS
  deriving DecidableEq, Repr

/-- The path is the directory or below it. -/
def isUnder (dir path : List UInt8) : Bool := path == dir || (dir ++ [slash]).isPrefixOf path

def vfsResolve (path : List UInt8) : Mount :=
  if isUnder (ascii "/dev") path then .dev
  else if isUnder (ascii "/disk") path then .fat16
  else if isUnder (ascii "/ext2") path then .ext2
  else if isUnder (ascii "/proc") path then .proc
  else if isUnder (ascii "/store") path then .diskStore
  else .ramFS

/-! ## Paths of records -/

def recordPath (id : UInt32) : List UInt8 := ascii "/store" ++ slash :: decimal id

def parseRecordId (path : List UInt8) : Option UInt32 :=
  if (ascii "/store/").isPrefixOf path then readDecimal (path.drop 7) else none

/-! ## Shadow files -/

/-- The store on the first disk and the file system in memory. -/
structure StoreWorld where
  store : Store
  fs : RamFs

namespace StoreWorld

/-- Copy a record to its shadow file, if the record exists. -/
def refreshRecord (w : StoreWorld) (id : UInt32) : StoreWorld :=
  if !w.store.mounted then w else
  match readRecord w.store id recordDataMax with
  | none => w
  | some bytes => { w with fs := (w.fs.writeFile (recordPath id) bytes).2 }

def refreshAllRecords (w : StoreWorld) : StoreWorld :=
  if !w.store.mounted then w else (listRecords w.store maxRecords).foldl refreshRecord w

/-- Create the mount points and the summary `/diskinfo`, then the shadow files. -/
def populate (w : StoreWorld) (info : List UInt8) : StoreWorld :=
  let fs := (w.fs.createDir (ascii "/disk")).2
  let fs := (fs.createDir (ascii "/ext2")).2
  let fs := (fs.createDir (ascii "/store")).2
  let fs := (fs.writeFile (ascii "/diskinfo") info).2
  refreshAllRecords { w with fs := fs }

/-- Write a record to the disk and to its shadow file. -/
def writeRecord (w : StoreWorld) (id : UInt32) (data : List UInt8) : Bool × StoreWorld :=
  match Disk.writeRecord w.store id data with
  | (true, store) => (true, ⟨store, (w.fs.writeFile (recordPath id) data).2⟩)
  | (false, store) => (false, { w with store := store })

/-! ## The views -/

/-- `open` on a path of the store. -/
def openPath (w : StoreWorld) (t : FdTable) (path : List UInt8) (flags : Nat) :
    Int × FdTable × StoreWorld :=
  if path = ascii "/store" ∨ path = ascii "/store/" then
    let (fd, t) := t.openDir path
    (fd, t, w.refreshAllRecords)
  else
    match parseRecordId path with
    | none => (enoent, t, w)
    | some id =>
      let w := w.refreshRecord id
      let (fd, t, fs, _) := t.openFile w.fs path flags
      (fd, t, { w with fs := fs })

/-- What `vfs_stat` stores: the size, and whether it is a directory. -/
structure FileStat where
  size : Nat
  directory : Bool
  deriving DecidableEq

def statPath (w : StoreWorld) (path : List UInt8) : Except Int FileStat :=
  if path = ascii "/store" ∨ path = ascii "/store/" then .ok ⟨0, true⟩ else
  match parseRecordId path with
  | none => .error (-7)
  | some id =>
    match readRecord w.store id recordDataMax with
    | none => .error (-7)
    | some bytes => .ok ⟨bytes.length, false⟩

def newline : UInt8 := 0x0A

/-- Lines with the numbers, as long as the buffer has room for one more. -/
def listLines (room : Nat) : List UInt32 → List UInt8 → List UInt8
  | [], out => out
  | id :: rest, out =>
    if room ≤ out.length + (decimal id).length + 1 then out
    else listLines room rest (out ++ decimal id ++ [newline])

/-- The listing of the directory in a buffer of `room` bytes. -/
def listStoreRaw (w : StoreWorld) (room : Nat) : List UInt8 :=
  if !w.store.mounted then [] else listLines room (listRecords w.store maxRecords) []

end StoreWorld

end OxideOS.Fs
