import OxideOS.Disk.RecordStore
import OxideOS.Lib.SlotMap

/-!
# The record store is a finite map

What the store is for: a map from record numbers to at most 496 bytes, of at most
255 records. `Records.Step` gives the calls their meaning in those terms, with
their results. The slots of a disk that was formatted and then used through the
calls alone always represent such a map, and every call answers as the map does.
-/

set_option autoImplicit false

namespace OxideOS.Disk

open Lib Function

/-! ## The map -/

abbrev Records := Finmap fun _ : UInt32 => List UInt8

inductive StoreOp where
  | write (id : UInt32) (data : List UInt8)
  /-- Read into a buffer of `room` bytes. -/
  | read (id : UInt32) (room : Nat)
  | delete (id : UInt32)
  /-- List into an array of `room` numbers. -/
  | list (room : Nat)

inductive StoreResult where
  | wrote (ok : Bool)
  | read (bytes : Option (List UInt8))
  | deleted (ok : Bool)
  | listed (ids : List UInt32)
  deriving DecidableEq

/-- What a call does to the map, and its result. -/
inductive Records.Step : Records → StoreOp → StoreResult → Records → Prop where
  | write {m : Records} {id : UInt32} (data : List UInt8) (room : id ∈ m ∨ m.keys.card < 255) :
      Step m (.write id data) (.wrote true) (m.insert id (data.take 496))
  | full {m : Records} {id : UInt32} (data : List UInt8) (fresh : id ∉ m)
      (full : m.keys.card = 255) :
      Step m (.write id data) (.wrote false) m
  | read {m : Records} (id : UInt32) (room : Nat) :
      Step m (.read id room) (.read ((m.lookup id).map (List.take room))) m
  | delete {m : Records} (id : UInt32) :
      Step m (.delete id) (.deleted (decide (id ∈ m))) (m.erase id)
  | list {m : Records} (room : Nat) {ids : List UInt32} (once : ids.Nodup)
      (present : ∀ id ∈ ids, id ∈ m) (many : ids.length = min room m.keys.card)
      (all : m.keys.card ≤ room → ∀ id ∈ m, id ∈ ids) :
      Step m (.list room) (.listed ids) m

/-- A sequence of calls with their results. -/
inductive Records.Run : Records → List StoreOp → List StoreResult → Records → Prop where
  | nil (m : Records) : Run m [] [] m
  | cons {m m' m'' : Records} {op : StoreOp} {result : StoreResult} {ops : List StoreOp}
      {results : List StoreResult} :
      Step m op result m' → Run m' ops results m'' → Run m (op :: ops) (result :: results) m''

/-! ## The calls of the driver -/

def Store.step (s : Store) : StoreOp → StoreResult × Store
  | .write id data =>
    let (ok, s) := writeRecord s id data
    (.wrote ok, s)
  | .read id room => (.read (readRecord s id room), s)
  | .delete id =>
    let (ok, s) := deleteRecord s id
    (.deleted ok, s)
  | .list room => (.listed (listRecords s room), s)

def Store.run (s : Store) : List StoreOp → List StoreResult × Store
  | [] => ([], s)
  | op :: ops =>
    let (result, s) := s.step op
    let (results, s) := s.run ops
    (result :: results, s)

/-! ## Slots -/

namespace RecordSlot

/-- A slot as it lies on the disk reads back. -/
@[simp] theorem ofSector_toSector (r : RecordSlot) : ofSector r.toSector = r := by
  have word (x : UInt32) : x.toNat < 256 ^ 4 := x.toNat_lt
  unfold ofSector toSector
  congr 1
  · rw [leRead_leWrite_of_disjoint (by omega), leRead_leWrite_of_disjoint (by omega),
      leRead_leWrite_of_disjoint (by omega), leRead_leWrite (word _), UInt32.ofNat_toNat]
  · rw [leRead_leWrite_of_disjoint (by omega), leRead_leWrite_of_disjoint (by omega),
      leRead_leWrite (word _), UInt32.ofNat_toNat]
  · rw [leRead_leWrite_of_disjoint (by omega), leRead_leWrite (word _), UInt32.ofNat_toNat]
  · rw [leRead_leWrite (word _), UInt32.ofNat_toNat]
  · funext i
    rw [leWrite_outside (by omega), leWrite_outside (by omega), leWrite_outside (by omega),
      leWrite_outside (by omega), Nat.add_sub_cancel_left]

/-- The record in a slot, if it is in use. -/
def record (r : RecordSlot) : Option (UInt32 × List UInt8) :=
  if r.magic = recordMagic then some (r.id, r.take (min r.dataLen.toNat recordDataMax)) else none

/-- An unused slot, or one whose checksum is right. -/
def Intact (r : RecordSlot) : Prop :=
  r.magic = recordMagic → Disk.checksum (r.take (min r.dataLen.toNat recordDataMax)) = r.checksum

theorem record_eq_none {r : RecordSlot} : r.record = none ↔ r.magic ≠ recordMagic := by
  unfold record
  split <;> simp_all

@[simp] theorem take_length (r : RecordSlot) (count : Nat) : (r.take count).length = count := by
  rw [take, List.length_map, List.length_range]

theorem take_take (r : RecordSlot) (count room : Nat) :
    (r.take count).take room = r.take (min count room) := by
  rw [take, take, ← List.map_take, List.take_range, Nat.min_comm]

end RecordSlot

/-- The driver cuts the data at the smaller of its length and 496. -/
theorem take_dataLen (data : List UInt8) :
    data.take (min data.length recordDataMax) = data.take recordDataMax := by
  rw [Nat.min_comm, ← List.take_take, List.take_length]

theorem newRecord_take (id : UInt32) (data : List UInt8) :
    (newRecord id data).take (min (newRecord id data).dataLen.toNat recordDataMax)
      = data.take recordDataMax := by
  have length : (newRecord id data).dataLen.toNat = min data.length recordDataMax := by
    refine UInt32.toNat_ofNat_of_lt' ?_
    simp only [recordDataMax, UInt32.size]
    omega
  rw [length, Nat.min_assoc, Nat.min_self, RecordSlot.take, ← take_dataLen]
  refine List.ext_getElem (by simp) fun i inside cut => ?_
  simp only [newRecord, List.getElem_map, List.getElem_range]
  rw [List.getD_eq_getElem?_getD, List.getElem?_eq_getElem cut, Option.getD_some]

/-- A written slot is in use for the record, with the data cut to 496 bytes. -/
theorem newRecord_record (id : UInt32) (data : List UInt8) :
    (newRecord id data).record = some (id, data.take recordDataMax) := by
  have used : (newRecord id data).magic = recordMagic := rfl
  rw [RecordSlot.record, if_pos used, newRecord_take]
  rfl

theorem newRecord_intact (id : UInt32) (data : List UInt8) : (newRecord id data).Intact := by
  intro _
  rw [newRecord_take]
  exact congrArg checksum (take_dataLen data).symm

theorem zero_record : (RecordSlot.ofSector Sector.zero).record = none := by decide

theorem zero_intact : (RecordSlot.ofSector Sector.zero).Intact :=
  fun used => absurd used (by decide)

namespace Device

/-- The records in the slots of a disk. -/
def record (d : Device) (slot : Nat) : Option (UInt32 × List UInt8) := (readSlot d slot).record

variable (d : Device) (slot : Nat)

theorem readSlot_writeSector (buf : Sector) :
    readSlot (d.writeSector (recordLba slot) buf)
      = update (readSlot d) slot (.ofSector buf) := by
  funext i
  by_cases here : i = slot
  · rw [here, update_self, readSlot, readSector_writeSector_self]
  · have apart : recordLba i ≠ recordLba slot := by
      simp only [recordLba]
      omega
    rw [update_of_ne here, readSlot, readSector_writeSector_of_ne _ _ apart]
    rfl

theorem record_writeSector (buf : Sector) :
    (d.writeSector (recordLba slot) buf).record
      = update d.record slot (RecordSlot.ofSector buf).record := by
  funext i
  rw [record, readSlot_writeSector]
  by_cases here : i = slot
  · rw [here, update_self, update_self]
  · rw [update_of_ne here, update_of_ne here]
    rfl

/-- Every slot of the store is unused or has the right checksum. -/
def Intact : Prop := ∀ slot < maxRecords, (readSlot d slot).Intact

variable {d slot}

theorem Intact.writeSector {buf : Sector} (intact : d.Intact)
    (sound : (RecordSlot.ofSector buf).Intact) :
    (d.writeSector (recordLba slot) buf).Intact := by
  intro i inside
  rw [readSlot_writeSector]
  by_cases here : i = slot
  · rw [here, update_self]
    exact sound
  · rw [update_of_ne here]
    exact intact i inside

/-- `holds` finds the slots of a record. -/
theorem holds_iff {id : UInt32} :
    holds d id slot = true ↔ ∃ data, d.record slot = some (id, data) := by
  simp only [holds, record, RecordSlot.record, Bool.and_eq_true, beq_iff_eq]
  split <;> simp_all

end Device

/-! ## Formatting -/

/-- After `format` every slot of the store is empty. -/
theorem format_empty (d : Device) :
    (∀ slot < maxRecords, (format d).record slot = none) ∧ (format d).Intact := by
  have zeroed : ∀ slot < maxRecords, readSlot (format d) slot = .ofSector Sector.zero := by
    unfold format
    refine loop_zero_invariant
      (fun n d => ∀ slot < n, readSlot d slot = .ofSector Sector.zero) ?_ ?_
    · intro i d _ before slot below
      rw [Device.readSlot_writeSector]
      by_cases here : slot = i
      · rw [here, update_self]
      · rw [update_of_ne here]
        exact before slot (by omega)
    · intro slot below
      exact absurd below (Nat.not_lt_zero slot)
  constructor
  · intro slot inside
    rw [Device.record, zeroed slot inside, zero_record]
  · intro slot inside
    rw [zeroed slot inside]
    exact zero_intact

/-! ## The scans -/

section Scans

variable {d : Device} {id : UInt32} {slot count : Nat} {firstEmpty : Option Nat}

theorem findSlot_found {target : Nat} {empty : Option Nat}
    (found : findSlot d id slot count firstEmpty = (some target, empty)) :
    target < slot + count ∧ holds d id target = true := by
  induction count generalizing slot firstEmpty with
  | zero => cases found
  | succ count ih =>
    rw [findSlot] at found
    split at found
    · next here =>
        cases found
        exact ⟨by omega, here⟩
    split at found
    · have := ih found
      exact ⟨by omega, this.2⟩
    · have := ih found
      exact ⟨by omega, this.2⟩

/-- A scan that does not meet the record has looked at every slot, and it notes
an empty slot unless there is none. -/
theorem findSlot_missing {empty : Option Nat}
    (missing : findSlot d id slot count firstEmpty = (none, empty)) :
    (∀ i, slot ≤ i → i < slot + count → holds d id i = false) ∧
    (empty = none → ∀ i, slot ≤ i → i < slot + count → d.record i ≠ none) ∧
    (∀ j, empty = some j → firstEmpty = some j ∨ j < slot + count ∧ d.record j = none) ∧
    (empty = none → firstEmpty = none) := by
  induction count generalizing slot firstEmpty with
  | zero =>
    cases missing
    exact ⟨fun i lower upper => absurd lower (by omega),
      fun _ i lower upper => absurd lower (by omega), fun j noted => .inl noted, fun e => e⟩
  | succ count ih =>
    rw [findSlot] at missing
    split at missing
    · cases missing
    next absent =>
    have here : holds d id slot = false := by simpa using absent
    split at missing
    · next vacant =>
        obtain ⟨elsewhere, used, noted, none⟩ := ih missing
        have free : d.record slot = .none := by
          simp only [Bool.and_eq_true, bne_iff_ne] at vacant
          exact RecordSlot.record_eq_none.mpr vacant.1
        refine ⟨fun i lower upper => ?_, fun e => absurd (none e) (by simp), fun j noted' => ?_,
          fun e => absurd (none e) (by simp)⟩
        · rcases Nat.eq_or_lt_of_le lower with rfl | later
          · exact here
          · exact elsewhere i later (by omega)
        · rcases noted j noted' with first | ⟨inside, emptySlot⟩
          · cases first
            exact .inr ⟨by omega, free⟩
          · exact .inr ⟨by omega, emptySlot⟩
    · next skipped =>
        obtain ⟨elsewhere, used, noted, none⟩ := ih missing
        refine ⟨fun i lower upper => ?_, fun e i lower upper => ?_, fun j noted' => ?_, none⟩
        · rcases Nat.eq_or_lt_of_le lower with rfl | later
          · exact here
          · exact elsewhere i later (by omega)
        · rcases Nat.eq_or_lt_of_le lower with rfl | later
          · intro free
            have unused := RecordSlot.record_eq_none.mp free
            simp only [Bool.and_eq_true, bne_iff_ne, none e, Option.isNone_none,
              and_true] at skipped
            exact skipped unused
          · exact used e i later (by omega)
        · rcases noted j noted' with first | ⟨inside, emptySlot⟩
          · exact .inl first
          · exact .inr ⟨by omega, emptySlot⟩

theorem listFrom_eq {room : Nat} :
    listFrom d slot count room
      = ((List.range' slot count).filterMap fun i => (d.record i).map Prod.fst).take room := by
  induction count generalizing slot room with
  | zero => simp [listFrom]
  | succ count ih =>
    rw [listFrom, List.range'_succ, List.filterMap_cons]
    split
    · next none => rw [none, List.take_zero]
    next some =>
    simp only [beq_iff_eq]
    split
    · next used =>
        have record : d.record slot
            = .some ((readSlot d slot).id, (readSlot d slot).take
              (min (readSlot d slot).dataLen.toNat recordDataMax)) := if_pos used
        obtain ⟨more, rfl⟩ := Nat.exists_eq_succ_of_ne_zero some
        rw [record, ih]
        rfl
    · next unused =>
        have record : d.record slot = .none := RecordSlot.record_eq_none.mpr unused
        rw [record, ih]
        rfl

end Scans

/-! ## Every call refines the map -/

/-- The store is mounted and its slots represent the map. -/
structure Refines (s : Store) (m : Records) : Prop where
  mounted : s.mounted = true
  slots : Represents maxRecords s.device.record m
  intact : s.device.Intact

variable {s : Store} {m : Records}

theorem refines_of_empty {d : Device} (empty : ∀ slot < maxRecords, d.record slot = none)
    (intact : d.Intact) : Refines ⟨d, true⟩ ∅ :=
  ⟨rfl, represents_empty empty, intact⟩

theorem refines_format (d : Device) : Refines ⟨format d, true⟩ ∅ :=
  refines_of_empty (format_empty d).1 (format_empty d).2

section

variable (ref : Refines s m)
include ref

/-- The search for a record's slot succeeds for the records of the map. -/
theorem Refines.search (id : UInt32) :
    (firstBelow maxRecords (holds s.device id) = none ∧ m.lookup id = none) ∨
    ∃ slot data, firstBelow maxRecords (holds s.device id) = some slot ∧ slot < maxRecords ∧
      s.device.record slot = some (id, data) ∧ m.lookup id = some data := by
  cases found : firstBelow maxRecords (holds s.device id) with
  | none =>
    refine .inl ⟨rfl, Finmap.lookup_eq_none.mpr fun member => ?_⟩
    obtain ⟨i, inside, data, held⟩ := ref.slots.mem_iff.mp member
    have missed := firstBelow_eq_none.mp found i inside
    rw [Device.holds_iff.mpr ⟨data, held⟩] at missed
    cases missed
  | some slot =>
    obtain ⟨inside, held, -⟩ := firstBelow_eq_some found
    obtain ⟨data, record⟩ := Device.holds_iff.mp held
    exact .inr ⟨slot, data, rfl, inside, record, ref.slots.lookup inside record⟩

/-- Writing a record into its slot, or into an empty one, inserts it. -/
theorem Refines.store {slot : Nat} {id : UInt32} (data : List UInt8) (inside : slot < maxRecords)
    (place : (∃ old, s.device.record slot = some (id, old)) ∨
      (s.device.record slot = none ∧ id ∉ m)) :
    Refines { s with device := writeSlot s.device slot (newRecord id data) }
      (m.insert id (data.take recordDataMax)) where
  mounted := ref.mounted
  slots := by
    simp only [writeSlot]
    rw [Device.record_writeSector, RecordSlot.ofSector_toSector, newRecord_record]
    exact ref.slots.store inside place
  intact := by
    refine ref.intact.writeSector ?_
    rw [RecordSlot.ofSector_toSector]
    exact newRecord_intact id data

theorem Refines.write (id : UInt32) (data : List UInt8) :
    ∃ m', Records.Step m (.write id data) (.wrote (writeRecord s id data).1) m' ∧
      Refines (writeRecord s id data).2 m' := by
  unfold writeRecord
  rw [if_neg (by simp [ref.mounted])]
  rcases scan : findSlot s.device id 0 maxRecords none with ⟨_ | target, empty⟩
  · obtain ⟨absent, used, noted, -⟩ := findSlot_missing scan
    have fresh : id ∉ m := by
      intro member
      obtain ⟨i, inside, old, held⟩ := ref.slots.mem_iff.mp member
      have missed := absent i (Nat.zero_le i) (by omega)
      rw [Device.holds_iff.mpr ⟨old, held⟩] at missed
      cases missed
    cases empty with
    | none =>
      have full : m.keys.card = 255 :=
        ref.slots.full_iff.mp fun i inside => used rfl i (Nat.zero_le i) (by omega)
      exact ⟨m, .full data fresh full, ref⟩
    | some slot =>
      obtain ⟨inside, vacant⟩ := (noted slot rfl).resolve_left (by simp)
      rw [Nat.zero_add] at inside
      have room : m.keys.card < 255 := by
        refine Nat.lt_of_le_of_ne ref.slots.card_le fun full => ?_
        exact ref.slots.full_iff.mpr full slot inside vacant
      exact ⟨_, .write data (.inr room), ref.store data inside (.inr ⟨vacant, fresh⟩)⟩
  · obtain ⟨inside, held⟩ := findSlot_found scan
    rw [Nat.zero_add] at inside
    obtain ⟨old, record⟩ := Device.holds_iff.mp held
    have present : id ∈ m := ref.slots.mem_iff.mpr ⟨target, inside, old, record⟩
    exact ⟨_, .write data (.inl present), ref.store data inside (.inl ⟨old, record⟩)⟩

/-- Reading answers from the map. -/
theorem Refines.read (id : UInt32) (room : Nat) :
    readRecord s id room = (m.lookup id).map (List.take room) := by
  unfold readRecord
  rw [if_neg (by simp [ref.mounted])]
  rcases ref.search id with ⟨missed, absent⟩ | ⟨slot, data, found, inside, record, present⟩
  · rw [missed, absent]
    rfl
  · rw [found, present]
    simp only [Device.record, RecordSlot.record] at record
    split at record
    · next used =>
        cases record
        have sound := ref.intact slot inside used
        simp only [sound, bne_self_eq_false, Bool.false_eq_true, if_false,
          Option.map_some, RecordSlot.take_take]
    · cases record

theorem Refines.delete (id : UInt32) :
    (deleteRecord s id).1 = decide (id ∈ m) ∧ Refines (deleteRecord s id).2 (m.erase id) := by
  unfold deleteRecord
  rw [if_neg (by simp [ref.mounted])]
  rcases ref.search id with ⟨missed, absent⟩ | ⟨slot, data, found, inside, record, present⟩
  · have fresh := Finmap.lookup_eq_none.mp absent
    have unchanged : m.erase id = m := by
      refine Finmap.ext_lookup fun other => ?_
      by_cases same : other = id
      · rw [same, Finmap.lookup_erase, absent]
      · rw [Finmap.lookup_erase_ne same]
    rw [missed, unchanged]
    exact ⟨(decide_eq_false fresh).symm, ref⟩
  · rw [found]
    refine ⟨(decide_eq_true (Finmap.mem_of_lookup_eq_some present)).symm, ref.mounted, ?_, ?_⟩
    · show Represents maxRecords (s.device.writeSector (recordLba slot) Sector.zero).record _
      rw [Device.record_writeSector, zero_record]
      exact ref.slots.clear inside record
    · exact ref.intact.writeSector zero_intact

theorem Refines.list (room : Nat) :
    Records.Step m (.list room) (.listed (listRecords s room)) m := by
  have listed : listRecords s room = (slotKeys maxRecords s.device.record).take room := by
    unfold listRecords
    rw [if_neg (by simp [ref.mounted]), listFrom_eq, ← List.range_eq_range']
    rfl
  rw [listed]
  refine .list room (ref.slots.nodup_slotKeys.sublist (List.take_sublist room _)) ?_ ?_ ?_
  · intro id member
    exact ref.slots.mem_slotKeys.mp (List.mem_of_mem_take member)
  · rw [List.length_take, ref.slots.length_slotKeys]
  · intro enough id member
    rw [List.take_of_length_le (by rw [ref.slots.length_slotKeys]; exact enough)]
    exact ref.slots.mem_slotKeys.mpr member

/-- One call. -/
theorem Refines.step (op : StoreOp) :
    ∃ m', Records.Step m op (s.step op).1 m' ∧ Refines (s.step op).2 m' := by
  cases op with
  | write id data => exact ref.write id data
  | read id room =>
    refine ⟨m, ?_, ref⟩
    simp only [Store.step, ref.read id room]
    exact .read id room
  | delete id =>
    obtain ⟨result, after⟩ := ref.delete id
    refine ⟨_, ?_, after⟩
    simp only [Store.step, result]
    exact .delete id
  | list room => exact ⟨m, ref.list room, ref⟩

/-- Any sequence of calls. -/
theorem Refines.run (ops : List StoreOp) :
    ∃ m', Records.Run m ops (s.run ops).1 m' ∧ Refines (s.run ops).2 m' := by
  induction ops generalizing s m with
  | nil => exact ⟨m, .nil m, ref⟩
  | cons op ops ih =>
    obtain ⟨m', stepped, after⟩ := ref.step op
    obtain ⟨m'', ran, done⟩ := ih after
    exact ⟨m'', .cons stepped ran, done⟩

end

/-! ## Main result -/

/-- Mounting a disk that has no store and is not an ext2 volume formats it. -/
theorem mount_formats (d : Device) (noHeader : hasStoreHeader d = false)
    (notExt2 : isExt2Disk d = false) : (mount ⟨d, false⟩ true).2 = ⟨format d, true⟩ := by
  simp [mount, noHeader, notExt2]

/-- After a disk was formatted by `mount`, whatever was on it, every sequence of
calls gives the results a finite map gives. -/
theorem run_answersAsMap (d : Device) (noHeader : hasStoreHeader d = false)
    (notExt2 : isExt2Disk d = false) (ops : List StoreOp) :
    ∃ m, Records.Run ∅ ops ((mount ⟨d, false⟩ true).2.run ops).1 m := by
  rw [mount_formats d noHeader notExt2]
  obtain ⟨m, ran, -⟩ := (refines_format d).run ops
  exact ⟨m, ran⟩

/-- On a blank disk: a record is written, overwritten and read back. -/
theorem run_answersAsMap_blank :
    ∃ m, Records.Run ∅ [.write 7 [1, 2], .write 7 [3], .read 7 10]
      ((mount ⟨.blank, false⟩ true).2.run [.write 7 [1, 2], .write 7 [3], .read 7 10]).1 m :=
  run_answersAsMap .blank (by decide) (by decide) _

end OxideOS.Disk
