import OxideOS.Disk.StoreMap
import OxideOS.Fs.DiskFs
import OxideOS.Fs.RamTree

/-!
# The views of the record store

A record is visible to programs in four ways: by opening its path, by reading the
opened file, by `stat` and in the listing of `/store`. They agree as long as a
shadow file exists only for records that exist (`Shadowed`). Writing keeps this.
Deleting a record leaves its shadow file behind, and from then on the path can
still be opened.
-/

set_option autoImplicit false

namespace OxideOS.Fs

open Lib Disk

variable {i : Nat}

namespace RamFs

variable {fs : RamFs} {path dir name : List UInt8} {p : Nat}

/-! ## Writing a file -/

theorem splitPath_append (valid : IsName slash name) (inner : dir ≠ []) :
    splitPath (dir ++ slash :: name) = some (dir, name) := by
  obtain ⟨taken, dropped⟩ := @rtakeWhile_append_name _ _ slash name dir valid
  have whole : (dir ++ slash :: name).rdropWhile (· = slash) = dir ++ slash :: name := by
    rw [List.rdropWhile_eq_self_iff]
    intro filled
    have last : (dir ++ slash :: name).getLast filled = name.getLast valid.1 := by
      rw [List.getLast_append_right (List.cons_ne_nil _ _), List.getLast_cons valid.1]
    rw [last]
    simp only [decide_eq_true_eq]
    intro same
    exact valid.2 (same ▸ List.getLast_mem valid.1)
  have long : ¬ (dir ++ slash :: name = [] ∨ dir ++ slash :: name = [slash]) := by
    have positive := List.length_pos_iff.mpr inner
    rintro (none | one)
    · simpa using congrArg List.length none
    · have := congrArg List.length one
      simp only [List.length_append, List.length_cons, List.length_nil] at this
      omega
  simp only [splitPath, whole, if_neg long, taken, dropped]
  obtain ⟨c, rest, rfl⟩ := List.exists_cons_of_ne_nil inner
  cases rest with
  | nil => rfl
  | cons c' rest =>
    show some ((c :: c' :: rest ++ [slash]).dropLast, name) = _
    rw [List.dropLast_concat]

theorem findChild_lt (found : fs.findChild p name = some i) : i < fs.inodes.length :=
  (List.findIdx?_eq_some_iff_getElem.mp found).1

theorem findChild_push (q : Nat) (child : List UInt8) (kind : NodeKind) :
    (fs.push name p kind).findChild q child
      = (fs.findChild q child).or
        (if p = q ∧ name = child then some fs.inodes.length else none) := by
  rw [findChild, push, List.findIdx?_append, ← findChild]
  congr 1
  by_cases own : p = q ∧ name = child
  · simp [own.1, own.2]
  · simp only [List.findIdx?_singleton]
    have : ¬ (p = q ∧ name = child) := own
    simp [this]

theorem isDirAt_push (kind : NodeKind) (inside : i < fs.inodes.length) :
    (fs.push name p kind).isDirAt i = fs.isDirAt i := by
  rw [isDirAt, isDirAt, push, List.getElem?_append_left inside]

/-- Appending to the node at a position. -/
def appendAt (fs : RamFs) (idx : Nat) (data : List UInt8) : RamFs :=
  { fs with inodes := fs.inodes.modify idx fun n => { n with data := n.data ++ data } }

theorem findChild_appendAt (idx : Nat) (data : List UInt8) (q : Nat) (child : List UInt8) :
    (fs.appendAt idx data).findChild q child = fs.findChild q child := by
  rw [appendAt, findChild_modify]
  · exact fun _ => rfl
  · exact fun _ => rfl

theorem isDirAt_appendAt (idx : Nat) (data : List UInt8) (i : Nat) :
    (fs.appendAt idx data).isDirAt i = fs.isDirAt i := by
  rw [appendAt, isDirAt_modify]
  exact fun _ => rfl

theorem appendAt_self {idx : Nat} {n : INode} (data : List UInt8)
    (here : fs.inodes[idx]? = some n) :
    (fs.appendAt idx data).inodes[idx]? = some { n with data := n.data ++ data } := by
  rw [appendAt, List.getElem?_modify_eq, here]
  rfl

/-- Writing a file in a directory: it is there with the data, and nothing else
changes its place or its kind. -/
theorem writeFile_spec (data : List UInt8) (cut : splitPath path = some (dir, name))
    (leads : fs.resolve dir = some p) (isDir : fs.isDirAt p = true)
    (file : ∀ i, fs.findChild p name = some i → fs.isDirAt i = false) :
    (∀ q child, ¬ (q = p ∧ child = name) →
      (fs.writeFile path data).2.findChild q child = fs.findChild q child) ∧
    (∃ i n, (fs.writeFile path data).2.findChild p name = some i ∧
      (fs.writeFile path data).2.inodes[i]? = some n ∧ n.kind = .file ∧ n.data = data) ∧
    (∀ i < fs.inodes.length, (fs.writeFile path data).2.isDirAt i = fs.isDirAt i) := by
  have lookup : fs.resolve path = fs.findChild p name := by
    rw [resolve_splitPath cut, leads, Option.bind_some]
  cases found : fs.findChild p name with
  | some i =>
    have plain := file i found
    have written : (fs.writeFile path data).2 = (fs.setData i []).appendAt i data := by
      simp [writeFile, createFile, lookup, found, plain, appendAt]
    have children : ∀ q child, (fs.setData i []).findChild q child = fs.findChild q child := by
      intro q child
      rw [setData, findChild_modify]
      · exact fun _ => rfl
      · exact fun _ => rfl
    have kinds : ∀ j, (fs.setData i []).isDirAt j = fs.isDirAt j := by
      intro j
      rw [setData, isDirAt_modify]
      exact fun _ => rfl
    obtain ⟨n, here, -, -⟩ := findChild_some found
    have kind : n.kind = .file := by
      cases sort : n.kind with
      | file => rfl
      | directory =>
        rw [isDirAt_iff.mpr ⟨n, here, sort⟩] at plain
        cases plain
    have cleared : (fs.setData i []).inodes[i]? = some { n with data := [] } := by
      rw [setData, List.getElem?_modify_eq, here]
      rfl
    rw [written]
    refine ⟨fun q child _ => ?_, ⟨i, _, ?_, appendAt_self data cleared, kind, rfl⟩, fun j _ => ?_⟩
    · rw [findChild_appendAt, children]
    · rw [findChild_appendAt, children, found]
    · rw [isDirAt_appendAt, kinds]
  | none =>
    have written : (fs.writeFile path data).2
        = (fs.push name p .file).appendAt fs.inodes.length data := by
      simp [writeFile, createFile, lookup, found, create, cut, leads, isDir, appendAt]
    have new : (fs.push name p .file).inodes[fs.inodes.length]?
        = some ⟨name, some p, .file, [], fs.created⟩ := push_getElem?.mpr (.inr ⟨rfl, rfl⟩)
    rw [written]
    refine ⟨fun q child other => ?_, ⟨_, _, ?_, appendAt_self data new, rfl, rfl⟩,
      fun j inside => ?_⟩
    · have apart : ¬ (p = q ∧ name = child) := fun same => other ⟨same.1.symm, same.2.symm⟩
      rw [findChild_appendAt, findChild_push, if_neg apart, Option.or_none]
    · rw [findChild_appendAt, findChild_push, if_pos ⟨rfl, rfl⟩, found, Option.none_or]
    · rw [isDirAt_appendAt, isDirAt_push _ inside]

variable {child : List UInt8}

/-- Creating and writing files and directories is not seen under other names. -/
theorem findChild_create_of_ne (kind : NodeKind)
    (cut : splitPath path = some (dir, name)) (other : name ≠ child) (q : Nat) :
    (fs.create path kind).2.findChild q child = fs.findChild q child := by
  simp only [create, cut]
  split
  · rfl
  split
  · rfl
  · have apart (p : Nat) : ¬ (p = q ∧ name = child) := fun same => other same.2
    rw [findChild_push, if_neg (apart _), Option.or_none]

theorem findChild_createDir_of_ne (cut : splitPath path = some (dir, name))
    (other : name ≠ child) (q : Nat) :
    (fs.createDir path).2.findChild q child = fs.findChild q child := by
  unfold createDir
  split
  · rfl
  · exact findChild_create_of_ne .directory cut other q

theorem findChild_writeFile_of_ne (data : List UInt8)
    (cut : splitPath path = some (dir, name)) (other : name ≠ child) (q : Nat) :
    (fs.writeFile path data).2.findChild q child = fs.findChild q child := by
  have created : (fs.createFile path).2.findChild q child = fs.findChild q child := by
    unfold createFile
    split
    · split
      · rfl
      · rw [setData, findChild_modify]
        · exact fun _ => rfl
        · exact fun _ => rfl
    · exact findChild_create_of_ne .file cut other q
  exact writeFile_rule (P := (·.findChild q child = _)) created fun idx kept =>
    (findChild_appendAt idx data q child).trans kept

theorem isDirAt_writeFile (data : List UInt8) (inside : i < fs.inodes.length) :
    (fs.writeFile path data).2.isDirAt i = fs.isDirAt i := by
  have created : (fs.createFile path).2.isDirAt i = fs.isDirAt i := by
    unfold createFile
    split
    · split
      · rfl
      · rw [setData, isDirAt_modify]
        exact fun _ => rfl
    · unfold create
      split
      · rfl
      split
      · rfl
      split
      · rfl
      · exact isDirAt_push .file inside
  exact writeFile_rule (P := (·.isDirAt i = _)) created fun idx kept =>
    (isDirAt_appendAt idx data i).trans kept

theorem resolve_store : fs.resolve (ascii "/store") = fs.findChild 0 (ascii "store") := by
  rw [resolve_eq_walk]
  exact walk_singleton 0 _

end RamFs

/-! ## Paths of records -/

theorem isName_decimal (id : UInt32) : IsName slash (decimal id) := by
  refine ⟨decimal_ne_nil id, fun member => ?_⟩
  exact absurd (decimal_digit id slash member).1 (by decide)

theorem recordPath_cut (id : UInt32) :
    RamFs.splitPath (recordPath id) = some (ascii "/store", decimal id) :=
  RamFs.splitPath_append (isName_decimal id) (by decide)

theorem recordPath_length (id : UInt32) : 7 < (recordPath id).length := by
  have positive := List.length_pos_iff.mpr (decimal_ne_nil id)
  have front : (ascii "/store").length = 6 := rfl
  rw [recordPath, List.length_append, List.length_cons, front]
  omega

theorem recordPath_ne (id : UInt32) :
    ¬ (recordPath id = ascii "/store" ∨ recordPath id = ascii "/store/") := by
  have long := recordPath_length id
  rintro (same | same) <;> rw [same] at long <;> exact absurd long (by decide)

theorem parseRecordId_recordPath (id : UInt32) : parseRecordId (recordPath id) = some id := by
  have cut : recordPath id = ascii "/store/" ++ decimal id := rfl
  have behind : (ascii "/store/" ++ decimal id).drop 7 = decimal id :=
    List.drop_left' (by decide)
  rw [parseRecordId, cut, if_pos, behind, readDecimal_decimal]
  exact List.isPrefixOf_iff_prefix.mpr (List.prefix_append _ _)

/-! ## Shadow files -/

variable {fs : RamFs} {s : Store}

namespace StoreWorld

/-- The store represents a map, and shadow files are files and exist only for its
records. -/
structure Shadowed (w : StoreWorld) (m : Records) : Prop where
  refines : Refines w.store m
  dir : ∃ p, w.fs.findChild 0 (ascii "store") = some p ∧ w.fs.isDirAt p = true
  files : ∀ {id i}, w.fs.resolve (recordPath id) = some i → w.fs.isDirAt i = false ∧ id ∈ m

variable {w : StoreWorld} {m : Records}

/-- The shadow file of a record is looked up in the directory. -/
theorem resolve_recordPath {p : Nat} (dir : fs.findChild 0 (ascii "store") = some p)
    (id : UInt32) : fs.resolve (recordPath id) = fs.findChild p (decimal id) := by
  rw [RamFs.resolve_splitPath (recordPath_cut id), RamFs.resolve_store, dir, Option.bind_some]

/-- Writing a shadow file of an existing record. -/
theorem Shadowed.writeFile (inv : w.Shadowed m) {id : UInt32} (data : List UInt8)
    (present : id ∈ m) :
    Shadowed ⟨w.store, (w.fs.writeFile (recordPath id) data).2⟩ m ∧
    ∃ i n, (w.fs.writeFile (recordPath id) data).2.resolve (recordPath id) = some i ∧
      (w.fs.writeFile (recordPath id) data).2.inodes[i]? = some n ∧ n.kind = .file ∧
      n.data = data := by
  obtain ⟨p, dir, isDir⟩ := inv.dir
  have leads : w.fs.resolve (ascii "/store") = some p := RamFs.resolve_store.trans dir
  have plain : ∀ i, w.fs.findChild p (decimal id) = some i → w.fs.isDirAt i = false := by
    intro i found
    rw [← resolve_recordPath dir] at found
    exact (inv.files found).1
  obtain ⟨others, ⟨i, n, found, here, kind, content⟩, kinds⟩ :=
    RamFs.writeFile_spec data (recordPath_cut id) leads isDir plain
  have inside := RamFs.isDirAt_lt isDir
  have dir' : (w.fs.writeFile (recordPath id) data).2.findChild 0 (ascii "store") = some p := by
    rw [others 0 (ascii "store"), dir]
    rintro ⟨-, same⟩
    have digits := decimal_digit id 115
    rw [← same] at digits
    exact absurd (digits (by decide)).2 (by decide)
  refine ⟨⟨inv.refines, ⟨p, dir', by rw [kinds p inside, isDir]⟩, fun {id' j} leads' => ?_⟩,
    i, n, by rw [resolve_recordPath dir', found], here, kind, content⟩
  rw [resolve_recordPath dir'] at leads'
  by_cases same : id' = id
  · subst same
    rw [found] at leads'
    cases leads'
    refine ⟨?_, present⟩
    simp [RamFs.isDirAt, here, kind]
  · have apart : ¬ (p = p ∧ decimal id' = decimal id) := fun equal => same (decimal_inj equal.2)
    rw [others p _ apart] at leads'
    have old := leads'
    rw [← resolve_recordPath dir] at old
    rw [kinds j (RamFs.findChild_lt leads')]
    exact inv.files old

/-- What the store holds for a record is what its slot holds: at most 496 bytes. -/
theorem readRecord_eq_lookup (ref : Refines s m) (id : UInt32) :
    readRecord s id recordDataMax = m.lookup id := by
  rw [ref.read]
  cases present : m.lookup id with
  | none => rfl
  | some data =>
    obtain ⟨i, -, held⟩ := (ref.slots.found id data).mp present
    rw [Option.map_some, List.take_of_length_le]
    simp only [Device.record, RecordSlot.record] at held
    split at held
    · cases held
      rw [RecordSlot.take_length]
      exact Nat.min_le_right _ _
    · cases held

/-- Refreshing a record makes its shadow file match it, if it exists. -/
theorem Shadowed.refreshRecord (inv : w.Shadowed m) (id : UInt32) :
    (w.refreshRecord id).Shadowed m ∧ (w.refreshRecord id).store = w.store ∧
    (m.lookup id = none → (w.refreshRecord id).fs.resolve (recordPath id) = none) ∧
    (∀ data, m.lookup id = some data →
      ∃ i n, (w.refreshRecord id).fs.resolve (recordPath id) = some i ∧
      (w.refreshRecord id).fs.inodes[i]? = some n ∧ n.kind = .file ∧ n.data = data) := by
  unfold StoreWorld.refreshRecord
  rw [if_neg (by simp [inv.refines.mounted]), readRecord_eq_lookup inv.refines]
  cases found : m.lookup id with
  | none =>
    refine ⟨inv, rfl, fun _ => ?_, fun data impossible => nomatch impossible⟩
    cases leads : w.fs.resolve (recordPath id) with
    | none => rfl
    | some i => exact absurd (inv.files leads).2 (Finmap.lookup_eq_none.mp found)
  | some data =>
    obtain ⟨after, shadow⟩ := inv.writeFile data (Finmap.mem_of_lookup_eq_some found)
    refine ⟨after, rfl, (fun impossible => nomatch impossible), fun data' same => ?_⟩
    cases same
    exact shadow

/-! ## The views agree -/

/-- The calls look at an existing file as it is: nothing is created, cut or
appended to. -/
def plainFlags (flags : Nat) : Prop :=
  flags &&& oCreat = 0 ∧ flags &&& oTrunc = 0 ∧ flags &&& oAppend = 0

variable {t : FdTable} {flags : Nat}

theorem openFile_missing {path : List UInt8}
    (missing : fs.resolve path = none) (plain : plainFlags flags) :
    t.openFile fs path flags = (enoent, t, fs, none) := by
  simp [FdTable.openFile, missing, plain.1]

theorem openFile_found {path : List UInt8} {fd : Nat}
    (found : fs.resolve path = some i) (plain : plainFlags flags) (free : t.allocFd = some fd) :
    ∃ e : FdEntry, t.openFile fs path flags = ((fd : Int), t.set fd (some e), fs, some i) ∧
      e.backend = .ramFS ∧ e.inodeIdx = i ∧ e.offset = 0 := by
  refine ⟨{ FdEntry.plain .ramFS 0 (opensForWriting flags) with
    inodeIdx := i, offset := 0, append := false }, ?_, rfl, rfl, rfl⟩
  simp [FdTable.openFile, found, plain.2.1, plain.2.2, FdTable.openFile.finish, FdTable.openRam,
    FdTable.place, free]

/-- Opening the path of a record, with a free descriptor at hand. -/
theorem Shadowed.openPath (inv : w.Shadowed m) {fd : Nat} (id : UInt32)
    (plain : plainFlags flags) (free : t.allocFd = some fd) :
    (m.lookup id = none → (w.openPath t (recordPath id) flags).1 = enoent) ∧
    (∀ data, m.lookup id = some data → ∃ e, (w.openPath t (recordPath id) flags).1 = fd ∧
      (w.openPath t (recordPath id) flags).2.1.entries fd = some e ∧ e.backend = .ramFS ∧
      ∀ room, ((w.openPath t (recordPath id) flags).2.2.fs.readEntry e room).2.1
        = data.take room) := by
  obtain ⟨-, -, missing, shadow⟩ := inv.refreshRecord id
  unfold StoreWorld.openPath
  rw [if_neg (recordPath_ne id), parseRecordId_recordPath]
  constructor
  · intro absent
    simp only [openFile_missing (missing absent) plain]
  · intro data present
    obtain ⟨i, n, leads, here, kind, content⟩ := shadow data present
    obtain ⟨e, opened, backend, position, offset⟩ := openFile_found leads plain free
    refine ⟨e, ?_, ?_, backend, fun room => ?_⟩
    · simp only [opened]
    · simp only [opened, FdTable.set_entries, if_true]
    · simp only [opened, RamFs.readEntry, position, here, kind, offset, content]
      simp

theorem Shadowed.statPath (inv : w.Shadowed m) (id : UInt32) :
    w.statPath (recordPath id)
      = match m.lookup id with
        | none => .error (-7)
        | some data => .ok ⟨data.length, false⟩ := by
  unfold StoreWorld.statPath
  rw [if_neg (recordPath_ne id), parseRecordId_recordPath]
  cases found : m.lookup id <;> simp only [readRecord_eq_lookup inv.refines, found]

/-- With enough room every line is written. -/
theorem listLines_eq {room : Nat} {ids : List UInt32} {out : List UInt8}
    (enough : out.length + ids.length * 11 < room) :
    listLines room ids out = out ++ ids.flatMap fun id => decimal id ++ [newline] := by
  induction ids generalizing out with
  | nil => simp [listLines]
  | cons id ids ih =>
    have short := decimal_length id
    rw [List.length_cons] at enough
    have fits : (out ++ decimal id ++ [newline]).length + ids.length * 11 < room := by
      simp only [List.length_append, List.length_singleton]
      omega
    rw [listLines, if_neg (by omega), ih fits, List.flatMap_cons]
    simp only [List.append_assoc]

theorem Shadowed.listStoreRaw (inv : w.Shadowed m) {room : Nat} (enough : 2806 ≤ room)
    (id : UInt32) :
    decimal id ∈ components newline (w.listStoreRaw room) ↔ id ∈ m := by
  have lines : ∀ id, IsName newline (decimal id) := by
    refine fun id => ⟨decimal_ne_nil id, fun member => ?_⟩
    exact absurd (decimal_digit id newline member).1 (by decide)
  have listed := inv.refines.list maxRecords
  generalize ids : listRecords w.store maxRecords = numbers at listed
  obtain _ | _ | _ | _ | ⟨-, once, present, many, all⟩ := listed
  have bound := inv.refines.slots.card_le
  unfold StoreWorld.listStoreRaw
  rw [if_neg (by simp [inv.refines.mounted]), ids, listLines_eq, List.nil_append]
  · have texts : (numbers.flatMap fun id => decimal id ++ [newline])
        = (numbers.map decimal).flatMap fun text => text ++ [newline] := by
      rw [List.flatMap_map]
    rw [texts, components_lines, List.mem_map]
    · constructor
      · rintro ⟨other, member, same⟩
        rw [← decimal_inj same]
        exact present other member
      · intro member
        exact ⟨id, all bound id member, rfl⟩
    · intro text member
      obtain ⟨other, -, rfl⟩ := List.mem_map.mp member
      exact lines other
  · have few : numbers.length ≤ 255 := by
      rw [many]
      exact Nat.min_le_left _ _
    rw [List.length_nil]
    omega

end StoreWorld

/-! ## Runs of the record calls -/

/-- A call of the record store. -/
inductive RecordOp where
  /-- `diskfs::write_record`: the record and its shadow file. -/
  | write (id : UInt32) (data : List UInt8)
  /-- `disk_store::write_record`: the record alone. -/
  | writeDisk (id : UInt32) (data : List UInt8)
  | delete (id : UInt32)

namespace StoreWorld

def step (w : StoreWorld) : RecordOp → StoreWorld
  | .write id data => (w.writeRecord id data).2
  | .writeDisk id data => { w with store := (Disk.writeRecord w.store id data).2 }
  | .delete id => { w with store := (deleteRecord w.store id).2 }

def next (w : StoreWorld) (op : RecordOp) : Option StoreWorld := some (w.step op)

/-- A record is deleted only when it has no shadow file. -/
def Unshadowed (w : StoreWorld) : RecordOp → Prop
  | .delete id => w.fs.resolve (recordPath id) = none
  | _ => True

variable {w : StoreWorld} {m : Records}

/-- A write to the disk keeps every record, and adds the one it succeeds on. -/
theorem Shadowed.writeDisk (inv : w.Shadowed m) (id : UInt32) (data : List UInt8) :
    ∃ m', Shadowed { w with store := (Disk.writeRecord w.store id data).2 } m' ∧
      ((Disk.writeRecord w.store id data).1 = true → id ∈ m') := by
  obtain ⟨m', stepped, ref⟩ := inv.refines.write id data
  generalize result : (Disk.writeRecord w.store id data).1 = ok at stepped
  have grows : (∀ other ∈ m, other ∈ m') ∧ (ok = true → id ∈ m') := by
    obtain ⟨-, -⟩ | ⟨-, -, -⟩ := stepped
    · exact ⟨fun other member => Finmap.mem_insert.mpr (.inr member),
        fun _ => Finmap.mem_insert.mpr (.inl rfl)⟩
    · exact ⟨fun _ member => member, fun impossible => nomatch impossible⟩
  refine ⟨m', ⟨ref, inv.dir, fun leads => ?_⟩, grows.2⟩
  obtain ⟨plain, member⟩ := inv.files leads
  exact ⟨plain, grows.1 _ member⟩

theorem Shadowed.step (inv : w.Shadowed m) {op : RecordOp} (allowed : w.Unshadowed op) :
    ∃ m', (w.step op).Shadowed m' := by
  cases op with
  | write id data =>
    obtain ⟨m', after, present⟩ := inv.writeDisk id data
    rcases written : Disk.writeRecord w.store id data with ⟨ok, store⟩
    rw [written] at after present
    simp only [StoreWorld.step, StoreWorld.writeRecord, written]
    cases ok with
    | false => exact ⟨m', after⟩
    | true => exact ⟨m', (after.writeFile data (present rfl)).1⟩
  | writeDisk id data =>
    obtain ⟨m', after, -⟩ := inv.writeDisk id data
    exact ⟨m', after⟩
  | delete id =>
    obtain ⟨-, ref⟩ := inv.refines.delete id
    refine ⟨m.erase id, ref, inv.dir, fun {other i} leads => ?_⟩
    obtain ⟨plain, member⟩ := inv.files leads
    refine ⟨plain, Finmap.mem_erase.mpr ⟨?_, member⟩⟩
    rintro rfl
    have missing : w.fs.resolve (recordPath other) = none := allowed
    rw [show w.fs.resolve (recordPath other) = some i from leads] at missing
    cases missing

theorem Shadowed.refreshAllRecords (inv : w.Shadowed m) : w.refreshAllRecords.Shadowed m := by
  have each : ∀ (ids : List UInt32) {w : StoreWorld}, w.Shadowed m →
      (ids.foldl StoreWorld.refreshRecord w).Shadowed m := by
    intro ids
    induction ids with
    | nil => exact fun inv => inv
    | cons id ids ih => exact fun inv => ih (inv.refreshRecord id).1
  unfold StoreWorld.refreshAllRecords
  split
  · exact inv
  · exact each _ inv

/-- A directory `/store` that was not there before is empty. -/
theorem shadowed_createDir (ref : Refines s m) (tree : fs.Tree)
    (fresh : fs.findChild 0 (ascii "store") = none) :
    Shadowed ⟨s, (fs.createDir (ascii "/store")).2⟩ m := by
  obtain ⟨r, rootHere, directory, -⟩ := tree.root
  have isRoot := RamFs.isDirAt_iff.mpr ⟨r, rootHere, directory⟩
  have leads : fs.resolve (ascii "/") = some 0 := rfl
  have cut : RamFs.splitPath (ascii "/store") = some (ascii "/", ascii "store") := by decide
  have made : (fs.createDir (ascii "/store")).2 = fs.push (ascii "store") 0 .directory := by
    simp [RamFs.createDir, RamFs.create, RamFs.resolve_store, fresh, cut, leads, isRoot]
  have dir : (fs.push (ascii "store") 0 .directory).findChild 0 (ascii "store")
      = some fs.inodes.length := by
    rw [RamFs.findChild_push, fresh, if_pos ⟨rfl, rfl⟩, Option.none_or]
  have tree' : (fs.push (ascii "store") 0 .directory).Tree :=
    tree.push isRoot fresh ⟨by decide, by decide⟩
  have positive := tree.length_pos
  rw [made]
  refine ⟨ref, ⟨_, dir, ?_⟩, fun {id i} leads' => ?_⟩
  · exact RamFs.isDirAt_iff.mpr ⟨_, RamFs.push_getElem?.mpr (.inr ⟨rfl, rfl⟩), rfl⟩
  · rw [resolve_recordPath dir] at leads'
    obtain ⟨n, here, parent, -⟩ := RamFs.findChild_some leads'
    rcases RamFs.push_getElem?.mp here with old | ⟨-, rfl⟩
    · have isDir := tree.linked.isDirAt_of_findChild (tree.linked.findChild old parent)
      exact absurd (RamFs.isDirAt_lt isDir) (Nat.lt_irrefl _)
    · simp only [Option.some.injEq] at parent
      omega

/-- The world after boot: the file system in memory with the mount points and the
shadow files. -/
def boot (s : Store) (etcVersion info : List UInt8) : StoreWorld :=
  populate ⟨s, .new etcVersion⟩ info

theorem fresh_new (etcVersion : List UInt8) :
    (RamFs.new etcVersion).findChild 0 (ascii "store") = none := by
  unfold RamFs.new
  rw [RamFs.findChild_writeFile_of_ne _ (show RamFs.splitPath (ascii "/etc/motd")
      = some (ascii "/etc", ascii "motd") by decide) (by decide),
    RamFs.findChild_writeFile_of_ne _ (show RamFs.splitPath (ascii "/etc/version")
      = some (ascii "/etc", ascii "version") by decide) (by decide)]
  decide

theorem shadowed_boot (ref : Refines s m) (etcVersion info : List UInt8) :
    (boot s etcVersion info).Shadowed m := by
  have tree := ((RamFs.tree_new etcVersion).createDir (ascii "/disk")).createDir (ascii "/ext2")
  have fresh : (((RamFs.new etcVersion).createDir (ascii "/disk")).2.createDir
      (ascii "/ext2")).2.findChild 0 (ascii "store") = none := by
    rw [RamFs.findChild_createDir_of_ne (show RamFs.splitPath (ascii "/ext2")
        = some (ascii "/", ascii "ext2") by decide) (by decide),
      RamFs.findChild_createDir_of_ne (show RamFs.splitPath (ascii "/disk")
        = some (ascii "/", ascii "disk") by decide) (by decide), fresh_new]
  obtain ⟨-, ⟨p, dir, isDir⟩, files⟩ := shadowed_createDir ref tree fresh
  have cut : RamFs.splitPath (ascii "/diskinfo") = some (ascii "/", ascii "diskinfo") := by decide
  unfold boot populate
  dsimp only at dir isDir files ⊢
  generalize ((((RamFs.new etcVersion).createDir (ascii "/disk")).2.createDir
    (ascii "/ext2")).2.createDir (ascii "/store")).2 = fs at *
  have dir' : (fs.writeFile (ascii "/diskinfo") info).2.findChild 0 (ascii "store") = some p := by
    rw [RamFs.findChild_writeFile_of_ne info cut (by decide), dir]
  refine Shadowed.refreshAllRecords ⟨ref, ⟨p, dir', ?_⟩, fun {id i} leads => ?_⟩
  · rw [RamFs.isDirAt_writeFile info (RamFs.isDirAt_lt isDir), isDir]
  · have other : ascii "diskinfo" ≠ decimal id := by
      intro same
      have digits := decimal_digit id 100
      rw [← same] at digits
      exact absurd (digits (by decide)).2 (by decide)
    rw [resolve_recordPath dir', RamFs.findChild_writeFile_of_ne info cut other] at leads
    rw [RamFs.isDirAt_writeFile info (RamFs.findChild_lt leads)]
    rw [← resolve_recordPath dir] at leads
    exact files leads

/-! ## Main result -/

/-- All views of the record `id` agree with the store. Opening needs a free
descriptor, and the listing a buffer of 2806 bytes, enough for 255 numbers. -/
structure ViewsAgree (w : StoreWorld) (id : UInt32) : Prop where
  /-- The path opens exactly when the record exists. -/
  opens : ∀ (t : FdTable) (flags fd : Nat), plainFlags flags → t.allocFd = some fd →
    (0 ≤ (w.openPath t (recordPath id) flags).1 ↔
      (readRecord w.store id recordDataMax).isSome = true)
  /-- Reading the opened path returns the record. -/
  reads : ∀ (t : FdTable) (flags fd : Nat) (data : List UInt8), plainFlags flags →
    t.allocFd = some fd →
    readRecord w.store id recordDataMax = some data →
    ∃ e, (w.openPath t (recordPath id) flags).1 = fd ∧
      (w.openPath t (recordPath id) flags).2.1.entries fd = some e ∧ e.backend = .ramFS ∧
      ∀ room, ((w.openPath t (recordPath id) flags).2.2.fs.readEntry e room).2.1 = data.take room
  stats : w.statPath (recordPath id)
    = match readRecord w.store id recordDataMax with
      | none => .error (-7)
      | some data => .ok ⟨data.length, false⟩
  lists : ∀ room, 2806 ≤ room →
    (decimal id ∈ components newline (w.listStoreRaw room) ↔
      (readRecord w.store id recordDataMax).isSome = true)

theorem Shadowed.viewsAgree (inv : w.Shadowed m) (id : UInt32) : w.ViewsAgree id := by
  have current := readRecord_eq_lookup inv.refines id
  constructor
  · intro t flags fd plain free
    obtain ⟨missing, found⟩ := inv.openPath id plain free
    rw [current]
    cases present : m.lookup id with
    | none =>
      rw [missing present]
      decide
    | some data =>
      obtain ⟨e, result, -⟩ := found data present
      rw [result]
      simp
  · intro t flags fd data plain free present
    rw [current] at present
    exact (inv.openPath id plain free).2 data present
  · rw [inv.statPath id, current]
  · intro room enough
    rw [inv.listStoreRaw enough id, current, Finmap.lookup_isSome]

/-- After boot with any consistent store, in every run of record writes and
deletions in which only records without a shadow file are deleted, all views of
every record agree. -/
theorem run_viewsAgree (s : Store) (m : Records) (ref : Refines s m) (etcVersion info : List UInt8)
    (ops : List RecordOp) (w : StoreWorld)
    (unshadowed : Along next Unshadowed (boot s etcVersion info) ops)
    (ran : run next (boot s etcVersion info) ops = some w) (id : UInt32) : w.ViewsAgree id := by
  have inv : ∃ m', w.Shadowed m' := by
    refine run_invariant (I := fun w : StoreWorld => ∃ m', w.Shadowed m') ?_
      ⟨m, shadowed_boot ref etcVersion info⟩ unshadowed ran
    rintro w op w' ⟨m', inv⟩ allowed stepped
    cases stepped
    exact inv.step allowed
  obtain ⟨m', inv⟩ := inv
  exact inv.viewsAgree id

/-- Two records are written to the disk of a new store and one is deleted. -/
theorem run_viewsAgree_written :
    ∃ w, run next (boot ⟨format .blank, true⟩ [] [])
        [.writeDisk 7 [1, 2, 3], .writeDisk 8 [4], .delete 7] = some w ∧
      readRecord w.store 7 recordDataMax = none ∧ readRecord w.store 8 recordDataMax = some [4] ∧
      w.ViewsAgree 7 ∧ w.ViewsAgree 8 := by
  have along : ∀ w : StoreWorld, w.fs.resolve (recordPath 7) = none →
      Along next Unshadowed w [.writeDisk 7 [1, 2, 3], .writeDisk 8 [4], .delete 7] := by
    intro w missing
    refine ⟨trivial, fun w₁ first => ⟨trivial, fun w₂ second => ⟨?_, fun _ _ => trivial⟩⟩⟩
    cases first
    cases second
    exact missing
  have agree := run_viewsAgree _ ∅ (refines_format .blank) [] []
    [.writeDisk 7 [1, 2, 3], .writeDisk 8 [4], .delete 7] _ (along _ (by decide +kernel)) rfl
  exact ⟨_, rfl, by decide +kernel, by decide +kernel, agree 7, agree 8⟩

/-- A record is written and deleted; its path can still be opened although `stat`
does not find it. -/
theorem deleted_record_opens :
    ∃ w, run next (boot ⟨format .blank, true⟩ [] []) [.write 7 [1, 2, 3], .delete 7] = some w ∧
      readRecord w.store 7 recordDataMax = none ∧
      (w.openPath .new (recordPath 7) 0).1 = 3 :=
  ⟨_, rfl, by decide +kernel, by decide +kernel⟩

end StoreWorld

end OxideOS.Fs
