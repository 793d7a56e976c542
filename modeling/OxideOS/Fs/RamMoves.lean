import OxideOS.Fs.RamDescriptors
import OxideOS.Fs.RamTree

/-!
# Removing and renaming files of the file system in memory

What is found at a path (`contentAt`) before and after a file is removed or
renamed. Removing a file and correcting the descriptors takes away the one path of
the file and nothing else (`remove_exact`).

`rename` removes what has the new name before it looks at the rest of the request,
and it does not ask whether the new parent is a directory. When both paths lead to
one file the file is lost with an error; when the new parent is the file itself it
is lost without one. In all other cases the call does everything or nothing
(`rename_allOrNothing_iff`).
-/

set_option autoImplicit false

namespace OxideOS.Fs

open Lib

namespace RamFs

variable {fs fs' : RamFs} {idx p : Nat} {name path : List UInt8}

/-! ## What is found at a path -/

/-- Kind and data of the node at a position. -/
def nodeAt (fs : RamFs) (i : Nat) : Option (NodeKind × List UInt8) :=
  (fs.inodes[i]?).map fun n => (n.kind, n.data)

/-- Kind and data of the node that a path leads to. -/
def contentAt (fs : RamFs) (path : List UInt8) : Option (NodeKind × List UInt8) :=
  (fs.resolve path).bind fs.nodeAt

theorem Linked.walk_lt (linked : fs.Linked) {names : List (List UInt8)} {i : Nat}
    (leads : fs.walk 0 names = some i) : i < fs.inodes.length := by
  rcases List.eq_nil_or_concat' names with rfl | ⟨front, last, rfl⟩
  · obtain ⟨r, rootHere, -⟩ := linked.root
    cases leads
    exact (List.getElem?_eq_some_iff.mp rootHere).1
  · obtain ⟨-, n, -, here, -⟩ := walk_concat leads
    exact (List.getElem?_eq_some_iff.mp here).1

/-- At a path that leads somewhere something is found. -/
theorem Linked.contentAt_isSome (linked : fs.Linked) (path : List UInt8) :
    (fs.contentAt path).isSome = (fs.resolve path).isSome := by
  rw [contentAt]
  cases leads : fs.resolve path with
  | none => rfl
  | some i =>
    rw [resolve_eq_walk] at leads
    simp [nodeAt, linked.walk_lt leads]

/-- Two paths lead to one node only if they have the same components. -/
theorem Linked.resolve_inj (linked : fs.Linked) {q : List UInt8} {i : Nat}
    (leads : fs.resolve path = some i) :
    fs.resolve q = some i ↔ components slash q = components slash path := by
  rw [resolve_eq_walk] at leads
  rw [resolve_eq_walk]
  constructor
  · intro leads'
    exact linked.walk_inj leads' leads
  · intro same
    rw [same, leads]

/-! ## Removal -/

theorem nodeAt_removeAt {i : Nat} (other : i ≠ idx) :
    (fs.removeAt idx).nodeAt (down idx i) = fs.nodeAt i := by
  rw [nodeAt, removeAt_getElem?, up_down other, nodeAt]
  cases fs.inodes[i]? <;> rfl

/-- When the file at a path is gone nothing is found there, and elsewhere what was
found before. -/
theorem Linked.contentAt_removeAt (linked : fs.Linked) (file : fs.isDirAt idx = false)
    (leads : fs.resolve path = some idx) (q : List UInt8) :
    (fs.removeAt idx).contentAt q =
      if components slash q = components slash path then none else fs.contentAt q := by
  rw [contentAt, linked.resolve_removeAt file, contentAt]
  split
  · next same =>
      rw [(linked.resolve_inj leads).mpr same, Option.bind_some, if_pos rfl, Option.bind_none]
  · next apart =>
      cases found : fs.resolve q with
      | none => rfl
      | some i =>
        have other : i ≠ idx := by
          rintro rfl
          exact apart ((linked.resolve_inj leads).mp found)
        rw [Option.bind_some, if_neg other, Option.bind_some, nodeAt_removeAt other]
        rfl

theorem removeFile_ok {removed : Nat} (answer : fs.removeFile path = (.ok removed, fs')) :
    fs.resolve path = some removed ∧ fs.isDirAt removed = false ∧ fs' = fs.removeAt removed := by
  unfold removeFile at answer
  split at answer
  · cases answer
  · next i leads =>
      split at answer
      · cases answer
      · next file =>
          cases answer
          exact ⟨leads, by simpa using file, rfl⟩

/-- **Removing a file takes away its path and nothing else.** Every other path
leads to a node with the kind and data it had, and every descriptor of a node that
is left refers to a node with the kind and data it had, with nothing else in the
descriptor changed. The links need not be known to be free of cycles. -/
theorem remove_exact {removed : Nat} (linked : fs.Linked)
    (answer : fs.removeFile path = (.ok removed, fs')) :
    (∀ q, components slash q = components slash path → fs'.resolve q = none) ∧
    (∀ q, components slash q ≠ components slash path →
      (fs'.resolve q).isSome = (fs.resolve q).isSome ∧ fs'.contentAt q = fs.contentAt q) ∧
    ∀ (t : FdTable) (fd : Nat) (e : FdEntry), t.entries fd = some e → e.backend = .ramFS →
      e.inodeIdx ≠ removed →
      ∃ i, (t.onInodeRemoved removed).entries fd = some { e with inodeIdx := i } ∧
        fs'.nodeAt i = fs.nodeAt e.inodeIdx := by
  obtain ⟨leads, file, rfl⟩ := removeFile_ok answer
  have linked' := linked.removeAt file
  have found := linked.contentAt_removeAt file leads
  refine ⟨fun q same => ?_, fun q apart => ?_, fun t fd e here ram other => ?_⟩
  · rw [linked.resolve_removeAt file, (linked.resolve_inj leads).mpr same, Option.bind_some,
      if_pos rfl]
  · have kept : (fs.removeAt removed).contentAt q = fs.contentAt q := by rw [found, if_neg apart]
    exact ⟨by rw [← linked'.contentAt_isSome, kept, linked.contentAt_isSome], kept⟩
  · refine ⟨down removed e.inodeIdx, ?_, nodeAt_removeAt other⟩
    rw [FdTable.onInodeRemoved_entries here ram, if_neg other, down]
    split <;> rfl

theorem remove_exact_motd :
    ∃ fs', (RamFs.new []).removeFile (ascii "/etc/motd") = (.ok 7, fs') ∧
      fs'.resolve (ascii "/etc//motd") = none ∧
      fs'.contentAt (ascii "/etc/hostname") = (RamFs.new []).contentAt (ascii "/etc/hostname") := by
  have answer : (RamFs.new []).removeFile (ascii "/etc/motd") =
      (.ok 7, (RamFs.new []).removeAt 7) := by decide +kernel
  obtain ⟨gone, others, -⟩ := remove_exact (tree_new []).linked answer
  exact ⟨_, answer, gone _ (by decide +kernel), (others _ (by decide +kernel)).2⟩

/-! ## A new name and a new parent -/

theorem moved_getElem? (i : Nat) :
    (fs.moved idx name p).inodes[i]? =
      (fs.inodes[i]?).map fun n =>
        if idx = i then { n with name := name, parentIdx := some p } else n := by
  rw [moved, List.getElem?_modify]
  rfl

theorem nodeAt_moved (i : Nat) : (fs.moved idx name p).nodeAt i = fs.nodeAt i := by
  rw [nodeAt, moved_getElem?, nodeAt]
  cases fs.inodes[i]? with
  | none => rfl
  | some n =>
    simp only [Option.map_some]
    split <;> rfl

theorem moved_of_ne {i : Nat} (other : i ≠ idx) :
    (fs.moved idx name p).inodes[i]? = fs.inodes[i]? := by
  rw [moved_getElem?]
  simp [Ne.symm other]

/-- The file is found under its new name and no more under its old one; other
children are found as before. -/
theorem Linked.findChild_moved (linked : fs.Linked) (inside : idx < fs.inodes.length)
    (fresh : fs.findChild p name = none) (q : Nat) (child : List UInt8) :
    (fs.moved idx name p).findChild q child =
      if q = p ∧ child = name then some idx
      else (fs.findChild q child).bind fun i => if i = idx then none else some i := by
  have only : ∀ {i : Nat} {n' : INode}, (fs.moved idx name p).inodes[i]? = some n' →
      n'.parentIdx = some q → n'.name = child →
      (i = idx ∧ q = p ∧ child = name) ∨ (i ≠ idx ∧ fs.findChild q child = some i) := by
    rintro i n' here parent rfl
    rcases moved_some here with ⟨other, old⟩ | ⟨rfl, named, link, -⟩
    · exact .inr ⟨other, linked.findChild old parent⟩
    · rw [link] at parent
      cases parent
      exact .inl ⟨rfl, rfl, named⟩
  cases after : (fs.moved idx name p).findChild q child with
  | none =>
    have absent := findChild_none.mp after
    split
    · next target =>
        obtain ⟨rfl, rfl⟩ := target
        have here : (fs.moved idx child q).inodes[idx]? =
            some { fs.inodes[idx] with name := child, parentIdx := some q } := by
          rw [moved_getElem?, List.getElem?_eq_getElem inside]
          simp
        exact absurd rfl (absent idx _ here rfl)
    · cases found : fs.findChild q child with
      | none => rfl
      | some i =>
        by_cases same : i = idx
        · rw [Option.bind_some, if_pos same]
        · obtain ⟨n, here, parent, named⟩ := findChild_some found
          rw [← moved_of_ne same] at here
          exact absurd named (absent i n here parent)
  | some i =>
    obtain ⟨n', here, parent, named⟩ := findChild_some after
    rcases only here parent named with ⟨rfl, target⟩ | ⟨other, found⟩
    · rw [if_pos target]
    · have elsewhere : ¬(q = p ∧ child = name) := by
        rintro ⟨rfl, rfl⟩
        rw [fresh] at found
        cases found
      rw [if_neg elsewhere, found, Option.bind_some, if_neg other]

/-- A file has no children. -/
theorem Linked.findChild_file (linked : fs.Linked) (file : fs.isDirAt idx = false)
    (child : List UInt8) : fs.findChild idx child = none := by
  cases found : fs.findChild idx child with
  | none => rfl
  | some i =>
    have isDir := linked.isDirAt_of_findChild found
    rw [file] at isDir
    cases isDir

/-- The file is reached by the new names, unless it is its own parent now. -/
theorem Linked.walk_moved (linked : fs.Linked) (file : fs.isDirAt idx = false)
    (inside : idx < fs.inodes.length) (fresh : fs.findChild p name = none)
    {front : List (List UInt8)} (leads : fs.walk 0 front = some p) (names : List (List UInt8)) :
    (fs.moved idx name p).walk 0 names =
      if p ≠ idx ∧ names = front ++ [name] then some idx
      else (fs.walk 0 names).bind fun i => if i = idx then none else some i := by
  induction names using List.reverseRecOn with
  | nil =>
    have notRoot := (linked.file_ne_root file).symm
    simp [walk, notRoot]
  | append_singleton before last ih =>
    rw [walk_append, ih, walk_append]
    simp only [walk_singleton]
    by_cases arrived : p ≠ idx ∧ before = front ++ [name]
    · obtain ⟨apart, rfl⟩ := arrived
      have away : ¬(idx = p ∧ last = name) := fun same => apart same.1.symm
      have longer : ¬(p ≠ idx ∧ front ++ [name] ++ [last] = front ++ [name]) := by simp
      rw [if_pos ⟨apart, rfl⟩, Option.bind_some, linked.findChild_moved inside fresh, if_neg away,
        linked.findChild_file file, if_neg longer, walk_append, leads, Option.bind_some,
        walk_singleton, fresh]
      rfl
    · rw [if_neg arrived]
      have ends : before ++ [last] = front ++ [name] ↔ before = front ∧ last = name := by
        rw [List.append_singleton_inj]
      cases reached : fs.walk 0 before with
      | none =>
        have elsewhere : ¬(p ≠ idx ∧ before ++ [last] = front ++ [name]) := by
          rintro ⟨-, same⟩
          rw [(ends.mp same).1, leads] at reached
          cases reached
        rw [if_neg elsewhere]
        rfl
      | some q =>
        have here : before = front ↔ q = p := by
          constructor
          · rintro rfl
            exact Option.some.inj (reached.symm.trans leads)
          · rintro rfl
            exact linked.walk_inj reached leads
        by_cases stuck : q = idx
        · have elsewhere : ¬(p ≠ idx ∧ before ++ [last] = front ++ [name]) := by
            rintro ⟨apart, same⟩
            exact apart ((here.mp (ends.mp same).1).symm.trans stuck)
          rw [if_neg elsewhere, Option.bind_some, if_pos stuck, stuck, Option.bind_some,
            linked.findChild_file file]
          rfl
        · have both : before ++ [last] = front ++ [name] ↔ q = p ∧ last = name := by
            rw [ends, here]
          rw [Option.bind_some, if_neg stuck, Option.bind_some, Option.bind_some,
            linked.findChild_moved inside fresh]
          by_cases target : q = p ∧ last = name
          · have apart : p ≠ idx := by
              rintro rfl
              exact stuck target.1
            rw [if_pos target, if_pos ⟨apart, both.mpr target⟩]
          · rw [if_neg target, if_neg fun arrives => target (both.mp arrives.2)]

/-! ## Renaming -/

/-- What a successful `rename` is to do: the content is at the new path, the old one
leads nowhere, and nothing else has changed. -/
structure Renamed (fs fs' : RamFs) (oldPath newPath : List UInt8) : Prop where
  found : fs'.contentAt newPath = fs.contentAt oldPath
  gone : components slash oldPath ≠ components slash newPath → fs'.resolve oldPath = none
  others : ∀ q, components slash q ≠ components slash oldPath →
    components slash q ≠ components slash newPath → fs'.contentAt q = fs.contentAt q

/-- `rename` does everything when it succeeds and nothing when it fails. -/
def AllOrNothing (fs : RamFs) (oldPath newPath : List UInt8) : Prop :=
  match fs.rename oldPath newPath with
  | (.ok _, fs') => Renamed fs fs' oldPath newPath
  | (.error _, fs') => ∀ q, fs'.contentAt q = fs.contentAt q

/-- The old path leads to a file, and so does the new path or its directory part. -/
def Entangled (fs : RamFs) (oldPath newPath : List UInt8) : Prop :=
  ∃ idx, fs.resolve oldPath = some idx ∧ fs.isDirAt idx = false ∧
    (fs.resolve newPath = some idx ∨
      ∃ dir name, splitPath newPath = some (dir, name) ∧ fs.resolve dir = some idx)

section Rename

variable {oldPath newPath dir : List UInt8}

theorem splitPath_none (cut : splitPath path = none) : components slash path = [] := by
  rw [← components_rdropWhile]
  simp only [splitPath] at cut
  split at cut
  · next root =>
      rcases root with bare | bare
      · rw [bare]
        rfl
      · rw [bare]
        rfl
  · split at cut <;> cases cut

/-- When nothing is in the way `rename` fails for want of a parent, with no effect,
or it moves the file. -/
theorem renameInto_cases (newPath : List UInt8) (found : fs.resolve oldPath = some idx) :
    (∃ e, fs.renameInto oldPath newPath = (.error e, fs) ∧
      ∀ dir name, splitPath newPath = some (dir, name) → fs.resolve dir = none) ∨
    ∃ dir name p, splitPath newPath = some (dir, name) ∧ fs.resolve dir = some p ∧
      fs.renameInto oldPath newPath = (.ok (), fs.moved idx name p) := by
  simp only [renameInto, found, newParent_eq]
  cases cut : splitPath newPath with
  | none =>
    refine .inl ⟨_, rfl, ?_⟩
    rintro dir name ⟨⟩
  | some parts =>
    obtain ⟨dir, name⟩ := parts
    cases leads : fs.resolve dir with
    | none =>
      refine .inl ⟨enoent, by simp only [leads], ?_⟩
      rintro _ _ ⟨⟩
      exact leads
    | some p =>
      refine .inr ⟨dir, name, p, rfl, leads, ?_⟩
      simp only [leads]
      rfl

theorem rename_of_file (found : fs.resolve oldPath = some idx) (file : fs.isDirAt idx = false) :
    fs.rename oldPath newPath =
      match fs.resolve newPath with
      | none => fs.renameInto oldPath newPath
      | some j =>
        if fs.isDirAt j then (.error eisdir, fs)
        else (fs.removeAt j).renameInto oldPath newPath := by
  simp only [rename, found, file]
  cases present : fs.resolve newPath with
  | none => rfl
  | some j =>
    simp only [removeFile, present]
    by_cases isDir : fs.isDirAt j = true
    · simp [isDir]
    · simp [isDir]

section

variable (linked : fs.Linked) (file : fs.isDirAt idx = false)
include linked file

/-- A file that moves to a place that is free, and not below itself, is renamed. -/
theorem Linked.moved_renamed
    (found : fs.resolve oldPath = some idx) (absent : fs.resolve newPath = none)
    (cut : splitPath newPath = some (dir, name)) (leads : fs.resolve dir = some p)
    (apart : p ≠ idx) : Renamed fs (fs.moved idx name p) oldPath newPath := by
  have fresh : fs.findChild p name = none := by
    rwa [resolve_splitPath cut, leads, Option.bind_some] at absent
  have inside : idx < fs.inodes.length := by
    rw [resolve_eq_walk] at found
    exact linked.walk_lt found
  have resolved : ∀ q, (fs.moved idx name p).resolve q =
      if components slash q = components slash newPath then some idx
      else (fs.resolve q).bind fun i => if i = idx then none else some i := by
    intro q
    rw [resolve_eq_walk] at leads
    rw [resolve_eq_walk, linked.walk_moved file inside fresh leads, resolve_eq_walk,
      (splitPath_components cut).1]
    simp only [apart, ne_eq, not_false_eq_true, true_and]
  constructor
  · rw [contentAt, resolved, if_pos rfl, Option.bind_some, nodeAt_moved, contentAt, found]
    rfl
  · intro different
    rw [resolved, if_neg different, found, Option.bind_some, if_pos rfl]
  · intro q notOld notNew
    rw [contentAt, resolved, if_neg notNew, contentAt]
    cases reached : fs.resolve q with
    | none => rfl
    | some i =>
      have other : i ≠ idx := by
        rintro rfl
        exact notOld ((linked.resolve_inj found).mp reached)
      rw [Option.bind_some, if_neg other, Option.bind_some, nodeAt_moved]
      rfl

/-- The file is its own parent now: nothing is found at the new path. -/
theorem Linked.contentAt_moved_self
    (cut : splitPath newPath = some (dir, name)) (leads : fs.resolve dir = some idx) :
    (fs.moved idx name idx).contentAt newPath = none := by
  have fresh := linked.findChild_file file name
  rw [resolve_eq_walk] at leads
  have lost : (fs.moved idx name idx).resolve newPath = none := by
    rw [resolve_eq_walk, linked.walk_moved file (linked.walk_lt leads) fresh leads,
      (splitPath_components cut).1, walk_append, leads, Option.bind_some, walk_singleton, fresh]
    simp
  rw [contentAt, lost, Option.bind_none]

/-- A file that has the new name is replaced. -/
theorem Linked.replaced {j : Nat}
    (found : fs.resolve oldPath = some idx) (target : fs.isDirAt j = false)
    (present : fs.resolve newPath = some j) (apart : idx ≠ j) :
    ∃ fs', (fs.removeAt j).renameInto oldPath newPath = (.ok (), fs') ∧
      Renamed fs fs' oldPath newPath := by
  have linked' := linked.removeAt target
  have found' : (fs.removeAt j).resolve oldPath = some (down j idx) := by
    rw [linked.resolve_removeAt target, found, Option.bind_some, if_neg apart]
  have absent : (fs.removeAt j).resolve newPath = none := by
    rw [linked.resolve_removeAt target, present, Option.bind_some, if_pos rfl]
  have different : components slash oldPath ≠ components slash newPath := by
    intro same
    exact apart (Option.some.inj (found.symm.trans ((linked.resolve_inj present).mpr same)))
  rcases renameInto_cases newPath found' with ⟨e, -, orphan⟩ | ⟨dir, name, p, cut, leads, answer⟩
  · cases cut : splitPath newPath with
    | none =>
      have root : fs.resolve newPath = some 0 := by rw [resolve_eq_walk, splitPath_none cut]; rfl
      rw [root] at present
      exact absurd (Option.some.inj present).symm (linked.file_ne_root target)
    | some parts =>
      obtain ⟨dir, name⟩ := parts
      rw [resolve_splitPath cut] at present
      obtain ⟨q, leads, child⟩ := Option.bind_eq_some_iff.mp present
      have other : q ≠ j := by
        rintro rfl
        rw [linked.findChild_file target] at child
        cases child
      have still := orphan dir name cut
      rw [linked.resolve_removeAt target, leads, Option.bind_some, if_neg other] at still
      cases still
  · have notSelf : p ≠ down j idx := by
      rintro rfl
      rw [linked.resolve_removeAt target] at leads
      obtain ⟨q, leads, kept⟩ := Option.bind_eq_some_iff.mp leads
      split at kept
      · cases kept
      · next other =>
          have same : q = idx := down_inj other apart (Option.some.inj kept)
          rw [resolve_splitPath cut, leads, Option.bind_some, same,
            linked.findChild_file file] at present
          cases present
    have renamed := linked'.moved_renamed (by rwa [isDirAt_removeAt apart]) found' absent cut leads
      notSelf
    have before := linked.contentAt_removeAt target present
    refine ⟨_, answer, ⟨?_, renamed.gone, fun q notOld notNew => ?_⟩⟩
    · rw [renamed.found, before, if_neg different]
    · rw [renamed.others q notOld notNew, before, if_neg notNew]

end

/-- **Renaming does everything or nothing** exactly when the old path leads to no
file, or neither the new path nor its directory part leads to that file. -/
theorem rename_allOrNothing_iff (linked : fs.Linked) (oldPath newPath : List UInt8) :
    AllOrNothing fs oldPath newPath ↔ ¬Entangled fs oldPath newPath := by
  constructor
  · rintro holds ⟨idx, found, file, tangled⟩
    have something : fs.contentAt oldPath ≠ none := by
      rw [← Option.isSome_iff_ne_none, linked.contentAt_isSome, found]
      rfl
    rcases tangled with leads | ⟨dir, name, cut, leads⟩
    · have lost : (fs.removeAt idx).resolve oldPath = none := by
        rw [linked.resolve_removeAt file, found, Option.bind_some, if_pos rfl]
      have answer : fs.rename oldPath newPath = (.error enoent, fs.removeAt idx) := by
        simp [rename_of_file found file, leads, file, renameInto, lost]
      simp only [AllOrNothing, answer] at holds
      have gone := holds oldPath
      rw [linked.contentAt_removeAt file found, if_pos rfl] at gone
      exact something gone.symm
    · have absent : fs.resolve newPath = none := by
        rw [resolve_splitPath cut, leads, Option.bind_some, linked.findChild_file file]
      have answer : fs.rename oldPath newPath = (.ok (), fs.moved idx name idx) := by
        rw [rename_of_file found file, absent]
        rcases renameInto_cases newPath found with
          ⟨e, -, orphan⟩ | ⟨dir', name', p, cut', leads', moves⟩
        · rw [orphan dir name cut] at leads
          cases leads
        · rw [cut] at cut'
          cases cut'
          rw [leads] at leads'
          cases leads'
          exact moves
      simp only [AllOrNothing, answer] at holds
      rw [← holds.found, linked.contentAt_moved_self file cut leads] at something
      exact something rfl
  · intro free
    unfold AllOrNothing
    cases found : fs.resolve oldPath with
    | none => simp [rename, found]
    | some idx =>
      by_cases isDir : fs.isDirAt idx = true
      · simp [rename, found, isDir]
      have file : fs.isDirAt idx = false := by simpa using isDir
      rw [rename_of_file found file]
      cases present : fs.resolve newPath with
      | none =>
        rcases renameInto_cases newPath found with
          ⟨e, answer, -⟩ | ⟨dir, name, p, cut, leads, answer⟩
        · simp only [answer]
          exact fun q => trivial
        · simp only [answer]
          refine linked.moved_renamed file found present cut leads ?_
          rintro rfl
          exact free ⟨p, found, file, .inr ⟨dir, name, cut, leads⟩⟩
      | some j =>
        by_cases target : fs.isDirAt j = true
        · simp [target]
        · have apart : idx ≠ j := by
            rintro rfl
            exact free ⟨idx, found, file, .inl present⟩
          obtain ⟨fs', answer, renamed⟩ :=
            linked.replaced file found (by simpa using target) present apart
          simp only [target, answer]
          exact renamed

/-- A file that moves to another directory is not entangled with its new place. -/
theorem rename_allOrNothing_iff_motd :
    (RamFs.new []).resolve (ascii "/etc/motd") = some 7 ∧
      AllOrNothing (RamFs.new []) (ascii "/etc/motd") (ascii "/tmp/motd") := by
  have source : (RamFs.new []).resolve (ascii "/etc/motd") = some 7 := by decide +kernel
  refine ⟨source, (rename_allOrNothing_iff (tree_new []).linked _ _).mpr ?_⟩
  rintro ⟨idx, found, -, tangled⟩
  rw [source] at found
  cases found
  rcases tangled with leads | ⟨dir, name, cut, leads⟩
  · exact absurd leads (by decide +kernel)
  · have parts : splitPath (ascii "/tmp/motd") = some (ascii "/tmp", ascii "motd") := by
      decide +kernel
    rw [parts] at cut
    cases cut
    exact absurd leads (by decide +kernel)

/-- A file renamed to the name it has is lost, and the call fails. -/
theorem rename_to_itself :
    ∃ fs', (RamFs.new []).rename (ascii "/etc/motd") (ascii "/etc/motd") = (.error enoent, fs') ∧
      fs'.contentAt (ascii "/etc/motd") = none ∧
      ((RamFs.new []).contentAt (ascii "/etc/motd")).isSome = true ∧
      ¬AllOrNothing (RamFs.new []) (ascii "/etc/motd") (ascii "/etc/motd") := by
  have answer : (RamFs.new []).rename (ascii "/etc/motd") (ascii "/etc/motd") =
      (.error enoent, (RamFs.new []).removeAt 7) := by decide +kernel
  have gone : ((RamFs.new []).removeAt 7).contentAt (ascii "/etc/motd") = none := by decide +kernel
  have before : ((RamFs.new []).contentAt (ascii "/etc/motd")).isSome = true := by decide +kernel
  refine ⟨_, answer, gone, before, fun holds => ?_⟩
  simp only [AllOrNothing, answer] at holds
  rw [← holds (ascii "/etc/motd"), gone] at before
  cases before

end Rename

end RamFs

end OxideOS.Fs
