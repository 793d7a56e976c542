import OxideOS.Fs.RamFs
import OxideOS.Lib.Run
import Mathlib.Logic.Function.Iterate

/-!
# The file system in memory is a tree

`Tree` says that the nodes form a tree of directories with files at its leaves:
every parent link leads to a directory, siblings have different names, and a
directory comes after its parent in the list. Creating and removing keep the
tree. Renaming keeps it when the new name is to be in a directory; the code does
not check that, so a file can become the parent of a file, or of itself.
-/

set_option autoImplicit false

namespace OxideOS.Fs

open Lib

namespace RamFs

/-! ## Lookup -/

variable {fs : RamFs} {path : List UInt8}

theorem walk_append (start : Nat) (names more : List (List UInt8)) :
    fs.walk start (names ++ more) = (fs.walk start names).bind fun i => fs.walk i more := by
  induction names generalizing start with
  | nil => rfl
  | cons name names ih =>
    rw [List.cons_append, walk, walk]
    cases fs.findChild start name with
    | none => rfl
    | some next => exact ih next

theorem walk_singleton (start : Nat) (name : List UInt8) :
    fs.walk start [name] = fs.findChild start name := by
  rw [walk]
  cases fs.findChild start name <;> rfl

/-- The node of a path is found by following its components from the root. -/
theorem resolve_eq_walk : fs.resolve path = fs.walk 0 (components slash path) := by
  unfold resolve
  split
  · next root =>
      rcases root with rfl | rfl <;> rfl
  · cases path with
    | nil => rfl
    | cons c rest =>
      by_cases same : c = slash
      · rw [same, components_sep_cons]
        simp
      · simp [same]

variable {name newPath : List UInt8}

/-- The two parts of a path: the components of the directory, and the last name. -/
theorem splitPath_components {dir : List UInt8} (cut : splitPath path = some (dir, name)) :
    components slash path = components slash dir ++ [name] ∧ IsName slash name := by
  rw [← components_rdropWhile]
  simp only [splitPath] at cut
  split at cut
  · cases cut
  next filled =>
  have filled : path.rdropWhile (· = slash) ≠ [] := fun empty => filled (.inl empty)
  have ends := List.rdropWhile_last_not (fun c => decide (c = slash)) path filled
  generalize path.rdropWhile (· = slash) = whole at *
  have valid : IsName slash (whole.rtakeWhile (· ≠ slash)) :=
    isName_rtakeWhile filled (by simpa using ends)
  rw [components_split, components_of_isName valid]
  rcases @rdropWhile_eq_nil_or_concat _ _ slash whole with none | ⟨front, ended⟩
  · rw [none] at cut ⊢
    cases cut
    exact ⟨rfl, valid⟩
  · split at cut
    · next empty =>
        cases cut
        rw [empty]
        exact ⟨rfl, valid⟩
    · next c single =>
        cases cut
        rw [ended] at single ⊢
        cases front with
        | nil => exact ⟨rfl, valid⟩
        | cons c' front => simp at single
    · cases cut
      rw [components_dropLast_rdropWhile]
      exact ⟨rfl, valid⟩

variable {p i : Nat}

theorem findChild_some (found : fs.findChild p name = some i) :
    ∃ n, fs.inodes[i]? = some n ∧ n.parentIdx = some p ∧ n.name = name := by
  obtain ⟨inside, test, -⟩ := List.findIdx?_eq_some_iff_getElem.mp found
  refine ⟨_, List.getElem?_eq_getElem inside, ?_⟩
  simpa using test

theorem findChild_none :
    fs.findChild p name = none ↔
      ∀ (i : Nat) (n : INode), fs.inodes[i]? = some n → n.parentIdx = some p → n.name ≠ name := by
  rw [findChild, List.findIdx?_eq_none_iff]
  constructor
  · intro fails i n here parent named
    have := fails n (List.mem_of_getElem? here)
    simp [parent, named] at this
  · intro none n member
    obtain ⟨i, here⟩ := List.mem_iff_getElem?.mp member
    have apart := none i n here
    simp only [Bool.and_eq_false_iff, beq_eq_false_iff_ne]
    by_cases parent : n.parentIdx = some p
    · exact .inr (apart parent)
    · exact .inl parent

/-! ## The tree -/

/-- The nodes form a tree of directories with files at its leaves. -/
structure Tree (fs : RamFs) : Prop where
  root : ∃ n, fs.inodes[0]? = some n ∧ n.kind = .directory ∧ n.parentIdx = none
  parent : ∀ {i : Nat} {n : INode}, i ≠ 0 → fs.inodes[i]? = some n →
    ∃ p, n.parentIdx = some p ∧ fs.isDirAt p = true ∧ (n.kind = .directory → p < i)
  unique : ∀ {i j : Nat} {n m : INode} {p : Nat}, fs.inodes[i]? = some n → fs.inodes[j]? = some m →
    n.parentIdx = some p → m.parentIdx = some p → n.name = m.name → i = j
  named : ∀ {i : Nat} {n : INode}, i ≠ 0 → fs.inodes[i]? = some n → IsName slash n.name

/-- What the lookup of names rests on: parent links lead to directories, and
siblings have different names. -/
structure Linked (fs : RamFs) : Prop where
  root : ∃ n, fs.inodes[0]? = some n ∧ n.kind = .directory ∧ n.parentIdx = none
  parent : ∀ {i : Nat} {n : INode}, i ≠ 0 → fs.inodes[i]? = some n →
    ∃ p, n.parentIdx = some p ∧ fs.isDirAt p = true
  unique : ∀ {i j : Nat} {n m : INode} {p : Nat}, fs.inodes[i]? = some n → fs.inodes[j]? = some m →
    n.parentIdx = some p → m.parentIdx = some p → n.name = m.name → i = j

theorem Tree.linked (tree : fs.Tree) : fs.Linked where
  root := tree.root
  parent other here := by
    obtain ⟨p, link, isDir, -⟩ := tree.parent other here
    exact ⟨p, link, isDir⟩
  unique := tree.unique

theorem isDirAt_iff :
    fs.isDirAt i = true ↔ ∃ n, fs.inodes[i]? = some n ∧ n.kind = .directory := by
  rw [isDirAt]
  cases fs.inodes[i]? with
  | none => simp
  | some n => simp

variable {n : INode}

/-- In a tree a child is found by its name. -/
theorem Linked.findChild (linked : fs.Linked) (here : fs.inodes[i]? = some n)
    (parent : n.parentIdx = some p) : fs.findChild p n.name = some i := by
  cases found : fs.findChild p n.name with
  | none => exact absurd rfl (findChild_none.mp found i n here parent)
  | some j =>
    obtain ⟨m, there, parent', named⟩ := findChild_some found
    rw [linked.unique here there parent parent' named.symm]

/-- The root is nobody's child. -/
theorem Linked.root_orphan (linked : fs.Linked) (here : fs.inodes[0]? = some n) :
    n.parentIdx ≠ some p := by
  obtain ⟨r, rootHere, -, orphan⟩ := linked.root
  rw [rootHere] at here
  cases here
  rw [orphan]
  exact nofun

/-- The parent of a node that a name leads to is a directory. -/
theorem Linked.isDirAt_of_findChild (linked : fs.Linked)
    (found : fs.findChild p name = some i) : fs.isDirAt p = true := by
  obtain ⟨n, here, parent, -⟩ := findChild_some found
  have notRoot : i ≠ 0 := by
    rintro rfl
    exact linked.root_orphan here parent
  obtain ⟨q, parent', isDir⟩ := linked.parent notRoot here
  rw [parent] at parent'
  cases parent'
  exact isDir

/-! ## Every node has one path -/

/-- Induction over the nodes of a tree: from the root, and from parent to child. -/
theorem Tree.induction (tree : fs.Tree) {P : Nat → Prop} (root : P 0)
    (child : ∀ {i p : Nat} {n : INode}, fs.inodes[i]? = some n → n.parentIdx = some p → P p → P i)
    (inside : i < fs.inodes.length) : P i := by
  have directories : ∀ i, fs.isDirAt i = true → P i := by
    intro i
    induction i using Nat.strong_induction_on with
    | _ i ih =>
      intro isDir
      by_cases start : i = 0
      · rw [start]
        exact root
      · obtain ⟨n, here, directory⟩ := isDirAt_iff.mp isDir
        obtain ⟨p, parent, isDir', before⟩ := tree.parent start here
        exact child here parent (ih p (before directory) isDir')
  by_cases start : i = 0
  · rw [start]
    exact root
  · have here := List.getElem?_eq_getElem inside
    obtain ⟨p, parent, isDir, -⟩ := tree.parent start here
    exact child here parent (directories p isDir)

/-- Where the parent link of a node leads; the root stays where it is. -/
def parentOf (fs : RamFs) (i : Nat) : Nat := ((fs.inodes[i]?).bind INode.parentIdx).getD 0

/-- From every node the parent links lead to the root. -/
theorem Tree.reaches (tree : fs.Tree) (inside : i < fs.inodes.length) :
    ∃ k, fs.parentOf^[k] i = 0 := by
  refine tree.induction (P := fun i => ∃ k, fs.parentOf^[k] i = 0) ⟨0, rfl⟩ ?_ inside
  rintro i p n here parent ⟨k, reached⟩
  have up : fs.parentOf i = p := by simp [parentOf, here, parent]
  exact ⟨k + 1, by rw [Function.iterate_succ_apply, up, reached]⟩

theorem Tree.exists_walk (tree : fs.Tree) (inside : i < fs.inodes.length) :
    ∃ names, (∀ name ∈ names, IsName slash name) ∧ fs.walk 0 names = some i := by
  refine tree.induction
    (P := fun i => ∃ names, (∀ name ∈ names, IsName slash name) ∧ fs.walk 0 names = some i)
    ⟨[], by simp, rfl⟩ ?_ inside
  rintro i p n here parent ⟨names, valid, leads⟩
  have notRoot : i ≠ 0 := by
    rintro rfl
    exact tree.linked.root_orphan here parent
  refine ⟨names ++ [n.name], ?_, ?_⟩
  · intro name member
    rcases List.mem_append.mp member with before | last
    · exact valid name before
    · rw [List.mem_singleton.mp last]
      exact tree.named notRoot here
  · rw [walk_append, leads, Option.bind_some, walk_singleton, tree.linked.findChild here parent]

/-- The last step of a walk to a node comes from its parent. -/
theorem walk_concat {names : List (List UInt8)}
    (leads : fs.walk 0 (names ++ [name]) = some i) :
    ∃ p n, fs.walk 0 names = some p ∧ fs.inodes[i]? = some n ∧ n.parentIdx = some p ∧
      n.name = name := by
  rw [walk_append] at leads
  obtain ⟨p, leads', last⟩ := Option.bind_eq_some_iff.mp leads
  rw [walk_singleton] at last
  obtain ⟨n, here, parent, named⟩ := findChild_some last
  exact ⟨p, n, leads', here, parent, named⟩

/-- Two lists of names that lead to one node are the same: its name and its parent
are those of both, from the last name to the first. -/
theorem Linked.walk_inj (linked : fs.Linked) {names names' : List (List UInt8)}
    (leads : fs.walk 0 names = some i) (leads' : fs.walk 0 names' = some i) : names = names' := by
  have fromRoot : ∀ names, fs.walk 0 names = some 0 → names = [] := by
    intro names leads
    rcases List.eq_nil_or_concat' names with none | ⟨front, last, rfl⟩
    · exact none
    · obtain ⟨p, n, -, here, parent, -⟩ := walk_concat leads
      exact absurd parent (linked.root_orphan here)
  induction names using List.reverseRecOn generalizing names' i with
  | nil =>
    cases leads
    exact (fromRoot names' leads').symm
  | append_singleton front last ih =>
    rcases List.eq_nil_or_concat' names' with rfl | ⟨front', last', rfl⟩
    · cases leads'
      exact fromRoot _ leads
    · obtain ⟨p, n, before, here, parent, named⟩ := walk_concat leads
      obtain ⟨p', n', before', here', parent', named'⟩ := walk_concat leads'
      rw [here] at here'
      cases here'
      rw [parent] at parent'
      cases parent'
      rw [ih before before', ← named, ← named']

/-- Every node is reached by exactly one list of names. -/
theorem Tree.existsUnique_path (tree : fs.Tree) (inside : i < fs.inodes.length) :
    ∃! names, (∀ name ∈ names, IsName slash name) ∧
      fs.resolve (joinPath slash names) = some i := by
  obtain ⟨names, valid, leads⟩ := tree.exists_walk inside
  refine ⟨names, ⟨valid, ?_⟩, ?_⟩
  · rw [resolve_eq_walk, components_joinPath valid, leads]
  · rintro names' ⟨valid', leads'⟩
    rw [resolve_eq_walk, components_joinPath valid'] at leads'
    exact tree.linked.walk_inj leads' leads

/-! ## Creating -/

/-- What the tree depends on in a node. -/
def skeleton (n : INode) : List UInt8 × Option Nat × NodeKind := (n.name, n.parentIdx, n.kind)

/-- Nodes may change their content. -/
theorem Tree.of_skeleton {fs' : RamFs} (tree : fs.Tree)
    (same : ∀ i : Nat, (fs'.inodes[i]?).map skeleton = (fs.inodes[i]?).map skeleton) :
    fs'.Tree := by
  have back : ∀ {i : Nat} {n' : INode}, fs'.inodes[i]? = some n' →
      ∃ n, fs.inodes[i]? = some n ∧ n.name = n'.name ∧ n.parentIdx = n'.parentIdx ∧
        n.kind = n'.kind := by
    intro i n' here
    have := same i
    rw [here, Option.map_some] at this
    obtain ⟨n, there, equal⟩ := Option.map_eq_some_iff.mp this.symm
    simp only [skeleton, Prod.mk.injEq] at equal
    exact ⟨n, there, equal⟩
  have isDir : ∀ {i : Nat}, fs.isDirAt i = true → fs'.isDirAt i = true := by
    intro i holds
    obtain ⟨n, here, directory⟩ := isDirAt_iff.mp holds
    have := same i
    rw [here, Option.map_some] at this
    obtain ⟨n', there, equal⟩ := Option.map_eq_some_iff.mp this
    simp only [skeleton, Prod.mk.injEq] at equal
    exact isDirAt_iff.mpr ⟨n', there, equal.2.2.trans directory⟩
  constructor
  · obtain ⟨r, here, directory, orphan⟩ := tree.root
    have := same 0
    rw [here, Option.map_some] at this
    obtain ⟨n', there, equal⟩ := Option.map_eq_some_iff.mp this
    simp only [skeleton, Prod.mk.injEq] at equal
    exact ⟨n', there, equal.2.2.trans directory, equal.2.1.trans orphan⟩
  · intro i n' notRoot here
    obtain ⟨n, there, -, parent, kind⟩ := back here
    obtain ⟨p, link, directory, before⟩ := tree.parent notRoot there
    exact ⟨p, parent ▸ link, isDir directory, fun sort => before (kind.trans sort)⟩
  · intro i j n' m' p here there parent parent' named
    obtain ⟨n, here, name, link, -⟩ := back here
    obtain ⟨m, there, name', link', -⟩ := back there
    exact tree.unique here there (link.trans parent) (link'.trans parent')
      (name.trans (named.trans name'.symm))
  · intro i n' notRoot here
    obtain ⟨n, there, name, -⟩ := back here
    exact name ▸ tree.named notRoot there

theorem Tree.modify {f : INode → INode} (tree : fs.Tree) (idx : Nat)
    (same : ∀ n, skeleton (f n) = skeleton n) :
    Tree { fs with inodes := fs.inodes.modify idx f } := by
  refine tree.of_skeleton fun i => ?_
  rw [← List.getElem?_map, ← List.getElem?_map, map_modify_of_eq same]

theorem Tree.length_pos (tree : fs.Tree) : 0 < fs.inodes.length := by
  obtain ⟨r, here, -⟩ := tree.root
  exact (List.getElem?_eq_some_iff.mp here).1

theorem isDirAt_lt (isDir : fs.isDirAt i = true) : i < fs.inodes.length := by
  obtain ⟨n, here, -⟩ := isDirAt_iff.mp isDir
  exact (List.getElem?_eq_some_iff.mp here).1

theorem push_getElem? {kind : NodeKind} :
    (fs.push name p kind).inodes[i]? = some n ↔
      fs.inodes[i]? = some n ∨ i = fs.inodes.length ∧ n = ⟨name, some p, kind, [], fs.created⟩ := by
  rw [push, List.getElem?_append]
  split
  · next inside => exact ⟨.inl, fun either => either.resolve_right fun last => by omega⟩
  · next outside =>
      have none : fs.inodes[i]? = none := List.getElem?_eq_none (by omega)
      rw [none]
      by_cases last : i = fs.inodes.length
      · simp [last, eq_comm]
      · have beyond : ¬ i - fs.inodes.length = 0 := by omega
        simp [last, beyond]

/-- A new node under a directory that has no child of that name. -/
theorem Tree.push (tree : fs.Tree) {kind : NodeKind}
    (isDir : fs.isDirAt p = true) (fresh : fs.findChild p name = none) (valid : IsName slash name) :
    (fs.push name p kind).Tree := by
  have stays : ∀ {i : Nat}, fs.isDirAt i = true → (fs.push name p kind).isDirAt i = true := by
    intro i holds
    obtain ⟨n, here, directory⟩ := isDirAt_iff.mp holds
    exact isDirAt_iff.mpr ⟨n, push_getElem?.mpr (.inl here), directory⟩
  have apart := findChild_none.mp fresh
  constructor
  · obtain ⟨r, here, directory, orphan⟩ := tree.root
    exact ⟨r, push_getElem?.mpr (.inl here), directory, orphan⟩
  · intro i n notRoot here
    rcases push_getElem?.mp here with old | ⟨rfl, rfl⟩
    · obtain ⟨q, link, directory, before⟩ := tree.parent notRoot old
      exact ⟨q, link, stays directory, before⟩
    · exact ⟨p, rfl, stays isDir, fun _ => isDirAt_lt isDir⟩
  · intro i j n m q here there parent parent' named
    rcases push_getElem?.mp here with old | ⟨rfl, rfl⟩ <;>
      rcases push_getElem?.mp there with old' | ⟨rfl, rfl⟩
    · exact tree.unique old old' parent parent' named
    · cases parent'
      exact absurd named (apart i n old parent)
    · cases parent
      exact absurd named.symm (apart j m old' parent')
    · rfl
  · intro i n notRoot here
    rcases push_getElem?.mp here with old | ⟨rfl, rfl⟩
    · exact tree.named notRoot old
    · exact valid

/-- Looking up a path is looking up its last name in its directory. -/
theorem resolve_splitPath {dir : List UInt8} (cut : splitPath path = some (dir, name)) :
    fs.resolve path = (fs.resolve dir).bind fun p => fs.findChild p name := by
  obtain ⟨parts, -⟩ := splitPath_components cut
  rw [resolve_eq_walk, parts, walk_append, ← resolve_eq_walk]
  simp only [walk_singleton]

theorem Tree.create (tree : fs.Tree) (absent : fs.resolve path = none) (kind : NodeKind) :
    (fs.create path kind).2.Tree := by
  unfold RamFs.create
  split
  · exact tree
  next dir name cut =>
  split
  · exact tree
  next p found =>
  split
  · exact tree
  next isDir =>
  rw [resolve_splitPath cut, found, Option.bind_some] at absent
  exact tree.push (by simpa using isDir) absent (splitPath_components cut).2

theorem Tree.createDir (tree : fs.Tree) (path : List UInt8) : (fs.createDir path).2.Tree := by
  unfold RamFs.createDir
  split
  · exact tree
  · next absent => exact tree.create (by simpa using absent) .directory

theorem Tree.createFile (tree : fs.Tree) (path : List UInt8) : (fs.createFile path).2.Tree := by
  unfold RamFs.createFile
  split
  · split
    · exact tree
    · exact tree.modify _ fun _ => rfl
  · next absent => exact tree.create absent .file

theorem Tree.writeFile (tree : fs.Tree) (path data : List UInt8) :
    (fs.writeFile path data).2.Tree :=
  writeFile_rule (tree.createFile path) fun idx tree => tree.modify idx fun _ => rfl

/-! ## Removing -/

/-- The new position of a node when the one at `idx` is gone. -/
def down (idx i : Nat) : Nat := if idx < i then i - 1 else i

/-- The old position of the node that is at `j` afterwards. -/
def up (idx j : Nat) : Nat := if j < idx then j else j + 1

variable {idx : Nat}

theorem up_ne (j : Nat) : up idx j ≠ idx := by
  unfold up
  split <;> omega

theorem up_down (other : i ≠ idx) : up idx (down idx i) = i := by
  unfold up down
  split <;> split <;> omega

theorem down_up (j : Nat) : down idx (up idx j) = j := by
  unfold up down
  split <;> split <;> omega

theorem down_inj {q : Nat} (other : p ≠ idx) (other' : q ≠ idx) (same : down idx p = down idx q) :
    p = q := by
  rw [← up_down other, ← up_down other', same]

theorem lower_some (p : Nat) : lower idx (some p) = some (down idx p) := rfl

theorem removeAt_getElem? (j : Nat) :
    (fs.removeAt idx).inodes[j]?
      = (fs.inodes[up idx j]?).map fun n => { n with parentIdx := lower idx n.parentIdx } := by
  rw [removeAt, List.getElem?_eraseIdx, up]
  split <;> rw [List.getElem?_map]

/-- A node after the removal was one before it. -/
theorem removeAt_some {j : Nat} {n' : INode} (here : (fs.removeAt idx).inodes[j]? = some n') :
    ∃ n, fs.inodes[up idx j]? = some n ∧ n' = { n with parentIdx := lower idx n.parentIdx } := by
  rw [removeAt_getElem?] at here
  obtain ⟨n, there, equal⟩ := Option.map_eq_some_iff.mp here
  exact ⟨n, there, equal.symm⟩

/-- A node before the removal is there afterwards, unless it was the one removed. -/
theorem removeAt_of_ne (other : i ≠ idx) (here : fs.inodes[i]? = some n) :
    (fs.removeAt idx).inodes[down idx i]?
      = some { n with parentIdx := lower idx n.parentIdx } := by
  rw [removeAt_getElem?, up_down other, here]
  rfl

theorem isDirAt_removeAt (other : i ≠ idx) :
    (fs.removeAt idx).isDirAt (down idx i) = fs.isDirAt i := by
  rw [isDirAt, removeAt_getElem?, up_down other, isDirAt]
  cases fs.inodes[i]? <;> rfl

/-- The parent of a node is not a file. -/
theorem Linked.parent_ne (linked : fs.Linked) (file : fs.isDirAt idx = false)
    (here : fs.inodes[i]? = some n) (parent : n.parentIdx = some p) : p ≠ idx := by
  rintro rfl
  have found := linked.isDirAt_of_findChild (linked.findChild here parent)
  rw [file] at found
  cases found

theorem Linked.file_ne_root (linked : fs.Linked) (file : fs.isDirAt idx = false) : idx ≠ 0 := by
  obtain ⟨r, rootHere, directory, -⟩ := linked.root
  rintro rfl
  rw [isDirAt_iff.mpr ⟨r, rootHere, directory⟩] at file
  cases file

theorem up_ne_zero {j : Nat} (other : j ≠ 0) : up idx j ≠ 0 := by
  unfold up
  split <;> omega

/-- Removing a file keeps the links. -/
theorem Linked.removeAt (linked : fs.Linked) (file : fs.isDirAt idx = false) :
    (fs.removeAt idx).Linked := by
  obtain ⟨r, rootHere, directory, orphan⟩ := linked.root
  have notRoot := linked.file_ne_root file
  have link : ∀ {j : Nat} {n : INode} {q : Nat}, fs.inodes[j]? = some n →
      lower idx n.parentIdx = some q →
      ∃ p, n.parentIdx = some p ∧ p ≠ idx ∧ down idx p = q := by
    intro j n q here lowered
    obtain ⟨p, parent, equal⟩ := Option.map_eq_some_iff.mp lowered
    exact ⟨p, parent, linked.parent_ne file here parent, equal⟩
  constructor
  · have rootStays := removeAt_of_ne notRoot.symm rootHere
    have zero : down idx 0 = 0 := by simp [down]
    rw [zero] at rootStays
    exact ⟨_, rootStays, directory, by rw [orphan]; rfl⟩
  · intro j n' other here
    obtain ⟨n, there, rfl⟩ := removeAt_some here
    obtain ⟨p, parent, isDir⟩ := linked.parent (up_ne_zero other) there
    have apart := linked.parent_ne file there parent
    exact ⟨down idx p, by rw [parent, lower_some], by rw [isDirAt_removeAt apart]; exact isDir⟩
  · intro i j n' m' q here there parent parent' named
    obtain ⟨n, was, rfl⟩ := removeAt_some here
    obtain ⟨m, was', rfl⟩ := removeAt_some there
    obtain ⟨p, link₁, apart₁, lowered₁⟩ := link was parent
    obtain ⟨p', link₂, apart₂, lowered₂⟩ := link was' parent'
    have same : p = p' := down_inj apart₁ apart₂ (lowered₁.trans lowered₂.symm)
    subst same
    have equal := linked.unique was was' link₁ link₂ named
    rw [← @down_up idx i, equal, down_up]

/-- Removing a file keeps the tree. -/
theorem Tree.removeAt (tree : fs.Tree) (file : fs.isDirAt idx = false) :
    (fs.removeAt idx).Tree := by
  have linked := tree.linked.removeAt file
  refine ⟨linked.root, fun {j n'} other here => ?_, linked.unique, fun {j n'} other here => ?_⟩
  · obtain ⟨q, lowered, isDir⟩ := linked.parent other here
    refine ⟨q, lowered, isDir, fun sort => ?_⟩
    obtain ⟨n, there, rfl⟩ := removeAt_some here
    obtain ⟨p, parent, -, before⟩ := tree.parent (up_ne_zero other) there
    have order := before sort
    have apart := tree.linked.parent_ne file there parent
    rw [parent, lower_some] at lowered
    cases lowered
    unfold up at order
    unfold down
    split at order <;> split <;> omega
  · obtain ⟨n, was, rfl⟩ := removeAt_some here
    have valid := tree.named (up_ne_zero other) was
    exact valid

section

variable (linked : fs.Linked) (file : fs.isDirAt idx = false)
include linked file

/-- Children are found as before, at their new positions, except the removed one. -/
theorem Linked.findChild_removeAt (other : p ≠ idx) (name : List UInt8) :
    (fs.removeAt idx).findChild (down idx p) name
      = (fs.findChild p name).bind fun i => if i = idx then none else some (down idx i) := by
  have back : ∀ {j : Nat} {n' : INode}, (fs.removeAt idx).inodes[j]? = some n' →
      n'.parentIdx = some (down idx p) → n'.name = name →
      fs.findChild p name = some (up idx j) := by
    intro j n' here parent named
    obtain ⟨n, there, rfl⟩ := removeAt_some here
    obtain ⟨q, link, lowered⟩ := Option.map_eq_some_iff.mp parent
    have same : q = p := down_inj (linked.parent_ne file there link) other lowered
    subst same
    have found := linked.findChild there link
    rw [← named]
    exact found
  cases found : fs.findChild p name with
  | none =>
    rw [Option.bind_none, findChild_none]
    intro j n' here parent named
    have := back here parent named
    rw [found] at this
    cases this
  | some i =>
    rw [Option.bind_some]
    split
    · next gone =>
        rw [findChild_none]
        intro j n' here parent named
        have := back here parent named
        rw [found] at this
        cases this
        exact absurd gone (up_ne j)
    · next stays =>
        obtain ⟨n, here, parent, named⟩ := findChild_some found
        have link : lower idx n.parentIdx = some (down idx p) := by rw [parent, lower_some]
        cases after : (fs.removeAt idx).findChild (down idx p) name with
        | none =>
          have missed := findChild_none.mp after _ _ (removeAt_of_ne stays here) link
          exact absurd named missed
        | some j =>
          obtain ⟨n', there, parent', named'⟩ := findChild_some after
          have same := back there parent' named'
          rw [found] at same
          cases same
          rw [down_up]

/-- So are the nodes that paths lead to. -/
theorem Linked.walk_removeAt (names : List (List UInt8)) :
    ∀ {p : Nat}, p ≠ idx → (fs.removeAt idx).walk (down idx p) names
      = (fs.walk p names).bind fun i => if i = idx then none else some (down idx i) := by
  induction names with
  | nil =>
    intro p other
    simp [walk, other]
  | cons name names ih =>
    intro p other
    rw [walk, walk, linked.findChild_removeAt file other]
    cases found : fs.findChild p name with
    | none => rfl
    | some i =>
      by_cases gone : i = idx
      · subst gone
        cases names with
        | nil => simp [walk]
        | cons next rest =>
          have leaf : fs.findChild i next = none := by
            cases child : fs.findChild i next with
            | none => rfl
            | some j =>
              have := linked.isDirAt_of_findChild child
              rw [file] at this
              cases this
          simp [walk, leaf]
      · simp only [Option.bind_some, if_neg gone]
        exact ih gone

theorem Linked.resolve_removeAt (path : List UInt8) :
    (fs.removeAt idx).resolve path
      = (fs.resolve path).bind fun i => if i = idx then none else some (down idx i) := by
  have zero : down idx 0 = 0 := by simp [down]
  have walks := linked.walk_removeAt file (components slash path) (linked.file_ne_root file).symm
  rw [zero] at walks
  rw [resolve_eq_walk, resolve_eq_walk, walks]

end

theorem Tree.removeFile (tree : fs.Tree) (path : List UInt8) : (fs.removeFile path).2.Tree := by
  unfold RamFs.removeFile
  split
  · exact tree
  split
  · exact tree
  · next file => exact tree.removeAt (by simpa using file)

/-! ## Renaming -/

/-- The list of nodes after the node at `idx` was given a name and a parent. -/
def moved (fs : RamFs) (idx : Nat) (name : List UInt8) (p : Nat) : RamFs :=
  { fs with inodes := fs.inodes.modify idx fun n => { n with name := name, parentIdx := some p } }

theorem moved_some {n' : INode} (here : (fs.moved idx name p).inodes[i]? = some n') :
    (i ≠ idx ∧ fs.inodes[i]? = some n') ∨ (i = idx ∧ n'.name = name ∧ n'.parentIdx = some p ∧
      ∃ n, fs.inodes[i]? = some n ∧ n.kind = n'.kind) := by
  rw [moved, List.getElem?_modify] at here
  obtain ⟨n, there, equal⟩ := Option.map_eq_some_iff.mp here
  by_cases same : idx = i
  · rw [if_pos same] at equal
    subst equal
    exact .inr ⟨same.symm, rfl, rfl, n, there, rfl⟩
  · rw [if_neg same] at equal
    subst equal
    exact .inl ⟨Ne.symm same, there⟩

theorem isDirAt_moved (name : List UInt8) (p i : Nat) :
    (fs.moved idx name p).isDirAt i = fs.isDirAt i := by
  rw [moved, isDirAt_modify]
  exact fun _ => rfl

/-- A file gets a new place in a directory that has no child of that name. -/
theorem Tree.moved (tree : fs.Tree) (file : fs.isDirAt idx = false)
    (isDir : fs.isDirAt p = true) (fresh : fs.findChild p name = none) (valid : IsName slash name) :
    (fs.moved idx name p).Tree := by
  obtain ⟨r, rootHere, directory, orphan⟩ := tree.root
  have notRoot : idx ≠ 0 := by
    rintro rfl
    rw [isDirAt_iff.mpr ⟨r, rootHere, directory⟩] at file
    cases file
  have apart := findChild_none.mp fresh
  constructor
  · refine ⟨r, ?_, directory, orphan⟩
    rw [RamFs.moved, List.getElem?_modify, rootHere]
    simp [notRoot]
  · intro i n' other here
    rcases moved_some here with ⟨-, old⟩ | ⟨rfl, -, parent, n, was, kind⟩
    · obtain ⟨q, link, isDir', before⟩ := tree.parent other old
      exact ⟨q, link, by rw [isDirAt_moved]; exact isDir', before⟩
    · refine ⟨p, parent, by rw [isDirAt_moved]; exact isDir, fun sort => ?_⟩
      rw [isDirAt_iff.mpr ⟨n, was, kind.trans sort⟩] at file
      cases file
  · intro i j n' m' q here there parent parent' named
    rcases moved_some here with ⟨-, old⟩ | ⟨rfl, name₁, link₁, -⟩ <;>
      rcases moved_some there with ⟨-, old'⟩ | ⟨rfl, name₂, link₂, -⟩
    · exact tree.unique old old' parent parent' named
    · rw [link₂] at parent'
      cases parent'
      exact absurd (named.trans name₂) (apart i n' old parent)
    · rw [link₁] at parent
      cases parent
      exact absurd (named.symm.trans name₁) (apart j m' old' parent')
    · rfl
  · intro i n' other here
    rcases moved_some here with ⟨-, old⟩ | ⟨rfl, name₁, -⟩
    · exact tree.named other old
    · rw [name₁]
      exact valid

/-- The directory part of a path, as far as it leads anywhere, leads to a
directory. -/
def intoDirectory (fs : RamFs) (path : List UInt8) : Bool :=
  match splitPath path with
  | none => true
  | some (dir, _) =>
    match fs.resolve dir with
    | none => true
    | some p => fs.isDirAt p

/-- The special case of `rename` for the root is none. -/
theorem newParent_eq (dir : List UInt8) :
    (if dir = [slash] ∨ dir = [] then some 0 else fs.resolve dir) = fs.resolve dir := by
  split
  · next root => rw [resolve, if_pos root]
  · rfl

theorem Tree.renameInto {oldPath : List UInt8} (tree : fs.Tree) (absent : fs.resolve newPath = none)
    (source : ∀ i, fs.resolve oldPath = some i → fs.isDirAt i = false)
    (target : fs.intoDirectory newPath = true) : (fs.renameInto oldPath newPath).2.Tree := by
  unfold RamFs.renameInto
  split
  · exact tree
  next idx found =>
  split
  · exact tree
  next dir name cut =>
  rw [newParent_eq]
  split
  · exact tree
  next p leads =>
  rw [resolve_splitPath cut, leads, Option.bind_some] at absent
  simp only [intoDirectory, cut, leads] at target
  exact tree.moved (source idx found) target absent (splitPath_components cut).2

/-- When the new name exists its directory part leads to a directory, and still
does when the file is gone. -/
theorem Tree.intoDirectory_removeAt (tree : fs.Tree)
    (file : fs.isDirAt idx = false) (exists' : fs.resolve newPath = some idx) :
    (fs.removeAt idx).intoDirectory newPath = true := by
  unfold intoDirectory
  split
  · rfl
  next dir name cut =>
  rw [resolve_splitPath cut] at exists'
  obtain ⟨p, leads, child⟩ := Option.bind_eq_some_iff.mp exists'
  have isDir := tree.linked.isDirAt_of_findChild child
  have apart : p ≠ idx := by
    rintro rfl
    rw [file] at isDir
    cases isDir
  simp only [tree.linked.resolve_removeAt file, leads, Option.bind_some, if_neg apart]
  rw [isDirAt_removeAt apart]
  exact isDir

theorem Tree.rename {oldPath : List UInt8} (tree : fs.Tree)
    (target : fs.intoDirectory newPath = true) : (fs.rename oldPath newPath).2.Tree := by
  unfold RamFs.rename
  split
  · exact tree
  next i found =>
  split
  · exact tree
  next notDir =>
  have file : fs.isDirAt i = false := by simpa using notDir
  cases present : fs.resolve newPath with
  | none =>
    simp only [Option.isSome_none, Bool.false_eq_true, if_false]
    refine tree.renameInto present (fun j leads => ?_) target
    rw [found] at leads
    cases leads
    exact file
  | some idx =>
    simp only [Option.isSome_some, if_true, RamFs.removeFile, present]
    by_cases isDir : fs.isDirAt idx = true
    · rw [if_pos isDir]
      exact tree
    · have gone : fs.isDirAt idx = false := by simpa using isDir
      simp only [gone, Bool.false_eq_true, if_false]
      refine (tree.removeAt gone).renameInto ?_ (fun j leads => ?_)
        (tree.intoDirectory_removeAt gone present)
      · rw [tree.linked.resolve_removeAt gone, present, Option.bind_some, if_pos rfl]
      · rw [tree.linked.resolve_removeAt gone, found, Option.bind_some] at leads
        split at leads
        · cases leads
        · next apart =>
            cases leads
            rw [isDirAt_removeAt apart]
            exact file

end RamFs

/-! ## Whole runs -/

/-- A call that changes the tree. -/
inductive RamOp where
  | createFile (path : List UInt8)
  | createDir (path : List UInt8)
  | removeFile (path : List UInt8)
  | rename (oldPath newPath : List UInt8)

namespace RamFs

/-- The file system after a call, whether it succeeds or not. -/
def step (fs : RamFs) : RamOp → RamFs
  | .createFile path => (fs.createFile path).2
  | .createDir path => (fs.createDir path).2
  | .removeFile path => (fs.removeFile path).2
  | .rename oldPath newPath => (fs.rename oldPath newPath).2

def next (fs : RamFs) (op : RamOp) : Option RamFs := some (fs.step op)

/-- A file is renamed into a directory. -/
def Rooted (fs : RamFs) : RamOp → Prop
  | .rename _ newPath => fs.intoDirectory newPath = true
  | _ => True

instance (fs : RamFs) (op : RamOp) : Decidable (fs.Rooted op) := by
  unfold Rooted
  split <;> infer_instance

theorem Tree.step {fs : RamFs} (tree : fs.Tree) {op : RamOp} (rooted : fs.Rooted op) :
    (fs.step op).Tree := by
  cases op with
  | createFile path => exact tree.createFile path
  | createDir path => exact tree.createDir path
  | removeFile path => exact tree.removeFile path
  | rename oldPath newPath => exact tree.rename rooted

theorem tree_new (etcVersion : List UInt8) : (RamFs.new etcVersion).Tree := by
  have root : Tree ⟨[⟨ascii "/", none, .directory, [], 0⟩], 1⟩ := by
    constructor
    · exact ⟨_, rfl, rfl, rfl⟩
    all_goals intro i
    · intro n other here
      have := (List.getElem?_eq_some_iff.mp here).1
      simp at this
      exact absurd this other
    · intro j n m p here there parent
      have := (List.getElem?_eq_some_iff.mp here).1
      simp only [List.length_singleton, Nat.lt_one_iff] at this
      subst this
      cases here
      cases parent
    · intro n other here
      have := (List.getElem?_eq_some_iff.mp here).1
      simp at this
      exact absurd this other
  unfold RamFs.new
  exact (((((((root.createDir _).createDir _).createDir _).createDir _).writeFile _ _).writeFile
    _ _).writeFile _ _)

/-- In every run in which files are only renamed into directories: every node
other than the root has a directory as its parent, siblings have different names,
the parent links lead from every node to the root, and every node is reached by
exactly one absolute path. -/
theorem run_tree (etcVersion : List UInt8) (ops : List RamOp) (fs : RamFs)
    (rooted : Along next Rooted (RamFs.new etcVersion) ops)
    (ran : run next (RamFs.new etcVersion) ops = some fs) :
    (∀ (i : Nat) (n : INode), i ≠ 0 → fs.inodes[i]? = some n →
      ∃ p, n.parentIdx = some p ∧ fs.isDirAt p = true) ∧
    (∀ (i j : Nat) (n m : INode) (p : Nat), fs.inodes[i]? = some n → fs.inodes[j]? = some m →
      n.parentIdx = some p → m.parentIdx = some p → n.name = m.name → i = j) ∧
    (∀ i < fs.inodes.length, ∃ k, fs.parentOf^[k] i = 0) ∧
    (∀ i < fs.inodes.length, ∃! names, (∀ name ∈ names, IsName slash name) ∧
      fs.resolve (joinPath slash names) = some i) := by
  have tree : fs.Tree := by
    refine run_invariant ?_ (tree_new etcVersion) rooted ran
    intro s op s' tree allowed stepped
    cases stepped
    exact tree.step allowed
  refine ⟨fun i n other here => ?_, fun i j n m p => tree.unique, fun i => tree.reaches,
    fun i => tree.existsUnique_path⟩
  obtain ⟨p, link, isDir, -⟩ := tree.parent other here
  exact ⟨p, link, isDir⟩

/-- A file is created and moved into another directory. -/
theorem run_tree_move :
    ∃ fs, run next (RamFs.new []) [.createFile (ascii "/a"), .rename (ascii "/a") (ascii "/tmp/b")]
        = some fs ∧
      ∃! names, (∀ name ∈ names, IsName slash name) ∧
        fs.resolve (joinPath slash names) = some 8 :=
  ⟨_, rfl, (run_tree [] [.createFile (ascii "/a"), .rename (ascii "/a") (ascii "/tmp/b")] _
    (by decide) rfl).2.2.2 8 (by decide)⟩

/-- A file renamed to a name below itself becomes its own parent: the root is not
reached from it, and no path leads to it. -/
theorem renamed_below_itself :
    ∃ fs, run next (RamFs.new []) [.createFile (ascii "/a"), .rename (ascii "/a") (ascii "/a/b")]
        = some fs ∧
      fs.isDirAt 8 = false ∧ (fs.inodes[8]?).map INode.parentIdx = some (some 8) ∧
      fs.parentOf 8 = 8 :=
  ⟨_, rfl, by decide, by decide, by decide⟩

end RamFs

end OxideOS.Fs
