import OxideOS.Proc.Lifecycle
import OxideOS.Sys.Process

/-!
# What the system calls leave alone

Four parts of the kernel's state matter to what is proved about it: the life of
the tasks (`Kernel.life`), the descriptor tables with the open files
(`Kernel.tables`), the shared-memory records (`Kernel.shmView`) and what the tasks
make of signals (`Kernel.signals`). Most system calls change at most one of them.
The lemmas of this module say which ones they keep, as instances of `Prog.Keeps`;
they can fail only by stopping the system. The calls that keep the life of the tasks
and the signals are `quiet`.
-/

set_option autoImplicit false

namespace OxideOS
namespace Proc

open Lib Mem Fs Ipc Function

def Task.slot (t : Task) : Slot := ⟨t.state, t.pid, t.parentPid, t.cr3, t.uid, t.parentUid⟩

namespace Kernel

def life (k : Kernel) : Life where
  slots := fun i => (k.tasks i).slot
  current := k.current
  userMode := k.userMode
  nextUid := k.nextUid
  trace := k.trace

/-- The descriptor tables of all slots and the open files. -/
def tables (k : Kernel) : (Nat → FdTable) × OpenFiles := (fun i => (k.tasks i).fdTable, k.files)

/-- The attachments of all slots and the segments. -/
def shmView (k : Kernel) : (Nat → Nat → ShmAttach) × (Nat → ShmSegment) :=
  (fun i => (k.tasks i).shmAttaches, k.segtab)

/-- The life of the tasks, the tables and the shared memory. -/
def outline (k : Kernel) :
    Life × ((Nat → FdTable) × OpenFiles) × ((Nat → Nat → ShmAttach) × (Nat → ShmSegment)) :=
  (k.life, k.tables, k.shmView)

end Kernel

/-- The signals pending for a task, those it blocks and its handlers. -/
def Task.signals (t : Task) : BitVec 32 × BitVec 32 × (Nat → Nat) :=
  (t.pendingSignals, t.signalMask, t.signalHandlers)

namespace Kernel

def signals (k : Kernel) : Nat → BitVec 32 × BitVec 32 × (Nat → Nat) := fun i => (k.tasks i).signals

/-- All four. -/
def surface (k : Kernel) :
    (Life × ((Nat → FdTable) × OpenFiles) × ((Nat → Nat → ShmAttach) × (Nat → ShmSegment))) ×
      (Nat → BitVec 32 × BitVec 32 × (Nat → Nat)) :=
  (k.outline, k.signals)

/-- What the scheduler goes by: the life of the tasks and their signals. -/
def manners (k : Kernel) : Life × (Nat → BitVec 32 × BitVec 32 × (Nat → Nat)) :=
  (k.life, k.signals)

section Updates

variable (k : Kernel) (i : Nat) (t : Task) (f : Task → Task)

@[simp] theorem setTask_self : (k.setTask i t).tasks i = t := update_self ..

theorem setTask_of_ne {i j : Nat} (other : j ≠ i) : (k.setTask i t).tasks j = k.tasks j :=
  update_of_ne other ..

theorem life_setTask : (k.setTask i t).life = k.life.setSlot i t.slot := by
  simp only [life, setTask, Life.setSlot]
  congr 1
  exact comp_update Task.slot k.tasks i t

theorem tables_setTask :
    (k.setTask i t).tables = (update k.tables.1 i t.fdTable, k.files) := by
  simp only [tables, setTask]
  congr 1
  exact comp_update Task.fdTable k.tasks i t

theorem shmView_setTask :
    (k.setTask i t).shmView = (update k.shmView.1 i t.shmAttaches, k.segtab) := by
  simp only [shmView, setTask]
  congr 1
  exact comp_update Task.shmAttaches k.tasks i t

variable {k i f}

theorem life_modifyTask (same : (f (k.tasks i)).slot = (k.tasks i).slot) :
    (k.modifyTask i f).life = k.life := by
  have unchanged : update k.life.slots i (k.tasks i).slot = k.life.slots :=
    update_eq_self i k.life.slots
  rw [modifyTask, life_setTask, same, Life.setSlot, unchanged]

theorem tables_modifyTask (same : (f (k.tasks i)).fdTable = (k.tasks i).fdTable) :
    (k.modifyTask i f).tables = k.tables := by
  have unchanged : update k.tables.1 i (k.tasks i).fdTable = k.tables.1 :=
    update_eq_self i k.tables.1
  rw [modifyTask, tables_setTask, same, unchanged]
  rfl

theorem shmView_modifyTask (same : (f (k.tasks i)).shmAttaches = (k.tasks i).shmAttaches) :
    (k.modifyTask i f).shmView = k.shmView := by
  have unchanged : update k.shmView.1 i (k.tasks i).shmAttaches = k.shmView.1 :=
    update_eq_self i k.shmView.1
  rw [modifyTask, shmView_setTask, same, unchanged]
  rfl

theorem signals_modifyTask (same : (f (k.tasks i)).signals = (k.tasks i).signals) :
    (k.modifyTask i f).signals = k.signals := by
  funext j
  by_cases here : j = i
  · subst here
    rw [signals, modifyTask, setTask_self, same, signals]
  · rw [signals, modifyTask, setTask_of_ne k _ here, signals]

/-- A change of a task's other fields is not seen in the outline. -/
theorem outline_modifyTask (slot : (f (k.tasks i)).slot = (k.tasks i).slot)
    (table : (f (k.tasks i)).fdTable = (k.tasks i).fdTable)
    (attaches : (f (k.tasks i)).shmAttaches = (k.tasks i).shmAttaches) :
    (k.modifyTask i f).outline = k.outline := by
  simp only [outline, life_modifyTask slot, tables_modifyTask table, shmView_modifyTask attaches]

end Updates

end Kernel

end Proc

namespace Sys

open Lib Mem Fs Ipc Proc Proc.Kernel
open Prog hiding update

/-- The only way a call that does not block can fail to return. -/
def Halts (e : Leave) : Prop := e = .halt

theorem outline_of_surface {α : Type} {c : Kern α} (kept : Keeps surface Halts c) :
    Keeps outline Halts c := kept.project Prod.fst

theorem manners_of_surface {α : Type} {c : Kern α} (kept : Keeps surface Halts c) :
    Keeps manners Halts c := kept.project fun s => (s.1.1, s.2)

theorem copyToRegionIn_keeps (cr3 virt : Nat) (bytes : List UInt8) :
    Keeps surface Halts (Kernel.copyToRegionIn cr3 virt bytes) := by
  refine ⟨fun k => ?_⟩
  unfold wp Kernel.copyToRegionIn
  cases k.paging.copyToRegionIn cr3 virt bytes with
  | none => exact ⟨rfl, rfl⟩
  | some p => exact rfl

theorem copyToUser_keeps (virt : Nat) (bytes : List UInt8) :
    Keeps surface Halts (copyToUser virt bytes) :=
  .bind (.gets _) fun _ => copyToRegionIn_keeps _ _ _

theorem copyFromUser_keeps (virt count : Nat) :
    Keeps surface Halts (copyFromUser virt count) := by
  refine ⟨fun k => ?_⟩
  unfold wp copyFromUser
  cases k.paging.readUser (k.tasks k.current).cr3 virt count with
  | none => exact ⟨rfl, rfl⟩
  | some bytes => exact rfl

theorem onPaging_keeps (c : Prog Paging PagingError PUnit) :
    Keeps surface Halts (onPaging c) := by
  refine ⟨fun k => ?_⟩
  unfold wp onPaging
  cases c k.paging with
  | mk result p => cases result <;> exact rfl

/-- The current task changes in fields that the outline does not show. -/
theorem updateCurrent_outline {f : Task → Task} (slot : ∀ t, (f t).slot = t.slot)
    (table : ∀ t, (f t).fdTable = t.fdTable) (attaches : ∀ t, (f t).shmAttaches = t.shmAttaches) :
    Keeps outline Halts (updateCurrent f) :=
  .update fun _ => outline_modifyTask (slot _) (table _) (attaches _)

theorem updateCurrent_keeps {f : Task → Task} (slot : ∀ t, (f t).slot = t.slot)
    (table : ∀ t, (f t).fdTable = t.fdTable) (attaches : ∀ t, (f t).shmAttaches = t.shmAttaches)
    (signals : ∀ t, (f t).signals = t.signals) :
    Keeps surface Halts (updateCurrent f) :=
  .update fun _ => Prod.ext (outline_modifyTask (slot _) (table _) (attaches _))
    (signals_modifyTask (signals _))

/-! ## Memory -/

theorem growHeap_keeps (cr3 first last : Nat) :
    Keeps surface Halts (growHeap cr3 first last) := .ite (onPaging_keeps _) (.pure _)

theorem brkProgram_keeps (newEnd : Nat) : Keeps surface Halts (brkProgram newEnd) := by
  refine .bind (.gets _) fun task => .ite (.pure _) ?_
  refine .bind (growHeap_keeps _ _ _) fun mapped => .ite (.pure _) ?_
  exact .bind (updateCurrent_keeps (fun _ => rfl) (fun _ => rfl) (fun _ => rfl) fun _ => rfl)
    fun _ => .pure _

theorem recordRegion_shows (base pages : Nat) (t : Task) :
    (recordRegion base pages t).slot = t.slot ∧ (recordRegion base pages t).fdTable = t.fdTable ∧
      (recordRegion base pages t).shmAttaches = t.shmAttaches ∧
      (recordRegion base pages t).signals = t.signals := by
  unfold recordRegion
  dsimp only
  split <;> exact ⟨rfl, rfl, rfl, rfl⟩

theorem mmapAnon_keeps (len : Nat) : Keeps surface Halts (mmapAnon len) := by
  refine .ite (.pure _) (.bind (.gets _) fun task => ?_)
  refine .bind (onPaging_keeps _) fun mapped => .ite (.pure _) ?_
  have same := recordRegion_shows (if task.mmapEnd = 0 then userMmapBase else task.mmapEnd)
    (pagesFor len)
  exact .bind (updateCurrent_keeps (fun t => (same t).1) (fun t => (same t).2.1)
    (fun t => (same t).2.2.1) fun t => (same t).2.2.2) fun _ => .pure _

theorem removeRegion_shows (addr : Nat) (t : Task) :
    (removeRegion addr t).slot = t.slot ∧ (removeRegion addr t).fdTable = t.fdTable ∧
      (removeRegion addr t).shmAttaches = t.shmAttaches ∧
      (removeRegion addr t).signals = t.signals := by
  unfold removeRegion
  split <;> exact ⟨rfl, rfl, rfl, rfl⟩

theorem munmap_keeps (addr len : Nat) : Keeps surface Halts (munmap addr len) := by
  refine .ite (.pure _) (.bind (.gets _) fun task => .bind (.update fun _ => rfl) fun _ => ?_)
  have same := removeRegion_shows addr
  exact .bind (updateCurrent_keeps (fun t => (same t).1) (fun t => (same t).2.1)
    (fun t => (same t).2.2.1) fun t => (same t).2.2.2) fun _ => .pure _

/-- The tasks, their descriptors and their signals. -/
def unshared (k : Kernel) :
    (Life × ((Nat → FdTable) × OpenFiles)) × (Nat → BitVec 32 × BitVec 32 × (Nat → Nat)) :=
  ((k.life, k.tables), k.signals)

theorem manners_of_unshared {α : Type} {c : Kern α} (kept : Keeps unshared Halts c) :
    Keeps manners Halts c := kept.project fun s => (s.1.1, s.2)

/-- The calls on shared memory keep the tasks, their descriptors and signals. -/
theorem shm_keeps {call : Kern Int}
    (form : ∀ k, ∃ r attaches segtab p, call k = (.ok r,
      { k.modifyTask k.current fun t => { t with shmAttaches := attaches } with
        segtab := segtab, paging := p })) :
    Keeps unshared Halts call := by
  refine ⟨fun k => ?_⟩
  obtain ⟨r, attaches, segtab, p, result⟩ := form k
  rw [wp_ok result]
  have life : (k.modifyTask k.current fun t => { t with shmAttaches := attaches }).life = k.life :=
    life_modifyTask rfl
  have tables : (k.modifyTask k.current fun t => { t with shmAttaches := attaches }).tables =
      k.tables := tables_modifyTask rfl
  have signals : (k.modifyTask k.current fun t => { t with shmAttaches := attaches }).signals =
      k.signals := signals_modifyTask rfl
  exact Prod.ext (Prod.ext life tables) signals

theorem shmgetImpl_keeps (key size : Nat) :
    Keeps unshared Halts (shmgetImpl key size) := ⟨fun _ => rfl⟩

theorem shmatImpl_keeps (shmid : Nat) : Keeps unshared Halts (shmatImpl shmid) :=
  shm_keeps fun _ => ⟨_, _, _, _, rfl⟩

theorem shmdtImpl_keeps (addr : Nat) : Keeps unshared Halts (shmdtImpl addr) :=
  shm_keeps fun k => ⟨_, _, _, k.paging, rfl⟩

/-! ## Signals -/

theorem storeWord_keeps (ptr w : Nat) : Keeps surface Halts (storeWord ptr w) :=
  .ite (.pure _) (copyToUser_keeps _ _)

theorem sigaction_keeps (signum handler oldPtr : Nat) :
    Keeps outline Halts (sigaction signum handler oldPtr) := by
  refine .ite (.pure _) (.bind (.gets _) fun task => .ite (.pure _) ?_)
  refine .bind (outline_of_surface (storeWord_keeps _ _)) fun _ => ?_
  exact .bind (updateCurrent_outline (fun _ => rfl) (fun _ => rfl) fun _ => rfl) fun _ => .pure _

theorem popFrame_same (bytes : List Nat) (t : Task) :
    (popFrame bytes t).slot = t.slot ∧ (popFrame bytes t).fdTable = t.fdTable ∧
      (popFrame bytes t).shmAttaches = t.shmAttaches := by
  unfold popFrame
  dsimp only
  split <;> exact ⟨rfl, rfl, rfl⟩

theorem sigreturn_keeps : Keeps outline Halts sigreturn := by
  refine .bind (.gets _) fun task => .bind (outline_of_surface (copyFromUser_keeps _ _))
    fun bytes => ?_
  have same := popFrame_same bytes
  exact .bind (updateCurrent_outline (fun t => (same t).1) (fun t => (same t).2.1) fun t =>
    (same t).2.2) fun _ => .pure _

theorem sigprocmask_keeps (how setPtr oldPtr : Nat) :
    Keeps outline Halts (sigprocmask how setPtr oldPtr) := by
  refine .bind (.gets _) fun task => .bind (outline_of_surface (storeWord_keeps _ _)) fun _ => ?_
  refine .ite (.pure _) (.bind (outline_of_surface (copyFromUser_keeps _ _)) fun bytes => ?_)
  split
  · exact .pure _
  · exact .bind (updateCurrent_outline (fun _ => rfl) (fun _ => rfl) fun _ => rfl) fun _ => .pure _

theorem alarm_keeps (seconds : Nat) : Keeps surface Halts (alarm seconds) := by
  refine .bind (.gets _) fun now => .bind (.gets _) fun task => ?_
  exact .bind (updateCurrent_keeps (fun _ => rfl) (fun _ => rfl) (fun _ => rfl) fun _ => rfl)
    fun _ => .pure _

theorem sigpending_keeps (setPtr : Nat) : Keeps surface Halts (sigpending setPtr) :=
  .ite (.pure _) (.bind (.gets _) fun _ => .bind (copyToUser_keeps _ _) fun _ => .pure _)

theorem loadMask_keeps (maskPtr : Nat) : Keeps surface Halts (loadMask maskPtr) :=
  .ite (.pure _) (copyFromUser_keeps _ _)

/-! ## Descriptors -/

/-- The life of the tasks and the shared-memory records. -/
def besides (k : Kernel) : Life × ((Nat → Nat → ShmAttach) × (Nat → ShmSegment)) :=
  (k.life, k.shmView)

/-- These and the signals. -/
def undescribed (k : Kernel) :
    (Life × ((Nat → Nat → ShmAttach) × (Nat → ShmSegment))) ×
      (Nat → BitVec 32 × BitVec 32 × (Nat → Nat)) :=
  (besides k, k.signals)

theorem undescribed_of_surface {α : Type} {c : Kern α} (kept : Keeps surface Halts c) :
    Keeps undescribed Halts c := kept.project fun s => ((s.1.1, s.1.2.2), s.2)

theorem manners_of_undescribed {α : Type} {c : Kern α} (kept : Keeps undescribed Halts c) :
    Keeps manners Halts c := kept.project fun s => (s.1.1, s.2)

theorem undescribed_setTable (k : Kernel) (table : FdTable) (files : OpenFiles) :
    undescribed
      { k.modifyTask k.current fun t => { t with fdTable := table } with files := files } =
      undescribed k := by
  have life : (k.modifyTask k.current fun t => { t with fdTable := table }).life = k.life :=
    life_modifyTask rfl
  have shm : (k.modifyTask k.current fun t => { t with fdTable := table }).shmView = k.shmView :=
    shmView_modifyTask rfl
  have signals : (k.modifyTask k.current fun t => { t with fdTable := table }).signals =
      k.signals := signals_modifyTask rfl
  exact Prod.ext (Prod.ext life shm) signals

theorem onTable_keeps (f : FdTable → OpenFiles → Int × FdTable × OpenFiles) :
    Keeps undescribed Halts (onTable f) := ⟨fun k => undescribed_setTable k _ _⟩

theorem dup_keeps (fd : Int) : Keeps undescribed Halts (dup fd) := onTable_keeps _

theorem dup2_keeps (oldFd newFd : Int) : Keeps undescribed Halts (dup2 oldFd newFd) :=
  onTable_keeps _

theorem openFile_keeps (target : Target) (flags : Nat) :
    Keeps undescribed Halts (openFile target flags) := onTable_keeps _

theorem close_keeps (fd : Int) : Keeps undescribed Halts (close fd) := onTable_keeps _

theorem pipe_keeps (readFdPtr writeFdPtr : Nat) :
    Keeps undescribed Halts (pipe readFdPtr writeFdPtr) := by
  unfold pipe
  split
  · exact .pure _
  · exact .pure _
  · refine .bind (.gets _) fun k => ?_
    refine .bind (.update fun k' => undescribed_setTable k' _ _) fun _ => ?_
    split
    · exact .pure _
    · exact .bind (undescribed_of_surface (copyToUser_keeps _ _)) fun _ =>
        .bind (undescribed_of_surface (copyToUser_keeps _ _)) fun _ => .pure _

theorem fcntl_keeps (fd : Int) (cmd arg : Nat) :
    Keeps undescribed Halts (fcntl fd cmd arg) := by
  unfold fcntl
  split
  · exact onTable_keeps _
  · exact .pure _
  · exact .pure _

theorem read_keeps (fd : Int) (bufPtr count : Nat) (data : List UInt8) :
    Keeps undescribed Halts (read fd bufPtr count data) := by
  refine .ite (.pure _) ?_
  split
  · exact .pure _
  · refine .bind (.gets _) fun k => .bind (.update fun _ => rfl) fun _ => ?_
    exact .bind (undescribed_of_surface (copyToUser_keeps _ _)) fun _ => .pure _

theorem write_keeps (fd : Int) (bufPtr count : Nat) (answer : Int) :
    Keeps undescribed Halts (write fd bufPtr count answer) := by
  refine .ite (.pure _) ?_
  split
  · exact .pure _
  · exact .ite (.pure _) (.bind (undescribed_of_surface (copyFromUser_keeps _ _)) fun _ =>
      onTable_keeps _)

/-! ## Quiet calls -/

/-- The call has to do with memory or descriptors, or only looks at signals. -/
def Syscall.quiet : Syscall → Bool
  | .brk _ | .mmap _ | .munmap _ _ | .shmget _ _ | .shmat _ | .shmdt _ | .sigpending _ | .alarm _
  | .pipe _ _ | .dup _ | .dup2 _ _ | .fcntl _ _ _ | .openFile _ _ | .close _ | .read _ _ _ _
  | .write _ _ _ _ => true
  | _ => false

/-- **A quiet call keeps the life of the tasks and their signals.** -/
theorem dispatch_quiet (ctx : Option TaskContext) {call : Syscall} (quiet : call.quiet = true) :
    Keeps manners Halts (dispatch ctx call) := by
  cases call with
  | brk newEnd => exact manners_of_surface (brkProgram_keeps newEnd)
  | mmap len => exact manners_of_surface (mmapAnon_keeps len)
  | munmap addr len => exact manners_of_surface (munmap_keeps addr len)
  | shmget key size => exact manners_of_unshared (shmgetImpl_keeps key size)
  | shmat shmid => exact manners_of_unshared (shmatImpl_keeps shmid)
  | shmdt addr => exact manners_of_unshared (shmdtImpl_keeps addr)
  | sigpending setPtr => exact manners_of_surface (sigpending_keeps setPtr)
  | alarm seconds => exact manners_of_surface (alarm_keeps seconds)
  | pipe readFdPtr writeFdPtr => exact manners_of_undescribed (pipe_keeps readFdPtr writeFdPtr)
  | dup fd => exact manners_of_undescribed (dup_keeps fd)
  | dup2 oldFd newFd => exact manners_of_undescribed (dup2_keeps oldFd newFd)
  | fcntl fd cmd arg => exact manners_of_undescribed (fcntl_keeps fd cmd arg)
  | openFile target flags => exact manners_of_undescribed (openFile_keeps target flags)
  | close fd => exact manners_of_undescribed (close_keeps fd)
  | read fd bufPtr count data => exact manners_of_undescribed (read_keeps fd bufPtr count data)
  | write fd bufPtr count answer =>
      exact manners_of_undescribed (write_keeps fd bufPtr count answer)
  | exit | fork | waitpid | exec | sleep | kill | sigaction | sigreturn | sigprocmask | sigsuspend
    | msgrcvWait => cases quiet

end Sys
end OxideOS
