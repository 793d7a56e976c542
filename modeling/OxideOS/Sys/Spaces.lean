import OxideOS.Proc.Loading
import OxideOS.Sys.Process

/-!
# Tasks and their address spaces

The part of the system that moves pages: programs are started, and any live task
may at any time fork, execute another program, exit, store a byte, or make one of
the system calls on memory, shared memory, signal handlers and the FS base. Whose
turn it is, is left to the scheduler and does not matter here. A store that is not let
through ends the task and is not among the acts; nor is `SIGKILL`, which leaves the pages
of its victim where they are. What `advance` does at an event that is an operation here,
`move` does too: `move_of_advance`.

`Books` are the fields of a task that describe its address space. They are kept
outside the page tables, and `books` collects those of the live tasks.
-/

set_option autoImplicit false

namespace OxideOS.Sys

open Lib Mem Fs Ipc Proc Proc.Kernel Function

/-! ## The machine -/

/-- What a task may do. -/
inductive Act where
  | fork (ctx : TaskContext)
  | exec (plan : Plan)
  | exit (arg : Nat)
  | brk (newEnd : Nat)
  | mmap (len : Nat)
  | munmap (addr len : Nat)
  | shmget (key size : Nat)
  | shmat (shmid : Nat)
  | shmdt (addr : Nat)
  | sigaction (signum handler oldPtr : Nat)
  /-- `arch_prctl` with `ARCH_SET_FS`. -/
  | setFs (addr : Nat)
  /-- The program stores a byte. -/
  | store (virt b : Nat)

inductive Op where
  /-- The terminal starts a program. -/
  | start (plan : Plan) (name : List UInt8)
  /-- The task in slot `i` acts. -/
  | act (i : Nat) (a : Act)

/-- `arch_prctl` with `ARCH_SET_FS`: the address is kept as it is. -/
def setFsBase (addr : Nat) : Kern Int := do
  updateCurrent fun t => { t with fsBase := addr }
  return 0

/-- A store of the program that is let through. -/
def storeByte (virt b : Nat) : Kern Int := fun k =>
  match Paging.store (k.tasks k.current).cr3 virt b true 2 k.paging with
  | some (.stored, p) => (.ok 0, { k with paging := p })
  | _ => (.error .halt, k)

def perform : Act → Kern Int
  | .fork ctx => forkChild (some ctx)
  | .exec plan => execPlan plan
  | .exit arg => exit arg
  | .brk newEnd => brkProgram newEnd
  | .mmap len => mmapAnon len
  | .munmap addr len => munmap addr len
  | .shmget key size => shmgetImpl key size
  | .shmat shmid => shmatImpl shmid
  | .shmdt addr => shmdtImpl addr
  | .sigaction signum handler oldPtr => sigaction signum handler oldPtr
  | .setFs addr => setFsBase addr
  | .store virt b => storeByte virt b

/-- The task in slot `i` runs. -/
def enter (i : Nat) (k : Kernel) : Kernel := { k with current := i, userMode := true }

/-- The slot holds a live task. -/
def occupied (k : Kernel) (i : Nat) : Bool := decide (i < maxTasks) && (k.tasks i).live

/-- One operation; `none` when there is no such task or the system stops. -/
def move (k : Kernel) : Op → Option Kernel
  | .start plan name =>
    match startTask plan name k with
    | (.error .halted, _) => none
    | (_, k') => some k'
  | .act i a => if occupied k i then settle (perform a (enter i k)) else none

/-! ## Operations among the events -/

def Syscall.act (ctx : Option TaskContext) : Syscall → Option Act
  | .fork => ctx.map .fork
  | .exec binary block => binary.toOption.map fun img => .exec (execPlanOf img block)
  | .exit arg => some (.exit arg)
  | .brk newEnd => some (.brk newEnd)
  | .mmap len => some (.mmap len)
  | .munmap addr len => some (.munmap addr len)
  | .shmget key size => some (.shmget key size)
  | .shmat shmid => some (.shmat shmid)
  | .shmdt addr => some (.shmdt addr)
  | .sigaction signum handler oldPtr => some (.sigaction signum handler oldPtr)
  | _ => none

/-- The operation that an event is. A store is one if it is let through. -/
def Event.op (k : Kernel) : Event → Option Op
  | .spawn binary name block => binary.map fun img => .start (spawnPlan img block) name
  | .syscall ctx call => (call.act ctx).map (.act k.current)
  | .store virt b =>
    if Paging.canonical virt ∧ (Paging.store (k.tasks k.current).cr3 virt b true 2 k.paging).map
        Prod.fst = some .stored then some (.act k.current (.store virt b))
    else none
  | _ => none

theorem perform_eq_dispatch {ctx : Option TaskContext} {call : Syscall} {a : Act}
    (isAct : call.act ctx = some a) : perform a = dispatch ctx call := by
  cases call with
  | fork =>
    obtain ⟨c, rfl, rfl⟩ := Option.map_eq_some_iff.mp isAct
    rfl
  | exec binary block =>
    obtain ⟨img, found, rfl⟩ := Option.map_eq_some_iff.mp isAct
    cases binary with
    | error code => cases found
    | ok img' =>
      cases found
      exact (execBinary_eq img block).symm
  | _ => cases isAct <;> rfl

/-- **Both machines agree** on the operations of a living task. -/
theorem move_of_advance {k k' : Kernel} {e : Event} {op : Op} (isOp : e.op k = some op)
    (running : k.userMode = true → occupied k k.current = true) (stepped : advance k e = some k') :
    move k op = some k' := by
  have acts : ∀ a, k.userMode = true → settle (perform a k) = some k' →
      move k (.act k.current a) = some k' := by
    intro a user settled
    have entered : enter k.current k = k := by
      rw [enter, ← user]
    rw [move, if_pos (running user), entered]
    exact settled
  cases e with
  | spawn binary name block =>
    obtain ⟨img, rfl, rfl⟩ := Option.map_eq_some_iff.mp isOp
    simp only [advance, Option.ite_none_left_eq_some, spawn_eq] at stepped
    exact stepped.2
  | syscall ctx call =>
    obtain ⟨a, isAct, rfl⟩ := Option.map_eq_some_iff.mp isOp
    simp only [advance, Option.ite_none_right_eq_some] at stepped
    refine acts a stepped.1 ?_
    rw [perform_eq_dispatch isAct]
    exact stepped.2
  | store virt b =>
    simp only [Event.op, Option.ite_none_right_eq_some, Option.some.injEq] at isOp
    obtain ⟨⟨canonical, stored⟩, rfl⟩ := isOp
    simp only [advance, Option.ite_none_right_eq_some, canonical, if_true] at stepped
    refine acts _ stepped.1 ?_
    obtain ⟨⟨result, p⟩, found, rfl⟩ := Option.map_eq_some_iff.mp stored
    simp only [found] at stepped
    simp only [perform, storeByte, found, settle]
    exact stepped.2
  | _ => cases isOp

/-! ## The books of a task -/

/-- What a task records about its address space. -/
structure Books where
  cr3 : Nat
  heapEnd : Nat
  mmapEnd : Nat
  fsBase : Nat
  mmapRegions : Nat → MmapRegion
  mmapNregions : Nat
  shmAttaches : Nat → ShmAttach
  signalHandlers : Nat → Nat

def booksOf (t : Task) : Books where
  cr3 := t.cr3
  heapEnd := t.heapEnd
  mmapEnd := t.mmapEnd
  fsBase := t.fsBase
  mmapRegions := t.mmapRegions
  mmapNregions := t.mmapNregions
  shmAttaches := t.shmAttaches
  signalHandlers := t.signalHandlers

/-- The books of a program that has just been started. -/
def Books.fresh (cr3 : Nat) : Books where
  cr3 := cr3
  heapEnd := 0
  mmapEnd := 0
  fsBase := 0
  mmapRegions := fun _ => .empty
  mmapNregions := 0
  shmAttaches := fun _ => .empty
  signalHandlers := fun _ => 0

/-- The frame of the root table. -/
def Books.root (b : Books) : Nat := b.cr3 / 4096

/-- The books of the live tasks. -/
def books (k : Kernel) (i : Nat) : Option Books :=
  if occupied k i then some (booksOf (k.tasks i)) else none

theorem books_eq_some {k : Kernel} {i : Nat} {b : Books} :
    books k i = some b ↔ i < maxTasks ∧ (k.tasks i).live = true ∧ booksOf (k.tasks i) = b := by
  unfold books occupied
  split
  · next holds =>
      simp only [Bool.and_eq_true, decide_eq_true_eq] at holds
      simp [holds]
  · next fails =>
      simp only [Bool.and_eq_true, decide_eq_true_eq, not_and] at fails
      simp only [reduceCtorEq, false_iff, not_and]
      intro bound live
      exact absurd live (fails bound)

/-- The books change where a task is put into a slot. -/
theorem books_setTask (k : Kernel) {i : Nat} (bound : i < maxTasks) (t : Task) :
    books (k.setTask i t) = update (books k) i (if t.live then some (booksOf t) else none) := by
  funext j
  by_cases here : j = i
  · subst here
    rw [update_self]
    simp [books, occupied, setTask, bound]
  · rw [update_of_ne here]
    simp [books, occupied, setTask, update_of_ne here]

/-- A change of a live task that keeps it alive. -/
theorem books_modifyTask {k : Kernel} {i : Nat} {b : Books} (live : books k i = some b)
    {f : Task → Task} (keeps : (f (k.tasks i)).live = (k.tasks i).live) :
    books (k.modifyTask i f) = update (books k) i (some (booksOf (f (k.tasks i)))) := by
  obtain ⟨bound, alive, -⟩ := books_eq_some.mp live
  rw [modifyTask, books_setTask k bound, keeps, alive, if_pos rfl]

/-- A change of a task that the books do not see. -/
theorem books_modifyTask_same {k : Kernel} {i : Nat} {f : Task → Task}
    (keeps : (f (k.tasks i)).live = (k.tasks i).live)
    (same : booksOf (f (k.tasks i)) = booksOf (k.tasks i)) :
    books (k.modifyTask i f) = books k := by
  funext j
  by_cases here : j = i
  · subst here
    simp [books, occupied, modifyTask, setTask, keeps, same]
  · simp [books, occupied, modifyTask, setTask, update_of_ne here]

end OxideOS.Sys
