import OxideOS.Sys.Pids
import OxideOS.Sys.Preemption

/-!
# What a new task finds in its slot

`spawn` and `fork` put a new task over the record of the task that had the slot
before, field by field. `Initial` is what the new task can observe of its record.
What it finds there is decided by what was given to the call and by the fields the
call does not write: `spawn` leaves the working directory and the process group,
`fork` the FS base and the initial stack pointer (`newTask_same_iff`).
`stale_process_group` is a program started in the slot of one that had changed its
process group.
-/

set_option autoImplicit false

namespace OxideOS.Sys

open Lib Mem Fs Ipc Proc Proc.Kernel

/-- The observable part of a new task's record. -/
structure Initial where
  cwd : List UInt8
  pgid : Nat
  fsBase : Nat
  signalHandlers : Nat → Nat
  signalMask : BitVec 32
  pendingSignals : BitVec 32
  alarmDeadline : Nat
  shmAttaches : Nat → ShmAttach
  heapEnd : Nat
  mmapEnd : Nat
  initialRsp : Nat
  fdTable : FdTable

def initialOf (t : Task) : Initial where
  cwd := t.cwd
  pgid := t.pgid
  fsBase := t.fsBase
  signalHandlers := t.signalHandlers
  signalMask := t.signalMask
  pendingSignals := t.pendingSignals
  alarmDeadline := t.alarmDeadline
  shmAttaches := t.shmAttaches
  heapEnd := t.heapEnd
  mmapEnd := t.mmapEnd
  initialRsp := t.initialRsp
  fdTable := t.fdTable

/-- What a program that is started finds, if it can be started. -/
def afterSpawn (img : Image) (name block : List UInt8) (k : Kernel) : Option Initial :=
  match spawnSlot k, spawn (some img) name block k with
  | some slot, (.ok _, k') => some (initialOf (k'.tasks slot))
  | _, _ => none

/-- What the child of a fork by the current task finds, if there is one. -/
def afterFork (ctx : TaskContext) (k : Kernel) : Option Initial :=
  match forkSlot k, forkTask k.current ctx k with
  | some slot, (some _, k') => some (initialOf (k'.tasks slot))
  | _, _ => none

/-- What `spawn` leaves of the last occupant of the slot it takes. -/
def leftBySpawn (k : Kernel) : Option (List UInt8 × Nat) :=
  (spawnSlot k).map fun slot => ((k.tasks slot).cwd, (k.tasks slot).pgid)

/-- What `fork` leaves of the last occupant of the slot it takes. -/
def leftByFork (k : Kernel) : Option (Nat × Nat) :=
  (forkSlot k).map fun slot => ((k.tasks slot).fsBase, (k.tasks slot).initialRsp)

/-! ## Spawn -/

/-- A started program over what was left. -/
def started (left : List UInt8 × Nat) (rsp : Nat) : Initial where
  cwd := left.1
  pgid := left.2
  fsBase := 0
  signalHandlers := fun _ => 0
  signalMask := 0
  pendingSignals := 0
  alarmDeadline := 0
  shmAttaches := fun _ => .empty
  heapEnd := 0
  mmapEnd := 0
  initialRsp := rsp
  fdTable := .new

theorem initialOf_spawnedTask (old : Task) (slot cr3 entry rsp uid : Nat) (name : List UInt8) :
    initialOf (spawnedTask old slot cr3 entry rsp uid name) = started (old.cwd, old.pgid) rsp := rfl

/-- The stack pointer below the argument block. -/
def argvTop (block : List UInt8) : Nat :=
  if 2048 < block.length then userStackTop - 8 else userStackTop - block.length

/-- The block alone decides where the stack begins. -/
theorem writeArgvToStack_rsp {cr3 rsp : Nat} {block : List UInt8} {p p' : Paging}
    (wrote : writeArgvToStack cr3 block p = (.ok rsp, p')) : rsp = argvTop block := by
  unfold writeArgvToStack at wrote
  unfold argvTop
  split at wrote
  · next long =>
      rw [if_pos long]
      cases wrote
      rfl
  · next short =>
      rw [if_neg short]
      simp only [bind, Prog.andThen, copyIn] at wrote
      split at wrote
      · cases wrote
        rfl
      · cases wrote

/-- A program that is started finds what the last occupant of its slot left. -/
theorem afterSpawn_eq {img : Image} {name block : List UInt8} {k : Kernel} {found : Initial}
    (ok : afterSpawn img name block k = some found) :
    ∃ left, leftBySpawn k = some left ∧ found = started left (argvTop block) := by
  unfold afterSpawn at ok
  split at ok
  · next slot pid k' free done =>
      cases ok
      refine ⟨((k.tasks slot).cwd, (k.tasks slot).pgid), by rw [leftBySpawn, free]; rfl, ?_⟩
      unfold spawn at done
      rw [show (firstBelow maxTasks fun i => (k.tasks i).state.isFree) =
        some slot from free] at done
      dsimp only at done
      split at done
      · cases done
      · split at done
        · cases done
        · next cr3 _ _ rsp p' wrote =>
            cases done
            have below : rsp = argvTop block := by
              simp only [bind, Prog.andThen] at wrote
              split at wrote
              · exact writeArgvToStack_rsp wrote
              · cases wrote
            rw [setTask_self, initialOf_spawnedTask, below]
  · cases ok

/-! ## Fork -/

/-- A child over what was left. -/
def inherited (parent : Initial) (left : Nat × Nat) : Initial where
  cwd := parent.cwd
  pgid := parent.pgid
  fsBase := left.1
  signalHandlers := parent.signalHandlers
  signalMask := 0
  pendingSignals := 0
  alarmDeadline := 0
  shmAttaches := fun _ => .empty
  heapEnd := parent.heapEnd
  mmapEnd := parent.mmapEnd
  initialRsp := left.2
  fdTable := parent.fdTable

theorem initialOf_forkedTask (old parent : Task) (slot cr3 uid : Nat) (ctx : TaskContext) :
    initialOf (forkedTask old parent slot cr3 uid ctx) =
      inherited (initialOf parent) (old.fsBase, old.initialRsp) := rfl

theorem afterFork_eq {ctx : TaskContext} {k : Kernel} {found : Initial}
    (ok : afterFork ctx k = some found) :
    ∃ left, leftByFork k = some left ∧
      found = inherited (initialOf (k.tasks k.current)) left := by
  unfold afterFork at ok
  split at ok
  · next slot pid k' free done =>
      cases ok
      refine ⟨((k.tasks slot).fsBase, (k.tasks slot).initialRsp), by rw [leftByFork, free]; rfl, ?_⟩
      unfold forkTask at done
      rw [show (firstBelow maxTasks fun i => i != k.current && (k.tasks i).state.isFree) = some slot
        from free] at done
      dsimp only at done
      split at done
      · cases done
      · next cr3 p' _ =>
          cases done
          show initialOf ((k.setTask slot _).tasks slot) = _
          rw [setTask_self, initialOf_forkedTask]
  · cases ok

/-! ## Main result -/

/-- Whatever happened before in two systems: the same program, started with the
same arguments in both, finds the same, and so do children of tasks that agree on
what they observe, if and only if what the call leaves of the last occupant of the
slot is the same. -/
theorem newTask_same_iff (k₁ k₂ : Kernel) :
    (∀ img name block found₁ found₂, afterSpawn img name block k₁ = some found₁ →
      afterSpawn img name block k₂ = some found₂ →
      (found₁ = found₂ ↔ leftBySpawn k₁ = leftBySpawn k₂)) ∧
    (∀ ctx₁ ctx₂ found₁ found₂,
      initialOf (k₁.tasks k₁.current) = initialOf (k₂.tasks k₂.current) →
      afterFork ctx₁ k₁ = some found₁ → afterFork ctx₂ k₂ = some found₂ →
      (found₁ = found₂ ↔ leftByFork k₁ = leftByFork k₂)) := by
  constructor
  · intro img name block found₁ found₂ ok₁ ok₂
    obtain ⟨⟨cwd₁, pgid₁⟩, left₁, rfl⟩ := afterSpawn_eq ok₁
    obtain ⟨⟨cwd₂, pgid₂⟩, left₂, rfl⟩ := afterSpawn_eq ok₂
    rw [left₁, left₂]
    simp [started]
  · intro ctx₁ ctx₂ found₁ found₂ parents ok₁ ok₂
    obtain ⟨⟨fsBase₁, rsp₁⟩, left₁, rfl⟩ := afterFork_eq ok₁
    obtain ⟨⟨fsBase₂, rsp₂⟩, left₂, rfl⟩ := afterFork_eq ok₂
    rw [left₁, left₂, parents]
    simp [inherited]

/-! ## A changed process group -/

/-- An event of the system or a call of `setpgid`. -/
inductive ReuseEvent where
  | sys (e : Event)
  | setpgid (pid pgid : Nat)

def ReuseEvent.step (k : Kernel) : ReuseEvent → Option Kernel
  | .sys e => advance k e
  | .setpgid pid pgid =>
    if k.userMode then settle ((PidCall.setpgid pid pgid).perform k) else none

/-- A program is started, makes the given calls, uses up its time and is killed. -/
def comeAndGo (calls : List ReuseEvent) : List ReuseEvent :=
  [.sys (.spawn (some looping) [] []), .sys (.tick fun _ => none)] ++ calls ++
    [.sys (.timer .zeroed), .sys (.timer .zeroed), .sys (.kill 1)]

set_option maxRecDepth 100000 in
theorem comeAndGo_quiet :
    (run ReuseEvent.step (Kernel.start roomyBoot) (comeAndGo [])).map (fun k =>
      (leftBySpawn k, (afterSpawn looping [] [] k).isSome)) =
      some (leftBySpawn (Kernel.start roomyBoot), true) := by decide +kernel

set_option maxRecDepth 100000 in
theorem comeAndGo_joined :
    (run ReuseEvent.step (Kernel.start roomyBoot) (comeAndGo [.setpgid 0 7])).map (fun k =>
      (afterSpawn looping [] [] k).map Initial.pgid) = some (some 7) := by decide +kernel

set_option maxRecDepth 100000 in
theorem afterSpawn_start :
    (afterSpawn looping [] [] (Kernel.start roomyBoot)).map Initial.pgid = some 0 := by
  decide +kernel

/-- A program that changed nothing has left nothing. -/
theorem newTask_same_quiet :
    ∃ k found₁ found₂, run ReuseEvent.step (Kernel.start roomyBoot) (comeAndGo []) = some k ∧
      afterSpawn looping [] [] k = some found₁ ∧
      afterSpawn looping [] [] (Kernel.start roomyBoot) = some found₂ ∧ found₁ = found₂ := by
  obtain ⟨k, ran, seen⟩ := Option.map_eq_some_iff.mp comeAndGo_quiet
  obtain ⟨found₁, first⟩ := Option.isSome_iff_exists.mp (congrArg Prod.snd seen)
  obtain ⟨found₂, second, -⟩ := Option.map_eq_some_iff.mp afterSpawn_start
  exact ⟨k, found₁, found₂, ran, first, second,
    ((newTask_same_iff k (.start roomyBoot)).1 looping [] [] found₁ found₂ first second).mpr
      (congrArg Prod.fst seen)⟩

/-- The same program, started with the same arguments after two histories, is in
process group 7 after one and in none after the other. -/
theorem stale_process_group :
    ∃ k found₁ found₂,
      run ReuseEvent.step (Kernel.start roomyBoot) (comeAndGo [.setpgid 0 7]) = some k ∧
      afterSpawn looping [] [] k = some found₁ ∧
      afterSpawn looping [] [] (Kernel.start roomyBoot) = some found₂ ∧
      found₁.pgid = 7 ∧ found₂.pgid = 0 ∧ found₁ ≠ found₂ := by
  obtain ⟨k, ran, seen⟩ := Option.map_eq_some_iff.mp comeAndGo_joined
  obtain ⟨found₁, first, group₁⟩ := Option.map_eq_some_iff.mp seen
  obtain ⟨found₂, second, group₂⟩ := Option.map_eq_some_iff.mp afterSpawn_start
  refine ⟨k, found₁, found₂, ran, first, second, group₁, group₂, ?_⟩
  rintro rfl
  rw [group₁] at group₂
  exact absurd group₂ (by decide)

end OxideOS.Sys
