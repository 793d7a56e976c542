import OxideOS.Mem.SparseFork
import OxideOS.Proc.Lineage
import OxideOS.Sys.Preemption

/-!
# Completed waits

`spawn` and `fork` take the first slot that is `Empty` or `Dead`, although a
parent may not have collected the dead task in it yet, and other tasks may still
name its pid as their parent's. In runs in which neither happens (`Tidy`) every
completed wait gets the exit code of the child that was forked.
-/

set_option autoImplicit false

namespace OxideOS.Sys

open Lib Mem Fs Ipc Proc Proc.Kernel

instance (s : Slot) : Decidable s.Taken := inferInstanceAs (Decidable (s.state ≠ .empty))

instance (L : Life) (slot : Nat) : Decidable (Vacant L slot) :=
  inferInstanceAs (Decidable (_ ∧ _))

/-- The slot that a new task is put into is that of no task whose parent is still
there, and no task has its pid as that of its parent. -/
def Tidy (k : Kernel) (e : Event) : Prop :=
  (e.spawns = true → ∀ slot ∈ spawnSlot k, Vacant k.life slot) ∧
  (e.forks = true → ∀ slot ∈ forkSlot k, Vacant k.life slot)

theorem Tidy.permits {k : Kernel} {e : Event} (tidy : Tidy k e) : Permits Housed k e where
  benign L m allowed := by cases m <;> trivial
  choose _ _ _ := trivial
  exit _ _ := trivial
  kill _ _ _ := trivial
  fatal _ _ _ _ := trivial
  spawn spawns slot found _ := tidy.1 spawns slot found
  fork forks slot found _ := tidy.2 forks slot found
  suspend _ _ := trivial

theorem lineage_start (boot : Paging) : Lineage (Kernel.start boot).life := by
  have empty : ∀ i, ¬((Kernel.start boot).life.slots i).Taken := fun i taken => taken rfl
  have silent : (Kernel.start boot).life.trace = [] := rfl
  refine ⟨fun _ _ taken => absurd taken (empty _), fun {i c} _ waits => ?_,
    fun {i code} _ died => ?_, fun {T c p} member => ?_, fun {T c p} opened => ?_, ?_⟩
  · exact absurd waits (by show TaskState.empty ≠ _; simp)
  · exact absurd died (by show TaskState.empty ≠ _; simp)
  · simp [silent] at member
  · simpa [silent] using opened.mem
  · intro before T p d code after split
    simp [silent] at split

theorem advance_lineage {k k' : Kernel} {e : Event} (holds : Slots k.life ∧ Lineage k.life)
    (tidy : Tidy k e) (stepped : advance k e = some k') : Slots k'.life ∧ Lineage k'.life :=
  (advance_follows holds.1 tidy.permits stepped).preserves
    (I := fun L => Slots L ∧ Lineage L)
    (fun holds housed moved => ⟨holds.1.step moved, holds.2.step holds.1 housed moved⟩) holds

/-- A program forks and waits for its child, which exits with code 7. -/
def forkAndWait : List Event :=
  [.syscall (some .zeroed) .fork, .syscall (some .zeroed) (.waitpid 2), .tick fun _ => none,
    .syscall (some .zeroed) (.exit 7)]

/-- Before the next tick a program is started; it exits with code 5. -/
def takeOver : List Event :=
  [.spawn (some looping) [] [], .tick fun _ => none, .syscall (some .zeroed) (.exit 5),
    .tick fun _ => none]

/-- The program has been started and runs. -/
def launched : Kernel :=
  (run advance (Kernel.start roomyBoot) startLooping).getD (Kernel.start roomyBoot)

section Tables

open Paging

/-- The tables of the program are 0x2000000, 0x2002000 and 0x2003000, and at the entries 2,
3 and 4 of the last one those of the code, the stack and the trampoline. -/
def rooted : Paging := launched.paging.taken.2.initL4 0x2048000
def topLinked : Paging := rooted.link 0x2000000 0x2048000 0
def linked : Paging := topLinked.link 0x2002000 0x2049000 0
def codeLinked : Paging := linked.link 0x2003000 0x204A000 2
def codeCopied : Paging := codeLinked.copyPages stackRange 0x2045000 0x204B000 0x400000 0 1
def stackLinked : Paging := codeCopied.link 0x2003000 0x204A000 3
def stackCopied : Paging := stackLinked.copyPages stackRange 0x2004000 0x204C000 0x600000 448 64
def lastLinked : Paging := stackCopied.link 0x2003000 0x204A000 4
def copied : Paging := lastLinked.copyPages stackRange 0x2047000 0x208D000 0x800000 256 1

set_option maxRecDepth 100000 in
theorem code_copies :
    cowForkLevel stackRange [] 1 0x2045000 0x204B000 0x400000 512 codeLinked =
      (.ok ⟨⟩, codeCopied) :=
  cowForkLevel_run 0 1 511 rfl rfl (copyPages_ran (by decide +kernel))
    (by decide +kernel)

set_option maxRecDepth 100000 in
theorem stack_copies :
    cowForkLevel stackRange [] 1 0x2004000 0x204C000 0x600000 512 stackLinked =
      (.ok ⟨⟩, stackCopied) :=
  cowForkLevel_run 448 64 0 rfl (by decide +kernel)
    (copyPages_ran (by decide +kernel)) rfl

set_option maxRecDepth 100000 in
theorem trampoline_copies :
    cowForkLevel stackRange [] 1 0x2047000 0x208D000 0x800000 512 lastLinked =
      (.ok ⟨⟩, copied) :=
  cowForkLevel_run 256 1 255 rfl (by decide +kernel)
    (copyPages_ran (by decide +kernel)) (by decide +kernel)

set_option maxRecDepth 100000 in
theorem tables_copy :
    cowForkLevel stackRange [] 2 0x2003000 0x204A000 0 512 linked = (.ok ⟨⟩, copied) := by
  have code : linked.leads 0x2003000 2 0x2045000 0x204B000 = true := by decide +kernel
  have stack : codeCopied.leads 0x2003000 3 0x2004000 0x204C000 = true := by decide +kernel
  have last : stackCopied.leads 0x2003000 4 0x2047000 0x208D000 = true := by decide +kernel
  exact cowForkLevel_run 2 (1 + (1 + 1)) 507 rfl (by decide +kernel)
    (forRange_chain (forRange_table code rfl code_copies) rfl
      (forRange_chain (forRange_table stack rfl stack_copies) rfl
        (forRange_table last rfl trampoline_copies))) (by decide +kernel)

set_option maxRecDepth 100000 in
theorem fork_copies : cowForkUserPageTable 0x2000000 stackRange [] launched.paging =
    (.ok 0x2048000, copied) := by
  have below : topLinked.leads 0x2002000 0 0x2003000 0x204A000 = true := by decide +kernel
  have second : cowForkLevel stackRange [] 3 0x2002000 0x2049000 0 512 topLinked =
      (.ok ⟨⟩, copied) :=
    cowForkLevel_run 0 1 511 rfl rfl (forRange_table below rfl tables_copy)
      (by decide +kernel)
  have top : rooted.leads 0x2000000 0 0x2002000 0x2049000 = true := by decide +kernel
  have first : cowForkLevel stackRange [] 4 0x2000000 0x2048000 0 256 rooted =
      (.ok ⟨⟩, copied) :=
    cowForkLevel_run 0 1 255 rfl rfl (forRange_table top rfl second)
      (by decide +kernel)
  have wet : launched.paging.frameAllocator.allocateFrame.isSome = true := by decide +kernel
  have root : launched.paging.taken.1 = 0x2048000 := by decide +kernel
  exact cowForkUserPageTable_run wet root first

end Tables

/-- The task in slot `parent` has been forked into `slot`. -/
def forkedInto (k : Kernel) (parent slot cr3 : Nat) (p : Paging) : Kernel :=
  { (k.setTask slot (forkedTask (k.tasks slot) (k.tasks parent) slot cr3 k.nextUid .zeroed)).note
      (.forked (k.tasks parent).uid k.nextUid (slot + 1)) with
    paging := p
    files := (k.tasks parent).fdTable.addrefAll k.files
    nextUid := k.nextUid + 1 }

theorem advance_fork {k : Kernel} {parent slot space cr3 : Nat} {p : Paging}
    (user : k.userMode = true) (current : k.current = parent)
    (found : (firstBelow maxTasks fun i => i != parent && (k.tasks i).state.isFree) = some slot)
    (root : (k.tasks parent).cr3 = space)
    (unshared : shmRanges (k.tasks parent).shmAttaches k.segtab = [])
    (copies : Paging.cowForkUserPageTable space stackRange [] k.paging = (.ok cr3, p)) :
    advance k (.syscall (some .zeroed) .fork) = some (forkedInto k parent slot cr3 p) := by
  subst current root
  simp only [advance, user, if_true, dispatch, forkChild, forkTask, found, unshared, copies, settle]
  rfl

set_option maxRecDepth 100000 in
theorem start_forks :
    run advance (Kernel.start roomyBoot) (startLooping ++ [.syscall (some .zeroed) .fork]) =
      some (forkedInto launched 0 1 0x2048000 copied) := by
  have runs : (run advance (Kernel.start roomyBoot) startLooping).isSome = true := by decide +kernel
  have ran : run advance (Kernel.start roomyBoot) startLooping = some launched := by
    obtain ⟨k, ran⟩ := Option.isSome_iff_exists.mp runs
    rw [launched, ran, Option.getD_some]
  refine run_append ran (run_cons.mpr ⟨_, advance_fork ?_ ?_ ?_ ?_ ?_ fork_copies, rfl⟩)
  all_goals decide +kernel

/-- The run goes on from the fork. -/
theorem trace_of_forked {more : List Event} {trace : List Note}
    (rest : (run advance (forkedInto launched 0 1 0x2048000 copied)
      (forkAndWait.tail ++ more)).map (·.trace) = some trace) :
    ∃ k, run advance (Kernel.start roomyBoot) (startLooping ++ (forkAndWait ++ more)) = some k ∧
      k.trace = trace := by
  obtain ⟨k, ran, rfl⟩ := Option.map_eq_some_iff.mp rest
  have whole := run_append start_forks ran
  rw [List.append_assoc] at whole
  exact ⟨k, whole, rfl⟩

end OxideOS.Sys
