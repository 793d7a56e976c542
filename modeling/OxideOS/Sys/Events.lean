import OxideOS.Sys.TaskLife

/-!
# The running system refines the life cycle of tasks

Every event of the running system is a run of the abstract machine `Life`:
`advance_follows`. The moves that not every property can live with (deaths, new
tasks, `sigsuspend`) happen only in the circumstances listed in `Permits`; all
other moves are `benign`.
-/

set_option autoImplicit false

namespace OxideOS.Sys

open Lib Mem Fs Ipc Proc Proc.Kernel
open Prog hiding update

/-! ## Events that end, start or suspend tasks -/

/-- The pid that the event sends `SIGKILL` to. -/
def Event.victim : Event → Option Nat
  | .kill pid => some (pid % 256)
  | .syscall _ (.kill pid signum) =>
    if (if signum = 0 then sigkill else signum) % 256 = sigkill then some (pid % 256) else none
  | _ => none

/-- The event sends `SIGKILL` to the living task in slot `i`. -/
def Event.kills (k : Kernel) (e : Event) (i : Nat) : Bool :=
  (e.victim.bind k.findPid == some i) && (k.tasks i).live

/-- A store of the running program succeeds. -/
def canStore (k : Kernel) (virt b : Nat) : Bool :=
  Paging.canonical virt &&
    ((Paging.store (k.tasks k.current).cr3 virt b true 2 k.paging).map Prod.fst == some .stored)

/-- The event ends the running task: it exits or raises an exception. -/
def Event.ends (k : Kernel) : Event → Bool
  | .exception _ => true
  | .store virt b => !canStore k virt b
  | .syscall _ (.exit _) => true
  | _ => false

def Event.spawns : Event → Bool
  | .spawn _ _ _ => true
  | _ => false

def Event.forks : Event → Bool
  | .syscall (some _) .fork => true
  | _ => false

def Event.suspends : Event → Bool
  | .syscall _ (.sigsuspend _) => true
  | _ => false

def Event.isTick : Event → Bool
  | .tick _ => true
  | _ => false

/-- The slot `spawn` takes. -/
def spawnSlot (k : Kernel) : Option Nat := firstBelow maxTasks fun i => (k.tasks i).state.isFree

/-- The slot `fork` takes. -/
def forkSlot (k : Kernel) : Option Nat :=
  firstBelow maxTasks fun i => i != k.current && (k.tasks i).state.isFree

/-- The moves that the event `e` may bring about in the state `k` are `ok`. -/
structure Permits (ok : Life → Move → Prop) (k : Kernel) (e : Event) : Prop where
  benign : ∀ L m, benign m = true → ok L m
  choose : e.isTick = true → ∀ L i, ok L (.choose i)
  exit : e.ends k = true → ∀ code, ok k.life (.exit code)
  kill : ∀ i, e.kills k i = true → ∀ code, ok k.life (.kill i code)
  fatal : e.isTick = true → ∀ L, FatalIn k L → ∀ code, ok L (.fatal code)
  spawn : e.spawns = true → ∀ slot, spawnSlot k = some slot → ∀ cr3, ok k.life (.spawn slot cr3)
  fork : e.forks = true → ∀ slot, forkSlot k = some slot → ∀ cr3, ok k.life (.fork slot cr3)
  suspend : e.suspends = true → ∀ wake, ok k.life (.suspend wake)

/-! ## System calls -/

theorem life_of_outline {α : Type} {c : Kern α} (kept : Prog.Keeps outline Halts c) :
    Prog.Keeps Kernel.life Halts c := kept.project Prod.fst

theorem life_of_manners {α : Type} {c : Kern α} (kept : Prog.Keeps manners Halts c) :
    Prog.Keeps Kernel.life Halts c := kept.project Prod.fst

section Calls

variable {ok : Life → Move → Prop} {k : Kernel}

/-- The exit codes a program can choose are not the scheduler's own. -/
theorem ends_of_small {code : Int} (small : -2 ^ 62 < code) :
    code ≠ exitPreempted ∧ code ≠ exitSleeping := by
  constructor <;>
  · rintro rfl
    exact absurd small (by decide)

theorem finishSlice_exit {code : Int} (small : -2 ^ 62 < code) (user : k.userMode = true)
    (allowed : ok k.life (.exit code)) : Follows ok k.life (k.finishSlice code).life := by
  obtain ⟨real, final⟩ := ends_of_small small
  rw [finishSlice_dead k real final]
  exact .one allowed (if_pos user)

theorem toI32_range (arg : Nat) : -2 ^ 62 < toI32 arg := by
  have bound : arg % 2 ^ 32 < 2 ^ 32 := Nat.mod_lt _ (by decide)
  unfold toI32
  split <;> omega

theorem exit_follows (arg : Nat) (user : k.userMode = true)
    (allowed : ∀ code, ok k.life (.exit code)) :
    Settles (exit arg) (fun k' => Follows ok k.life k'.life) k := by
  refine .of_wp fun code left => ?_
  cases left
  exact finishSlice_exit (toI32_range arg) user (allowed _)

theorem block_follows (benign : ∀ L m, benign m = true → ok L m) (user : k.userMode = true)
    {state : TaskState} (may : k.life.mayPark state = true) (ctx : TaskContext) :
    Settles (block k.current state ctx) (fun k' => Follows ok k.life k'.life) k := by
  refine .of_wp ?_
  unfold block
  rw [wp_bind, wp_update]
  intro code left
  cases left
  rw [finishSlice_sleeping]
  have parked : (k.modifyTask k.current fun t =>
      { t with ctx := { ctx with rax := 0 }, state := state }).life =
        k.life.setState k.current state := life_setTask ..
  have life : ({ k.modifyTask k.current fun t =>
      { t with ctx := { ctx with rax := 0 }, state := state } with
        userMode := false } : Kernel).life =
        { k.life.setState k.current state with userMode := false } :=
    congrArg (fun L : Life => { L with userMode := false }) parked
  rw [life]
  exact .one (m := .park state) (benign _ _ rfl) (if_pos ⟨user, may⟩)

/-- A call that sleeps blocks the caller, or lets the time pass. -/
theorem sleepUntilTick_settles {P : Kernel → Prop} (target : Nat) (ctx : Option TaskContext)
    (blocks : ∀ c, ctx = some c → Settles (block k.current (.sleeping target) c) P k)
    (waits : ∀ ticks, P { k with ticks := ticks }) : Settles (sleepUntilTick target ctx) P k := by
  cases ctx with
  | none => exact .of_ok rfl (waits _)
  | some ctx =>
    have shape : sleepUntilTick target (some ctx) k =
        (if hasTask k = true then sleepTask target ctx else do
          Prog.update fun k => { k with ticks := max k.ticks target }
          return 0) k := rfl
    by_cases busy : hasTask k = true
    · rw [if_pos busy] at shape
      exact .congr shape (blocks ctx rfl)
    · rw [if_neg busy] at shape
      exact .of_ok shape (waits _)

/-- The first child of the caller with the pid. -/
def childOf (k : Kernel) (pid : Nat) : Option Nat :=
  firstBelow maxTasks fun i =>
    (k.tasks i).pid == pid && (k.tasks i).parentPid == (k.tasks k.current).pid

section Waitpid

variable {pid i : Nat} {ctx : Option TaskContext}

theorem waitpid_missing (found : childOf k (pid % 256) = none) :
    waitpid pid ctx k = (.ok (-3), k) := by
  rw [childOf] at found
  simp only [waitpid, Prog.bind_apply, Prog.gets, id_eq, found]
  rfl

theorem waitpid_dead {code : Int} (found : childOf k (pid % 256) = some i)
    (dead : (k.tasks i).state = .dead code) :
    waitpid pid ctx k = (.ok code, k.reap k.current i code) := by
  rw [childOf] at found
  simp only [waitpid, Prog.bind_apply, Prog.gets, id_eq, found, dead]
  rfl

theorem waitpid_alive (found : childOf k (pid % 256) = some i)
    (alive : ∀ code, (k.tasks i).state ≠ .dead code) :
    waitpid pid ctx k = match ctx with
      | some ctx => waitForPid k.current (pid % 256) ctx k
      | none => (.ok (-6), k) := by
  rw [childOf] at found
  cases state : (k.tasks i).state with
  | dead code => exact absurd state (alive code)
  | _ =>
    simp only [waitpid, Prog.bind_apply, Prog.gets, id_eq, found, state]
    cases ctx <;> rfl

/-- A call that waits is refused, or reaps a dead child, or blocks the caller. -/
theorem waitpid_settles {P : Kernel → Prop} (stays : P k)
    (reaps : ∀ i code, childOf k (pid % 256) = some i → (k.tasks i).state = .dead code →
      P (k.reap k.current i code))
    (blocks : ∀ c, (childOf k (pid % 256)).isSome = true →
      Settles (block k.current (.waiting (pid % 256)) c) P k) : Settles (waitpid pid ctx) P k := by
  cases found : childOf k (pid % 256) with
  | none => exact .of_ok (waitpid_missing found) stays
  | some i =>
    by_cases dead : ∃ code, (k.tasks i).state = .dead code
    · obtain ⟨code, dead⟩ := dead
      exact .of_ok (waitpid_dead found dead) (reaps i code found dead)
    · have result := @waitpid_alive k pid i ctx found fun code here => dead ⟨code, here⟩
      cases ctx with
      | none => exact .of_ok result stays
      | some ctx => exact .congr result (blocks ctx (by rw [found]; rfl))

end Waitpid

theorem killPidSig_settles {P : Kernel → Prop} {pid signum : Nat}
    (sent : P (sendSignal (pid % 256) ((if signum = 0 then sigkill else signum) % 256) k).2) :
    Settles (killPidSig pid signum) P k := by
  refine .of_wp ?_
  unfold wp killPidSig
  dsimp only
  cases answer : sendSignal (pid % 256) ((if signum = 0 then sigkill else signum) % 256) k with
  | mk reached k₁ =>
    rw [answer] at sent
    cases reached <;> exact sent

theorem sleepUntilTick_follows (benign : ∀ L m, benign m = true → ok L m)
    (user : k.userMode = true) (target : Nat) (ctx : Option TaskContext) :
    Settles (sleepUntilTick target ctx) (fun k' => Follows ok k.life k'.life) k :=
  sleepUntilTick_settles target ctx (fun c _ => block_follows benign user rfl c) fun _ =>
    Follows.refl k.life

theorem waitpid_follows (benign : ∀ L m, benign m = true → ok L m) (user : k.userMode = true)
    (pid : Nat) (ctx : Option TaskContext) :
    Settles (waitpid pid ctx) (fun k' => Follows ok k.life k'.life) k := by
  refine waitpid_settles (Follows.refl k.life) (fun i code found dead => ?_) fun c found => ?_
  · obtain ⟨bound, child, -⟩ := firstBelow_eq_some found
    rw [Bool.and_eq_true, beq_iff_eq, beq_iff_eq] at child
    rw [life_reap]
    exact .one (m := .reap i code) (benign _ _ rfl) (if_pos ⟨user, bound, dead, child.2⟩)
  · have may : k.life.mayPark (.waiting (pid % 256)) = true := found
    exact block_follows benign user may c

theorem forkChild_follows (user : k.userMode = true) (ctx : TaskContext)
    (allowed : ∀ slot, forkSlot k = some slot → ∀ cr3, ok k.life (.fork slot cr3)) :
    Settles (forkChild (some ctx)) (fun k' => Follows ok k.life k'.life) k := by
  refine .of_wp ?_
  unfold wp forkChild forkTask
  dsimp only
  cases found : firstBelow maxTasks fun i => i != k.current && (k.tasks i).state.isFree with
  | none => exact Follows.refl k.life
  | some slot =>
    dsimp only
    cases Paging.cowForkUserPageTable (k.tasks k.current).cr3 stackRange
        (shmRanges (k.tasks k.current).shmAttaches k.segtab) k.paging with
    | mk result p =>
      cases result with
      | error e => exact Follows.refl k.life
      | ok cr3 =>
        obtain ⟨bound, suits, -⟩ := firstBelow_eq_some found
        have both : slot ≠ k.current ∧ (k.tasks slot).state.isFree = true := by
          simpa using suits
        have placed : (k.setTask slot (forkedTask (k.tasks slot) (k.tasks k.current) slot cr3
            k.nextUid { ctx with rax := 0 })).life = k.life.setSlot slot
              ⟨.ready, slot + 1, (k.tasks k.current).pid, cr3, k.nextUid,
                (k.tasks k.current).uid⟩ := life_setTask ..
        refine .one (m := .fork slot cr3) (allowed slot found cr3) ?_
        refine (if_pos ⟨user, bound, both.1, both.2⟩).trans (congrArg some ?_)
        exact (congrArg (fun L : Life => { L.note (.forked (k.tasks k.current).uid k.nextUid
          (slot + 1)) with nextUid := k.nextUid + 1 }) placed).symm

/-- The current task has the new program and has given up the processor, or only the
page tables have changed. -/
theorem execBinary_settles {P : Kernel → Prop} {img : Image} {argBlock : List UInt8}
    (failed : ∀ p, P { k with paging := p })
    (replaced : ∀ cr3 rsp p, P ({ k.modifyTask k.current fun t =>
      { t with
        cr3 := cr3, entry := img.entry, firstRun := true, initialRsp := rsp
        fdTable := t.fdTable.execTable, outputLen := 0 } with
      paging := p }.finishSlice exitPreempted)) :
    Settles (execBinary img argBlock) P k := by
  refine .of_wp ?_
  unfold wp execBinary
  cases execSpace img argBlock k.paging with
  | mk result p =>
    cases result with
    | error e =>
      cases e with
      | halted =>
        intro code left
        cases left
      | _ => exact failed p
    | ok space =>
      intro code left
      cases left
      exact replaced ..

theorem execBinary_follows (benign : ∀ L m, benign m = true → ok L m) (user : k.userMode = true)
    (img : Image) (argBlock : List UInt8) :
    Settles (execBinary img argBlock) (fun k' => Follows ok k.life k'.life) k := by
  refine execBinary_settles (fun p => .refl k.life) fun cr3 rsp p => ?_
  rw [finishSlice_preempted]
  have replaced : (k.modifyTask k.current fun t =>
      { t with
        cr3 := cr3, entry := img.entry, firstRun := true, initialRsp := rsp
        fdTable := t.fdTable.execTable, outputLen := 0 }).life =
      k.life.setSlot k.current { k.life.slots k.current with cr3 := cr3 } :=
    life_setTask ..
  have exec : Follows ok k.life (k.life.exec cr3) :=
    .one (m := .exec cr3) (benign _ _ rfl) (if_pos user)
  have preempt : Follows ok (k.life.exec cr3)
      { (k.life.exec cr3).setState k.current .ready with userMode := false } :=
    .one (m := .preempt) (benign _ _ rfl) (if_pos user)
  refine (exec.trans preempt).trans (.of_eq ?_)
  exact congrArg (fun L : Life => { L.setState k.current .ready with
    userMode := false }) replaced

theorem killPidSig_follows (benign : ∀ L m, benign m = true → ok L m) (pid signum : Nat)
    (kill : ∀ i, (Event.syscall none (.kill pid signum)).kills k i = true → ∀ code,
      ok k.life (.kill i code)) :
    Settles (killPidSig pid signum) (fun k' => Follows ok k.life k'.life) k := by
  have sent := sendSignal_follows benign (pid % 256)
    ((if signum = 0 then sigkill else signum) % 256) k (by
      intro isKill i code found alive
      refine kill i ?_ code
      simp [Event.kills, Event.victim, isKill, found, alive])
  exact killPidSig_settles sent

theorem sigsuspend_follows (user : k.userMode = true) (maskPtr : Nat)
    (suspend : ∀ wake, ok k.life (.suspend wake)) :
    Settles (sigsuspend maskPtr) (fun k' => Follows ok k.life k'.life) k := by
  refine .of_returns ?_
  unfold sigsuspend
  rw [wp_bind]
  refine wp_mono (fun rawMask k₁ same => ?_) (fun _ _ stopped => stopped.2)
    ((loadMask_keeps maskPtr).spec k)
  rw [wp_bind]
  have life : k₁.life = k.life := congrArg (fun s => s.1.1) same
  show Follows ok k.life (k₁.setTask k₁.current _).life
  rw [life_setTask, ← life]
  have moved : Follows ok k₁.life (k₁.life.setState k₁.current (.sleeping ((2 ^ 64 - 1) / 2))) := by
    refine .one (m := .suspend ((2 ^ 64 - 1) / 2)) (life ▸ suspend _) (if_pos ?_)
    rw [life]
    exact user
  exact moved

theorem msgrcvWait_follows (benign : ∀ L m, benign m = true → ok L m) (user : k.userMode = true)
    (queueId msgPtr : Nat) (message : Option (List UInt8)) (ctx : Option TaskContext) :
    Settles (msgrcvWait queueId msgPtr message ctx) (fun k' => Follows ok k.life k'.life) k := by
  unfold msgrcvWait
  split
  · exact .of_returns (Follows.refl k.life)
  · exact .of_keeps (life_of_manners (manners_of_surface
      (.bind (copyToUser_keeps _ _) fun _ => .pure _))) k
  · exact block_follows benign user rfl _
  · exact .of_returns (Follows.refl k.life)

theorem dispatch_follows {ctx : Option TaskContext} {call : Syscall}
    (permits : Permits ok k (.syscall ctx call)) (user : k.userMode = true) :
    Settles (dispatch ctx call) (fun k' => Follows ok k.life k'.life) k := by
  cases quiet : call.quiet with
  | true => exact .of_keeps (life_of_manners (dispatch_quiet ctx quiet)) k
  | false =>
    cases call with
    | exit arg => exact exit_follows arg user (permits.exit rfl)
    | fork =>
      cases ctx with
      | none => exact .of_returns (Follows.refl k.life)
      | some ctx => exact forkChild_follows user ctx (permits.fork rfl)
    | waitpid pid => exact waitpid_follows permits.benign user pid ctx
    | exec binary argBlock =>
      cases binary with
      | error code => exact .of_returns (Follows.refl k.life)
      | ok img => exact execBinary_follows permits.benign user img argBlock
    | sleep targetTick => exact sleepUntilTick_follows permits.benign user targetTick ctx
    | kill pid signum => exact killPidSig_follows permits.benign pid signum permits.kill
    | sigaction signum handler oldPtr =>
      exact .of_keeps (life_of_outline (sigaction_keeps signum handler oldPtr)) k
    | sigreturn => exact .of_keeps (life_of_outline sigreturn_keeps) k
    | sigprocmask how setPtr oldPtr =>
      exact .of_keeps (life_of_outline (sigprocmask_keeps how setPtr oldPtr)) k
    | sigsuspend maskPtr => exact sigsuspend_follows user maskPtr (permits.suspend rfl)
    | msgrcvWait queueId msgPtr message =>
      exact msgrcvWait_follows permits.benign user queueId msgPtr message ctx
    | brk | mmap | munmap | shmget | shmat | shmdt | sigpending | alarm | pipe | dup | dup2 | fcntl
      | openFile | close | read | write => cases quiet

end Calls

/-! ## Events -/

section Events

variable {ok : Life → Move → Prop} {k k' : Kernel}

/-- What `spawn` does to the tasks: nothing, or a new one in the first free slot. -/
theorem life_spawn (binary : Option Image) (name argBlock : List UInt8) (k : Kernel) :
    (spawn binary name argBlock k).2.life = k.life ∨
      ∃ slot cr3, spawnSlot k = some slot ∧
        (spawn binary name argBlock k).2.life = k.life.spawn slot cr3 := by
  unfold spawn
  cases binary with
  | none => exact .inl rfl
  | some img =>
    dsimp only
    cases found : firstBelow maxTasks fun i => (k.tasks i).state.isFree with
    | none => exact .inl rfl
    | some slot =>
      dsimp only
      cases spawnSpace img k.paging with
      | mk result p =>
        cases result with
        | error e => exact .inl rfl
        | ok cr3 =>
          dsimp only
          split
          · exact .inl rfl
          · next rsp p' _ =>
              refine .inr ⟨slot, cr3, found, ?_⟩
              have placed : (k.setTask slot (spawnedTask (k.tasks slot) slot cr3 img.entry
                  rsp k.nextUid name)).life = k.life.setSlot slot
                    ⟨.ready, slot + 1, 0, cr3, k.nextUid, 0⟩ := life_setTask ..
              exact congrArg (fun L : Life => { L with nextUid := k.nextUid + 1 }) placed

theorem timerInterrupt_follows (benign : ∀ L m, benign m = true → ok L m) (ctx : TaskContext)
    (k : Kernel) : Follows ok k.life (k.timerInterrupt ctx).life := by
  unfold timerInterrupt
  dsimp only
  split
  · next user =>
      split
      · rw [finishSlice_preempted]
        refine .one (m := .preempt) (benign _ _ rfl) ((if_pos user).trans (congrArg some ?_))
        have saved : (({ k with ticks := k.ticks + 1, sliceRemaining := k.sliceRemaining - 1 } :
            Kernel).modifyTask k.current fun t => { t with ctx := ctx }).life = k.life :=
          life_modifyTask rfl
        exact (congrArg (fun L : Life => { L.setState k.current .ready with userMode := false })
          saved).symm
      · exact .refl k.life
  · exact .refl k.life

theorem exceptionCode_range (vector : Nat) : -2 ^ 62 < exceptionCode vector := by
  unfold exceptionCode
  split <;> decide

/-- A store of the program keeps the tasks, or ends the running one. -/
theorem store_follows {virt b : Nat} (user : k.userMode = true)
    (exit : canStore k virt b = false → ∀ code, ok k.life (.exit code))
    (stepped : advance k (.store virt b) = some k') : Follows ok k.life k'.life := by
  have ends : ∀ p, canStore k virt b = false →
      Follows ok k.life (({ k with paging := p } : Kernel).finishSlice (-11)).life :=
    fun p failed => finishSlice_exit (k := { k with paging := p }) (by decide) user
      (exit failed (-11))
  unfold advance at stepped
  dsimp only at stepped
  rw [if_pos user] at stepped
  split at stepped
  · next canonical =>
      split at stepped
      · cases stepped
        exact .refl k.life
      · next result p different stored =>
          cases stepped
          refine ends p ?_
          simpa [canStore, canonical, stored] using different
      · cases stepped
  · next outside =>
      cases stepped
      refine ends k.paging ?_
      simp [canStore, outside]

/-- **Every event is a run of the life cycle.** -/
theorem advance_follows {e : Event} (slots : Slots k.life) (permits : Permits ok k e)
    (stepped : advance k e = some k') : Follows ok k.life k'.life := by
  cases e with
  | spawn binary name argBlock =>
    have kernel : k.userMode = false := by
      by_contra user
      simp [advance, user] at stepped
    have reached : (spawn binary name argBlock k).2 = k' := by
      simp only [advance, kernel, Bool.false_eq_true, if_false] at stepped
      split at stepped
      · cases stepped
      · next result => exact (congrArg Prod.snd result).trans (Option.some.inj stepped)
    rcases life_spawn binary name argBlock k with same | ⟨slot, cr3, found, life⟩
    · rw [← reached]
      exact .of_eq same
    · obtain ⟨bound, vacant, -⟩ := firstBelow_eq_some found
      rw [← reached, life]
      exact .one (permits.spawn rfl slot found cr3) (if_pos ⟨kernel, bound, vacant⟩)
  | kill pid =>
    simp only [advance, Option.ite_none_left_eq_some, Option.some.injEq] at stepped
    obtain ⟨kernel, rfl⟩ := stepped
    refine sendSignal_follows permits.benign (pid % 256) sigkill k ?_
    intro _ i code found alive
    refine permits.kill i ?_ code
    simp [Event.kills, Event.victim, found, alive]
  | tick messages =>
    simp only [advance, Option.ite_none_left_eq_some] at stepped
    obtain ⟨kernel, settled⟩ := stepped
    have kernel : k.userMode = false := by simpa using kernel
    exact tick_follows permits.benign slots kernel (permits.choose rfl)
      (fun L code foreseen => permits.fatal rfl L foreseen code) messages k' settled
  | timer ctx =>
    cases stepped
    exact timerInterrupt_follows permits.benign ctx k
  | exception vector =>
    simp only [advance, Option.ite_none_right_eq_some, Option.some.injEq] at stepped
    obtain ⟨user, rfl⟩ := stepped
    exact finishSlice_exit (exceptionCode_range vector) user (permits.exit rfl _)
  | store virt b =>
    have user : k.userMode = true := by
      by_contra kernel
      simp [advance, kernel] at stepped
    refine store_follows user (fun failed => permits.exit ?_) stepped
    simp [Event.ends, failed]
  | syscall ctx call =>
    simp only [advance, Option.ite_none_right_eq_some] at stepped
    exact dispatch_follows permits stepped.1 k' stepped.2

end Events

end OxideOS.Sys
