import OxideOS.Sys.Fairness

/-!
# Process ids in system calls

`kill`, `waitpid`, `getpgid` and `setpgid` take a pid of 64 bits and look for a task
whose pid, of 8 bits, equals the low byte. `getpgid` answers for the caller if there is
none, and `setpgid` finds an empty slot for a low byte of 0.

`pid_exact_iff` says for each call when it keeps to the task whose pid is the whole
argument; `pids_narrowed` has calls that do not.
-/

set_option autoImplicit false

namespace OxideOS.Sys

open Lib Mem Proc Proc.Kernel

/-! ## Process groups -/

/-- The process group of a task; 0 stands for its own. -/
def groupOf (t : Task) : Nat := if t.pgid = 0 then t.pid else t.pgid

/-- The group of the task with the pid, or of the caller if there is no such task. -/
def getpgid (pid : Nat) (k : Kernel) : Int :=
  let pid := pid % 2 ^ 32
  let target := if pid = 0 then k.current else (k.findPid (pid % 256)).getD k.current
  groupOf (k.tasks target)

def setpgid (pid pgid : Nat) (k : Kernel) : Int × Kernel :=
  let pid := pid % 2 ^ 32
  let targetPid := if pid = 0 then (k.tasks k.current).pid else pid
  let newPgid := if pgid % 2 ^ 32 = 0 then targetPid % 256 else pgid % 256
  match k.findPid (targetPid % 256) with
  | none => (-3, k)
  | some i => (0, k.modifyTask i fun t => { t with pgid := newPgid })

/-- The calls that name a task. -/
inductive PidCall where
  | kill (pid signum : Nat)
  | waitpid (pid : Nat) (ctx : Option TaskContext)
  | getpgid (pid : Nat)
  | setpgid (pid pgid : Nat)

namespace PidCall

def pid : PidCall → Nat
  | .kill pid _ | .waitpid pid _ | .getpgid pid | .setpgid pid _ => pid

def perform : PidCall → Kern Int
  | .kill pid signum => killPidSig pid signum
  | .waitpid pid ctx => Sys.waitpid pid ctx
  | .getpgid pid => Prog.gets (Sys.getpgid pid)
  | .setpgid pid pgid => fun k => (.ok (Sys.setpgid pid pgid k).1, (Sys.setpgid pid pgid k).2)

/-- The call blocks its caller when it waits. -/
def mayBlock : PidCall → Bool
  | .waitpid _ _ => true
  | _ => false

/-- The signal or the group does not fit its type. -/
def Oversized : PidCall → Prop
  | .kill _ signum => 256 ≤ signum
  | .setpgid _ pgid => 256 ≤ pgid
  | _ => False

/-- What the call answers about a task. -/
def Says (t : Task) (v : Int) : PidCall → Prop
  | .kill _ _ | .setpgid _ _ => v = 0
  | .waitpid _ _ => t.state = .dead v
  | .getpgid _ => v = groupOf t

end PidCall

/-! ## Exact calls -/

/-- The pid names the task in slot `i`: alive, or a dead child of the caller. -/
def Named (k : Kernel) (pid i : Nat) : Prop :=
  i < maxTasks ∧ (k.tasks i).pid = pid ∧ (k.tasks i).state ≠ .empty ∧
    ((k.tasks i).live = true ∨ (k.tasks i).parentPid = (k.tasks k.current).pid)

/-- The call is refused and has no effect. -/
def Denied (k : Kernel) (c : PidCall) : Prop := ∃ v < 0, c.perform k = (.ok v, k)

/-- The call keeps to the tasks that its pid names. -/
structure Precise (k : Kernel) (c : PidCall) : Prop where
  missing : (∀ i, ¬Named k c.pid i) → Denied k c
  oversized : c.Oversized → Denied k c
  affects : ∀ j, (c.perform k).2.tasks j ≠ k.tasks j →
    Named k c.pid j ∨ c.mayBlock = true ∧ j = k.current
  reports : ∀ v, (c.perform k).1 = .ok v → Denied k c ∨ ∃ i, Named k c.pid i ∧ c.Says (k.tasks i) v

def IsSignal (signum : Nat) : Prop := ¬(signum = 0 ∨ nsig ≤ signum)

/-- The call finds no other task than the one with the whole pid. -/
def PidCall.Narrow (k : Kernel) : PidCall → Prop
  | .kill pid signum => ∀ i, k.findPid (pid % 256) = some i → (k.tasks i).live = true →
      IsSignal ((if signum = 0 then sigkill else signum) % 256) → pid < 256 ∧ signum < 256
  | .waitpid pid ctx => ∀ i, childOf k (pid % 256) = some i →
      pid < 256 ∨ (k.tasks i).live = true ∧ ctx = none
  | .getpgid pid => ∃ i, Named k pid i
  | .setpgid pid pgid => ∀ i, k.findPid ((if pid % 2 ^ 32 = 0 then (k.tasks k.current).pid
      else pid % 2 ^ 32) % 256) = some i → Named k pid i ∧ pgid < 256

section Cases

variable {k : Kernel} {pid i : Nat}

/-- A pid leads to the task it names. -/
theorem Named.findPid (named : Named k pid i) (slots : Slots k.life) :
    k.findPid pid = some i ∧ pid = i + 1 := by
  obtain ⟨bound, rfl, taken, -⟩ := named
  have number : (k.tasks i).pid = i + 1 := slots.pid bound taken
  rw [number]
  exact ⟨slots.findPid bound taken, rfl⟩

theorem Named.pid_lt (named : Named k pid i) (slots : Slots k.life) : pid < 256 := by
  have bound := named.1
  rw [(named.findPid slots).2]
  rw [maxTasks] at bound
  omega

theorem findPid_eq_some (found : k.findPid pid = some i) :
    i < maxTasks ∧ (k.tasks i).pid = pid := by
  obtain ⟨bound, here, -⟩ := firstBelow_eq_some found
  exact ⟨bound, beq_iff_eq.mp here⟩

/-- The low byte of a pid finds the task it names, if the pid is a byte. -/
theorem named_of_live (bound : i < maxTasks) (here : (k.tasks i).pid = pid % 256)
    (alive : (k.tasks i).live = true) (small : pid < 256) : Named k pid i := by
  refine ⟨bound, here.trans (Nat.mod_eq_of_lt small), fun empty => ?_, .inl alive⟩
  rw [Task.live, empty] at alive
  cases alive

/-- A call that is refused keeps to everything. -/
theorem Denied.exact {c : PidCall} (refused : Denied k c) : Precise k c := by
  refine ⟨fun _ => refused, fun _ => refused, fun j changed => ?_, fun _ _ => .inl refused⟩
  obtain ⟨v, -, same⟩ := refused
  rw [same] at changed
  exact absurd rfl changed

/-- A call that is accepted is for a task that its pid names, and its arguments fit. -/
theorem Precise.fits {c : PidCall} (exact : Precise k c) (accepted : ¬Denied k c) :
    (∃ i, Named k c.pid i) ∧ ¬c.Oversized := by
  refine ⟨?_, fun oversized => accepted (exact.oversized oversized)⟩
  by_contra none
  exact accepted (exact.missing fun i named => none ⟨i, named⟩)

theorem Named.exact {c : PidCall} (named : Named k c.pid i) (fits : ¬c.Oversized)
    (affects : ∀ j, (c.perform k).2.tasks j ≠ k.tasks j → j = i ∨ c.mayBlock = true ∧ j = k.current)
    (reports : ∀ v, (c.perform k).1 = .ok v → c.Says (k.tasks i) v) : Precise k c where
  missing none := absurd named (none i)
  oversized large := absurd large fits
  affects j changed := by
    rcases affects j changed with rfl | blocked
    · exact .inl named
    · exact .inr blocked
  reports v answered := .inr ⟨i, named, reports v answered⟩

theorem not_refused {c : PidCall} {v : Int} {k' : Kernel} (performed : c.perform k = (.ok v, k'))
    (positive : 0 ≤ v) : ¬Denied k c := by
  rintro ⟨w, negative, refused⟩
  rw [performed] at refused
  cases refused
  omega

theorem sendSignal_accepts {signum : Nat} (valid : IsSignal signum) (found : k.findPid pid = some i)
    (alive : (k.tasks i).live = true) : (sendSignal pid signum k).1 = true := by
  have busy : (k.tasks i).state.isFree = false := by simpa [Task.live] using alive
  simp only [sendSignal, if_neg valid, found, busy, Bool.false_eq_true, if_false]
  split <;> rfl

theorem kill_exact_iff (slots : Slots k.life) (pid signum : Nat) :
    Precise k (.kill pid signum) ↔ (PidCall.kill pid signum).Narrow k := by
  generalize named : (if signum = 0 then sigkill else signum) % 256 = sig
  have performed : (PidCall.kill pid signum).perform k =
      (.ok (if (sendSignal (pid % 256) sig k).1 then 0 else -3),
        (sendSignal (pid % 256) sig k).2) := by
    simp only [PidCall.perform, killPidSig, named]
    rcases sendSignal (pid % 256) sig k with ⟨answer, k'⟩
    cases answer <;> rfl
  constructor
  · intro exact i found alive valid
    rw [named] at valid
    rw [sendSignal_accepts valid found alive, if_pos rfl] at performed
    obtain ⟨⟨j, here⟩, fits⟩ := exact.fits (not_refused performed (Int.le_refl 0))
    exact ⟨here.pid_lt slots, Nat.not_le.mp fits⟩
  · intro narrow
    rcases sendSignal_cases (pid % 256) sig k with refused | ⟨i, found, alive, effect⟩
    · rw [refused] at performed
      exact Denied.exact ⟨-3, by decide, performed⟩
    · obtain ⟨bound, here⟩ := findPid_eq_some found
      have valid : IsSignal sig := by
        intro invalid
        rw [sendSignal, if_pos invalid] at effect
        rcases effect with ⟨-, sent⟩ | ⟨-, sent⟩ <;> cases sent
      obtain ⟨small, fits⟩ := narrow i found alive (named ▸ valid)
      refine (named_of_live bound here alive small).exact (Nat.not_le.mpr fits)
        (fun j changed => .inl ?_) fun v answered => ?_
      · by_contra other
        rw [performed] at changed
        rcases effect with ⟨-, sent⟩ | ⟨-, sent⟩
        · rw [sent] at changed
          exact changed (setTask_of_ne k _ other)
        · rw [sent] at changed
          exact changed (setTask_of_ne k _ other)
      · rw [performed, sendSignal_accepts valid found alive, if_pos rfl] at answered
        exact (Except.ok.inj answered).symm

theorem waitpid_exact_iff (slots : Slots k.life) (user : k.userMode = true) (pid : Nat)
    (ctx : Option TaskContext) :
    Precise k (.waitpid pid ctx) ↔ (PidCall.waitpid pid ctx).Narrow k := by
  cases found : childOf k (pid % 256) with
  | none =>
    refine iff_of_true (Denied.exact ⟨-3, by decide, waitpid_missing found⟩) fun i found' => ?_
    rw [found] at found'
    cases found'
  | some i =>
    obtain ⟨bound, child, -⟩ := firstBelow_eq_some found
    rw [Bool.and_eq_true, beq_iff_eq, beq_iff_eq] at child
    obtain ⟨number, parent⟩ := child
    have taken : (k.tasks i).state ≠ .empty := by
      intro empty
      have own : (k.tasks k.current).pid = k.current + 1 :=
        slots.pid slots.current_lt (slots.running user)
      have orphan : (k.tasks i).parentPid = 0 := (slots.empty_pid bound fun taken => taken empty).2
      omega
    have named : pid < 256 → Named k pid i := fun small =>
      ⟨bound, number.trans (Nat.mod_eq_of_lt small), taken, .inr parent⟩
    have narrow_iff : (PidCall.waitpid pid ctx).Narrow k ↔
        pid < 256 ∨ (k.tasks i).live = true ∧ ctx = none := by
      refine ⟨fun narrow => narrow i found, fun either j found' => ?_⟩
      rw [found] at found'
      cases found'
      exact either
    rw [narrow_iff]
    by_cases dead : ∃ code, (k.tasks i).state = .dead code
    · obtain ⟨code, state⟩ := dead
      have performed : (PidCall.waitpid pid ctx).perform k = _ := waitpid_dead found state
      have accepted : ¬Denied k (.waitpid pid ctx) := by
        rintro ⟨v, -, refused⟩
        have same := congrArg (fun out => out.2.trace.length) (performed.symm.trans refused)
        simp [Kernel.reap, note, modifyTask, setTask] at same
      refine ⟨fun exact => .inl ?_, fun either => ?_⟩
      · obtain ⟨⟨j, here⟩, -⟩ := exact.fits accepted
        exact here.pid_lt slots
      · have small : pid < 256 := by
          rcases either with small | ⟨alive, -⟩
          · exact small
          · rw [Task.live, state] at alive
            cases alive
        refine Named.exact (named small) id (fun j changed => .inl ?_) fun v answered => ?_
        · by_contra other
          rw [performed] at changed
          exact changed (setTask_of_ne k _ other)
        · rw [performed] at answered
          cases answered
          exact state
    · have performed : (PidCall.waitpid pid ctx).perform k = _ :=
        waitpid_alive found fun code state => dead ⟨code, state⟩
      cases ctx with
      | none =>
        refine iff_of_true (Denied.exact ⟨-6, by decide, performed⟩) (.inr ⟨?_, rfl⟩)
        cases state : (k.tasks i).state with
        | empty => exact absurd state taken
        | dead code => exact absurd ⟨code, state⟩ dead
        | _ => rw [Task.live, state]; rfl
      | some ctx =>
        refine ⟨fun exact => .inl ?_, fun either => ?_⟩
        · have accepted : ¬Denied k (.waitpid pid (some ctx)) := by
            rintro ⟨v, -, refused⟩
            cases performed.symm.trans refused
          obtain ⟨⟨j, here⟩, -⟩ := exact.fits accepted
          exact here.pid_lt slots
        · have small : pid < 256 := by
            rcases either with small | ⟨-, absent⟩
            · exact small
            · cases absent
          refine Named.exact (named small) id (fun j changed => .inr ⟨rfl, ?_⟩) fun v answered => ?_
          · by_contra other
            rw [performed] at changed
            exact changed (setTask_of_ne k _ other)
          · rw [performed] at answered
            cases answered

theorem getpgid_exact_iff (slots : Slots k.life) (pid : Nat) :
    Precise k (.getpgid pid) ↔ (PidCall.getpgid pid).Narrow k := by
  have performed : (PidCall.getpgid pid).perform k = (.ok (getpgid pid k), k) := rfl
  constructor
  · intro exact
    exact (exact.fits (not_refused performed (Int.natCast_nonneg _))).1
  · rintro ⟨i, named⟩
    obtain ⟨found, number⟩ := named.findPid slots
    have small := named.pid_lt slots
    have answer : getpgid pid k = groupOf (k.tasks i) := by
      rw [getpgid, Nat.mod_eq_of_lt (by omega), if_neg (by omega), Nat.mod_eq_of_lt small, found]
      rfl
    refine named.exact id (fun j changed => absurd rfl changed) fun v answered => ?_
    rw [performed, answer] at answered
    exact (Except.ok.inj answered).symm

theorem setpgid_exact_iff (slots : Slots k.life) (pid pgid : Nat) :
    Precise k (.setpgid pid pgid) ↔ (PidCall.setpgid pid pgid).Narrow k := by
  have performed : (PidCall.setpgid pid pgid).perform k =
      (.ok (setpgid pid pgid k).1, (setpgid pid pgid k).2) := rfl
  constructor
  · intro exact i found
    simp only [setpgid, found] at performed
    obtain ⟨⟨j, here⟩, fits⟩ := exact.fits (not_refused performed (Int.le_refl 0))
    obtain ⟨found', number⟩ := here.findPid slots
    have small := here.pid_lt slots
    simp only [PidCall.pid] at here found' number small
    rw [Nat.mod_eq_of_lt (by omega : pid < 2 ^ 32), if_neg (by omega), Nat.mod_eq_of_lt small,
      found'] at found
    exact ⟨Option.some.inj found ▸ here, Nat.not_le.mp fits⟩
  · intro narrow
    simp only [setpgid] at performed
    split at performed
    · exact Denied.exact ⟨-3, by decide, performed⟩
    · next i found =>
        obtain ⟨named, fits⟩ := narrow i found
        refine Named.exact named (Nat.not_le.mpr fits) (fun j changed => .inl ?_)
          fun v answered => ?_
        · by_contra other
          rw [performed] at changed
          exact changed (setTask_of_ne k _ other)
        · rw [performed] at answered
          exact (Except.ok.inj answered).symm

end Cases

/-- **Process ids are matched exactly** by a call if and only if the low byte of its pid
finds no other task. The groups of the tasks may be any. -/
theorem pid_exact_iff {boot : Paging} {events : List Event} {k₀ k : Kernel}
    (reached : run advance (Kernel.start boot) events = some k₀) (same : k.life = k₀.life)
    (user : k.userMode = true) (c : PidCall) : Precise k c ↔ c.Narrow k := by
  have slots : Slots k.life := same ▸ slots_of_run reached
  cases c with
  | kill pid signum => exact kill_exact_iff slots pid signum
  | waitpid pid ctx => exact waitpid_exact_iff slots user pid ctx
  | getpgid pid => exact getpgid_exact_iff slots pid
  | setpgid pid pgid => exact setpgid_exact_iff slots pid pgid

set_option maxRecDepth 100000 in
theorem pid_exact_iff_one :
    ∃ k, run advance (Kernel.start roomyBoot) startLooping = some k ∧ Precise k (.getpgid 1) := by
  have starts : (run advance (Kernel.start roomyBoot) startLooping).map (fun k =>
      decide (k.userMode = true ∧ (k.tasks 0).pid = 1 ∧ (k.tasks 0).state = .running)) =
      some true := by decide +kernel
  obtain ⟨k, reached, facts⟩ := Option.map_eq_some_iff.mp starts
  obtain ⟨user, number, state⟩ := of_decide_eq_true facts
  refine ⟨k, reached, (pid_exact_iff reached rfl user (.getpgid 1)).mpr
    ⟨0, by decide, number, ?_, ?_⟩⟩
  · rw [state]
    decide
  · rw [Task.live, state]
    exact .inl rfl

set_option maxRecDepth 100000 in
/-- The task with pid 1 is killed for the pid 257, its group is reported for the pid 5,
and a group is set in an empty slot for the pid 256. -/
theorem pids_narrowed :
    ∃ k, run advance (Kernel.start roomyBoot) startLooping = some k ∧ k.userMode = true ∧
      ¬Precise k (.kill 257 9) ∧ ¬Precise k (.getpgid 5) ∧ ¬Precise k (.setpgid 256 7) := by
  have starts : (run advance (Kernel.start roomyBoot) startLooping).map (fun k =>
      (k.userMode, decide (∀ i < maxTasks, (k.tasks i).pid < 2),
        [PidCall.kill 257 9, .getpgid 5, .setpgid 256 7].map fun c =>
          (c.perform k).1.toOption)) = some (true, true, [some 0, some 1, some 0]) := by
    decide +kernel
  obtain ⟨k, reached, facts⟩ := Option.map_eq_some_iff.mp starts
  simp only [Prod.mk.injEq, decide_eq_true_eq, List.map_cons, List.map_nil,
    List.cons.injEq] at facts
  obtain ⟨user, small, killed, grouped, set, -⟩ := facts
  have broken : ∀ {c : PidCall} {v : Int}, 2 ≤ c.pid → (c.perform k).1.toOption = some v → 0 ≤ v →
      ¬Precise k c := by
    intro c v large answered positive exact
    obtain ⟨w, negative, refused⟩ := exact.missing fun i named => by
      have low := small i named.1
      rw [named.2.1] at low
      omega
    rw [refused] at answered
    cases answered
    omega
  exact ⟨k, reached, user, broken (by decide) killed (by decide),
    broken (by decide) grouped (by decide),
    broken (by decide) set (by decide)⟩

end OxideOS.Sys
