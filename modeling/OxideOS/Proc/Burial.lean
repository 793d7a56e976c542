import OxideOS.Proc.Lifecycle

/-!
# What is left of the dead

`Buried` says that a slot without a living task has no address space, and that `SIGCHLD`
was sent exactly once for every death that had a living parent. Exits keep it. `SIGKILL`
does not: it leaves the address space behind and tells nobody. A deadly signal frees the
address space but tells nobody either (`Mourned`).
-/

set_option autoImplicit false

namespace OxideOS.Proc

open Lib Life

/-- Nobody is killed by `SIGKILL`, and a deadly signal ends only tasks without a
living parent. -/
def Mourned (L : Life) : Move → Prop
  | .kill _ _ => False
  | .fatal _ => L.liveParent (L.slots L.current) = none
  | _ => True

/-! ## Deaths in a history -/

/-- The history names only tasks that are `gone` as dead, and for every death with a
living parent that parent was told exactly once. -/
structure Reported (gone : Nat → Prop) (trace : List Note) : Prop where
  died : ∀ {c code parent}, .died c code parent ∈ trace → gone c
  heard : ∀ {q c}, .notified q c ∈ trace → gone c
  once : ∀ {c code q}, .died c code (some q) ∈ trace → trace.count (.notified q c) = 1

namespace Reported

variable {gone gone' : Nat → Prop} {trace : List Note}

theorem mono (reported : Reported gone trace) (more : ∀ c, gone c → gone' c) :
    Reported gone' trace :=
  ⟨fun member => more _ (reported.died member), fun member => more _ (reported.heard member),
    reported.once⟩

/-- A note that is not about a death. -/
theorem snoc (reported : Reported gone trace) {n : Note}
    (other : ∀ c code parent, n ≠ .died c code parent) (silent : ∀ q c, n ≠ .notified q c) :
    Reported gone (trace ++ [n]) := by
  have old : ∀ {m}, m ∈ trace ++ [n] → m ∈ trace ∨ n = m := by
    intro m member
    rw [List.mem_append, List.mem_singleton] at member
    exact member.imp_right Eq.symm
  refine ⟨fun member => ?_, fun member => ?_, fun {c code q} member => ?_⟩
  · exact reported.died ((old member).resolve_right (other _ _ _))
  · exact reported.heard ((old member).resolve_right (silent _ _))
  · have before := reported.once ((old member).resolve_right (other _ _ _))
    rw [List.count_append, before, List.count_singleton, if_neg (by simpa using silent q c)]

/-- The parent of a task that dies is told, unless it has none alive. -/
def Tells (c : Nat) (parent : Option Nat) (notes : List Note) : Prop :=
  parent = none ∧ notes = [] ∨ ∃ x, notes = [.notified x c] ∧ ∀ q, parent = some q → x = q

/-- A task dies. -/
theorem death (reported : Reported gone trace) {c : Nat} {code : Int} {parent : Option Nat}
    {notes : List Note} (alive : ¬gone c) (more : ∀ d, gone d → gone' d) (dead : gone' c)
    (tells : Tells c parent notes) : Reported gone' (trace ++ .died c code parent :: notes) := by
  have noted : ∀ {n}, n ∈ notes → ∃ x, n = .notified x c := by
    rcases tells with ⟨-, rfl⟩ | ⟨x, rfl, -⟩
    · simp
    · exact fun member => ⟨x, List.mem_singleton.mp member⟩
  have deaths : ∀ {d code' parent'},
      Note.died d code' parent' ∈ trace ++ .died c code parent :: notes →
      .died d code' parent' ∈ trace ∨ d = c ∧ parent' = parent := by
    intro d code' parent' member
    rcases List.mem_append.mp member with old | new
    · exact .inl old
    · rcases List.mem_cons.mp new with here | later
      · cases here
        exact .inr ⟨rfl, rfl⟩
      · obtain ⟨x, contrary⟩ := noted later
        cases contrary
  refine ⟨fun {d _ _} member => ?_, fun {q d} member => ?_, fun {d code' q} member => ?_⟩
  · rcases deaths member with old | ⟨rfl, -⟩
    · exact more d (reported.died old)
    · exact dead
  · rcases List.mem_append.mp member with old | new
    · exact more d (reported.heard old)
    · rcases List.mem_cons.mp new with here | later
      · cases here
      · obtain ⟨x, same⟩ := noted later
        cases same
        exact dead
  · rw [List.count_append]
    rcases deaths member with old | ⟨rfl, rfl⟩
    · have other : d ≠ c := by
        rintro rfl
        exact alive (reported.died old)
      have silent : Note.notified q d ∉ Note.died c code parent :: notes := by
        rcases tells with ⟨-, rfl⟩ | ⟨x, rfl, -⟩
        · simp
        · simp [other]
      rw [reported.once old, List.count_eq_zero.mpr silent]
    · have unheard : Note.notified q d ∉ trace := fun heard => alive (reported.heard heard)
      rcases tells with ⟨orphan, -⟩ | ⟨x, rfl, isParent⟩
      · cases orphan
      · rw [List.count_eq_zero.mpr unheard, isParent q rfl]
        simp

end Reported

structure Buried (L : Life) : Prop where
  running : L.userMode = true → (L.slots L.current).live = true
  clean : ∀ {i}, i < maxTasks → (L.slots i).live = true ∨ (L.slots i).cr3 = 0
  reported : Reported (Retired · L) L.trace

/-! ## The end of a task -/

namespace Life

variable {L : Life}

/-- `SIGCHLD` finds nobody alive, or wakes the task with the pid. -/
theorem notify_cases (L : Life) (parentPid child : Nat) :
    (L.notify parentPid child = L ∧
      ∀ i, L.findPid parentPid = some i → (L.slots i).live = false) ∨
    ∃ i, L.findPid parentPid = some i ∧ (L.slots i).live = true ∧
      L.notify parentPid child = (L.rouse i).note (.notified (L.slots i).uid child) := by
  unfold notify
  cases found : L.findPid parentPid with
  | none => exact .inl ⟨rfl, fun i some => by cases some⟩
  | some i =>
    dsimp only
    split
    · next free =>
        refine .inl ⟨rfl, fun j same => ?_⟩
        cases same
        simp [Slot.live, free]
    · next alive => exact .inr ⟨i, rfl, by simpa [Slot.live] using alive, rfl⟩

theorem liveParent_eq_some {s : Slot} {q : Nat} (parent : L.liveParent s = some q) :
    s.parentUid = q ∧ ∃ j < maxTasks, (L.slots j).live = true ∧ (L.slots j).uid = q := by
  unfold liveParent at parent
  split at parent
  · cases parent
  · obtain ⟨j, found, rfl⟩ := Option.map_eq_some_iff.mp parent
    obtain ⟨bound, both, -⟩ := firstBelow_eq_some found
    have alive : (L.slots j).live = true ∧ (L.slots j).uid = s.parentUid := by simpa using both
    exact ⟨rfl, j, bound, alive⟩

end Life

section End

variable {L : Life} {i q : Nat}

/-- A living parent is found under the pid its child knows. -/
theorem Slots.findPid_parent (slots : Slots L) (bound : i < maxTasks) (taken : (L.slots i).Taken)
    (isParent : L.liveParent (L.slots i) = some q) :
    (L.slots i).parentPid ≠ 0 ∧ ∃ j, L.findPid (L.slots i).parentPid = some j ∧ j ≠ i ∧
      (L.slots j).live = true ∧ (L.slots j).uid = q := by
  obtain ⟨isQ, j, inside, alive, uid⟩ := liveParent_eq_some isParent
  have takenJ : (L.slots j).Taken := .of_live alive
  have pid := slots.parent_pid bound inside taken takenJ (uid.trans isQ.symm)
  rw [pid, slots.pid inside takenJ]
  refine ⟨Nat.succ_ne_zero j, j, slots.findPid inside takenJ, ?_, alive, uid⟩
  rintro rfl
  exact absurd (uid.trans isQ.symm) (Nat.ne_of_gt (slots.parent_lt bound taken))

theorem Slots.retired_die (slots : Slots L) (kernel : L.userMode = false)
    (alive : (L.slots L.current).live = true) (code : Int) :
    Retired (L.slots L.current).uid (L.die L.current code) := by
  have died : Slots (L.die L.current code) :=
    slots.leave (.die (.of_live alive) code) slots.current_lt kernel
  have here : (L.die L.current code).slots L.current =
      { L.slots L.current with state := .dead code } := setState_self ..
  have dead := Retired.of_dead died slots.current_lt (by rw [here])
  rwa [here] at dead

/-- What the history says of a task that ends. -/
theorem Slots.finish_trace (slots : Slots L) (alive : (L.slots L.current).live = true)
    (code : Int) : ∃ notes, (L.finish code).trace = L.trace ++ .died (L.slots L.current).uid code
        (L.liveParent (L.slots L.current)) :: notes ∧
      Reported.Tells (L.slots L.current).uid (L.liveParent (L.slots L.current)) notes := by
  have here := slots.current_lt
  have taken : (L.slots L.current).Taken := .of_live alive
  generalize laid : (({ L with userMode := false } : Life).die L.current code).free L.current = M
  have others : ∀ j, j ≠ L.current → M.slots j = L.slots j := by
    intro j different
    rw [← laid]
    exact (setSlot_of_ne _ _ different).trans (setState_of_ne _ _ different)
  have samePid : ∀ pid, M.findPid pid = L.findPid pid := by
    have same : SameTasks { L with userMode := false } M := by
      rw [← laid]
      exact (SameTasks.die (L := { L with userMode := false }) taken code).trans (.free _ _)
    intro pid
    simp only [Life.findPid, same.pid]
  have trace : M.trace = L.trace ++ [.died (L.slots L.current).uid code
      (L.liveParent (L.slots L.current))] := by
    rw [← laid]
    rfl
  have finished : L.finish code = if (L.slots L.current).parentPid ≠ 0 then
      M.notify (L.slots L.current).parentPid (L.slots L.current).uid else M := by
    rw [← laid]
    rfl
  have unnoticed (orphan : L.liveParent (L.slots L.current) = none) :
      Reported.Tells (L.slots L.current).uid (L.liveParent (L.slots L.current)) [] :=
    .inl ⟨orphan, rfl⟩
  rw [finished]
  split
  · rcases notify_cases M (L.slots L.current).parentPid (L.slots L.current).uid with
      ⟨nothing, unheard⟩ | ⟨i, found, -, told⟩
    · rw [nothing]
      refine ⟨[], trace, unnoticed ?_⟩
      by_contra some
      obtain ⟨q, isParent⟩ := Option.ne_none_iff_exists'.mp some
      obtain ⟨-, j, found, different, aliveJ, -⟩ := slots.findPid_parent here taken isParent
      have dead := unheard j ((samePid _).trans found)
      rw [others j different, aliveJ] at dead
      cases dead
    · rw [told]
      refine ⟨[.notified (M.slots i).uid (L.slots L.current).uid], ?_,
        .inr ⟨_, rfl, fun q isParent => ?_⟩⟩
      · show M.trace ++ _ = _
        rw [trace, List.append_assoc]
        rfl
      · obtain ⟨-, j, found', different, -, uidJ⟩ := slots.findPid_parent here taken isParent
        rw [samePid, found'] at found
        cases found
        rw [others i different, uidJ]
  · next isRoot =>
      refine ⟨[], trace, unnoticed ?_⟩
      by_contra some
      obtain ⟨q, isParent⟩ := Option.ne_none_iff_exists'.mp some
      exact isRoot (slots.findPid_parent here taken isParent).1

end End

/-! ## Staying alive -/

/-- The move ends the task in slot `i`. -/
def Life.Ends (L : Life) (i : Nat) : Move → Prop
  | .exit _ | .fatal _ => L.current = i
  | .kill j _ => j = i
  | _ => False

/-- The end of a task leaves the slots as its death has made them, but for a parent that it
wakes. -/
theorem Life.finish_slot (L : Life) (code : Int) (i : Nat) :
    (L.finish code).slots i = ((({ L with userMode := false } : Life).die L.current code).free
      L.current).slots i ∨ ((L.finish code).slots i).live = true := by
  unfold Life.finish
  dsimp only
  split
  · rcases notify_cases ((({ L with userMode := false } : Life).die L.current code).free L.current)
      (L.slots L.current).parentPid (L.slots L.current).uid with ⟨nothing, -⟩ | ⟨j, -, awake, told⟩
    · exact .inl (by rw [nothing])
    · rw [told]
      by_cases here : i = j
      · subst here
        refine .inr ((congrArg Slot.live (setSlot_self _ _ _)).trans ?_)
        show (!(if _ then TaskState.ready else _).isFree) = true
        split
        · rfl
        · exact awake
      · exact .inl (setSlot_of_ne _ _ here)
  · exact .inl rfl

section Alive

variable {L L' : Life} {i j : Nat} {s : Slot} {code : Int} (alive : (L.slots i).live = true)
include alive

theorem live_setSlot (new : i = j → s.live = true) : ((L.setSlot j s).slots i).live = true := by
  by_cases here : i = j
  · rw [here, setSlot_self]
    exact new here
  · rw [setSlot_of_ne L s here]
    exact alive

theorem live_bury {parent : Nat} (dead : (L.slots j).state = .dead code) :
    ((L.bury parent j code).slots i).live = true := by
  have different : i ≠ j := by
    rintro rfl
    simp [Slot.live, dead, TaskState.isFree] at alive
  exact (congrArg Slot.live (setSlot_of_ne L _ different)).trans alive

theorem live_finish (other : i ≠ L.current) : ((L.finish code).slots i).live = true := by
  rcases finish_slot L code i with same | awake
  · rw [same]
    exact live_setSlot (live_setSlot alive fun here => absurd here other) fun here =>
      absurd here other
  · exact awake

/-- **Only the moves that end a task end it.** -/
theorem live_step {m : Move} (moved : L.step m = some L') (stays : ¬L.Ends i m) :
    (L'.slots i).live = true := by
  cases moves_of_step moved with
  | wake | resume | suspend | preempt | spawn | fork => exact live_setSlot alive fun _ => rfl
  | @collect l j code kernel boundL boundJ waits dead =>
    have different : j ≠ l := by
      rintro rfl
      rw [waits] at dead
      cases dead
    exact live_bury (L := L.setState l .ready) (live_setSlot alive fun _ => rfl)
      (by rw [setState_of_ne L _ different, dead])
  | reap user bound dead child => exact live_bury alive dead
  | choose => exact alive
  | @park state user may =>
    refine live_setSlot alive fun _ => ?_
    cases state <;> first | rfl | cases may
  | exit user => exact live_finish alive (Ne.symm stays)
  | fatal =>
    exact live_setSlot (live_setSlot alive fun same => absurd same.symm stays) fun same =>
      absurd same.symm stays
  | kill => exact live_setSlot alive fun same => absurd same.symm stays
  | exec => exact live_setSlot alive fun same => same ▸ alive

end Alive

namespace Buried

variable {L L' : Life}

/-- A slot gets a living task, or has no address space. -/
theorem clean_setSlot {i : Nat} {s : Slot}
    (clean : ∀ {j}, j < maxTasks → j ≠ i → (L.slots j).live = true ∨ (L.slots j).cr3 = 0)
    (new : s.live = true ∨ s.cr3 = 0) {j : Nat} (bound : j < maxTasks) :
    ((L.setSlot i s).slots j).live = true ∨ ((L.setSlot i s).slots j).cr3 = 0 := by
  by_cases here : j = i
  · subst here
    rw [setSlot_self]
    exact new
  · rw [setSlot_of_ne L s here]
    exact clean bound here

/-- Dying and giving the address space back. -/
theorem clean_laid {i : Nat} {code : Int}
    (clean : ∀ {j}, j < maxTasks → (L.slots j).live = true ∨ (L.slots j).cr3 = 0) {j : Nat}
    (bound : j < maxTasks) : ((((L.die i code).free i).slots j).live = true ∨
      (((L.die i code).free i).slots j).cr3 = 0) := by
  refine clean_setSlot (fun {l} inside other => ?_) (.inr rfl) bound
  rw [show (L.die i code).slots l = L.slots l from setState_of_ne L _ other]
  exact clean inside

/-- The slot of a dead task is emptied. -/
theorem clean_bury {parent j : Nat} {code : Int}
    (clean : ∀ {l}, l < maxTasks → (L.slots l).live = true ∨ (L.slots l).cr3 = 0)
    (dead : (L.slots j).state = .dead code) {i : Nat} (bound : i < maxTasks) :
    ((L.bury parent j code).slots i).live = true ∨ ((L.bury parent j code).slots i).cr3 = 0 := by
  by_cases here : i = j
  · subst here
    have gone : (L.slots i).live = false := by simp [Slot.live, dead, TaskState.isFree]
    have none := (clean bound).resolve_left (by simp [gone])
    exact .inr (by simpa [Life.bury] using none)
  · rw [show (L.bury parent j code).slots i = L.slots i from setSlot_of_ne L _ here]
    exact clean bound

section

variable (buried : Buried L)
include buried

theorem clean_finish (code : Int) {j : Nat} (bound : j < maxTasks) :
    ((L.finish code).slots j).live = true ∨ ((L.finish code).slots j).cr3 = 0 := by
  rcases finish_slot L code j with same | awake
  · rw [same]
    exact clean_laid (L := { L with userMode := false }) buried.clean bound
  · exact .inl awake

/-- The task in user mode stays alive. -/
theorem running_step {m : Move} (mourned : Mourned L m) (moved : L.step m = some L')
    (user : L'.userMode = true) : (L'.slots L'.current).live = true := by
  cases moves_of_step moved with
  | wake | reap | suspend | fork | exec => exact live_step (buried.running user) moved id
  | resume kernel ready => simp [Slot.live, TaskState.isFree]
  | exit before => simp at user
  | kill => exact mourned.elim
  | park | preempt => cases user
  | fatal kernel | collect kernel | choose kernel | spawn kernel =>
    exact absurd (user.symm.trans kernel) (by decide)

theorem clean_step {m : Move} (mourned : Mourned L m) (moved : L.step m = some L') {i : Nat}
    (bound : i < maxTasks) : (L'.slots i).live = true ∨ (L'.slots i).cr3 = 0 := by
  have kept : ∀ {l s}, s.live = true → ((L.setSlot l s).slots i).live = true ∨
      ((L.setSlot l s).slots i).cr3 = 0 :=
    fun alive => clean_setSlot (fun inside _ => buried.clean inside) (.inl alive) bound
  cases moves_of_step moved with
  | wake | resume | suspend | preempt | spawn | fork => exact kept rfl
  | @collect i j code kernel boundI boundJ waits dead =>
    have different : j ≠ i := by
      rintro rfl
      rw [waits] at dead
      cases dead
    exact clean_bury (L := L.setState i .ready)
      (clean_setSlot (fun inside _ => buried.clean inside) (.inl rfl))
      (by rw [setState_of_ne L _ different, dead]) bound
  | reap user inside dead child => exact clean_bury buried.clean dead bound
  | choose => exact buried.clean bound
  | @park s user may =>
    refine kept ?_
    cases s <;> first | rfl | cases may
  | exit user => exact buried.clean_finish _ bound
  | fatal kernel ready => exact clean_laid buried.clean bound
  | kill => exact mourned.elim
  | exec user => exact kept (buried.running user)

/-- **Every move that is `Mourned` keeps the dead buried.** -/
theorem step (slots : Slots L) {m : Move} (mourned : Mourned L m)
    (moved : L.step m = some L') : Buried L' := by
  refine ⟨buried.running_step mourned moved, buried.clean_step mourned moved, ?_⟩
  have awake : L.userMode = true → (L.slots L.current).state.isFree = false := by
    intro user
    simpa [Slot.live] using buried.running user
  have more : ∀ c, Retired c L → Retired c L' := fun c retired => retired.step awake moved
  have still := buried.reported.mono more
  have unretired : (L.slots L.current).live = true → ¬Retired (L.slots L.current).uid L := by
    intro alive retired
    simp [Slot.live, retired.free slots.current_lt rfl] at alive
  cases moves_of_step moved with
  | wake | choose | resume | park | suspend | preempt | spawn | exec => exact still
  | collect | reap | fork => exact still.snoc (by simp) (by simp)
  | kill => exact mourned.elim
  | exit user =>
    have alive := buried.running user
    obtain ⟨notes, trace, tells⟩ := slots.finish_trace alive _
    rw [trace]
    have left : Slots { L with userMode := false } :=
      slots.leave ((SameTasks.refl L).congr rfl rfl) slots.current_lt rfl
    exact buried.reported.death (unretired alive) more
      (.finish (left.retired_die rfl alive _)) tells
  | @fatal code kernel ready =>
    have alive : (L.slots L.current).live = true := by simp [Slot.live, ready, TaskState.isFree]
    have dead := (slots.retired_die kernel alive code).freeSpace L.current
    have orphan : L.liveParent (L.slots L.current) = none := mourned
    have trace : ((L.die L.current code).free L.current).trace =
        L.trace ++ [.died (L.slots L.current).uid code none] := by
      rw [← orphan]
      rfl
    rw [trace]
    exact buried.reported.death (unretired alive) more dead (.inl ⟨rfl, rfl⟩)

end

end Buried

end OxideOS.Proc
