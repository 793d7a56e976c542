import OxideOS.Proc.Burial
import OxideOS.Sys.Fairness
import OxideOS.Sys.Preemption

/-!
# The death of tasks

A task that exits or raises an exception gives its address space back to the frame
allocator, and its parent gets `SIGCHLD`. `SIGKILL` only changes the state of its victim,
and a task that dies of another signal is not reported to its parent. In runs without these
(`Gentle`) the death of tasks is uniform.
-/

set_option autoImplicit false

namespace OxideOS.Sys

open Lib Mem Fs Ipc Proc Proc.Kernel

/-- The event kills no living task with `SIGKILL`, and if it is a tick, then no
living task with a living parent is to die of its signals. -/
def Gentle (k : Kernel) (e : Event) : Prop :=
  (∀ i < maxTasks, e.kills k i = false) ∧
  (e.isTick = true → ∀ i < maxTasks, (k.tasks i).live = true →
    deadly k.ticks (k.tasks i) = true → k.liveParent (k.tasks i) = none)

/-- Who is alive has not changed when a tick is about to end a task. -/
theorem FatalIn.liveParent {k : Kernel} {L : Life} (foreseen : FatalIn k L) (i : Nat) :
    L.liveParent (L.slots i) = k.liveParent (k.tasks i) := by
  unfold Life.liveParent Kernel.liveParent
  simp only [foreseen.parentUid, foreseen.live, foreseen.uid]

theorem Event.kills_lt {k : Kernel} {e : Event} {i : Nat} (kills : e.kills k i = true) :
    i < maxTasks := by
  simp only [Event.kills, Bool.and_eq_true, beq_iff_eq] at kills
  obtain ⟨pid, -, found⟩ := Option.bind_eq_some_iff.mp kills.1
  exact (firstBelow_eq_some found).1

theorem Gentle.permits {k : Kernel} {e : Event} (gentle : Gentle k e) : Permits Mourned k e where
  benign L m allowed := by cases m <;> trivial
  choose _ _ _ := trivial
  exit _ _ := trivial
  kill i kills code := absurd (kills.symm.trans (gentle.1 i (Event.kills_lt kills))) (by decide)
  fatal isTick L foreseen code :=
    (foreseen.liveParent L.current).trans
      (gentle.2 isTick _ foreseen.current_lt foreseen.alive foreseen.deadly)
  spawn _ _ _ _ := trivial
  fork _ _ _ _ := trivial
  suspend _ _ := trivial

theorem buried_start (boot : Paging) : Buried (Kernel.start boot).life where
  running user := absurd user (by simp [Kernel.start, Kernel.life])
  clean _ := .inr rfl
  reported := ⟨fun member => absurd member (by simp [Kernel.start, Kernel.life]),
    fun member => absurd member (by simp [Kernel.start, Kernel.life]),
    fun member => absurd member (by simp [Kernel.start, Kernel.life])⟩

theorem advance_buried {k k' : Kernel} {e : Event} (holds : Slots k.life ∧ Buried k.life)
    (gentle : Gentle k e) (stepped : advance k e = some k') : Slots k'.life ∧ Buried k'.life :=
  (advance_follows holds.1 gentle.permits stepped).preserves
    (I := fun L => Slots L ∧ Buried L)
    (fun holds mourned moved => ⟨holds.1.step moved, holds.2.step holds.1 mourned moved⟩) holds

/-! ## The frames of the dead -/

/-- The memory when the event ends a task, if it does. -/
def Event.lastPaging (k : Kernel) : Event → Option Paging
  | .tick messages => (selectionPoint messages k).map (·.paging)
  | .store virt b =>
    if Paging.canonical virt then
      (Paging.store (k.tasks k.current).cr3 virt b true 2 k.paging).map Prod.snd
    else some k.paging
  | _ => some k.paging

/-- The address space at `cr3` is given back: from `p` to `p'` every frame has lost the
references that the address space holds to it, and is free if it has no other. -/
def GivenBack (cr3 : Nat) (p p' : Paging) : Prop :=
  ∀ f < 65536, Drops f (refsOf p.mem cr3 f) p.frameAllocator p'.frameAllocator

/-- The event gives back the address space of every task that it ends. -/
def GivesBack (k : Kernel) (e : Event) (k' : Kernel) : Prop :=
  ∀ i < maxTasks, (k.tasks i).live = true → (k'.tasks i).live = false → (k.tasks i).cr3 ≠ 0 →
    ∃ p, e.lastPaging k = some p ∧ GivenBack (k.tasks i).cr3 p k'.paging

section GivesBack

variable {k k' : Kernel} {i : Nat}

theorem freeSpace_givenBack (mapped : (k.tasks i).cr3 ≠ 0) :
    GivenBack (k.tasks i).cr3 k.paging (k.freeSpace i).paging := by
  intro f bound
  simp only [freeSpace, if_neg mapped]
  exact freeUserPageTable_drops _ _ bound

theorem sendSignal_paging (pid signum : Nat) (k : Kernel) :
    (sendSignal pid signum k).2.paging = k.paging := by
  rcases sendSignal_cases pid signum k with nothing | ⟨i, -, -, ⟨-, result⟩ | ⟨-, result⟩⟩
  · rw [nothing]
  · rw [result]
    rfl
  · rw [result]
    rfl

theorem notifyParent_paging (parentPid child : Nat) (k : Kernel) :
    (k.notifyParent parentPid child).paging = k.paging := by
  have sent := sendSignal_paging parentPid sigchld k
  unfold notifyParent
  rcases answer : sendSignal parentPid sigchld k with ⟨reached, k'⟩
  rw [answer] at sent
  cases reached <;> exact sent

/-- The end of the running task. -/
theorem finishSlice_givenBack {code : Int} (small : -2 ^ 62 < code)
    (mapped : (k.tasks k.current).cr3 ≠ 0) :
    GivenBack (k.tasks k.current).cr3 k.paging (k.finishSlice code).paging := by
  obtain ⟨real, final⟩ := ends_of_small small
  generalize dead : ({ k with userMode := false } : Kernel).setDead k.current code = k₁
  have cr3 : (k₁.tasks k.current).cr3 = (k.tasks k.current).cr3 := by
    rw [← dead]
    exact modifyTask_same (k := { k with userMode := false })
      (f := fun t => { t with state := .dead code }) (·.cr3) rfl k.current
  have paging : k₁.paging = k.paging := by
    rw [← dead]
    rfl
  have freed := freeSpace_givenBack (k := k₁) (i := k.current) (by rwa [cr3])
  rw [cr3, paging] at freed
  simp only [finishSlice, if_neg real, if_neg final, dead]
  split
  · rwa [notifyParent_paging]
  · exact freed

/-- What a tick ends, it ends after its preparation. -/
theorem tick_givesBack {messages : Nat → Option (List UInt8)} (slots : Slots k.life)
    (kernel : k.userMode = false) :
    Settles (tick messages) (GivesBack k (.tick messages)) k := by
  have before : ∀ {s : Kernel}, selectionPoint messages k = some s → ∀ j,
      watch (s.tasks j) = watch (k.tasks j) := fun reached =>
    (selectionPoint_prepared unselecting_of_benign slots kernel reached).watch
  refine tick_settles (fun s reached _ i bound alive dead => ?_) (fun s idx reached chosen => ?_)
  · have same : (s.tasks i).live = (k.tasks i).live := congrArg Prod.fst (before reached i)
    exact absurd (alive.symm.trans (same.symm.trans dead)) (by decide)
  · refine Prog.wp_mono (fun killed k₅ delivered i bound alive dead mapped => ?_)
      (fun _ _ stopped => stopped) (deliverIfPending_spec idx { s with current := idx })
    have here : (s.life.slots i).live = true := (congrArg Prod.fst (before reached i)).trans alive
    rcases delivered with ⟨rfl, same⟩ | ⟨rfl, paging, signum, died, -⟩
    · have stays : ((resume idx k₅).life.slots i).live = true := by
        rw [life_resume, same]
        exact live_setSlot here fun _ => rfl
      exact absurd (stays.symm.trans dead) (by decide)
    · have chosen : i = idx := by
        by_contra other
        have stays : ((k₅.freeSpace idx).life.slots i).live = true := by
          rw [life_freeSpace, died]
          exact live_setSlot (live_setSlot here fun same => absurd same other) fun same =>
            absurd same other
        exact absurd (stays.symm.trans dead) (by decide)
      subst chosen
      have cr3 : (k₅.tasks i).cr3 = (k.tasks i).cr3 := by
        have last : (k₅.tasks i).cr3 = ((s.life.die i (128 + signum)).slots i).cr3 :=
          congrArg (fun L : Life => (L.slots i).cr3) died
        rw [last]
        exact (congrArg Slot.cr3 (Life.setState_self s.life i _)).trans
          (congrArg (fun w => w.2.2.2.1) (before reached i))
      have freed := freeSpace_givenBack (k := k₅) (i := i) (by rwa [cr3])
      rw [cr3, paging] at freed
      exact ⟨s.paging, Option.map_eq_some_iff.mpr ⟨s, reached, rfl⟩, freed⟩

/-- A store that ends the program. -/
theorem store_givesBack {virt b : Nat} (ends : canStore k virt b = false)
    (stepped : advance k (.store virt b) = some k') (mapped : (k.tasks k.current).cr3 ≠ 0) :
    ∃ p, (Event.store virt b).lastPaging k = some p ∧
      GivenBack (k.tasks k.current).cr3 p k'.paging := by
  have freed : ∀ p, GivenBack (k.tasks k.current).cr3 p
      (({ k with paging := p } : Kernel).finishSlice (-11)).paging := fun p =>
    finishSlice_givenBack (k := { k with paging := p }) (by decide) mapped
  simp only [advance, Option.ite_none_right_eq_some] at stepped
  obtain ⟨-, stepped⟩ := stepped
  split at stepped
  · next canonical =>
      split at stepped
      · next p stored => simp [canStore, canonical, stored] at ends
      · next result p different stored =>
          cases stepped
          exact ⟨p, by simp [Event.lastPaging, canonical, stored], freed p⟩
      · cases stepped
  · next outside =>
      cases stepped
      exact ⟨k.paging, by simp [Event.lastPaging, outside], freed k.paging⟩

/-- **A task that ends gives its address space back**, unless it is killed by `SIGKILL`. -/
theorem advance_givesBack {e : Event} (slots : Slots k.life)
    (spared : ∀ i < maxTasks, e.kills k i = false) (stepped : advance k e = some k') :
    GivesBack k e k' := by
  intro i bound alive dead mapped
  cases tick : e.isTick with
  | true =>
    cases e with
    | tick messages =>
      simp only [advance, Option.ite_none_left_eq_some] at stepped
      exact tick_givesBack slots (by simpa using stepped.1) k' stepped.2 i bound alive dead mapped
    | _ => cases tick
  | false =>
    have ended : e.ends k = true ∧ k.current = i := by
      by_contra lasts
      have permits : Permits (fun L m => ¬L.Ends i m) k e := {
        benign := fun L m allowed => by cases m <;> first | exact id | cases allowed
        choose := fun _ _ _ => id
        exit := fun ends _ same => lasts ⟨ends, same⟩
        kill := fun j kills _ _ =>
          absurd (kills.symm.trans (spared j (Event.kills_lt kills))) (by decide)
        fatal := fun isTick => absurd (tick.symm.trans isTick) (by decide)
        spawn := fun _ _ _ _ => id
        fork := fun _ _ _ _ => id
        suspend := fun _ _ => id }
      have stays : (k'.life.slots i).live = true :=
        (advance_follows slots permits stepped).preserves (I := fun L => (L.slots i).live = true)
          (fun alive lasts moved => live_step alive moved lasts) alive
      exact absurd (stays.symm.trans dead) (by decide)
    obtain ⟨ends, rfl⟩ := ended
    cases e with
    | exception vector =>
      simp only [advance, Option.ite_none_right_eq_some, Option.some.injEq] at stepped
      obtain ⟨-, rfl⟩ := stepped
      exact ⟨_, rfl, finishSlice_givenBack (exceptionCode_range vector) mapped⟩
    | store virt b => exact store_givesBack (by simpa [Event.ends] using ends) stepped mapped
    | syscall ctx call =>
      cases call with
      | exit arg =>
        simp only [advance, Option.ite_none_right_eq_some] at stepped
        obtain ⟨-, settled⟩ := stepped
        cases settled
        exact ⟨_, rfl, finishSlice_givenBack (toI32_range arg) mapped⟩
      | _ => cases ends
    | _ => cases ends

end GivesBack

end OxideOS.Sys
