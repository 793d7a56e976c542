import OxideOS.Proc.Lifecycle

/-!
# Children, parents and completed waits

A fork that returned `p` to a task is open until that task completes a wait for
`p` (`Open`). A history is exact if every completed wait got the code of the child
of the open fork (`Exact`). Pids are slot numbers, so this needs the slots of
children, and those of parents, to be left alone: `Vacant` says that a slot is
neither. `Lineage` is the invariant of the life cycle under that condition.
-/

set_option autoImplicit false

namespace OxideOS.Proc

open Lib

/-! ## Histories -/

/-- The history records a fork that gave `T` the child `c` with pid `p`, and no
wait of `T` for `p` since. -/
def Open (trace : List Note) (T c p : Nat) : Prop :=
  ∃ before after, trace = before ++ .forked T c p :: after ∧
    ∀ d code, .waited T p d code ∉ after

/-- Every completed wait of a task for a child of its own got the exit code of
that child. -/
def Exact (trace : List Note) : Prop :=
  ∀ before T p d code after, trace = before ++ .waited T p d code :: after →
    ∀ c, Open before T c p → d = c ∧ ∃ parent, .died c code parent ∈ before

/-- The note is about a death. -/
def Note.isDeath : Note → Bool
  | .died _ _ _ | .notified _ _ => true
  | _ => false

variable {trace : List Note} {n : Note} {T c p : Nat}

theorem open_snoc (opened : Open (trace ++ [n]) T c p) :
    n = .forked T c p ∨ Open trace T c p ∧ ∀ d code, n ≠ .waited T p d code := by
  obtain ⟨before, after, split, none⟩ := opened
  rcases List.eq_nil_or_concat after with rfl | ⟨rest, last, rfl⟩
  · exact .inl (List.append_inj_right' split rfl |> List.cons.inj |>.1)
  · have whole : trace ++ [n] = (before ++ .forked T c p :: rest) ++ [last] := by
      simpa using split
    obtain ⟨same, here⟩ := List.append_inj' whole rfl
    have equal : n = last := (List.cons.inj here).1
    refine .inr ⟨⟨before, rest, same, fun d code member => ?_⟩, fun d code isWait => ?_⟩
    · exact none d code (by simp [member])
    · exact none d code (by simp [← equal, isWait])

theorem Open.mem (opened : Open trace T c p) : .forked T c p ∈ trace := by
  obtain ⟨before, after, rfl, -⟩ := opened
  simp

/-- A history stays exact when the wait it is extended by, if it is one, got the
code of the right child. -/
theorem Exact.snoc (exact : Exact trace)
    (right : ∀ T p d code, n = .waited T p d code → ∀ c, Open trace T c p →
      d = c ∧ ∃ parent, .died c code parent ∈ trace) : Exact (trace ++ [n]) := by
  intro before T p d code after split c opened
  rcases List.eq_nil_or_concat after with rfl | ⟨rest, last, rfl⟩
  · obtain ⟨same, here⟩ := List.append_inj' split rfl
    subst same
    exact right T p d code (List.cons.inj here).1 c opened
  · have whole : trace ++ [n] = (before ++ .waited T p d code :: rest) ++ [last] := by
      simpa using split
    exact exact before T p d code rest (List.append_inj' whole rfl).1 c opened

/-! ## The invariant -/

/-- No task waits for the one in this slot, and no task names it as its parent. -/
def Vacant (L : Life) (slot : Nat) : Prop :=
  ((L.slots slot).Taken → ∀ j < maxTasks, (L.slots j).Taken →
    (L.slots j).pid ≠ (L.slots slot).parentPid) ∧
  ∀ j < maxTasks, (L.slots j).Taken → (L.slots j).parentPid ≠ slot + 1

/-- New tasks go into vacant slots. -/
def Housed (L : Life) : Move → Prop
  | .spawn slot _ | .fork slot _ => Vacant L slot
  | _ => True

structure Lineage (L : Life) : Prop where
  /-- The task with the pid of a parent is the parent. -/
  adopted : ∀ {i j}, i < maxTasks → j < maxTasks → (L.slots i).Taken → (L.slots j).Taken →
    (L.slots i).parentPid = (L.slots j).pid → (L.slots i).parentUid = (L.slots j).uid
  /-- Who waits for a pid has a child with that pid. -/
  waiting : ∀ {i c}, i < maxTasks → (L.slots i).state = .waiting c →
    ∃ j, j < maxTasks ∧ (L.slots j).Taken ∧ (L.slots j).pid = c ∧
      (L.slots j).parentPid = (L.slots i).pid
  dead : ∀ {i code}, i < maxTasks → (L.slots i).state = .dead code →
    ∃ parent, .died (L.slots i).uid code parent ∈ L.trace
  known : ∀ {T c p}, .forked T c p ∈ L.trace → T < L.nextUid
  /-- While a task is there, the children of its open forks are. -/
  kept : ∀ {T c p}, Open L.trace T c p → (∃ i < maxTasks, (L.slots i).Taken ∧ (L.slots i).uid = T) →
    ∃ j, j < maxTasks ∧ p = j + 1 ∧ (L.slots j).Taken ∧ (L.slots j).uid = c ∧
      (L.slots j).parentUid = T
  exact : Exact L.trace

namespace Lineage

variable {L L' : Life}

open Life

section

variable (lineage : Lineage L)
include lineage

/-- A change that moves no task, makes none wait but for a child and records only
deaths. -/
theorem quiet (same : SameTasks L L')
    (waiting : ∀ i c, (L'.slots i).state = .waiting c → (L.slots i).state = .waiting c ∨
      ∃ j, j < maxTasks ∧ (L.slots j).Taken ∧ (L.slots j).pid = c ∧
        (L.slots j).parentPid = (L.slots i).pid)
    (dead : ∀ i code, (L'.slots i).state = .dead code → (L.slots i).state = .dead code ∨
      ∃ parent, .died (L'.slots i).uid code parent ∈ L'.trace)
    (notes : L'.trace = L.trace ∨ ∃ n : Note, n.isDeath = true ∧ L'.trace = L.trace ++ [n]) :
    Lineage L' := by
  have grows : ∀ n, n ∈ L.trace → n ∈ L'.trace := by
    rcases notes with equal | ⟨n, -, equal⟩ <;> rw [equal]
    · exact fun _ member => member
    · exact fun _ member => List.mem_append_left _ member
  have opens : ∀ {T c p}, Open L'.trace T c p → Open L.trace T c p := by
    intro T c p opened
    rcases notes with equal | ⟨n, death, equal⟩ <;> rw [equal] at opened
    · exact opened
    · rcases open_snoc opened with rfl | ⟨old, -⟩
      · cases death
      · exact old
  refine ⟨?_, ?_, ?_, ?_, ?_, ?_⟩
  · intro i j boundI boundJ takenI takenJ parent
    rw [same.parentPid, same.pid] at parent
    rw [same.parentUid, same.uid]
    exact lineage.adopted boundI boundJ ((same.taken i).mp takenI) ((same.taken j).mp takenJ) parent
  · intro i c bound waits
    obtain ⟨j, boundJ, taken, pid, parent⟩ :=
      (waiting i c waits).elim (lineage.waiting bound) id
    refine ⟨j, boundJ, (same.taken j).mpr taken, ?_, ?_⟩
    · rw [same.pid, pid]
    · rw [same.parentPid, same.pid, parent]
  · intro i code bound died
    rcases dead i code died with before | recorded
    · obtain ⟨parent, member⟩ := lineage.dead bound before
      exact ⟨parent, grows _ (same.uid i ▸ member)⟩
    · exact recorded
  · intro T c p member
    rw [same.next]
    rcases notes with equal | ⟨n, death, equal⟩ <;> rw [equal] at member
    · exact lineage.known member
    · rcases List.mem_append.mp member with old | new
      · exact lineage.known old
      · rw [← List.mem_singleton.mp new] at death
        cases death
  · intro T c p opened present
    obtain ⟨i, bound, taken, uid⟩ := present
    obtain ⟨j, boundJ, numbered, takenJ, child, parent⟩ := lineage.kept (opens opened)
      ⟨i, bound, (same.taken i).mp taken, (same.uid i).symm.trans uid⟩
    refine ⟨j, boundJ, numbered, (same.taken j).mpr takenJ, ?_, ?_⟩
    · rw [same.uid, child]
    · rw [same.parentUid, parent]
  · rcases notes with equal | ⟨n, death, equal⟩ <;> rw [equal]
    · exact lineage.exact
    · refine lineage.exact.snoc fun T p d code isWait => ?_
      rw [isWait] at death
      cases death

/-- A change of slot `i` that makes its task neither wait nor die. -/
theorem setSlot {i : Nat} {s : Slot} (same : s.identity = (L.slots i).identity)
    (waiting : ∀ c, s.state = .waiting c → (L.slots i).state = .waiting c)
    (dead : ∀ code, s.state = .dead code → (L.slots i).state = .dead code)
    (slots : L'.slots = (L.setSlot i s).slots) (next : L'.nextUid = L.nextUid)
    (trace : L'.trace = L.trace) : Lineage L' := by
  refine lineage.quiet ((SameTasks.setSlot same).congr slots next) (fun j c waits => .inl ?_)
    (fun j code died => .inl ?_) (.inl trace)
  · rw [slots] at waits
    by_cases here : j = i
    · subst here
      rw [setSlot_self] at waits
      exact waiting c waits
    · rwa [setSlot_of_ne L s here] at waits
  · rw [slots] at died
    by_cases here : j = i
    · subst here
      rw [setSlot_self] at died
      exact dead code died
    · rwa [setSlot_of_ne L s here] at died

/-- A task is given a state in which it neither waits nor is dead. -/
theorem setState (i : Nat) (st : TaskState) (taken : (L.slots i).Taken)
    (stays : st ≠ .empty) (awake : ∀ c, st ≠ .waiting c) (alive : ∀ code, st ≠ .dead code)
    (slots : L'.slots = (L.setState i st).slots) (next : L'.nextUid = L.nextUid)
    (trace : L'.trace = L.trace) : Lineage L' := by
  have identity : ({ L.slots i with state := st } : Slot).identity = (L.slots i).identity := by
    have before : ((L.slots i).state == .empty) = false := beq_eq_false_iff_ne.mpr taken
    have after : (st == .empty) = false := beq_eq_false_iff_ne.mpr stays
    simp [Slot.identity, before, after]
  exact lineage.setSlot identity (fun c waits => absurd waits (awake c))
    (fun code died => absurd died (alive code)) slots next trace

theorem die {i : Nat} (taken : (L.slots i).Taken) (code : Int) :
    Lineage (L.die i code) := by
  have others : ∀ j, j ≠ i → (L.die i code).slots j = L.slots j :=
    fun j different => setState_of_ne L _ different
  have here : (L.die i code).slots i = { L.slots i with state := .dead code } := setState_self ..
  refine lineage.quiet (SameTasks.die taken code) (fun j c waits => ?_) (fun j code' died => ?_)
    (.inr ⟨_, rfl, rfl⟩)
  · by_cases at_i : j = i
    · rw [at_i, here] at waits
      cases waits
    · rw [others j at_i] at waits
      exact .inl waits
  · by_cases at_i : j = i
    · subst at_i
      rw [here] at died ⊢
      cases died
      exact .inr ⟨L.liveParent (L.slots j), List.mem_append_right _ (List.mem_singleton.mpr rfl)⟩
    · rw [others j at_i] at died
      exact .inl died

theorem free (i : Nat) : Lineage (L.free i) :=
  lineage.setSlot (s := { L.slots i with cr3 := 0 }) rfl (fun _ => id) (fun _ => id) rfl rfl rfl

/-- Recording that a death was notified. -/
theorem noteDeath {n : Note} (death : n.isDeath = true) :
    Lineage (L.note n) :=
  lineage.quiet ((SameTasks.refl L).congr rfl rfl) (fun _ _ => .inl) (fun _ _ => .inl)
    (.inr ⟨n, death, rfl⟩)

theorem rouse {i : Nat} (alive : (L.slots i).state.isFree = false) :
    Lineage (L.rouse i) := by
  unfold Life.rouse
  split
  · exact lineage.setState i .ready (.of_live (by simp [Slot.live, alive])) (by simp) (by simp)
      (by simp) rfl rfl rfl
  · exact lineage.setSlot (s := L.slots i) rfl (fun _ => id) (fun _ => id) rfl rfl rfl

theorem notify (parentPid child : Nat) :
    Lineage (L.notify parentPid child) := by
  unfold Life.notify
  split
  · exact lineage
  · split
    · exact lineage
    · next i _ alive => exact (lineage.rouse (by simpa using alive)).noteDeath rfl

theorem finish (taken : (L.slots L.current).Taken) (code : Int) :
    Lineage (L.finish code) := by
  have left : Lineage { L with userMode := false } :=
    lineage.quiet ((SameTasks.refl L).congr rfl rfl) (fun _ _ => .inl) (fun _ _ => .inl) (.inl rfl)
  have freed := (left.die (i := L.current) taken code).free L.current
  unfold Life.finish
  dsimp only
  split
  · exact freed.notify _ _
  · exact freed

/-- A parent has the code of its dead child and the child's slot is emptied. -/
theorem bury (slots : Slots L) {i j : Nat} {code : Int}
    (boundI : i < maxTasks) (boundJ : j < maxTasks) (takenI : (L.slots i).Taken)
    (dead : (L.slots j).state = .dead code) (child : (L.slots j).parentPid = (L.slots i).pid)
    (unwaited : ∀ {l}, l < maxTasks → (L.slots l).state ≠ .waiting (L.slots j).pid) :
    Lineage (L.bury i j code) := by
  have takenJ : (L.slots j).Taken := by simp [Slot.Taken, dead]
  have parent : (L.slots j).parentUid = (L.slots i).uid :=
    lineage.adopted boundJ boundI takenJ takenI child
  have gone : ¬((L.bury i j code).slots j).Taken := by simp [Life.bury, Slot.Taken]
  have rest : ∀ {l}, l ≠ j → (L.bury i j code).slots l = L.slots l :=
    fun different => setSlot_of_ne L _ different
  have old : ∀ {l}, ((L.bury i j code).slots l).Taken → l ≠ j ∧
      (L.bury i j code).slots l = L.slots l := by
    intro l taken
    have different : l ≠ j := by
      rintro rfl
      exact gone taken
    exact ⟨different, rest different⟩
  have newTrace : (L.bury i j code).trace = L.trace ++
      [.waited (L.slots i).uid (L.slots j).pid (L.slots j).uid code] := rfl
  refine ⟨?_, ?_, ?_, ?_, ?_, ?_⟩
  · intro l l' boundL boundL' takenL takenL' equal
    have sameL := (old takenL).2
    have sameL' := (old takenL').2
    rw [sameL] at takenL equal ⊢
    rw [sameL'] at takenL' equal ⊢
    exact lineage.adopted boundL boundL' takenL takenL' equal
  · intro l c bound waits
    have taken : ((L.bury i j code).slots l).Taken := by simp [Slot.Taken, waits]
    have same := (old taken).2
    rw [same] at waits ⊢
    obtain ⟨m, boundM, takenM, pid, parentM⟩ := lineage.waiting bound waits
    have different : m ≠ j := by
      rintro rfl
      exact unwaited bound (pid ▸ waits)
    exact ⟨m, boundM, by rw [rest different]; exact takenM, by rw [rest different]; exact pid,
      by rw [rest different]; exact parentM⟩
  · intro l code' bound died
    have taken : ((L.bury i j code).slots l).Taken := by simp [Slot.Taken, died]
    have same := (old taken).2
    rw [same] at died ⊢
    obtain ⟨q, member⟩ := lineage.dead bound died
    exact ⟨q, List.mem_append_left _ member⟩
  · intro T c p member
    rcases List.mem_append.mp member with before | new
    · exact lineage.known before
    · cases List.mem_singleton.mp new
  · intro T c p opened present
    obtain ⟨l, boundL, takenL, uidL⟩ := present
    have sameL := (old takenL).2
    rw [sameL] at takenL uidL
    rw [newTrace] at opened
    rcases open_snoc opened with isFork | ⟨before, unwaitedFor⟩
    · cases isFork
    · obtain ⟨m, boundM, numbered, takenM, uidM, parentM⟩ :=
        lineage.kept before ⟨l, boundL, takenL, uidL⟩
      have different : m ≠ j := by
        rintro rfl
        refine unwaitedFor (L.slots m).uid code ?_
        rw [← parent, parentM, slots.pid boundM takenM, numbered]
      exact ⟨m, boundM, numbered, by rw [rest different]; exact takenM,
        by rw [rest different]; exact uidM, by rw [rest different]; exact parentM⟩
  · rw [newTrace]
    refine lineage.exact.snoc fun T p d code' isWait c opened => ?_
    injection isWait with sameT sameP sameD sameCode
    subst sameT sameP sameD sameCode
    obtain ⟨m, boundM, numbered, takenM, uidM, -⟩ :=
      lineage.kept opened ⟨i, boundI, takenI, rfl⟩
    have here : m = j := by
      rw [slots.pid boundJ takenJ] at numbered
      omega
    subst here
    rw [← uidM]
    exact ⟨rfl, lineage.dead boundM dead⟩

/-- The current task waits for a child. -/
theorem park (slots : Slots L) {c : Nat} (user : L.userMode = true)
    (may : L.mayPark (.waiting c) = true) :
    Lineage { L.setState L.current (.waiting c) with userMode := false } := by
  have taken := slots.running user
  have same : SameTasks L { L.setState L.current (.waiting c) with userMode := false } :=
    (SameTasks.setState taken (by simp)).congr rfl rfl
  obtain ⟨j, found⟩ := Option.isSome_iff_exists.mp may
  obtain ⟨bound, both, -⟩ := firstBelow_eq_some found
  have child : (L.slots j).pid = c ∧ (L.slots j).parentPid = (L.slots L.current).pid := by
    simpa using both
  have takenJ : (L.slots j).Taken := by
    by_contra empty
    have orphan := (slots.empty_pid bound empty).2.symm.trans child.2
    rw [slots.pid slots.current_lt taken] at orphan
    exact absurd orphan (Nat.succ_ne_zero _).symm
  have others : ∀ i, i ≠ L.current → (L.setState L.current (.waiting c)).slots i = L.slots i :=
    fun i different => setState_of_ne L _ different
  have here : (L.setState L.current (.waiting c)).slots L.current =
      { L.slots L.current with state := .waiting c } := setState_self ..
  refine lineage.quiet same (fun i c' waits => ?_) (fun i code died => .inl ?_) (.inl rfl)
  · change ((L.setState L.current (.waiting c)).slots i).state = .waiting c' at waits
    by_cases current : i = L.current
    · rw [current, here] at waits
      cases waits
      exact .inr ⟨j, bound, takenJ, child.1, current ▸ child.2⟩
    · rw [others i current] at waits
      exact .inl waits
  · change ((L.setState L.current (.waiting c)).slots i).state = .dead code at died
    by_cases current : i = L.current
    · rw [current, here] at died
      cases died
    · rwa [others i current] at died

/-- A new task is put into a vacant slot; if it was forked, the fork is recorded. -/
theorem create (slots : Slots L) {slot cr3 parentPid parentUid : Nat}
    (bound : slot < maxTasks) (vacant : Vacant L slot) (own : parentPid ≠ slot + 1)
    (parent : ∀ {j}, j < maxTasks → (L.slots j).Taken → parentPid = (L.slots j).pid →
      parentUid = (L.slots j).uid) (placed : L'.slots =
      Function.update L.slots slot ⟨.ready, slot + 1, parentPid, cr3, L.nextUid, parentUid⟩)
    (next : L'.nextUid = L.nextUid + 1) (trace : L'.trace = L.trace ∨ parentUid < L.nextUid ∧
      L'.trace = L.trace ++ [.forked parentUid L.nextUid (slot + 1)]) : Lineage L' := by
  have new : L'.slots slot = ⟨.ready, slot + 1, parentPid, cr3, L.nextUid, parentUid⟩ := by
    rw [placed, Function.update_self]
  have rest : ∀ {i}, i ≠ slot → L'.slots i = L.slots i := by
    intro i different
    rw [placed, Function.update_of_ne different]
  have newTaken : (L'.slots slot).Taken := by
    rw [new]
    simp [Slot.Taken]
  have grows : ∀ n, n ∈ L.trace → n ∈ L'.trace := by
    rcases trace with equal | ⟨-, equal⟩ <;> rw [equal]
    · exact fun _ member => member
    · exact fun _ member => List.mem_append_left _ member
  refine ⟨?_, ?_, ?_, ?_, ?_, ?_⟩
  · intro i j insideI insideJ takenI takenJ equal
    by_cases hereI : i = slot
    · subst hereI
      rw [new] at equal ⊢
      by_cases hereJ : j = i
      · subst hereJ
        rw [new] at equal
        exact absurd equal own
      · rw [rest hereJ] at takenJ equal ⊢
        exact parent insideJ takenJ equal
    · rw [rest hereI] at takenI equal ⊢
      by_cases hereJ : j = slot
      · subst hereJ
        rw [new] at equal
        exact absurd equal (vacant.2 i insideI takenI)
      · rw [rest hereJ] at takenJ equal ⊢
        exact lineage.adopted insideI insideJ takenI takenJ equal
  · intro i c inside waits
    have different : i ≠ slot := by
      rintro rfl
      rw [new] at waits
      cases waits
    rw [rest different] at waits ⊢
    obtain ⟨j, insideJ, takenJ, pid, parentJ⟩ := lineage.waiting inside waits
    have takenI : (L.slots i).Taken := by simp [Slot.Taken, waits]
    have other : j ≠ slot := by
      rintro rfl
      exact vacant.1 takenJ i inside takenI parentJ.symm
    refine ⟨j, insideJ, ?_⟩
    rw [rest other]
    exact ⟨takenJ, pid, parentJ⟩
  · intro i code inside died
    have different : i ≠ slot := by
      rintro rfl
      rw [new] at died
      cases died
    rw [rest different] at died ⊢
    obtain ⟨q, member⟩ := lineage.dead inside died
    exact ⟨q, grows _ member⟩
  · intro T c p member
    rw [next]
    rcases trace with equal | ⟨older, equal⟩ <;> rw [equal] at member
    · exact Nat.lt_succ_of_lt (lineage.known member)
    · rcases List.mem_append.mp member with before | last
      · exact Nat.lt_succ_of_lt (lineage.known before)
      · cases List.mem_singleton.mp last
        exact Nat.lt_succ_of_lt older
  · intro T c p opened present
    have older : Open L.trace T c p → ∃ j, j < maxTasks ∧ p = j + 1 ∧ (L'.slots j).Taken ∧
        (L'.slots j).uid = c ∧ (L'.slots j).parentUid = T := by
      intro before
      have known : T < L.nextUid := lineage.known before.mem
      obtain ⟨l, insideL, takenL, uidL⟩ := present
      have different : l ≠ slot := by
        rintro rfl
        rw [new] at uidL
        exact absurd uidL (Nat.ne_of_gt known)
      rw [rest different] at takenL uidL
      obtain ⟨j, insideJ, numbered, takenJ, uidJ, parentJ⟩ :=
        lineage.kept before ⟨l, insideL, takenL, uidL⟩
      have other : j ≠ slot := by
        rintro rfl
        refine vacant.1 takenJ l insideL takenL ?_
        exact (slots.parent_pid insideJ insideL takenJ takenL (uidL.trans parentJ.symm)).symm
      refine ⟨j, insideJ, numbered, ?_⟩
      rw [rest other]
      exact ⟨takenJ, uidJ, parentJ⟩
    rcases trace with equal | ⟨-, equal⟩ <;> rw [equal] at opened
    · exact older opened
    · rcases open_snoc opened with isFork | ⟨before, -⟩
      · cases isFork
        refine ⟨slot, bound, rfl, newTaken, ?_, ?_⟩ <;> rw [new]
      · exact older before
  · rcases trace with equal | ⟨-, equal⟩ <;> rw [equal]
    · exact lineage.exact
    · exact lineage.exact.snoc fun T p d code isWait => by cases isWait

/-- **The lineage is kept by every move** that puts new tasks into vacant slots. -/
theorem step (slots : Slots L) {m : Move} (housed : Housed L m)
    (moved : L.step m = some L') : Lineage L' := by
  have here := slots.current_lt
  cases moves_of_step moved with
  | @wake i bound blocked =>
    have taken : (L.slots i).Taken := by
      intro empty
      simp [empty, isBlocked] at blocked
    exact lineage.setState i .ready taken (by simp) (by simp) (by simp) rfl rfl rfl
  | @collect i j code kernel boundI boundJ waits dead =>
    have takenI : (L.slots i).Taken := by simp [Slot.Taken, waits]
    have takenJ : (L.slots j).Taken := by simp [Slot.Taken, dead]
    have different : j ≠ i := by
      rintro rfl
      rw [waits] at dead
      cases dead
    have isChild : ∀ {l}, l < maxTasks → (L.slots l).state = .waiting (L.slots j).pid →
        (L.slots j).parentPid = (L.slots l).pid := by
      intro l bound waitsL
      obtain ⟨m, boundM, takenM, pid, parent⟩ := lineage.waiting bound waitsL
      have same : m = j := by
        rw [slots.pid boundM takenM, slots.pid boundJ takenJ] at pid
        omega
      exact same ▸ parent
    have ready : Lineage (L.setState i .ready) :=
      lineage.setState i .ready takenI (by simp) (by simp) (by simp) rfl rfl rfl
    have slots' : Slots (L.setState i .ready) :=
      slots.leave (.setState takenI (by simp)) here kernel
    have atJ : (L.setState i .ready).slots j = L.slots j := setState_of_ne L _ different
    have atI : (L.setState i .ready).slots i = { L.slots i with state := .ready } :=
      setState_self ..
    refine ready.bury slots' boundI boundJ (by rw [atI]; simp [Slot.Taken])
      (by rw [atJ, dead]) ?_ ?_
    · rw [atJ, atI]
      exact isChild boundI waits
    · intro l boundL waitsL
      have notI : l ≠ i := by
        rintro rfl
        rw [atI] at waitsL
        cases waitsL
      rw [setState_of_ne L _ notI, atJ] at waitsL
      have takenL : (L.slots l).Taken := by simp [Slot.Taken, waitsL]
      have equal := (isChild boundL waitsL).symm.trans (isChild boundI waits)
      rw [slots.pid boundL takenL, slots.pid boundI takenI] at equal
      omega
  | @reap j code user bound dead child =>
    have takenJ : (L.slots j).Taken := by simp [Slot.Taken, dead]
    refine lineage.bury slots here bound (slots.running user) dead child ?_
    intro l boundL waitsL
    obtain ⟨m, boundM, takenM, pid, parent⟩ := lineage.waiting boundL waitsL
    have same : m = j := by
      rw [slots.pid boundM takenM, slots.pid bound takenJ] at pid
      omega
    have takenL : (L.slots l).Taken := by simp [Slot.Taken, waitsL]
    have current : l = L.current := by
      have equal := parent.symm.trans (same ▸ child)
      rw [slots.pid boundL takenL, slots.pid here (slots.running user)] at equal
      omega
    exact slots.awake user _ (current ▸ waitsL)
  | choose kernel bound =>
    exact lineage.quiet ((SameTasks.refl L).congr rfl rfl) (fun _ _ => .inl) (fun _ _ => .inl)
      (.inl rfl)
  | resume kernel ready =>
    exact lineage.setState L.current .running (by simp [Slot.Taken, ready]) (by simp) (by simp)
      (by simp) rfl rfl rfl
  | @park s user may =>
    have taken := slots.running user
    cases s with
    | waiting c => exact lineage.park slots user may
    | sleeping wake | waitingForMsg queue msgPtr =>
      exact lineage.setState L.current _ taken (by simp) (by simp) (by simp) rfl rfl rfl
    | empty | ready | running | dead code => cases may
  | suspend user =>
    exact lineage.setState L.current _ (slots.running user) (by simp) (by simp) (by simp) rfl rfl
      rfl
  | preempt user =>
    exact lineage.setState L.current .ready (slots.running user) (by simp) (by simp) (by simp) rfl
      rfl rfl
  | exit user => exact lineage.finish (slots.running user) _
  | fatal kernel ready => exact (lineage.die (by simp [Slot.Taken, ready]) _).free _
  | kill bound alive => exact lineage.die (.of_live alive) _
  | @spawn slot cr3 kernel bound vacant =>
    refine lineage.create slots bound housed (Nat.succ_ne_zero slot).symm ?_ rfl rfl (.inl rfl)
    intro j inside taken orphan
    rw [slots.pid inside taken] at orphan
    exact absurd orphan (Nat.succ_ne_zero j).symm
  | @fork slot cr3 user bound other vacant =>
    have taken := slots.running user
    have pid := slots.pid here taken
    refine lineage.create slots bound housed (by rw [pid]; omega) ?_ rfl rfl
      (.inr ⟨(slots.uid_lt here taken).2, rfl⟩)
    intro j inside takenJ equal
    rw [pid, slots.pid inside takenJ] at equal
    have same : L.current = j := by omega
    rw [same]
  | @exec cr3 user =>
    exact lineage.setSlot (i := L.current) (s := { L.slots L.current with cr3 := cr3 }) rfl
      (fun _ => id) (fun _ => id) rfl rfl rfl

end

end Lineage

end OxideOS.Proc
