import OxideOS.Proc.Fitting
import OxideOS.Sys.SharedSegments

/-!
# Calls that fail

`spawn`, `fork`, `exec`, `brk` and `mmap` take frames one by one and stop at the
first one that is missing. None of them gives back what it has taken, so a failed
call leaves the system as it was exactly if it has failed before its first frame
(`failed_neutral_iff`): its arguments were refused, there was no slot for the task,
or no frame was left to begin with.

A call that has not got a single frame can be made again. It then fails only if the
frames run out again, provided that it is one that can succeed (`Possible`): the
pages it maps are not mapped yet, and the program fits into its address space. After
a failure half-way that is lost too: the pages that were mapped before the frames ran
out are in the way of the next attempt (`mmap_not_neutral`).
-/

set_option autoImplicit false

namespace OxideOS.Sys

open Lib Mem Fs Ipc Proc Proc.Kernel

/-! ## Calls and how they end -/

inductive Call where
  | spawn (binary : Option Image) (name block : List UInt8)
  | fork (ctx : Option TaskContext)
  | exec (binary : Except Int Image) (block : List UInt8)
  | brk (newEnd : Nat)
  | mmap (len : Nat)

/-- The end of the caller's heap. -/
def curEnd (k : Kernel) : Nat := heapTop (booksOf (k.tasks k.current))

/-- The pages an `mmap` of the caller maps, or those of its growing heap. -/
def mmapPages (len : Nat) (k : Kernel) : Prog Paging PagingError PUnit :=
  Paging.mapUserRegionIn (k.tasks k.current).cr3 (mmapBase (k.tasks k.current)) (pagesFor len)
    true false

def brkPages (newEnd : Nat) (k : Kernel) : Prog Paging PagingError PUnit :=
  Paging.mapUserRegionIn (k.tasks k.current).cr3 (pageCeil (curEnd k))
    (heapPages (booksOf (k.tasks k.current)) newEnd) true false

/-- The call does not move the break. -/
def BrkIdle (newEnd : Nat) (k : Kernel) : Prop :=
  newEnd = 0 ∨ newEnd < userHeapBase ∨ newEnd ≤ curEnd k

instance (newEnd : Nat) (k : Kernel) : Decidable (BrkIdle newEnd k) :=
  inferInstanceAs (Decidable (newEnd = 0 ∨ newEnd < userHeapBase ∨ newEnd ≤ curEnd k))

/-- Whether a call succeeds, and the state it leaves; `none` when the system stops. The
answers of `brk` and `mmap` are addresses, of which an error code cannot always be told:
for these two it is whether the pages could be mapped. -/
def attempt (k : Kernel) : Call → Option Bool × Kernel
  | .spawn binary name block =>
    match spawn binary name block k with
    | (.ok _, k') => (some true, k')
    | (.error .halted, k') => (none, k')
    | (.error _, k') => (some false, k')
  | .fork ctx =>
    match forkChild ctx k with
    | (.ok pid, k') => (some (decide (0 < pid)), k')
    | (.error _, k') => (none, k')
  | .exec binary block =>
    match exec binary block k with
    | (.ok _, k') => (some false, k')
    | (.error (.exitToKernel _), k') => (some true, k')
    | (.error .halt, k') => (none, k')
  | .brk newEnd =>
    if BrkIdle newEnd k then (some true, k) else
    match brkPages newEnd k k.paging with
    | (.error _, p) => (some false, { k with paging := p })
    | (.ok _, p) =>
      (some true, { k with paging := p }.modifyTask k.current fun t =>
        { t with heapEnd := newEnd })
  | .mmap len =>
    if len = 0 then (some false, k) else
    match mmapPages len k k.paging with
    | (.error _, p) => (some false, { k with paging := p })
    | (.ok _, p) =>
      (some true, { k with paging := p }.modifyTask k.current
        (recordRegion (mmapBase (k.tasks k.current)) (pagesFor len)))

/-- The calls themselves leave the same state, and tell success by their answers. -/
theorem brkProgram_eq (newEnd : Nat) (k : Kernel) :
    brkProgram newEnd k =
      (.ok (if BrkIdle newEnd k then toI64 (curEnd k)
        else if (attempt k (.brk newEnd)).1 = some true then toI64 newEnd else -4),
        (attempt k (.brk newEnd)).2) := by
  have same : growHeap (k.tasks k.current).cr3 (pageCeil (curEnd k)) (pageCeil newEnd) k =
      onPaging (brkPages newEnd k) k := congrFun (Formed.growHeap_eq _ _ _) k
  have grows : brkProgram newEnd k = (if BrkIdle newEnd k then pure (toI64 (curEnd k)) else do
      let mapped ← growHeap (k.tasks k.current).cr3 (pageCeil (curEnd k)) (pageCeil newEnd)
      if !mapped then return -4
      updateCurrent fun t => { t with heapEnd := newEnd }
      return toI64 newEnd) k := rfl
  by_cases idle : BrkIdle newEnd k
  · simp only [grows, attempt, if_pos idle]
    rfl
  · simp only [grows, attempt, if_neg idle, Prog.bind_apply, same, onPaging]
    rcases brkPages newEnd k k.paging with ⟨e | a, p⟩ <;> rfl

theorem mmapAnon_eq (len : Nat) (k : Kernel) :
    mmapAnon len k =
      (.ok (if len = 0 then -22
        else if (attempt k (.mmap len)).1 = some true then toI64 (mmapBase (k.tasks k.current))
        else -12),
        (attempt k (.mmap len)).2) := by
  have maps : mmapAnon len k = (if len = 0 then pure (-22) else do
      let mapped ← onPaging (mmapPages len k)
      if !mapped then return -12
      updateCurrent (recordRegion (mmapBase (k.tasks k.current)) (pagesFor len))
      return toI64 (mmapBase (k.tasks k.current))) k := by
    unfold mmapAnon
    split <;> rfl
  by_cases empty : len = 0
  · simp only [maps, attempt, if_pos empty]
    rfl
  · simp only [maps, attempt, if_neg empty, Prog.bind_apply, onPaging]
    rcases mmapPages len k k.paging with ⟨e | a, p⟩ <;> rfl

/-! ## What a failure leaves behind -/

/-- The frames in use, the mappings of all address spaces with their flags, and what is
recorded about the tasks are the same. -/
structure Neutral (k k' : Kernel) : Prop where
  frames : framesInUse k'.paging = framesInUse k.paging
  mappings : ∀ r v, leafAt k'.paging.mem r v = leafAt k.paging.mem r v
  tasks : k'.tasks = k.tasks

theorem Neutral.refl (k : Kernel) : Neutral k k := ⟨rfl, fun _ _ => rfl, rfl⟩

/-- The slot for a child. -/
def childSlot (k : Kernel) : Option Nat :=
  firstBelow maxTasks fun i => i != k.current && (k.tasks i).state.isFree

/-- The slot for a new program. -/
def freeSlot (k : Kernel) : Option Nat := firstBelow maxTasks fun i => (k.tasks i).state.isFree

/-- The call is refused for its arguments, for want of a slot, or because there is no frame
to begin with. -/
def Refused (k : Kernel) : Call → Prop
  | .spawn binary _ _ => binary = none ∨ freeSlot k = none ∨ k.paging.Dry
  | .fork ctx => ctx = none ∨ childSlot k = none ∨ k.paging.Dry
  | .exec binary _ => (∃ code, binary = .error code) ∨ k.paging.Dry
  | .brk _ => k.paging.Dry
  | .mmap len => len = 0 ∨ k.paging.Dry

/-- A call either ends where it began, or has taken a frame. -/
def Undecided (k : Kernel) (call : Call) : Prop :=
  (Refused k call → (attempt k call).2 = k) ∧
    (¬ Refused k call → framesInUse k.paging < framesInUse (attempt k call).2.paging)

variable {k : Kernel}

theorem spawn_undecided (binary : Option Image) (name block : List UInt8)
    (failed : (attempt k (.spawn binary name block)).1 = some false) :
    Undecided k (.spawn binary name block) := by
  cases binary with
  | none => exact ⟨fun _ => rfl, fun taken => absurd (.inl rfl) taken⟩
  | some img =>
    unfold attempt at failed
    simp only [Undecided, Refused, attempt, reduceCtorEq, false_or, spawn_eq] at failed ⊢
    cases found : freeSlot k with
    | none =>
      have none_ : (firstBelow maxTasks fun i => (k.tasks i).state.isFree) = none := found
      simp [startTask, none_]
    | some slot =>
      have some_ : (firstBelow maxTasks fun i => (k.tasks i).state.isFree) = some slot := found
      simp only [startTask, some_, reduceCtorEq, false_or] at failed ⊢
      constructor
      · intro dry
        simp only [build_dry dry]
      · intro wet
        have taken := build_taken wet (spawnPlan img block).steps
        rcases built : build (spawnPlan img block).steps k.paging with ⟨e | cr3, p⟩
        · rw [built] at taken
          simp only
          cases e <;> exact taken
        · simp [built] at failed

theorem fork_undecided (ctx : Option TaskContext)
    (failed : (attempt k (.fork ctx)).1 = some false) : Undecided k (.fork ctx) := by
  cases ctx with
  | none => exact ⟨fun _ => rfl, fun taken => absurd (.inl rfl) taken⟩
  | some ctx =>
    simp only [Undecided, Refused, attempt, forkChild, reduceCtorEq, false_or] at failed ⊢
    cases found : childSlot k with
    | none =>
      have none_ : (firstBelow maxTasks fun i => i != k.current && (k.tasks i).state.isFree)
          = none := found
      simp [forkTask, none_]
    | some slot =>
      have some_ : (firstBelow maxTasks fun i => i != k.current && (k.tasks i).state.isFree)
          = some slot := found
      simp only [forkTask, some_, reduceCtorEq, false_or] at failed ⊢
      constructor
      · intro dry
        simp only [Paging.cowForkUserPageTable_dry dry]
      · intro wet
        have taken := Paging.cowForkUserPageTable_taken wet (k.tasks k.current).cr3 stackRange
          (shmRanges (k.tasks k.current).shmAttaches k.segtab)
        rcases copied : Paging.cowForkUserPageTable (k.tasks k.current).cr3 stackRange
          (shmRanges (k.tasks k.current).shmAttaches k.segtab) k.paging with ⟨e | cr3, p⟩
        · rw [copied] at taken
          exact taken
        · simp only [copied, Option.some.injEq, decide_eq_false_iff_not] at failed
          omega

theorem exec_undecided (binary : Except Int Image) (block : List UInt8)
    (failed : (attempt k (.exec binary block)).1 = some false) :
    Undecided k (.exec binary block) := by
  cases binary with
  | error code => exact ⟨fun _ => rfl, fun taken => absurd (.inl ⟨code, rfl⟩) taken⟩
  | ok img =>
    simp only [Undecided, Refused, attempt, exec, execBinary_eq, execPlan, reduceCtorEq,
      exists_false, false_or] at failed ⊢
    constructor
    · intro dry
      simp only [build_dry dry]
    · intro wet
      have taken := build_taken wet (execPlanOf img block).steps
      rcases built : build (execPlanOf img block).steps k.paging with ⟨e | cr3, p⟩
      · rw [built] at taken
        cases e <;> exact taken
      · simp [built] at failed

/-- A region that cannot be mapped has cost a frame, if there was one. -/
theorem region_undecided {cr3 virt pages : Nat} {e : PagingError} {p : Paging}
    (ended : Paging.mapUserRegionIn cr3 virt pages true false k.paging = (.error e, p)) :
    (k.paging.Dry → p = k.paging) ∧ (¬ k.paging.Dry → framesInUse k.paging < framesInUse p) := by
  have some_ : pages ≠ 0 := by
    rintro rfl
    cases ended
  constructor
  · intro dry
    rw [Paging.mapUserRegionIn_dry dry some_] at ended
    cases ended
    rfl
  · intro wet
    have taken := @Paging.mapUserRegionIn_taken _ cr3 virt wet _ some_ true false
    rwa [ended] at taken

theorem brk_undecided (newEnd : Nat) (failed : (attempt k (.brk newEnd)).1 = some false) :
    Undecided k (.brk newEnd) := by
  simp only [Undecided, Refused, attempt] at failed ⊢
  split at failed
  · cases failed
  · next grows =>
      rcases mapped : brkPages newEnd k k.paging with ⟨e | a, p⟩
      · obtain ⟨same, taken⟩ := region_undecided mapped
        simp only [if_neg grows]
        exact ⟨fun dry => by rw [same dry], taken⟩
      · simp [mapped] at failed

theorem mmap_undecided (len : Nat) (failed : (attempt k (.mmap len)).1 = some false) :
    Undecided k (.mmap len) := by
  simp only [Undecided, Refused, attempt] at failed ⊢
  by_cases empty : len = 0
  · simp [empty]
  · simp only [empty, if_false, false_or] at failed ⊢
    rcases mapped : mmapPages len k k.paging with ⟨e | a, p⟩
    · obtain ⟨same, taken⟩ := region_undecided mapped
      exact ⟨fun dry => by rw [same dry], taken⟩
    · simp [mapped] at failed

theorem undecided {call : Call} (failed : (attempt k call).1 = some false) : Undecided k call := by
  cases call with
  | spawn binary name block => exact spawn_undecided binary name block failed
  | fork ctx => exact fork_undecided ctx failed
  | exec binary block => exact exec_undecided binary block failed
  | brk newEnd => exact brk_undecided newEnd failed
  | mmap len => exact mmap_undecided len failed

/-- A failed call is neutral exactly if it was refused. -/
theorem neutral_iff_refused {call : Call} (failed : (attempt k call).1 = some false) :
    Neutral k (attempt k call).2 ↔ Refused k call := by
  obtain ⟨same, taken⟩ := undecided failed
  constructor
  · intro neutral
    by_contra begun
    exact absurd neutral.frames (Nat.ne_of_gt (taken begun))
  · intro refused
    rw [same refused]
    exact .refl k

/-! ## Making the call again -/

/-- The caller is alive, and none of the pages, which are in the lower half, is mapped for
it. -/
def Unmapped (k : Kernel) (virt pages : Nat) : Prop :=
  occupied k k.current = true ∧ LowerRegion virt pages ∧
    ∀ page < pages, leafAt k.paging.mem ((k.tasks k.current).cr3 / 4096)
      (regionPage virt page) = none

/-- The call is one that can succeed when there are frames enough. -/
def Possible (k : Kernel) : Call → Prop
  | .spawn (some img) _ block => freeSlot k ≠ none ∧ Fits ∅ ∅ (spawnPlan img block).steps
  | .fork (some _) => childSlot k ≠ none
  | .exec (.ok img) block => Fits ∅ ∅ (execPlanOf img block).steps
  | .brk newEnd =>
    Unmapped k (pageCeil (curEnd k)) (heapPages (booksOf (k.tasks k.current)) newEnd)
  | .mmap len => len ≠ 0 ∧ Unmapped k (mmapBase (k.tasks k.current)) (pagesFor len)
  | .spawn none _ _ | .fork none | .exec (.error _) _ => False

/-- A later state in which the caller is where it was, with the same pages, and the same
slots are taken. -/
structure Later (k k₂ : Kernel) : Prop where
  current : k₂.current = k.current
  caller : k₂.tasks k.current = k.tasks k.current
  pages : ∀ v, leafAt k₂.paging.mem ((k.tasks k.current).cr3 / 4096) v
    = leafAt k.paging.mem ((k.tasks k.current).cr3 / 4096) v
  slots : ∀ i, (k₂.tasks i).state.isFree = (k.tasks i).state.isFree

theorem Later.possible {k₂ : Kernel} {call : Call} (later : Later k k₂)
    (possible : Possible k call) : Possible k₂ call := by
  have caller : k₂.tasks k₂.current = k.tasks k.current := by rw [later.current, later.caller]
  have unmapped : ∀ {virt pages}, Unmapped k virt pages → Unmapped k₂ virt pages := by
    intro virt pages free
    refine ⟨?_, free.2.1, fun page inside => ?_⟩
    · have alive := free.1
      unfold occupied at alive ⊢
      rwa [caller, later.current]
    · rw [caller, later.pages]
      exact free.2.2 page inside
  match call with
  | .spawn (some img) name block =>
    refine ⟨?_, possible.2⟩
    simpa only [freeSlot, later.slots] using possible.1
  | .fork (some ctx) => simpa only [Possible, childSlot, later.slots, later.current] using possible
  | .exec (.ok img) block => exact possible
  | .brk newEnd =>
    have free := unmapped possible
    simpa only [Possible, curEnd, caller] using free
  | .mmap len =>
    have free := unmapped possible.2
    exact ⟨possible.1, by simpa only [caller] using free⟩

variable {boot : Paging} {L : Layout}

/-- Pages of the caller that are not mapped can be mapped, or the frames run out. -/
theorem Unmapped.succeeds (formed : Formed boot L k) {virt pages : Nat}
    (free : Unmapped k virt pages) :
    Prog.wp (Paging.mapUserRegionIn (k.tasks k.current).cr3 virt pages true false)
      (fun _ _ => True) (fun _ p => p.Dry) k.paging := by
  have live : Sys.books k k.current = some (booksOf (k.tasks k.current)) := if_pos free.1
  obtain ⟨extra, inv⟩ := formed.inv
  have spec := inv.mapUserRegionIn_spec (formed.member live) free.2.1 true false
  rw [← formed.cr3 live] at spec
  refine Prog.wp_mono (fun _ _ _ => trivial) ?_ (Prog.wp_and spec
    ((Paging.mapUserRegionIn_leads (k.tasks k.current).cr3 virt pages true false).spec k.paging))
  rintro e p ⟨⟨-, -, -, -, ⟨-, page, inside, mapped⟩ | lack⟩, -, starved⟩
  · rw [← formed.leafAt_eq live] at mapped
    exact absurd (free.2.2 page inside) mapped
  · exact starved lack

/-- A call that can succeed does, unless the frames run out. -/
theorem Possible.succeeds (formed : Formed boot L k) {call : Call} (possible : Possible k call) :
    (attempt k call).1 = some true ∨ (attempt k call).2.paging.Dry := by
  match call with
  | .spawn (some img) name block =>
    obtain ⟨slot, found⟩ := Option.ne_none_iff_exists'.mp possible.1
    have some_ : (firstBelow maxTasks fun i => (k.tasks i).state.isFree) = some slot := found
    obtain ⟨extra, inv⟩ := formed.inv
    have built := build_succeeds inv possible.2
    simp only [attempt, spawn_eq, startTask, some_]
    rcases result : build (spawnPlan img block).steps k.paging with ⟨e | cr3, p⟩
    · have dry := (Prog.wp_error result).mp built
      right
      cases e <;> exact dry
    · exact .inl rfl
  | .fork (some ctx) =>
    obtain ⟨slot, found⟩ := Option.ne_none_iff_exists'.mp possible
    have some_ : (firstBelow maxTasks fun i => i != k.current && (k.tasks i).state.isFree)
        = some slot := found
    have copied := Paging.cowForkUserPageTable_leads (k.tasks k.current).cr3 stackRange
      (shmRanges (k.tasks k.current).shmAttaches k.segtab)
    simp only [attempt, forkChild, forkTask, some_]
    rcases result : Paging.cowForkUserPageTable (k.tasks k.current).cr3 stackRange
      (shmRanges (k.tasks k.current).shmAttaches k.segtab) k.paging with ⟨e | cr3, p⟩
    · exact .inr (copied.error result)
    · left
      simp only [Option.some.injEq, decide_eq_true_eq]
      omega
  | .exec (.ok img) block =>
    obtain ⟨extra, inv⟩ := formed.inv
    have fits : Fits ∅ ∅ (execPlanOf img block).steps := possible
    have built := build_succeeds inv fits
    simp only [attempt, exec, execBinary_eq, execPlan]
    rcases result : build (execPlanOf img block).steps k.paging with ⟨e | cr3, p⟩
    · have dry := (Prog.wp_error result).mp built
      right
      cases e <;> exact dry
    · exact .inl rfl
  | .brk newEnd =>
    have mapped := Unmapped.succeeds formed possible
    simp only [attempt]
    split
    · exact .inl rfl
    · rcases result : brkPages newEnd k k.paging with ⟨e | a, p⟩
      · exact .inr ((Prog.wp_error result).mp mapped)
      · exact .inl rfl
  | .mmap len =>
    have mapped := Unmapped.succeeds formed possible.2
    simp only [attempt, if_neg possible.1]
    rcases result : mmapPages len k k.paging with ⟨e | a, p⟩
    · exact .inr ((Prog.wp_error result).mp mapped)
    · exact .inl rfl

/-- **Failures.** Of a call that fails, whatever the state: it is neutral exactly if it was
refused; and if it can succeed at all, then it does in every later state, unless the
frames run out again. -/
theorem failed_neutral_iff {k : Kernel} {call : Call} (failed : (attempt k call).1 = some false) :
    (Neutral k (attempt k call).2 ↔ Refused k call) ∧
    (Possible k call → ∀ (boot : Paging) (L : Layout) (k₂ : Kernel), Formed boot L k₂ →
      Later k k₂ → (attempt k₂ call).1 = some true ∨ (attempt k₂ call).2.paging.Dry) :=
  ⟨neutral_iff_refused failed, fun possible _ _ _ formed later =>
    (later.possible possible).succeeds formed⟩

/-- A program that has used up the memory forks: the call leaves no trace, and succeeds as
soon as there are frames enough. -/
theorem failed_neutral_iff_fork :
    ∃ k, run move (Kernel.start (blankBoot 5)) [.start onePage []] = some k ∧
      (attempt (enter 0 k) (.fork (some .zeroed))).1 = some false ∧
      Neutral (enter 0 k) (attempt (enter 0 k) (.fork (some .zeroed))).2 ∧
      ∀ (boot : Paging) (L : Layout) (k₂ : Kernel), Formed boot L k₂ → Later (enter 0 k) k₂ →
        (attempt k₂ (.fork (some .zeroed))).1 = some true ∨
          (attempt k₂ (.fork (some .zeroed))).2.paging.Dry := by
  have ends : (run move (Kernel.start (blankBoot 5)) [.start onePage []]).map (fun k =>
      decide ((attempt (enter 0 k) (.fork (some .zeroed))).1 = some false ∧
        (enter 0 k).paging.Dry ∧ childSlot (enter 0 k) ≠ none)) = some true := by
    decide +kernel
  obtain ⟨k, ran, facts⟩ := Option.map_eq_some_iff.mp ends
  obtain ⟨failed, dry, slot⟩ := of_decide_eq_true facts
  obtain ⟨neutral, again⟩ := failed_neutral_iff failed
  exact ⟨k, ran, failed, neutral.mpr (.inr (.inr dry)), again slot⟩

/-- Two programs, the second of which takes all but two of the free frames. -/
def fillMemory : List Op :=
  [.start onePage [], .start onePage [], .act 1 (.mmap 0x3000)]

/-- The first program asks for two pages. It gets one of them and an error. When the second
program has exited there are frames enough, but the page that was mapped is in the way:
the call fails again. -/
theorem mmap_not_neutral :
    Boot smallBoot ∧ ∃ k, run move (Kernel.start smallBoot) fillMemory = some k ∧
      (attempt (enter 0 k) (.mmap 0x2000)).1 = some false ∧
      ¬ Neutral (enter 0 k) (attempt (enter 0 k) (.mmap 0x2000)).2 ∧
      ∃ k₂, run move k [.act 0 (.mmap 0x2000), .act 1 (.exit 0)] = some k₂ ∧
        k₂.paging.frameAllocator.allocatedFrames = 7 ∧
        (attempt (enter 0 k₂) (.mmap 0x2000)).1 = some false := by
  refine ⟨smallBoot_boot, ?_⟩
  have ends : (run move (Kernel.start smallBoot) fillMemory).map (fun k =>
      decide ((attempt (enter 0 k) (.mmap 0x2000)).1 = some false ∧ ¬ (enter 0 k).paging.Dry ∧
        (run move k [.act 0 (.mmap 0x2000), .act 1 (.exit 0)]).map (fun k₂ =>
          decide (k₂.paging.frameAllocator.allocatedFrames = 7 ∧
            (attempt (enter 0 k₂) (.mmap 0x2000)).1 = some false)) = some true)) = some true := by
    decide +kernel
  obtain ⟨k, ran, facts⟩ := Option.map_eq_some_iff.mp ends
  obtain ⟨failed, wet, later⟩ := of_decide_eq_true facts
  obtain ⟨k₂, ran₂, facts₂⟩ := Option.map_eq_some_iff.mp later
  refine ⟨k, ran, failed, ?_, k₂, ran₂, of_decide_eq_true facts₂⟩
  rw [neutral_iff_refused failed]
  rintro (empty | dry)
  · cases empty
  · exact wet dry

end OxideOS.Sys
