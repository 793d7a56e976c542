import OxideOS.Sys.ExecTrace
import OxideOS.Sys.SharedMemory

/-!
# What a segment promises

`shmget` answers the number of a segment, and `shmat` the address where it is mapped.
The size of a segment is that of the call that has created it: a later `shmget` with the
same key and a larger size gets the same, smaller segment. `shmdt` takes the attachment
out of the table and leaves the pages mapped.

`Contract` is what a program may expect of the three calls. It holds along every careful
run in which nobody asks for more than an existing segment has and nothing is detached
(`contract_of_run`). `contract_broken` has one run for each of the two.
-/

set_option autoImplicit false

namespace OxideOS.Sys

open Lib Mem Fs Ipc Proc Proc.Kernel PageTableFlags PageTableEntry

/-- What a call of the task in slot `i` answers. -/
def answer (k : Kernel) (i : Nat) (a : Act) : Option Int := (perform a (enter i k)).1.toOption

/-- What the three calls promise in the run of `ops` from `k₀`. -/
structure Contract (k₀ : Kernel) (ops : List Op) : Prop where
  /-- A segment that was answered to a request for `size` bytes and is attached has them. -/
  size : ∀ i key size k k' rest, Happens move k₀ ops k (.act i (.shmget key size)) k' rest →
    ∀ id : Nat, answer k i (.shmget key size) = some id →
    ∀ shmid j j' rest', Happens move k' rest j (.act i (.shmat shmid)) j' rest' →
      shmid % 2 ^ 32 = id → ∀ addr : Nat, answer j i (.shmat shmid) = some addr →
    ∀ off < size, ∀ a : Access,
      j'.paging.translate (j'.tasks i).cr3 (addr + off) a = .ok ((j'.segtab id).physBase + off)
  /-- A segment that is detached is not mapped any more and can be attached again. -/
  detach : ∀ i addr k k' rest, Happens move k₀ ops k (.act i (.shmdt addr)) k' rest →
    answer k i (.shmdt addr) = some 0 →
    ∃ n < maxAttach, ((k.tasks i).shmAttaches n).active = true ∧
      ((k.tasks i).shmAttaches n).vaddr = addr ∧
      (∀ off < segmentPages k.segtab ((k.tasks i).shmAttaches n).shmid * 4096, ∀ a phys,
        k'.paging.translate (k'.tasks i).cr3 (addr + off) a ≠ .ok phys) ∧
      ∀ j j' rest',
        Happens move k' rest j (.act i (.shmat ((k.tasks i).shmAttaches n).shmid)) j' rest' →
        ∃ addr' : Nat, answer j i (.shmat ((k.tasks i).shmAttaches n).shmid) = some addr'

/-- Nobody asks for more than an existing segment has, and nothing is detached. -/
def Modest (k : Kernel) : Op → Prop
  | .act _ (.shmget key size) =>
    ∀ id < maxSegments, (k.segtab id).active = true → (k.segtab id).key = key % 2 ^ 32 →
      size ≤ (k.segtab id).pages * 4096
  | .act i (.shmdt addr) =>
    ∀ n < maxAttach, ((k.tasks i).shmAttaches n).active = true →
      ((k.tasks i).shmAttaches n).vaddr ≠ addr
  | _ => True

instance (k : Kernel) (op : Op) : Decidable (Modest k op) := by
  unfold Modest
  split <;> infer_instance

/-! ## Segments stay -/

/-- The segment is there, with as many pages as it has had. -/
def SegmentKept (id pages phys : Nat) (segtab : Nat → ShmSegment) : Prop :=
  (segtab id).active = true ∧ (segtab id).pages = pages ∧ (segtab id).physBase = phys

variable {id pages phys i : Nat}

theorem SegmentKept.same {segtab segtab' : Nat → ShmSegment}
    (kept : SegmentKept id pages phys segtab) (same : SameSegments segtab segtab') :
    SegmentKept id pages phys segtab' := by
  obtain ⟨active, base, count⟩ := same id
  exact ⟨active.trans kept.1, count.trans kept.2.1, base.trans kept.2.2⟩

/-- No operation removes a segment or changes its size. -/
theorem Moves.segment_kept {L L' : Layout} {op : Op} (moves : Moves L op L')
    (kept : SegmentKept id pages phys L.segtab) : SegmentKept id pages phys L'.segtab := by
  cases moves with
  | @created _ _ _ new _ free _ =>
    have other : id ≠ new := by
      rintro rfl
      exact absurd (kept.1.symm.trans free) (by decide)
    simp only [SegmentKept, Function.update_of_ne other]
    exact kept
  | attached _ _ _ _ _ _ same => exact kept.same same
  | detached _ _ _ _ same => exact kept.same same
  | _ => exact kept

/-! ## The answers -/

/-- The segment that `shmget` answers has the key, or it is new. -/
theorem shmget_answers {key size : Nat} {segtab : Nat → ShmSegment} {p : Paging}
    (answered : (Ipc.shmget key size segtab p).1 = (id : Int)) :
    id < maxSegments ∧ ((segtab id).active = true ∧ (segtab id).key = key ∧
          (Ipc.shmget key size segtab p).2.1 = segtab ∨
        ((Ipc.shmget key size segtab p).2.1 id).active = true ∧
          ((Ipc.shmget key size segtab p).2.1 id).pages = (size + 4095) / 4096) := by
  unfold Ipc.shmget at answered ⊢
  split at answered
  · exact absurd answered (by simp)
  · next sized =>
      rw [if_neg sized]
      split at answered
      · next here found =>
          obtain ⟨bound, test, -⟩ := firstBelow_eq_some found
          have number : (here : Int) = id := answered
          obtain rfl : here = id := by exact_mod_cast number
          obtain ⟨active, same⟩ : (segtab here).active = true ∧ (segtab here).key = key := by
            simpa using test
          exact ⟨bound, .inl ⟨active, same, rfl⟩⟩
      · split at answered
        · exact absurd answered (by simp)
        · next slot found =>
            obtain ⟨bound, -⟩ := firstBelow_eq_some found
            dsimp only at answered ⊢
            split at answered
            · exact absurd answered (by simp)
            · next got =>
                have number : (slot : Int) = id := answered
                obtain rfl : slot = id := by exact_mod_cast number
                rw [if_neg got]
                refine ⟨bound, .inr ?_⟩
                simp only [Function.update_self, and_self]

variable {k k' : Kernel}

/-- A call that is answered returns. -/
theorem performs_of_answer {a : Act} {r : Int}
    (moved : move k (.act i a) = some k') (answered : answer k i a = some r) :
    occupied k i = true ∧ perform a (enter i k) = (.ok r, k') := by
  unfold answer at answered
  simp only [move] at moved
  split at moved
  · next here =>
      refine ⟨here, ?_⟩
      rcases performed : perform a (enter i k) with ⟨e | r', k₁⟩
      · rw [performed] at answered
        cases answered
      · rw [performed] at answered moved
        cases answered
        cases moved
        rfl
  · cases moved

/-- A segment that was answered has the size that was asked for. -/
theorem shmget_answer {key size : Nat} (modest : Modest k (.act i (.shmget key size)))
    (moved : move k (.act i (.shmget key size)) = some k')
    (answered : answer k i (.shmget key size) = some (id : Int)) :
    ∃ pages phys, size ≤ pages * 4096 ∧ id < maxSegments ∧ SegmentKept id pages phys k'.segtab := by
  obtain ⟨-, performed⟩ := performs_of_answer moved answered
  have returned : (.ok (Ipc.shmget (key % 2 ^ 32) size k.segtab k.paging).1, { enter i k with
      segtab := (Ipc.shmget (key % 2 ^ 32) size k.segtab k.paging).2.1
      paging := (Ipc.shmget (key % 2 ^ 32) size k.segtab k.paging).2.2 }) =
      ((.ok (id : Int), k') : Except Leave Int × Kernel) := performed
  obtain ⟨number, rfl⟩ := Prod.mk.inj returned
  obtain ⟨bound, found⟩ := shmget_answers (Except.ok.inj number)
  clear performed returned number moved
  generalize Ipc.shmget (key % 2 ^ 32) size k.segtab k.paging = after at found ⊢
  refine ⟨(after.2.1 id).pages, (after.2.1 id).physBase, ?_, bound, ?_, rfl, rfl⟩
  · rcases found with ⟨active, same, kept⟩ | ⟨-, pages⟩
    · rw [kept]
      exact modest id bound active same
    · rw [pages]
      omega
  · rcases found with ⟨active, -, kept⟩ | ⟨active, -⟩
    · rw [← active, ← kept]
    · exact active

/-- A detachment that is answered was in the table. -/
theorem shmdt_answer {addr : Nat} (moved : move k (.act i (.shmdt addr)) = some k')
    (answered : answer k i (.shmdt addr) = some 0) :
    ∃ n < maxAttach, ((k.tasks i).shmAttaches n).active = true ∧
      ((k.tasks i).shmAttaches n).vaddr = addr := by
  obtain ⟨-, performed⟩ := performs_of_answer moved answered
  have zero : (Ipc.shmdt addr (k.tasks i).shmAttaches k.segtab).1 = 0 :=
    Except.ok.inj (Prod.mk.inj performed).1
  rcases @shmdt_cases addr k.segtab (k.tasks i).shmAttaches with
    failed | ⟨n, bound, active, here, -⟩
  · rw [failed] at zero
    cases zero
  · exact ⟨n, bound, active, here⟩

/-! ## The contract -/

/-- The state is formed, and the segment is there. -/
def FormedWith (boot : Paging) (id pages phys : Nat) (k : Kernel) : Prop :=
  ∃ L, Formed boot L k ∧ SegmentKept id pages phys k.segtab

theorem FormedWith.move {boot : Paging} {op : Op}
    (formed : FormedWith boot id pages phys k) (allowed : Careful k op ∧ Modest k op)
    (moved : Sys.move k op = some k') : FormedWith boot id pages phys k' := by
  obtain ⟨L, formed, kept⟩ := formed
  obtain ⟨L', formed', moves⟩ := formed.move allowed.1 moved
  rw [← formed.segtab] at kept
  exact ⟨L', formed', formed'.segtab ▸ moves.segment_kept kept⟩

/-- Every byte of a listed segment is mapped to the segment. -/
theorem FormedWith.translate {boot : Paging} {n : Nat}
    (formed : FormedWith boot id pages phys k) (here : occupied k i = true) (bound : n < maxAttach)
    (active : ((k.tasks i).shmAttaches n).active = true)
    (same : ((k.tasks i).shmAttaches n).shmid = id) {off : Nat} (inside : off < pages * 4096)
    (a : Access) :
    k.paging.translate (k.tasks i).cr3 (((k.tasks i).shmAttaches n).vaddr + off) a =
      .ok ((k.segtab id).physBase + off) := by
  obtain ⟨L, formed, -, count, -⟩ := formed
  obtain ⟨extra, inv⟩ := formed.inv
  have live : books k i = some (booksOf (k.tasks i)) := if_pos here
  obtain ⟨address, attached⟩ := formed.sound.listed (formed.books ▸ live) bound active
  have address' : ((k.tasks i).shmAttaches n).vaddr = shmVaddr id := by
    rw [← same]
    exact address
  have attached' : Attached L.spaces k.segtab (booksOf (k.tasks i)).root id := by
    rw [← same, ← formed.segtab]
    exact attached
  have ok : SegmentOk (k.segtab id) := by
    rw [← formed.segtab]
    exact formed.sound.segment attached'.bound (formed.segtab ▸ attached'.active)
  have within : off < (k.segtab id).pages * 4096 := by rwa [count]
  obtain ⟨-, through⟩ := attached'.translate inv ok within a
  rw [formed.cr3 live, address', through, frameOf_segEntry ok (by omega)]
  have aligned := ok.aligned
  have window : (shmVaddr id + off) % 4096 = off % 4096 := by
    rw [shmVaddr, shmVirtBase, shmSlotSize]
    omega
  rw [window]
  exact congrArg Except.ok (by omega)

/-- **Segments have the size that was asked for**, along every careful run in which
nobody asks for more than an existing segment has and nothing is detached. -/
theorem contract_of_run {boot : Paging} (start : Boot boot) {ops : List Op}
    (allowed : Along move (fun k op => Careful k op ∧ Modest k op) (Kernel.start boot) ops) :
    Contract (Kernel.start boot) ops := by
  have formed : ∀ {k op k'}, (∃ L, Formed boot L k) → Careful k op ∧ Modest k op →
      move k op = some k' → ∃ L, Formed boot L k' := by
    rintro k op k' ⟨L, formed⟩ careful moved
    obtain ⟨L', formed', -⟩ := formed.move careful.1 moved
    exact ⟨L', formed'⟩
  constructor
  · intro i key size k k' rest got id answered shmid j j' rest' attached number addr answered' off
      inside a
    obtain ⟨careful, after⟩ := got.along allowed
    obtain ⟨-, L, formed'⟩ := got.invariant formed ⟨_, formed_start start⟩ allowed
    obtain ⟨_, -, -, moved⟩ := got
    obtain ⟨pages, phys, fits, -, kept⟩ := shmget_answer careful.2 moved answered
    obtain ⟨-, with'⟩ := attached.invariant FormedWith.move ⟨L, formed', kept⟩ after
    obtain ⟨_, -, -, moved'⟩ := attached
    obtain ⟨here, performed⟩ := performs_of_answer moved' answered'
    obtain ⟨still, n, bound, active, same, address⟩ :=
      shmat_answer performed (Int.natCast_nonneg addr)
    obtain rfl : addr = ((j'.tasks i).shmAttaches n).vaddr := by exact_mod_cast address
    exact with'.translate (still.trans here) bound active (same.trans number)
      (Nat.lt_of_lt_of_le inside fits) a
  · intro i addr k k' rest detached answered
    obtain ⟨careful, -⟩ := detached.along allowed
    obtain ⟨_, -, -, moved⟩ := detached
    obtain ⟨n, bound, active, here⟩ := shmdt_answer moved answered
    exact absurd here (careful.2 n bound active)

/-- Two tasks use one segment; the second asks for as much as there is. -/
def shareTwoPages : List Op :=
  [.start onePage [], .act 0 (.shmget 1 5000), .start onePage [], .act 1 (.shmget 1 8192),
    .act 1 (.shmat 0), .act 0 (.shmat 0)]

theorem contract_of_run_shareTwoPages :
    (run move (Kernel.start threeTasks) shareTwoPages).isSome = true ∧
      Contract (Kernel.start threeTasks) shareTwoPages := by
  have allowed : Along move (fun k op => Checkable k op ∧ Modest k op) (Kernel.start threeTasks)
      shareTwoPages := by decide +kernel
  exact ⟨by decide +kernel, contract_of_run threeTasks_boot
    (allowed.mono fun _ _ => And.imp_left Checkable.careful)⟩

/-- A segment of one page is created, and another task asks for two pages of it. -/
def askForMore : List Op := [.start onePage [], .act 0 (.shmget 1 4096), .start onePage []]

/-- The second page is not mapped; and a page that is detached still is. -/
theorem contract_broken :
    Boot threeTasks ∧
    ¬Contract (Kernel.start threeTasks)
        (askForMore ++ [.act 1 (.shmget 1 8192), .act 1 (.shmat 0)]) ∧
    ¬Contract (Kernel.start threeTasks)
        (askForMore ++ [.act 0 (.shmat 0), .act 0 (.shmdt 0x20000000)]) := by
  refine ⟨threeTasks_boot, fun contract => ?_, fun contract => ?_⟩
  · have ends : ((run move (Kernel.start threeTasks) askForMore).bind fun k =>
        (move k (.act 1 (.shmget 1 8192))).bind fun k' => (move k' (.act 1 (.shmat 0))).map fun j =>
          (answer k 1 (.shmget 1 8192), answer k' 1 (.shmat 0),
            (j.paging.translate (j.tasks 1).cr3 (0x20000000 + 4096) .userRead).toOption)) =
        some (some 0, some 0x20000000, none) := by decide +kernel
    obtain ⟨k, ran, rest⟩ := Option.bind_eq_some_iff.mp ends
    obtain ⟨k', moved, rest⟩ := Option.bind_eq_some_iff.mp rest
    obtain ⟨j, moved', facts⟩ := Option.map_eq_some_iff.mp rest
    obtain ⟨number, address, fault⟩ : answer k 1 (.shmget 1 8192) = some 0 ∧
        answer k' 1 (.shmat 0) = some 0x20000000 ∧
        (j.paging.translate (j.tasks 1).cr3 (0x20000000 + 4096) .userRead).toOption = none := by
      simpa only [Prod.mk.injEq] using facts
    have mapped := contract.size 1 1 8192 k k' [.act 1 (.shmat 0)] ⟨askForMore, rfl, ran, moved⟩ 0
      number 0 k' j [] ⟨[], rfl, rfl, moved'⟩ rfl 0x20000000 address 4096 (by decide) .userRead
    rw [mapped] at fault
    cases fault
  · have ends :
        ((run move (Kernel.start threeTasks) (askForMore ++ [.act 0 (.shmat 0)])).bind fun k =>
        (move k (.act 0 (.shmdt 0x20000000))).map fun k' =>
          (answer k 0 (.shmdt 0x20000000),
            decide (∀ n < maxAttach, 0 < segmentPages k.segtab ((k.tasks 0).shmAttaches n).shmid),
            (k'.paging.translate (k'.tasks 0).cr3 (0x20000000 + 0) .userRead).toOption)) =
        some (some 0, true, some (8197 * 4096)) := by decide +kernel
    obtain ⟨k, ran, rest⟩ := Option.bind_eq_some_iff.mp ends
    obtain ⟨k', moved, facts⟩ := Option.map_eq_some_iff.mp rest
    obtain ⟨done, sizes, through⟩ : answer k 0 (.shmdt 0x20000000) = some 0 ∧
        decide
          (∀ n < maxAttach, 0 < segmentPages k.segtab ((k.tasks 0).shmAttaches n).shmid) = true ∧
        (k'.paging.translate (k'.tasks 0).cr3 (0x20000000 + 0) .userRead).toOption =
          some (8197 * 4096) := by
      simpa only [Prod.mk.injEq] using facts
    have split : askForMore ++ [.act 0 (.shmat 0), .act 0 (.shmdt 0x20000000)] =
        (askForMore ++ [.act 0 (.shmat 0)]) ++ .act 0 (.shmdt 0x20000000) :: [] := by
      rw [List.append_assoc, List.singleton_append]
    have happens : Happens move (Kernel.start threeTasks)
        (askForMore ++ [.act 0 (.shmat 0), .act 0 (.shmdt 0x20000000)]) k
        (.act 0 (.shmdt 0x20000000)) k' [] := by
      rw [split]
      exact ⟨_, rfl, ran, moved⟩
    obtain ⟨n, bound, -, -, unmapped, -⟩ := contract.detach 0 0x20000000 k k' [] happens done
    have size := of_decide_eq_true sizes n bound
    cases translated : k'.paging.translate (k'.tasks 0).cr3 (0x20000000 + 0) .userRead with
    | error code =>
      rw [translated] at through
      cases through
    | ok phys => exact unmapped 0 (Nat.mul_pos size (by decide)) .userRead phys translated

end OxideOS.Sys
