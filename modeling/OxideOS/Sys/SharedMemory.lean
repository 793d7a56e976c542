import OxideOS.Sys.SharedSegments

/-!
# Shared memory across forks

A task shares a segment when its attachment table lists it, or when it was forked by
a task that shared it; it does so until it detaches the segment, executes another
program or ends. Who shares what is not recorded anywhere in the kernel, so the
machine is run with this knowledge beside it (`track`).

The pages of a shared segment are mapped to the frames of the segment itself
(`Sharing`), and then a store of one task is read by every other. A fork keeps this
for the segments in the table of the forking task. It does not hand the table on:
the child of a child gets its pages copy-on-write, as `grandchild_apart` shows.
-/

set_option autoImplicit false

namespace OxideOS.Sys

open Lib Mem Fs Ipc Proc Proc.Kernel PageTableFlags PageTableEntry

/-! ## The machine with its sharers -/

/-- Whether the task in slot `j` shares segment `id` after the operation has led from
`k` to `k'`: one that has listed the segment and does not any more has detached it, and one
that has a new address space has executed another program. -/
def sharesAfter (k : Kernel) (shares : Nat → Nat → Bool) (op : Op) (k' : Kernel) (j id : Nat) :
    Bool :=
  match books k' j with
  | none => false
  | some b' =>
    decide (Lists b' id) ||
      match books k j with
      | some b =>
        shares j id && !decide (Lists b id) && decide (b'.cr3 = b.cr3)
      | none =>
        match op with
        | .act i (.fork _) => shares i id
        | _ => false

structure Tracked where
  kernel : Kernel
  shares : Nat → Nat → Bool

def track (s : Tracked) (op : Op) : Option Tracked :=
  (move s.kernel op).map fun k' => ⟨k', sharesAfter s.kernel s.shares op k'⟩

def Tracked.start (boot : Paging) : Tracked := ⟨Kernel.start boot, fun _ _ => false⟩

/-- A task that forks has every segment it shares in its attachment table. -/
def ListsShared (s : Tracked) : Op → Prop
  | .act i (.fork _) =>
    ∀ id < maxSegments, s.shares i id = true → Lists (booksOf (s.kernel.tasks i)) id
  | _ => True

def Keeping (s : Tracked) (op : Op) : Prop := Careful s.kernel op ∧ ListsShared s op

instance (s : Tracked) (op : Op) : Decidable (ListsShared s op) := by
  unfold ListsShared
  split <;> infer_instance

/-! ## The pages of the sharers -/

/-- The child of a task that lists the segment has its pages. -/
theorem Attached.inherited {L : Layout} {A' : AddressSpaces} {i f id : Nat} {b : Books}
    (sound : L.Sound) (live : L.books i = some b)
    (effect : ForkEffect (shmRanges b.shmAttaches L.segtab) b.root f L.spaces A')
    (all : ∀ v, L.spaces.view b.root v ≠ none → A'.view f v ≠ none) (lists : Lists b id) :
    Attached A' L.segtab f id := by
  obtain ⟨n, bound, active, rfl⟩ := lists
  obtain ⟨here, attached⟩ := sound.listed live bound active
  refine ⟨attached.bound, attached.active, fun page inside => ?_⟩
  have shared := sharedPage_of_listed bound active here attached.bound attached.active
    (sound.segment attached.bound attached.active) inside
  have mapped := attached.pages page inside
  obtain ⟨e', copied⟩ :=
    Option.ne_none_iff_exists'.mp (all _ (by rw [mapped]; exact Option.some_ne_none _))
  obtain ⟨e, before, copy⟩ := effect.target copied
  rw [mapped] at before
  cases before
  cases copy with
  | verbatim => exact copied
  | copied outside => exact absurd (shared.symm.trans outside) (by decide)
  | readonly outside => exact absurd (shared.symm.trans outside) (by decide)
  | lowered outside => exact absurd (shared.symm.trans outside) (by decide)

/-- A task that has come in by a fork. -/
theorem Moves.forked_of_new {L L' : Layout} {i j : Nat} {ctx : TaskContext} {b' : Books}
    (moves : Moves L (.act i (.fork ctx)) L') (before : L.books j = none)
    (after : L'.books j = some b') :
    ∃ b f, L.books i = some b ∧ b'.root = f ∧ L'.segtab = L.segtab ∧
      ForkEffect (shmRanges b.shmAttaches L.segtab) b.root f L.spaces L'.spaces ∧
      ∀ v, L.spaces.view b.root v ≠ none → L'.spaces.view f v ≠ none := by
  have unchanged : ∀ {P : Prop}, L.books j = some b' → P := by
    intro P same
    rw [before] at same
    cases same
  cases moves with
  | refused | leftover _ | unforked _ _ | unfinished _ _ => exact unchanged after
  | noted live _ =>
    rcases books_cases after with ⟨rfl, -⟩ | ⟨-, same⟩
    · rw [before] at live
      cases live
    · exact unchanged same
  | @forked _ b _ slot f fs A' live free effect all =>
    rcases books_cases after with ⟨rfl, new⟩ | ⟨-, same⟩
    · cases new
      exact ⟨b, f, live, Paging.frame_div f, rfl, effect, all⟩
    · exact unchanged same

/-- Whoever shares a segment has its pages mapped. -/
def Sharing (L : Layout) (shares : Nat → Nat → Bool) : Prop :=
  ∀ {j id}, shares j id = true → ∃ b, L.books j = some b ∧ Attached L.spaces L.segtab b.root id

theorem Sharing.move {boot : Paging} {L L' : Layout} {s : Tracked} {op : Op} {k' : Kernel}
    (formed : Formed boot L s.kernel) (formed' : Formed boot L' k') (moves : Moves L op L')
    (sharing : Sharing L s.shares) (keeping : Keeping s op) :
    Sharing L' (sharesAfter s.kernel s.shares op k') := by
  intro j id shared
  unfold sharesAfter at shared
  rw [← formed.books, ← formed'.books] at shared
  cases after : L'.books j with
  | none => simp [after] at shared
  | some b' =>
    refine ⟨b', rfl, ?_⟩
    simp only [after, Bool.or_eq_true, decide_eq_true_eq] at shared
    rcases shared with ⟨n, bound, active, rfl⟩ | shared
    · exact (formed'.sound.listed after bound active).2
    · cases before : L.books j with
      | none =>
        simp only [before] at shared
        split at shared
        · next i ctx =>
            obtain ⟨_, -, attached⟩ := sharing shared
            have lists := keeping.2 id attached.bound shared
            obtain ⟨b, f, live, root, segtab, effect, all⟩ := moves.forked_of_new before after
            have recorded : booksOf (s.kernel.tasks i) = b :=
              (books_eq_some.mp (formed.books ▸ live)).2.2
            rw [recorded] at lists
            rw [root, segtab]
            exact Attached.inherited formed.sound live effect all lists
        · cases shared
      | some b =>
        simp only [before, Bool.and_eq_true, decide_eq_true_eq] at shared
        obtain ⟨⟨old, -⟩, cr3⟩ := shared
        have root : b'.root = b.root := by rw [Books.root, Books.root, cr3]
        obtain ⟨c, live, attached⟩ := sharing old
        rw [before] at live
        cases live
        rw [root]
        refine moves.attached_kept formed.sound (formed.sound.root before).1
          (root ▸ (formed'.sound.root after).1) attached ?_
        rintro i c ctx rfl live same
        obtain rfl := formed.sound.apart live before same
        have recorded : booksOf (s.kernel.tasks i) = c :=
          (books_eq_some.mp (formed.books ▸ live)).2.2
        rw [← recorded]
        exact keeping.2 id attached.bound old

/-- **Sharers have the pages of the segment** in every state of a run that keeps them. -/
theorem sharing_of_run {boot : Paging} (start : Boot boot) {ops : List Op} {s : Tracked}
    (keeping : Along track Keeping (.start boot) ops) (ran : run track (.start boot) ops = some s) :
    ∃ L, Formed boot L s.kernel ∧ Sharing L s.shares := by
  refine run_invariant (I := fun s : Tracked => ∃ L, Formed boot L s.kernel ∧ Sharing L s.shares)
    ?_ ?_ keeping ran
  · rintro s op s' ⟨L, formed, sharing⟩ allowed stepped
    obtain ⟨k', moved, rfl⟩ := Option.map_eq_some_iff.mp stepped
    obtain ⟨L', formed', moves⟩ := formed.move allowed.1 moved
    exact ⟨L', formed', sharing.move formed formed' moves allowed⟩
  · refine ⟨_, formed_start start, ?_⟩
    rintro j id ⟨⟩

/-! ## Stores to a shared segment -/

/-- Every access to a page of a segment is let through, to the frame of that page. -/
theorem Attached.translate {boot : Paging} {A : AddressSpaces} {shm : Set Nat} {extra : Nat → Nat}
    {p : Paging} {segtab : Nat → ShmSegment} {r id off : Nat} (inv : Inv boot A shm extra p)
    (attached : Attached A segtab r id) (ok : SegmentOk (segtab id))
    (inside : off < (segtab id).pages * 4096) (a : Access) :
    A.view r (pageNumber (shmVaddr id + off)) = some (segEntry (segtab id) (off / 4096)) ∧
      p.translate (r * 4096) (shmVaddr id + off) a =
        .ok (frameOf (segEntry (segtab id) (off / 4096)) * 4096 + (shmVaddr id + off) % 4096) := by
  have size := ok.size
  have bound := attached.bound
  have page : pageNumber (shmVaddr id + off) = regionPage (shmVaddr id) (off / 4096) := by
    rw [window_page bound (by omega), pageNumber, shmVaddr, shmVirtBase, shmSlotSize]
    rw [maxSegments] at bound
    omega
  have mapped := attached.pages (off / 4096) (by omega)
  rw [← page] at mapped
  refine ⟨mapped, ?_⟩
  rw [inv.translate_of_mapped mapped, if_pos]
  simp [Access.permits, segEntry]

/-- **Shared memory is shared**: in every state of a run that keeps its sharers, what
one of them stores in the segment the others read at the same address. -/
theorem store_seen_by_sharers {boot : Paging} (start : Boot boot) {ops : List Op} {s : Tracked}
    (keeping : Along track Keeping (.start boot) ops) (ran : run track (.start boot) ops = some s)
    {i j id off byte : Nat} (stores : s.shares i id = true) (reads : s.shares j id = true)
    (inside : off < (s.kernel.segtab id).pages * 4096) (value : byte < 256) :
    ∃ k', move s.kernel (.act i (.store (shmVaddr id + off) byte)) = some k' ∧
      k'.paging.userByte (k'.tasks j).cr3 (shmVaddr id + off) = some byte := by
  obtain ⟨L, formed, sharing⟩ := sharing_of_run start keeping ran
  obtain ⟨extra, inv⟩ := formed.inv
  obtain ⟨b, live, attached⟩ := sharing stores
  obtain ⟨c, live', attached'⟩ := sharing reads
  have ok := formed.sound.segment attached.bound attached.active
  rw [← formed.segtab] at inside
  rw [formed.books] at live live'
  obtain ⟨bound, alive, -⟩ := books_eq_some.mp live
  have here : occupied s.kernel i = true := by simp [occupied, bound, alive]
  obtain ⟨mapped, through⟩ := attached.translate inv ok inside .userWrite
  have inv' := @inv.writeByte _ _ _ _ _ _ _ _ (shmVaddr id + off) byte mapped
  obtain ⟨-, seen⟩ := attached'.translate inv' ok inside .userRead
  generalize frameOf (segEntry (L.segtab id) (off / 4096)) * 4096 +
    (shmVaddr id + off) % 4096 = phys
    at through inv' seen
  refine ⟨{ enter i s.kernel with paging := s.kernel.paging.writeByte phys byte }, ?_, ?_⟩
  · have done : Paging.store (s.kernel.tasks i).cr3 (shmVaddr id + off) byte true 2
        s.kernel.paging =
        some (.stored, s.kernel.paging.writeByte phys byte) := by
      rw [Access.userWrite] at through
      rw [formed.cr3 live, Paging.store, through]
    simp only [move, here, if_true, perform, storeByte, enter, done]
    rfl
  · show Paging.userByte _ (s.kernel.tasks j).cr3 _ = _
    rw [formed.cr3 live', Paging.userByte, seen]
    exact congrArg some (Paging.readByte_writeByte _ _ value)

/-- Room for three tasks. -/
def threeTasks : Paging := blankBoot 24

theorem threeTasks_boot : Boot threeTasks := blankBoot_boot (by decide)

/-- A task attaches a segment and forks twice. -/
def shareWithTwo : List Op :=
  [.start onePage [], .act 0 (.shmget 1 4096), .act 0 (.shmat 0), .act 0 (.fork .zeroed),
    .act 0 (.fork .zeroed)]

theorem store_seen_by_sharers_siblings :
    ∃ s, run track (.start threeTasks) shareWithTwo = some s ∧
      s.shares 1 0 = true ∧ s.shares 2 0 = true ∧
      ∃ k', move s.kernel (.act 1 (.store (shmVaddr 0 + 5) 7)) = some k' ∧
        k'.paging.userByte (k'.tasks 2).cr3 (shmVaddr 0 + 5) = some 7 := by
  have ends : (run track (.start threeTasks) shareWithTwo).map (fun s =>
      decide (s.shares 1 0 = true ∧ s.shares 2 0 = true ∧ (s.kernel.segtab 0).pages = 1)) =
        some true := by decide +kernel
  obtain ⟨s, ran, facts⟩ := Option.map_eq_some_iff.mp ends
  obtain ⟨first, second, pages⟩ := of_decide_eq_true facts
  have keeping : Along track (fun s op => Checkable s.kernel op ∧ ListsShared s op)
      (.start threeTasks)
      shareWithTwo := by decide +kernel
  refine ⟨s, ran, first, second, store_seen_by_sharers threeTasks_boot
    (keeping.mono fun _ _ => And.imp_left Checkable.careful) ran first second ?_ (by decide)⟩
  rw [pages]
  decide

/-- The child of a child: its attachment table is not the one of the first task, and
the fork has made the pages of both copy-on-write. -/
theorem grandchild_apart :
    Boot threeTasks ∧ ∃ s, run track (.start threeTasks)
        [.start onePage [], .act 0 (.shmget 1 4096), .act 0 (.shmat 0), .act 0 (.fork .zeroed),
          .act 1 (.fork .zeroed)] = some s ∧
      s.shares 1 0 = true ∧ s.shares 2 0 = true ∧
      ∃ k', move s.kernel (.act 1 (.store (shmVaddr 0) 7)) = some k' ∧
        k'.paging.userByte (k'.tasks 2).cr3 (shmVaddr 0) = some 0 := by
  refine ⟨threeTasks_boot, ?_⟩
  have ends : (run track (.start threeTasks)
      [.start onePage [], .act 0 (.shmget 1 4096), .act 0 (.shmat 0), .act 0 (.fork .zeroed),
        .act 1 (.fork .zeroed)]).map (fun s =>
          (s.shares 1 0 && s.shares 2 0, (move s.kernel (.act 1 (.store (shmVaddr 0) 7))).map
            fun k' => k'.paging.userByte (k'.tasks 2).cr3 (shmVaddr 0))) =
      some (true, some (some 0)) := by decide +kernel
  obtain ⟨s, ran, facts⟩ := Option.map_eq_some_iff.mp ends
  obtain ⟨shares, stored⟩ := Prod.mk.injEq .. ▸ facts
  obtain ⟨k', moved, seen⟩ := Option.map_eq_some_iff.mp stored
  rw [Bool.and_eq_true] at shares
  exact ⟨s, ran, shares.1, shares.2, k', moved, seen⟩

end OxideOS.Sys
