import OxideOS.Mem.Paging

/-!
# Forking sparse tables

A fork reads every entry of every table, but only the present ones change anything: a
table whose present entries stand together is copied by copying these (`cowForkLevel_run`).
-/

set_option autoImplicit false

namespace OxideOS.Mem.Paging

open Lib PageTableEntry

/-- The next free frame and the state in which it is taken. -/
def taken (p : Paging) : Nat × Paging :=
  match p.frameAllocator.allocateFrame with
  | none => (0, p)
  | some (phys, fa) => (phys, { p with frameAllocator := fa })

/-- None of the `count` entries of `table` from `start` on is present. -/
def blank (p : Paging) (table start count : Nat) : Bool :=
  (List.range count).all fun j => !isPresent (p.read table (start + j))

/-- What `cowForkLevel` does with one entry. -/
def cowForkStep (stackRange : Nat × Nat) (shmRanges : List (Nat × Nat)) :
    (level src dst virt i : Nat) → Prog Paging PagingError PUnit
  | 0, _, _, _, _ => Prog.ret ⟨⟩
  | 1, src, dst, virt, i => cowForkLeaf stackRange shmRanges src dst i (virt ||| (i <<< 12))
  | level + 2, src, dst, virt, i => do
      let e ← Prog.gets (·.read src i)
      if isPresent e then
        let table ← allocateFrame .exhausted
        Prog.update (·.zero table)
        Prog.update (·.write dst i (withFlags table e))
        cowForkLevel stackRange shmRanges (level + 1) (addr e) table
          (virt ||| (i <<< (12 + 9 * (level + 1)))) 512
      else return ⟨⟩

/-- A fresh table for the entry `i` of `src`, linked into `dst`. -/
def link (src dst i : Nat) (p : Paging) : Paging :=
  (p.taken.2.zero p.taken.1).write dst i (withFlags p.taken.1 (p.read src i))

/-- The entry `i` of `src` leads to the table `below`, and `fresh` is free for its copy. -/
def leads (p : Paging) (src i below fresh : Nat) : Bool :=
  isPresent (p.read src i) && addr (p.read src i) == below &&
    p.frameAllocator.allocateFrame.isSome && p.taken.1 == fresh

variable {stackRange : Nat × Nat} {shmRanges : List (Nat × Nat)}
  {level src dst virt below fresh : Nat} {i n m : Nat} {p q : Paging}

/-- The pages from entry `i` of the table `src` on, copied to `dst`. -/
def copyPages (p : Paging) (stackRange : Nat × Nat) (src dst virt i n : Nat) : Paging :=
  (Prog.forRange (cowForkStep stackRange [] 1 src dst virt) i n p).2

theorem copyPages_ran (ran : (Prog.forRange (cowForkStep stackRange [] 1 src dst virt) i n p).1 =
      .ok ⟨⟩) : Prog.forRange (cowForkStep stackRange [] 1 src dst virt) i n p =
    (.ok ⟨⟩, p.copyPages stackRange src dst virt i n) := Prod.ext ran rfl

theorem allocateFrame_taken (oom : PagingError)
    (wet : p.frameAllocator.allocateFrame.isSome = true) :
    allocateFrame oom p = (.ok p.taken.1, p.taken.2) := by
  unfold allocateFrame taken
  cases found : p.frameAllocator.allocateFrame with
  | none => simp [found] at wet
  | some answer => rfl

/-- Loops over neighbouring ranges are one loop. -/
theorem forRange_chain {body : Nat → Prog Paging PagingError PUnit} {j : Nat} {r : Paging}
    (first : Prog.forRange body i n p = (.ok ⟨⟩, q)) (next : i + n = j)
    (second : Prog.forRange body j m q = (.ok ⟨⟩, r)) :
    Prog.forRange body i (n + m) p = (.ok ⟨⟩, r) := by
  induction n generalizing i p with
  | zero =>
    cases first
    cases next
    rwa [Nat.zero_add]
  | succ n ih =>
    rw [Nat.add_right_comm]
    rw [Prog.forRange, Prog.andThen] at first ⊢
    rcases step : body i p with ⟨e | ⟨⟩, p'⟩
    · simp [step] at first
    · rw [step] at first
      exact ih first (by omega)

theorem cowForkStep_absent (absent : isPresent (p.read src i) = false) :
    cowForkStep stackRange shmRanges level src dst virt i p = (.ok ⟨⟩, p) := by
  match level with
  | 0 => rfl
  | 1 => simp [cowForkStep, cowForkLeaf, Prog.bind_apply, Prog.gets, absent, pure, Prog.ret]
  | level + 2 => simp [cowForkStep, Prog.bind_apply, Prog.gets, absent, pure, Prog.ret]

theorem forRange_blank (absent : p.blank src i n = true) :
    Prog.forRange (cowForkStep stackRange shmRanges level src dst virt) i n p = (.ok ⟨⟩, p) := by
  induction n with
  | zero => rfl
  | succ n ih =>
    rw [blank, List.range_succ, List.all_append, Bool.and_eq_true] at absent
    have last : isPresent (p.read src (i + n)) = false := by simpa using absent.2
    refine forRange_chain (ih absent.1) rfl ?_
    rw [Prog.forRange, Prog.andThen, cowForkStep_absent last]
    rfl

/-- A table whose present entries are among the `n` from `i` on. -/
theorem cowForkLevel_run (i n m : Nat) {count : Nat} (whole : i + (n + m) = count)
    (before : p.blank src 0 i = true)
    (ran : Prog.forRange (cowForkStep stackRange shmRanges (level + 1) src dst virt) i n p =
      (.ok ⟨⟩, q)) (after : q.blank src (i + n) m = true) :
    cowForkLevel stackRange shmRanges (level + 1) src dst virt count p = (.ok ⟨⟩, q) := by
  subst whole
  have loops : cowForkLevel stackRange shmRanges (level + 1) src dst virt (i + (n + m)) =
      Prog.forRange (cowForkStep stackRange shmRanges (level + 1) src dst virt) 0
        (i + (n + m)) := by
    cases level <;> rfl
  rw [loops]
  exact forRange_chain (forRange_blank before) (Nat.zero_add i)
    (forRange_chain ran rfl (forRange_blank after))

theorem forRange_table {virt' : Nat} (here : p.leads src i below fresh = true)
    (base : virt ||| (i <<< (12 + 9 * (level + 1))) = virt')
    (copied : cowForkLevel stackRange shmRanges (level + 1) below fresh virt' 512
      (p.link src dst i) = (.ok ⟨⟩, q)) :
    Prog.forRange (cowForkStep stackRange shmRanges (level + 2) src dst virt) i 1 p =
      (.ok ⟨⟩, q) := by
  subst base
  simp only [leads, Bool.and_eq_true, beq_iff_eq] at here
  obtain ⟨⟨⟨present, rfl⟩, wet⟩, rfl⟩ := here
  have step : cowForkStep stackRange shmRanges (level + 2) src dst virt i p = (.ok ⟨⟩, q) := by
    rw [← copied]
    simp [cowForkStep, Prog.bind_apply, Prog.gets, present, allocateFrame_taken _ wet, Prog.update,
      link]
  rw [Prog.forRange, Prog.andThen, step]
  rfl

theorem cowForkUserPageTable_run {l4 : Nat}
    (wet : p.frameAllocator.allocateFrame.isSome = true) (root : p.taken.1 = l4)
    (copied : cowForkLevel stackRange shmRanges 4 src l4 0 256 (p.taken.2.initL4 l4) =
      (.ok ⟨⟩, q)) : cowForkUserPageTable src stackRange shmRanges p = (.ok l4, q) := by
  subst root
  simp [cowForkUserPageTable, Prog.bind_apply, allocateFrame_taken _ wet, Prog.update, copied,
    pure, Prog.ret]

end OxideOS.Mem.Paging
