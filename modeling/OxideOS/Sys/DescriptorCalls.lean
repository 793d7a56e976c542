import OxideOS.Sys.Readiness

/-!
# Calls that take descriptors

`pipe` takes a pipe and two descriptors. When the second descriptor is missing the
pipe is given back, but the first descriptor stays in the table: the call fails
without an effect unless exactly one descriptor is free (`pipe_fails_cleanly_iff`).

`dup` and `fcntl` take the lowest number without an entry. Numbers below 3 have a
meaning without an entry, the console, which the search does not know: what number
1 means changes when it is taken. Duplicating a descriptor leaves all others alone
exactly when the search does not meet such a number (`dup_leaves_others_iff`).
-/

set_option autoImplicit false

namespace OxideOS.Sys

open Lib Ipc Fs Net

/-! ## pipe -/

/-- Pipes that are open at one end or the other. -/
def allocatedPipes (pipes : Nat → Pipe) : Nat :=
  (List.range pipeCount).countP fun i => (pipes i).readOpen || (pipes i).writeOpen

/-- When `pipe` fails the table and the number of pipes are as before. -/
def PipeFailsCleanly (t : FdTable) (o : OpenFiles) : Prop :=
  match pipeAlloc t o with
  | (.error _, t', o') => t' = t ∧ allocatedPipes o'.pipes = allocatedPipes o.pipes
  | (.ok _, _, _) => True

/-- There is a free pipe, but only one free descriptor for its two ends. -/
def OneShort (t : FdTable) (o : OpenFiles) : Prop :=
  (∃ i < pipeCount, (o.pipes i).readOpen = false ∧ (o.pipes i).writeOpen = false) ∧
  ∃! fd, 3 ≤ fd ∧ fd < maxFd ∧ t.entries fd = none

section Pipes

variable {t : FdTable} {o : OpenFiles} {pipes pipes' : Nat → Pipe} {rawR rawW : Nat}

/-- The pipe that `alloc` takes was closed at both ends, and is again when both of
them are closed; the others stay as they are. -/
theorem alloc_close (taken : Pipe.alloc pipes = some ((rawR, rawW), pipes')) :
    allocatedPipes (Pipe.close (Pipe.close pipes' rawR) rawW) = allocatedPipes pipes := by
  unfold Pipe.alloc at taken
  split at taken
  · cases taken
  next i found =>
  obtain ⟨bound, closed, -⟩ := firstBelow_eq_some found
  cases taken
  simp only [Bool.and_eq_true, Bool.not_eq_true'] at closed
  have small : i < 8 := bound
  have readFd : isPipeFd (pipeFdBase + i * 2) = true := by
    rw [isPipeFd, Bool.and_eq_true, decide_eq_true_eq, decide_eq_true_eq]
    simp only [pipeFdBase, pipeCount]
    omega
  have writeFd : isPipeFd (pipeFdBase + i * 2 + 1) = true := by
    rw [isPipeFd, Bool.and_eq_true, decide_eq_true_eq, decide_eq_true_eq]
    simp only [pipeFdBase, pipeCount]
    omega
  have readIndex : pipeIndex (pipeFdBase + i * 2) = i := by
    simp only [pipeIndex, pipeFdBase]
    omega
  have writeIndex : pipeIndex (pipeFdBase + i * 2 + 1) = i := by
    simp only [pipeIndex, pipeFdBase]
    omega
  have reads : isReadFd (pipeFdBase + i * 2) = true := by
    simp [isReadFd]
  have writes : isReadFd (pipeFdBase + i * 2 + 1) = false := by
    have odd : (pipeFdBase + i * 2 + 1 - pipeFdBase) % 2 = 1 := by omega
    simp [isReadFd, odd]
  refine List.countP_congr fun j _ => ?_
  simp only [Pipe.close, readFd, writeFd, readIndex, writeIndex, reads, writes, if_true]
  by_cases here : j = i
  · subst here
    simp [closed]
  · simp [here]

theorem pipeAlloc_none (none' : Pipe.alloc o.pipes = none) : PipeFailsCleanly t o := by
  simp [PipeFailsCleanly, pipeAlloc, none']

/-- What `pipe` does with the table when it has a pipe. -/
theorem pipeAlloc_some (taken : Pipe.alloc o.pipes = some ((rawR, rawW), pipes)) :
    PipeFailsCleanly t o ↔ ((t.openPipe rawR rawW).1 = none → (t.openPipe rawR rawW).2 = t) := by
  have counted := alloc_close taken
  rcases answer : t.openPipe rawR rawW with ⟨_ | slots, t'⟩
  · simp [PipeFailsCleanly, pipeAlloc, taken, answer, counted]
  · simp [PipeFailsCleanly, pipeAlloc, taken, answer]

theorem allocFd_some {fd : Nat} (found : t.allocFd = some fd) :
    3 ≤ fd ∧ fd < maxFd ∧ t.entries fd = none := by
  obtain ⟨lower, upper, free, -⟩ := firstFrom_eq_some found
  exact ⟨lower, by simp only [maxFd] at *; omega, Option.isNone_iff_eq_none.mp free⟩

theorem allocFd_none : t.allocFd = none ↔ ∀ fd, 3 ≤ fd → fd < maxFd → t.entries fd ≠ none := by
  rw [FdTable.allocFd, firstFrom_eq_none]
  refine forall_congr' fun fd => forall_congr' fun _ => ?_
  rw [show 3 + (maxFd - 3) = maxFd from rfl]
  simp [← Option.isSome_iff_ne_none]

/-- The descriptors of a pipe: the call fails and leaves an entry behind exactly when
one descriptor is free. -/
theorem openPipe_clean_iff :
    ((t.openPipe rawR rawW).1 = none → (t.openPipe rawR rawW).2 = t) ↔
      ¬∃! fd, 3 ≤ fd ∧ fd < maxFd ∧ t.entries fd = none := by
  cases first : t.allocFd with
  | none =>
    have full := allocFd_none.mp first
    have answer : t.openPipe rawR rawW = (none, t) := by simp only [FdTable.openPipe, first]
    rw [answer]
    refine iff_of_true (fun _ => rfl) ?_
    rintro ⟨fd, ⟨lower, upper, free⟩, -⟩
    exact full fd lower upper free
  | some rslot =>
    obtain ⟨lower, upper, free⟩ := allocFd_some first
    cases second : (t.set rslot (some (.plain .pipe rawR false))).allocFd with
    | none =>
      have answer : t.openPipe rawR rawW =
          (none, t.set rslot (some (.plain .pipe rawR false))) := by
        simp only [FdTable.openPipe, first, second]
      rw [answer]
      refine iff_of_false (fun clean => ?_) (not_not.mpr ⟨rslot, ⟨lower, upper, free⟩, ?_⟩)
      · have same := congrArg (fun t => t.entries rslot) (clean rfl)
        simp [FdTable.set, free] at same
      · rintro fd ⟨lower', upper', free'⟩
        by_contra other
        exact allocFd_none.mp second fd lower' upper' (by simp [FdTable.set, other, free'])
    | some wslot =>
      obtain ⟨lower', upper', free'⟩ := allocFd_some second
      have answer : (t.openPipe rawR rawW).1 = some (rslot, wslot) := by
        simp only [FdTable.openPipe, first, second]
      have other : wslot ≠ rslot := by
        rintro rfl
        simp [FdTable.set] at free'
      rw [answer]
      refine iff_of_true (by rintro ⟨⟩) ?_
      rintro ⟨fd, -, only⟩
      have free' : t.entries wslot = none := by simpa [FdTable.set, other] using free'
      exact other ((only wslot ⟨lower', upper', free'⟩).trans
        (only rslot ⟨lower, upper, free⟩).symm)

end Pipes

/-- **A failing `pipe` has no effect** exactly when it is not one descriptor short. -/
theorem pipe_fails_cleanly_iff (t : FdTable) (o : OpenFiles) :
    PipeFailsCleanly t o ↔ ¬OneShort t o := by
  cases taken : Pipe.alloc o.pipes with
  | none =>
    have full : ∀ i < pipeCount, _ :=
      firstBelow_eq_none.mp (by
        unfold Pipe.alloc at taken
        split at taken
        · assumption
        · cases taken)
    refine iff_of_true (pipeAlloc_none taken) ?_
    rintro ⟨⟨i, bound, read, write⟩, -⟩
    have busy := full i bound
    simp [read, write] at busy
  | some answer =>
    obtain ⟨⟨rawR, rawW⟩, pipes⟩ := answer
    rw [pipeAlloc_some taken, openPipe_clean_iff, OneShort]
    have free : ∃ i < pipeCount, (o.pipes i).readOpen = false ∧ (o.pipes i).writeOpen = false := by
      unfold Pipe.alloc at taken
      split at taken
      · cases taken
      · next i found =>
          obtain ⟨bound, closed, -⟩ := firstBelow_eq_some found
          exact ⟨i, bound, by simpa using closed⟩
    simp only [free, true_and]

/-- A table with one free descriptor. -/
def almostFull : FdTable := ⟨fun fd => if fd = 31 then none else some (.plain .devNull 0 false)⟩

/-- `pipe` fails, and its read end is in the table. -/
theorem pipe_leaves_read_end :
    (pipeAlloc almostFull .empty).1 = .error (-24) ∧
      ((pipeAlloc almostFull .empty).2.1.entries 31).isSome = true ∧
      ¬PipeFailsCleanly almostFull .empty := by
  have failed : (pipeAlloc almostFull .empty).1 = .error (-24) := by rfl
  have left : ((pipeAlloc almostFull .empty).2.1.entries 31).isSome = true := by rfl
  refine ⟨failed, left, ?_⟩
  unfold PipeFailsCleanly
  rcases answer : pipeAlloc almostFull .empty with ⟨result, t', o'⟩
  rw [answer] at failed left
  cases failed
  rintro ⟨rfl, -⟩
  cases left

/-! ## write -/

/-- What the writes of the disk drivers do: any answer, any state afterwards. -/
structure DiskWrites where
  fat : Fat.FatFs → Nat → List UInt8 → Int × Fat.FatFs
  ext2 : Ext2.Ext2State → Nat → List UInt8 → Int × Ext2.Ext2State

namespace Inputs

variable {σ υ : Type}

/-- `write_fd`: the answer, what the console gets, and the state afterwards. -/
def writeFd (d : DiskWrites) (w : Inputs σ υ) (fd : Int) (buf : List UInt8) :
    Int × List UInt8 × Inputs σ υ :=
  match w.table.get fd with
  | none => (ebadf, [], w)
  | some e =>
    match e.backend with
    | .pipe =>
      let (r, pipes) := Pipe.write w.pipes e.rawFd buf
      (r, [], { w with pipes := pipes })
    | .fat16 =>
      let (r, fat) := d.fat w.fat e.rawFd buf
      (r, [], { w with fat := fat })
    | .ext2 =>
      if !e.writable then (eacces, [], w) else
      let (r, ext2) := d.ext2 w.ext2 e.rawFd buf
      (r, [], { w with ext2 := ext2 })
    | .devNull => (buf.length, [], w)
    | .devTty => (buf.length, buf, w)
    | .dir => (eisdir, [], w)
    | .ramFS =>
      let (r, ram, e) := w.ram.writeEntry e buf
      (r, [], { w with ram := ram, table := w.table.set fd.toNat (some e) })

/-- The system call `write` with the bytes at `bufPtr`. Numbers 1 and 2 fall back on
the console, number 0 is refused. -/
def sysWrite (d : DiskWrites) (w : Inputs σ υ) (fd : Int) (bufPtr : Nat) (buf : List UInt8) :
    Int × List UInt8 × Inputs σ υ :=
  if fd < 0 then (-5, [], w) else
  match validateUserRange bufPtr buf.length with
  | .error code => (code, [], w)
  | .ok _ =>
    if fd = 1 ∨ fd = 2 then
      let (r, out, w') := w.writeFd d fd buf
      if r ≠ ebadf then (r, out, w') else (buf.length, buf, w')
    else if 3 ≤ fd then w.writeFd d fd buf
    else (-5, [], w)

/-- Two outcomes of a call that are the same but for the descriptor tables. -/
structure Alike (a b : Int × List UInt8 × Inputs σ υ) : Prop where
  answer : b.1 = a.1
  bytes : b.2.1 = a.2.1
  outside : b.2.2 = { a.2.2 with table := b.2.2.table }

section Alike

variable {w : Inputs σ υ} {t : FdTable} {n : Int}

theorem getChar_alike (w : Inputs σ υ) (t : FdTable) :
    Alike w.getChar ({ w with table := t }.getChar) := by
  unfold getChar
  cases w.stdin.pop <;> exact ⟨rfl, rfl, rfl⟩

theorem readFd_alike (same : t.get n = w.table.get n) (room : Nat) :
    Alike (w.readFd n room) ({ w with table := t }.readFd n room) := by
  cases found : w.table.get n with
  | none =>
    simp only [readFd, same, found]
    exact ⟨rfl, rfl, rfl⟩
  | some e =>
    cases backend : e.backend with
    | devTty =>
      simp only [readFd, same, found, backend]
      split
      · exact ⟨rfl, rfl, rfl⟩
      · exact getChar_alike w t
    | ramFS | fat16 | ext2 | pipe | devNull | dir =>
      simp only [readFd, same, found, backend]
      exact ⟨rfl, rfl, rfl⟩

theorem sysRead_alike (same : t.get n = w.table.get n) (bufPtr count : Nat) :
    Alike (w.sysRead n bufPtr count) ({ w with table := t }.sysRead n bufPtr count) := by
  unfold sysRead
  split
  · exact ⟨rfl, rfl, rfl⟩
  cases validateUserRange bufPtr count with
  | error code => exact ⟨rfl, rfl, rfl⟩
  | ok _ =>
    have alike := readFd_alike same count
    generalize w.readFd n count = a at alike ⊢
    generalize { w with table := t }.readFd n count = b at alike ⊢
    obtain ⟨r, bytes, w₁⟩ := a
    obtain ⟨r', bytes', w₂⟩ := b
    obtain ⟨rfl, rfl, outside⟩ := alike
    dsimp only at outside ⊢
    split
    · rw [outside]
      exact getChar_alike w₁ _
    · exact ⟨rfl, rfl, outside⟩

theorem writeFd_alike (d : DiskWrites) (same : t.get n = w.table.get n) (buf : List UInt8) :
    Alike (w.writeFd d n buf) ({ w with table := t }.writeFd d n buf) := by
  cases found : w.table.get n with
  | none =>
    simp only [writeFd, same, found]
    exact ⟨rfl, rfl, rfl⟩
  | some e =>
    cases backend : e.backend with
    | ext2 =>
      simp only [writeFd, same, found, backend]
      split
      · exact ⟨rfl, rfl, rfl⟩
      · exact ⟨rfl, rfl, rfl⟩
    | ramFS | fat16 | pipe | devNull | devTty | dir =>
      simp only [writeFd, same, found, backend]
      exact ⟨rfl, rfl, rfl⟩

theorem sysWrite_alike (d : DiskWrites) (same : t.get n = w.table.get n) (bufPtr : Nat)
    (buf : List UInt8) :
    Alike (w.sysWrite d n bufPtr buf) ({ w with table := t }.sysWrite d n bufPtr buf) := by
  unfold sysWrite
  split
  · exact ⟨rfl, rfl, rfl⟩
  cases validateUserRange bufPtr buf.length with
  | error code => exact ⟨rfl, rfl, rfl⟩
  | ok _ =>
    have alike := writeFd_alike d same buf
    dsimp only
    split
    · generalize w.writeFd d n buf = a at alike ⊢
      generalize { w with table := t }.writeFd d n buf = b at alike ⊢
      obtain ⟨r, out, w₁⟩ := a
      obtain ⟨r', out', w₂⟩ := b
      obtain ⟨rfl, rfl, outside⟩ := alike
      dsimp only at outside ⊢
      split
      · exact ⟨rfl, rfl, outside⟩
      · exact ⟨rfl, rfl, outside⟩
    · split
      · exact alike
      · exact ⟨rfl, rfl, rfl⟩

end Alike

end Inputs

/-! ## dup -/

/-- What a descriptor number stands for. -/
inductive Denoted where
  | console
  | entry (e : FdEntry)
  | nothing

/-- The entry of a number; the numbers 0, 1 and 2 are the console without one. -/
def denotes (t : FdTable) (n : Int) : Denoted :=
  match t.get n with
  | some e => .entry e
  | none => if 0 ≤ n ∧ n < 3 then .console else .nothing

/-- Duplicating `fd` to a number from `start` on, when it succeeds, makes the new
number stand for what `fd` does, and every number that stood for something before
still does for the same: reads and writes through it answer the same, move the same
bytes and leave everything behind in the same state, whatever the disk drivers do. -/
def DupLeavesOthers (t : FdTable) (fd : Int) (start : Nat) : Prop :=
  ∀ r t', t.dupFrom fd start = (r, t') → 0 ≤ r →
    denotes t' r = denotes t fd ∧
    ∀ n, denotes t n ≠ .nothing →
      denotes t' n = denotes t n ∧
      ∀ (σ υ : Type) (w : Inputs σ υ), w.table = t → ∀ bufPtr : Nat,
        (∀ count, Inputs.Alike (w.sysRead n bufPtr count)
          ({ w with table := t' }.sysRead n bufPtr count)) ∧
        ∀ d buf, Inputs.Alike (w.sysWrite d n bufPtr buf)
          ({ w with table := t' }.sysWrite d n bufPtr buf)

theorem denotes_of_get {t t' : FdTable} {n : Int} (same : t'.get n = t.get n) :
    denotes t' n = denotes t n := by
  rw [denotes, same, denotes]

theorem get_of_entries {t : FdTable} {fd : Nat} {e : Option FdEntry} (bound : fd < maxFd)
    (here : t.entries fd = e) : t.get fd = e := by
  have inside : ¬((fd : Int) < 0 ∨ (maxFd : Int) ≤ fd) := by omega
  rw [FdTable.get, if_neg inside]
  exact here

theorem denotes_console {t : FdTable} {fd : Nat} (empty : t.entries fd = none) (low : fd < 3) :
    denotes t fd = .console := by
  have number : (0 : Int) ≤ fd ∧ (fd : Int) < 3 := by omega
  rw [denotes, get_of_entries (Nat.lt_trans low (by decide)) empty]
  exact if_pos number

theorem get_set_self {t : FdTable} {fd : Nat} (bound : fd < maxFd) (e : Option FdEntry) :
    (t.set fd e).get fd = e := get_of_entries bound (by simp [FdTable.set])

theorem get_set_of_ne {t : FdTable} {fd : Nat} {n : Int} (other : n ≠ fd) (e : Option FdEntry) :
    (t.set fd e).get n = t.get n := by
  unfold FdTable.get
  split
  · rfl
  · have apart : n.toNat ≠ fd := by omega
    simp [FdTable.set, apart]

/-- What a successful duplication has found: an entry to copy, and the first number
from `start` on that has none. -/
theorem dupFrom_ok {t t' : FdTable} {fd r : Int} {start : Nat}
    (answer : t.dupFrom fd start = (r, t')) (ok : 0 ≤ r) :
    ∃ e newFd, t.get fd = some e ∧ r = (newFd : Nat) ∧ newFd < maxFd ∧ start ≤ newFd ∧
      t.entries newFd = none ∧ (∀ n, start ≤ n → n < newFd → t.entries n ≠ none) ∧
      t' = t.set newFd (some e) := by
  unfold FdTable.dupFrom at answer
  split at answer
  · cases answer
    exact absurd ok (by decide)
  next e found =>
  split at answer
  · cases answer
    exact absurd ok (by decide)
  next newFd free =>
  cases answer
  obtain ⟨lower, upper, empty, before⟩ := firstFrom_eq_some free
  refine ⟨e, newFd, found, rfl, by omega, lower, Option.isNone_iff_eq_none.mp empty, ?_, rfl⟩
  intro n after below
  simpa [← Option.isSome_iff_ne_none] using before n after below

/-- **Duplicating a descriptor changes no other** exactly when there is nothing to
duplicate, or every number below 3 that the search meets has an entry. -/
theorem dup_leaves_others_iff (t : FdTable) (fd : Int) (start : Nat) :
    DupLeavesOthers t fd start ↔
      ((t.get fd).isSome = true → ∀ n, start ≤ n → n < 3 → t.entries n ≠ none) := by
  constructor
  · intro leaves found n lower low empty
    obtain ⟨e, found⟩ := Option.isSome_iff_exists.mp found
    have small : n < maxFd := Nat.lt_trans low (by decide)
    cases search : firstFrom (fun i => (t.entries i).isNone) start (maxFd - start) with
    | none =>
      have busy := firstFrom_eq_none.mp search n lower (by omega)
      simp [empty] at busy
    | some newFd =>
      obtain ⟨-, upper, free, earlier⟩ := firstFrom_eq_some search
      have vacant : t.entries newFd = none := Option.isNone_iff_eq_none.mp free
      have bound : newFd < maxFd := by omega
      have answer : t.dupFrom fd start = ((newFd : Int), t.set newFd (some e)) := by
        simp only [FdTable.dupFrom, found, search]
      have first : newFd ≤ n := by
        by_contra later
        have busy := earlier n lower (by omega)
        simp [empty] at busy
      obtain ⟨-, others⟩ := leaves _ _ answer (by omega)
      have before := denotes_console vacant (by omega)
      have kept := (others newFd (by rw [before]; simp)).1
      rw [before, denotes, get_set_self bound] at kept
      cases kept
  · intro busy r t' answer ok
    obtain ⟨e, newFd, found, rfl, bound, lower, empty, -, rfl⟩ := dupFrom_ok answer ok
    have high : 3 ≤ newFd := by
      by_contra low
      exact busy (by rw [found]; rfl) newFd lower (by omega) empty
    have none' := get_of_entries bound empty
    refine ⟨?_, fun n open' => ?_⟩
    · rw [denotes, get_set_self bound, denotes, found]
    · have other : n ≠ newFd := by
        rintro rfl
        have low : ¬((0 : Int) ≤ newFd ∧ (newFd : Int) < 3) := by omega
        rw [denotes, none'] at open'
        exact open' (if_neg low)
      have same := get_set_of_ne other (some e) (t := t)
      refine ⟨denotes_of_get same, ?_⟩
      rintro σ υ w rfl bufPtr
      exact ⟨fun count => Inputs.sysRead_alike same bufPtr count,
        fun d buf => Inputs.sysWrite_alike d same bufPtr buf⟩

/-- The table of a program that has opened the null device, as number 3, and
duplicated it once, which gave number 0. -/
def nullTwice : FdTable := ((FdTable.new.openDev .devNull).2.dupFrom 3 0).2

/-- The next duplicate is number 1: what the program writes there no longer gets to
the console. -/
theorem dup_takes_console :
    (nullTwice.dupFrom 3 0).1 = 1 ∧
    (∀ (σ υ : Type) (w : Inputs σ υ) (d : DiskWrites),
      ({ w with table := nullTwice }.sysWrite d 1 0x400000 [65]).2.1 = [65] ∧
      ({ w with table := (nullTwice.dupFrom 3 0).2 }.sysWrite d 1 0x400000 [65]).2.1 = []) ∧
    ¬DupLeavesOthers nullTwice 3 0 := by
  refine ⟨rfl, fun σ υ w d => ⟨rfl, rfl⟩, fun leaves => ?_⟩
  have before : denotes nullTwice 1 = .console := rfl
  have kept := ((leaves 1 _ rfl (by decide)).2 1 (by rw [before]; simp)).1
  cases kept

end OxideOS.Sys
