import OxideOS.Lib.Table
import OxideOS.Mem.Paging

/-!
# Shared memory

The segment table and the attachment records of a task, with `shmget`, `shmat`
and `shmdt`. A segment is backed by frames that `shmget` allocates one by one;
`shmat` maps `physBase`, `physBase + 4096`, … into the caller at an address that
depends on the segment number only. `shmdt` clears the record and leaves the
pages mapped. Segments are never removed.
-/

set_option autoImplicit false

namespace OxideOS.Ipc

open Lib Mem Function

def maxSegments : Nat := 16
/-- One mebibyte, 256 pages. -/
def maxSegSize : Nat := 0x100000
def maxAttach : Nat := 8
def shmVirtBase : Nat := 0x20000000
def shmSlotSize : Nat := 0x100000

structure ShmSegment where
  key : Nat
  size : Nat
  physBase : Nat
  pages : Nat
  refcount : Nat
  active : Bool

def ShmSegment.empty : ShmSegment := ⟨0, 0, 0, 0, 0, false⟩

/-- One entry of a task's attachment table. -/
structure ShmAttach where
  shmid : Nat
  vaddr : Nat
  active : Bool

def ShmAttach.empty : ShmAttach := ⟨0, 0, false⟩

/-- The virtual address of segment `id` in every task. -/
def shmVaddr (id : Nat) : Nat := shmVirtBase + id * shmSlotSize

/-- Create or open a segment: its number or a negative error code. -/
def shmget (key size : Nat) (segtab : Nat → ShmSegment) (p : Paging) :
    Int × (Nat → ShmSegment) × Paging :=
  if size = 0 ∨ maxSegSize < size then (-22, segtab, p) else
  match firstBelow maxSegments fun i => (segtab i).active && (segtab i).key == key with
  | some i => (i, segtab, p)
  | none =>
    match firstBelow maxSegments fun i => !(segtab i).active with
    | none => (-28, segtab, p)
    | some slot =>
      let pages := (size + 4095) / 4096
      let (phys, p) := p.allocPhysFrames pages
      if phys = 0 then (-12, segtab, p) else
      (slot, update segtab slot ⟨key, pages * 4096, phys, pages, 0, true⟩, p)

/-- Map segment `shmid` into the address space `cr3`: its virtual address or a
negative error code. -/
def shmat (shmid cr3 : Nat) (attaches : Nat → ShmAttach) (segtab : Nat → ShmSegment)
    (p : Paging) : Int × (Nat → ShmAttach) × (Nat → ShmSegment) × Paging :=
  if maxSegments ≤ shmid ∨ (segtab shmid).active = false then (-22, attaches, segtab, p) else
  match firstBelow maxAttach fun i => (attaches i).active && (attaches i).shmid == shmid with
  | some i => ((attaches i).vaddr, attaches, segtab, p)
  | none =>
    match firstBelow maxAttach fun i => !(attaches i).active with
    | none => (-24, attaches, segtab, p)
    | some slot =>
      let seg := segtab shmid
      match Paging.mapPhysPagesIn cr3 (shmVaddr shmid) seg.physBase seg.pages true p with
      | (.error _, p) => (-12, attaches, segtab, p)
      | (.ok _, p) =>
        (shmVaddr shmid, update attaches slot ⟨shmid, shmVaddr shmid, true⟩,
          update segtab shmid { seg with refcount := seg.refcount + 1 }, p)

/-- The number of pages of a segment, 0 for one that does not exist. -/
def segmentPages (segtab : Nat → ShmSegment) (shmid : Nat) : Nat :=
  if maxSegments ≤ shmid then 0 else
  if (segtab shmid).active then (segtab shmid).pages else 0

/-- Forget the attachment at `addr`; the pages stay mapped. -/
def shmdt (addr : Nat) (attaches : Nat → ShmAttach) (segtab : Nat → ShmSegment) :
    Int × (Nat → ShmAttach) × (Nat → ShmSegment) :=
  match firstBelow maxAttach fun i => (attaches i).active && (attaches i).vaddr == addr with
  | none => (-22, attaches, segtab)
  | some slot =>
    let shmid := (attaches slot).shmid
    let attaches := update attaches slot ShmAttach.empty
    if shmid < maxSegments ∧ (segtab shmid).active = true then
      let seg := segtab shmid
      (0, attaches, update segtab shmid { seg with refcount := seg.refcount - 1 })
    else (0, attaches, segtab)

/-- The ranges of a task's attachments, which a fork shares verbatim. -/
def shmRanges (attaches : Nat → ShmAttach) (segtab : Nat → ShmSegment) : List (Nat × Nat) :=
  (List.range maxAttach).filterMap fun i =>
    let pages := segmentPages segtab (attaches i).shmid
    if (attaches i).active && pages != 0 then
      some ((attaches i).vaddr, (attaches i).vaddr + pages * 4096)
    else none

/-! ## What the calls can do -/

section Cases

variable {key size shmid cr3 addr : Nat} {segtab : Nat → ShmSegment} {attaches : Nat → ShmAttach}
variable {p : Paging}

/-- `shmget` leaves the segments alone, or allocates frames for a new one and
enters it if that succeeds. -/
theorem shmget_cases :
    (shmget key size segtab p).2 = (segtab, p) ∨
      0 < size ∧ size ≤ maxSegSize ∧
        (∀ id < maxSegments, (segtab id).active = true → (segtab id).key ≠ key) ∧
        ∃ slot < maxSegments, (segtab slot).active = false ∧
          ((p.allocPhysFrames ((size + 4095) / 4096)).1 = 0 ∧
              (shmget key size segtab p).2 =
                (segtab, (p.allocPhysFrames ((size + 4095) / 4096)).2) ∨
            (p.allocPhysFrames ((size + 4095) / 4096)).1 ≠ 0 ∧
              (shmget key size segtab p).2 =
                (update segtab slot
                  ⟨key, (size + 4095) / 4096 * 4096, (p.allocPhysFrames ((size + 4095) / 4096)).1,
                    (size + 4095) / 4096, 0, true⟩,
                  (p.allocPhysFrames ((size + 4095) / 4096)).2)) := by
  unfold shmget
  split
  · exact .inl rfl
  · next sized =>
      push Not at sized
      split
      · exact .inl rfl
      · next absent =>
          split
          · exact .inl rfl
          · next slot found =>
              obtain ⟨bound, free, -⟩ := firstBelow_eq_some found
              refine .inr ⟨Nat.pos_of_ne_zero sized.1, sized.2, ?_, slot,
                bound, by simpa using free, ?_⟩
              · rintro id inside active rfl
                have missed := firstBelow_eq_none.mp absent id inside
                simp [active] at missed
              · simp only
                split
                · next none' => exact .inl ⟨none', rfl⟩
                · next some' => exact .inr ⟨some', rfl⟩

/-- `shmat` answers an error and changes nothing, answers the address of an
attachment that is listed, or maps the segment and lists it if that succeeds. -/
theorem shmat_cases :
    (shmat shmid cr3 attaches segtab p).1 < 0 ∧
        (shmat shmid cr3 attaches segtab p).2 = (attaches, segtab, p) ∨
      shmid < maxSegments ∧ (segtab shmid).active = true ∧
        ((∃ n < maxAttach, (attaches n).active = true ∧ (attaches n).shmid = shmid ∧
            shmat shmid cr3 attaches segtab p = (((attaches n).vaddr : Int), attaches, segtab, p)) ∨
          (∃ e p', Paging.mapPhysPagesIn cr3 (shmVaddr shmid) (segtab shmid).physBase
              (segtab shmid).pages true p = (.error e, p') ∧
            shmat shmid cr3 attaches segtab p = (-12, attaches, segtab, p')) ∨
          ∃ n < maxAttach, ∃ p', Paging.mapPhysPagesIn cr3 (shmVaddr shmid) (segtab shmid).physBase
              (segtab shmid).pages true p = (.ok ⟨⟩, p') ∧
            shmat shmid cr3 attaches segtab p =
              ((shmVaddr shmid : Int), update attaches n ⟨shmid, shmVaddr shmid, true⟩,
                update segtab shmid
                  { segtab shmid with refcount := (segtab shmid).refcount + 1 }, p')) := by
  unfold shmat
  split
  · exact .inl ⟨by simp, rfl⟩
  · next valid =>
      rw [not_or, Nat.not_le, Bool.not_eq_false] at valid
      split
      · next n found =>
          obtain ⟨bound, test, -⟩ := firstBelow_eq_some found
          obtain ⟨active, same⟩ : (attaches n).active = true ∧ (attaches n).shmid = shmid := by
            simpa using test
          exact .inr ⟨valid.1, valid.2, .inl ⟨n, bound, active, same, rfl⟩⟩
      · split
        · exact .inl ⟨by simp, rfl⟩
        · next n found =>
            obtain ⟨bound, -, -⟩ := firstBelow_eq_some found
            refine .inr ⟨valid.1, valid.2, .inr ?_⟩
            simp only
            split
            · next e p' failed => exact .inl ⟨e, p', failed, rfl⟩
            · next p' mapped => exact .inr ⟨n, bound, p', mapped, rfl⟩

/-- `shmdt` changes nothing, or takes an attachment at the address from the
table. -/
theorem shmdt_cases :
    shmdt addr attaches segtab = (-22, attaches, segtab) ∨
      ∃ n < maxAttach, (attaches n).active = true ∧ (attaches n).vaddr = addr ∧
        (shmdt addr attaches segtab).2.1 = update attaches n ShmAttach.empty ∧
        ((shmdt addr attaches segtab).2.2 = segtab ∨ ∃ id count,
          (shmdt addr attaches segtab).2.2 =
            update segtab id { segtab id with refcount := count }) := by
  unfold shmdt
  split
  · exact .inl rfl
  · next n found =>
      obtain ⟨bound, test, -⟩ := firstBelow_eq_some found
      obtain ⟨active, here⟩ : (attaches n).active = true ∧ (attaches n).vaddr = addr := by
        simpa using test
      refine .inr ⟨n, bound, active, here, ?_⟩
      simp only
      split
      · exact ⟨rfl, .inr ⟨_, _, rfl⟩⟩
      · exact ⟨rfl, .inl rfl⟩

end Cases

end OxideOS.Ipc
