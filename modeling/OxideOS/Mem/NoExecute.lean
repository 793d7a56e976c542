import OxideOS.Mem.Machine

/-!
# Pages mapped without execute permission

A region is mapped with or without the flag `NO_EXECUTE`, bit 63 of an entry.
`Marked` runs the address spaces together with a record of what was asked for:
`noExec r v` says that page `v` of the address space `r` was mapped with
`executable = false`, by a mapping of its own or by the one its parent had when
it was forked. The flag is `Enforced` when each such page has bit 63 set.

`PageTableEntry.set` keeps the low twelve bits of the flags only, fork and fault
compose their entries from `flags`, which are the low twelve bits, and so no leaf
entry ever has a bit above the address of its frame (`narrow_of_run`). The flag is
enforced exactly in the states in which no page it was asked for is mapped
(`enforced_iff`); one mapped page shows the failure (`mapped_executable`).
-/

set_option autoImplicit false

namespace OxideOS.Mem

open Lib PageTableFlags PageTableEntry

/-- The address spaces, and the pages mapped with `executable = false`. -/
structure Marked where
  system : System
  noExec : Nat → Nat → Bool

namespace Marked

/-- What was asked for after an operation that leads from `s` to `s'`. -/
def mark (s s' : System) (noExec : Nat → Nat → Bool) : Op → Nat → Nat → Bool
  | .map root _ _ _ executable => fun r v =>
    if r = root ∧ leafAt s.paging.mem r v = none ∧ leafAt s'.paging.mem r v ≠ none then !executable
    else noExec r v
  | .fork root _ => fun r v => if r ∈ s.live then noExec r v else noExec root v
  | .create => fun r v => if r ∈ s.live then noExec r v else false
  | .unmap _ _ _ | .free _ => fun r v => noExec r v && (leafAt s'.paging.mem r v).isSome
  | .fault _ _ | .store _ _ _ => noExec

def step (m : Marked) (op : Op) : Option Marked :=
  (Mem.step m.system op).map fun s' => ⟨s', mark m.system s' m.noExec op⟩

/-- Before anything is mapped. -/
def start (boot : Paging) : Marked := ⟨⟨boot, ∅⟩, fun _ _ => false⟩

/-- The pages mapped without execute permission have the flag in their entries. -/
def Enforced (m : Marked) : Prop :=
  ∀ r ∈ m.system.live, ∀ v e, m.noExec r v = true → leafAt m.system.paging.mem r v = some e →
    e.testBit 63 = true

variable {boot : Paging} {m : Marked} {ops : List Op}

/-- In every state reached no leaf entry has a bit above the address. -/
theorem narrow_of_run (boots : Boot boot)
    (low : Along step (fun _ op => InLowerHalf op) (start boot) ops)
    (ran : run step (start boot) ops = some m) :
    ∃ A extra, Inv boot A ∅ extra m.system.paging ∧ m.system.live ⊆ A.roots ∧ A.Narrow := by
  refine run_invariant
    (I := fun m => ∃ A extra, Inv boot A ∅ extra m.system.paging ∧
      m.system.live ⊆ A.roots ∧ A.Narrow)
    ?_ ⟨.empty, _, boots.inv, fun _ => id, .empty⟩ low ran
  rintro m op m' ⟨A, extra, inv, sub, narrow⟩ lower stepped
  obtain ⟨s', moved, rfl⟩ := Option.map_eq_some_iff.mp stepped
  obtain ⟨A', extra', inv', sub', keeps, -⟩ := inv.step sub lower moved
  exact ⟨A', extra', inv', sub', keeps narrow⟩

/-- **No page is protected.** In every state reached by mapping, unmapping, fork,
faults, stores and freeing in the lower half, the pages mapped without execute
permission have bit 63 set if and only if none of them is mapped. -/
theorem enforced_iff (boots : Boot boot)
    (low : Along step (fun _ op => InLowerHalf op) (start boot) ops)
    (ran : run step (start boot) ops = some m) :
    m.Enforced ↔ ∀ r ∈ m.system.live, ∀ v, m.noExec r v = true →
      leafAt m.system.paging.mem r v = none := by
  obtain ⟨A, extra, inv, sub, narrow⟩ := narrow_of_run boots low ran
  constructor
  · intro enforced r live v asked
    cases leaf : leafAt m.system.paging.mem r v with
    | none => rfl
    | some e =>
      have set := enforced r live v e asked leaf
      rw [inv.rep.leafAt_eq (sub live)] at leaf
      have clear : e.testBit 63 = false :=
        Nat.testBit_lt_two_pow (Nat.lt_trans (narrow r v e leaf) (by decide))
      rw [clear] at set
      cases set
  · intro absent r live v e asked leaf
    rw [absent r live v asked] at leaf
    cases leaf

/-- One page is mapped executable and one not, and the second is unmapped again
before a fork. -/
def mapAndUnmap : List Op :=
  [.create, .map 8192 0x400000 1 true true, .map 8192 0x401000 1 true false,
    .unmap 8192 0x401000 1, .fork 8192 (0x700000, 0x800000), .store 8198 0x400010 7]

theorem enforced_iff_mapAndUnmap :
    ∃ m, run step (start smallBoot) mapAndUnmap = some m ∧ m.system.live = {8192, 8198} ∧
      (m.Enforced ↔ ∀ r ∈ m.system.live, ∀ v, m.noExec r v = true →
        leafAt m.system.paging.mem r v = none) := by
  have ends : (run step (start smallBoot) mapAndUnmap).map (fun m => m.system.live) =
      some {8192, 8198} := by decide +kernel
  obtain ⟨m, ran, live⟩ := Option.map_eq_some_iff.mp ends
  exact ⟨m, ran, live, enforced_iff smallBoot_boot (by decide +kernel) ran⟩

/-- A page mapped with `executable = false` has bit 63 clear, in its own address
space and after a fork in the child's. -/
theorem mapped_executable :
    Boot smallBoot ∧ ∃ m, run step (start smallBoot)
        [.create, .map 8192 0x400000 1 true false, .fork 8192 (0x700000, 0x800000)] = some m ∧
      m.noExec 8192 0x400 = true ∧ m.noExec 8197 0x400 = true ∧
      (leafAt m.system.paging.mem 8192 0x400).map (fun e => e.testBit 63) = some false ∧
      (leafAt m.system.paging.mem 8197 0x400).map (fun e => e.testBit 63) = some false ∧
      ¬m.Enforced := by
  refine ⟨smallBoot_boot, ?_⟩
  have ends : (run step (start smallBoot)
      [.create, .map 8192 0x400000 1 true false, .fork 8192 (0x700000, 0x800000)]).map
        (fun m => (decide (8192 ∈ m.system.live), m.noExec 8192 0x400, m.noExec 8197 0x400,
          (leafAt m.system.paging.mem 8192 0x400).map (fun e => e.testBit 63),
          (leafAt m.system.paging.mem 8197 0x400).map (fun e => e.testBit 63))) =
      some (true, true, true, some false, some false) := by decide +kernel
  obtain ⟨m, ran, final⟩ := Option.map_eq_some_iff.mp ends
  simp only [Prod.mk.injEq, decide_eq_true_eq] at final
  obtain ⟨live, parent, child, entry, copy⟩ := final
  refine ⟨m, ran, parent, child, entry, copy, fun enforced => ?_⟩
  obtain ⟨e, leaf, clear⟩ := Option.map_eq_some_iff.mp entry
  rw [enforced 8192 live 0x400 e parent leaf] at clear
  cases clear

end Marked
end OxideOS.Mem
