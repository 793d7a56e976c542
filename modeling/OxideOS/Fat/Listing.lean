import Mathlib.Algebra.BigOperators.Group.Finset.Basic
import OxideOS.Fat.Driver

/-!
# Walking through a directory

`for_each_fat_entry` shows the entries of a directory to a callback, which keeps a state
of its own and says whether to go on. `visitChain` is that function on a subdirectory,
together with the number of sectors it reads. A search is one use of it (`scanChain_eq_visit`), the
two functions that list a directory are others.

What all these callbacks have in common is a budget (`Budgeted`): every entry uses up
some of it, and the callback stops when it is spent. A search stops at the first entry it
wants, `list_dir` never, and `list_dir_raw` when the buffer has no room for another line.
With that the walk is described by the clusters alone: `visitChain_lt_iff`.
-/

set_option autoImplicit false

namespace OxideOS.Fat

open Lib Disk

/-! ## The walk -/

section Visit

variable {σ : Type}

/-- The new state of the callback, and whether the walk goes on. -/
abbrev Callback (σ : Type) : Type := DirEntryInfo → σ → σ × Bool

/-- The slots of one sector. The walk ends at a slot that was never used. -/
def visitSlots (f : Callback σ) (buf : Sector) (lba : Nat) : List Nat → σ → σ × Bool
  | [], s => (s, true)
  | e :: rest, s =>
    let off := e * 32
    if buf off == 0x00 then (s, false)
    else if isLiveSlot buf off then
      match f (entryInfo buf lba off) s with
      | (s, false) => (s, false)
      | (s, true) => visitSlots f buf lba rest s
    else visitSlots f buf lba rest s

/-- The state is given together with the number of sectors that are read. -/
def visitSectors (f : Callback σ) (d : Device) : List Nat → σ → (σ × Nat) × Bool
  | [], s => ((s, 0), true)
  | lba :: rest, s =>
    match visitSlots f (d.readSector lba) lba (List.range 16) s with
    | (s, false) => ((s, 1), false)
    | (s, true) =>
      let ((s, reads), on) := visitSectors f d rest s
      ((s, reads + 1), on)

/-- A number that ends a walk along a chain. -/
def Outside (cluster : Nat) : Prop := cluster < 2 ∨ 0xFFF8 ≤ cluster

instance : DecidablePred Outside := fun _ => inferInstanceAs (Decidable (_ ∨ _))

/-- Along a chain; the table is read once for each cluster. -/
def visitChain (f : Callback σ) (b : Bpb) (d : Device) : (fuel cluster : Nat) → σ → Option (σ × Nat)
  | 0, _, _ => none
  | fuel + 1, cluster, s =>
    if Outside cluster then some (s, 0)
    else
      match visitSectors f d (b.clusterLbas cluster) s with
      | (result, false) => some result
      | ((s, reads), true) =>
        (visitChain f b d fuel (fatNext b d cluster) s).map fun (s, later) => (s, reads + 1 + later)

/-- More fuel does not change the result. -/
theorem visitChain_mono {σ : Type} {f : Callback σ} {b : Bpb} {d : Device}
    {fuel fuel' cluster : Nat}
    {s : σ} {result : σ × Nat} (ended : visitChain f b d fuel cluster s = some result)
    (more : fuel ≤ fuel') : visitChain f b d fuel' cluster s = some result := by
  induction fuel generalizing fuel' cluster s result with
  | zero => cases ended
  | succ fuel ih =>
    obtain ⟨fuel', rfl⟩ : ∃ less, fuel' = less + 1 := ⟨fuel' - 1, by omega⟩
    rw [visitChain] at ended ⊢
    by_cases outside : Outside cluster
    · rwa [if_pos outside] at ended ⊢
    rw [if_neg outside] at ended ⊢
    generalize visitSectors f d (b.clusterLbas cluster) s = visited at ended ⊢
    obtain ⟨⟨s', reads⟩, on⟩ := visited
    cases on with
    | false => exact ended
    | true =>
      obtain ⟨later, endedLater, rfl⟩ := Option.map_eq_some_iff.mp ended
      exact Option.map_eq_some_iff.mpr ⟨later, ih endedLater (by omega), rfl⟩

end Visit

/-! ## Callbacks -/

/-- Stop at the first entry that is wanted, and keep it. -/
def finding (wanted : DirEntryInfo → Bool) : Callback (Option DirEntryInfo) := fun e found =>
  if wanted e then (some e, false) else (found, true)

/-- The callback of `list_dir`: names as they are shown, and which of them are directories. -/
def listing : Callback (List (List UInt8 × Bool)) := fun e entries =>
  if FatFs.isChild e then (entries ++ [(fat83ToString e.name83, e.isDir)], true)
  else (entries, true)

/-- Each byte of a shown name is a character of its own; those above 0x7F take two bytes
in UTF-8. -/
def utf8 (name : List UInt8) : List UInt8 :=
  name.flatMap fun byte => if byte < 0x80 then [byte] else [0xC0 + byte / 64, 0x80 + byte % 64]

/-- The line of an entry. -/
def line (e : DirEntryInfo) : List UInt8 :=
  utf8 (fat83ToString e.name83) ++ (if e.isDir then [slash] else []) ++ [0x0A]

/-- The callback of `list_dir_raw` with a buffer of `len` bytes. -/
def listingRaw (len : Nat) : Callback (List UInt8) := fun e out =>
  if FatFs.isChild e then
    if len < out.length + (line e).length then (out, false) else (out ++ line e, true)
  else (out, true)

/-- A search is a walk with the callback `finding`. -/
theorem scanSlots_eq_visit (wanted : DirEntryInfo → Bool) (buf : Sector) (lba : Nat)
    (es : List Nat) :
    visitSlots (finding wanted) buf lba es none =
      match scanSlots wanted buf lba es with
      | some found => (found, false)
      | none => (none, true) := by
  induction es with
  | nil => rfl
  | cons e rest ih =>
    rw [visitSlots, scanSlots]
    by_cases unused : buf (e * 32) == 0x00
    · rw [if_pos unused, if_pos unused]
    · rw [if_neg unused, if_neg unused]
      cases isLive : isLiveSlot buf (e * 32) with
      | false => simpa [isLive] using ih
      | true =>
        cases isWanted : wanted (entryInfo buf lba (e * 32)) with
        | true => simp [finding, isWanted]
        | false => simpa [finding, isWanted] using ih

theorem scanSectors_eq_visit (wanted : DirEntryInfo → Bool) (d : Device) (lbas : List Nat) :
    ∃ reads, visitSectors (finding wanted) d lbas none =
      match scanSectors wanted d lbas with
      | some found => ((found, reads), false)
      | none => ((none, reads), true) := by
  induction lbas with
  | nil => exact ⟨0, rfl⟩
  | cons lba rest ih =>
    obtain ⟨reads, later⟩ := ih
    have here := scanSlots_eq_visit wanted (d.readSector lba) lba (List.range 16)
    rw [visitSectors, scanSectors]
    cases scanned : scanSlots wanted (d.readSector lba) lba (List.range 16) with
    | some found =>
      rw [scanned] at here
      rw [here]
      exact ⟨1, rfl⟩
    | none =>
      rw [scanned] at here
      rw [here]
      dsimp only
      rw [later]
      refine ⟨reads + 1, ?_⟩
      cases scanSectors wanted d rest <;> rfl

theorem scanChain_eq_visit (wanted : DirEntryInfo → Bool) (b : Bpb) (d : Device)
    (fuel cluster : Nat) :
    scanChain wanted b d fuel cluster
      = (visitChain (finding wanted) b d fuel cluster none).map Prod.fst := by
  induction fuel generalizing cluster with
  | zero => rfl
  | succ fuel ih =>
    rw [scanChain, visitChain]
    by_cases outside : cluster < 2 ∨ 0xFFF8 ≤ cluster
    · rw [if_pos outside, if_pos (c := Outside cluster) outside]
      rfl
    · rw [if_neg outside, if_neg (c := Outside cluster) outside]
      obtain ⟨reads, visited⟩ := scanSectors_eq_visit wanted d (b.clusterLbas cluster)
      rw [visited]
      cases scanSectors wanted d (b.clusterLbas cluster) with
      | some found => rfl
      | none =>
        dsimp only
        rw [ih, Option.map_map]
        rfl

/-! ## Budgets -/

/-- The callback goes on while what its state has used and what the entry needs are
within the limit. -/
structure Budgeted {σ : Type} (f : Callback σ) (used : σ → Nat) (weight : DirEntryInfo → Nat)
    (limit : Nat) : Prop where
  stops : ∀ e s, used s ≤ limit → limit < used s + weight e → (f e s).2 = false
  goesOn : ∀ e s, used s + weight e ≤ limit → (f e s).2 = true ∧ used (f e s).1 = used s + weight e

theorem budgeted_finding (wanted : DirEntryInfo → Bool) :
    Budgeted (finding wanted) (fun _ => 0) (fun e => (wanted e).toNat) 0 := by
  constructor
  · intro e s _ spent
    cases isWanted : wanted e with
    | true => simp [finding, isWanted]
    | false => simp [isWanted] at spent
  · intro e s within
    cases isWanted : wanted e with
    | true => simp [isWanted] at within
    | false => simp [finding, isWanted]

theorem budgeted_listing : Budgeted listing (fun _ => 0) (fun _ => 0) 0 := by
  refine ⟨fun e s _ spent => absurd spent (Nat.lt_irrefl 0), fun e s _ => ⟨?_, rfl⟩⟩
  unfold listing
  split <;> rfl

/-- The number of bytes `list_dir_raw` writes for an entry. -/
def lineLength (e : DirEntryInfo) : Nat := if FatFs.isChild e then (line e).length else 0

theorem budgeted_listingRaw (len : Nat) : Budgeted (listingRaw len) List.length lineLength len := by
  constructor
  · intro e out room spent
    unfold lineLength at spent
    unfold listingRaw
    split at spent
    · next isChild => rw [if_pos isChild, if_pos spent]
    · omega
  · intro e out within
    unfold lineLength at within ⊢
    unfold listingRaw
    split at within
    · next isChild =>
        rw [if_pos isChild, if_neg (Nat.not_lt.mpr within), if_pos isChild]
        exact ⟨rfl, List.length_append⟩
    · next notChild =>
        rw [if_neg notChild, if_neg notChild]
        exact ⟨rfl, rfl⟩

/-! ## What the slots of a cluster do to a budget -/

/-- The slot ends the directory. -/
def Unused (d : Device) (lba e : Nat) : Prop := d.readSector lba (e * 32) = 0x00

instance (d : Device) (lba e : Nat) : Decidable (Unused d lba e) :=
  inferInstanceAs (Decidable (_ = _))

/-- One of the slots of the cluster was never used. -/
def Ends (b : Bpb) (d : Device) (cluster : Nat) : Prop :=
  ∃ lba ∈ b.clusterLbas cluster, ∃ e ∈ List.range 16, Unused d lba e

instance (b : Bpb) (d : Device) : DecidablePred (Ends b d) := fun _ =>
  inferInstanceAs (Decidable (∃ _ ∈ _, _))

def slotWeight (weight : DirEntryInfo → Nat) (d : Device) (lba e : Nat) : Nat :=
  if isLiveSlot (d.readSector lba) (e * 32) then weight (entryInfo (d.readSector lba) lba (e * 32))
  else 0

def sectorWeight (weight : DirEntryInfo → Nat) (d : Device) (lba : Nat) : Nat :=
  ((List.range 16).map (slotWeight weight d lba)).sum

/-- What all the entries of a cluster need. -/
def clusterWeight (weight : DirEntryInfo → Nat) (b : Bpb) (d : Device) (cluster : Nat) : Nat :=
  ((b.clusterLbas cluster).map (sectorWeight weight d)).sum

section Budget

variable {σ : Type} {f : Callback σ} {used : σ → Nat} {weight : DirEntryInfo → Nat} {limit : Nat}
  {d : Device} {lba : Nat} {s : σ}

/-- One slot that holds something: its entry is paid for, or the walk ends. -/
theorem visitSlots_step (budget : Budgeted f used weight limit) (room : used s ≤ limit) {e : Nat}
    (full : ¬Unused d lba e) (rest : List Nat) :
    (∃ s', visitSlots f (d.readSector lba) lba (e :: rest) s
          = visitSlots f (d.readSector lba) lba rest s' ∧
        used s' = used s + slotWeight weight d lba e ∧ used s' ≤ limit) ∨
      ∃ s', visitSlots f (d.readSector lba) lba (e :: rest) s = (s', false) ∧
        limit < used s + slotWeight weight d lba e := by
  have here : ¬(d.readSector lba (e * 32) == 0x00) = true := by simpa [Unused] using full
  rw [visitSlots, if_neg here]
  unfold slotWeight
  cases isLive : isLiveSlot (d.readSector lba) (e * 32) with
  | false => exact .inl ⟨s, by simp, by simp, room⟩
  | true =>
    simp only [if_true]
    by_cases within : used s + weight (entryInfo (d.readSector lba) lba (e * 32)) ≤ limit
    · obtain ⟨goesOn, uses⟩ := budget.goesOn _ s within
      left
      generalize f (entryInfo (d.readSector lba) lba (e * 32)) s = answer at goesOn uses
      obtain ⟨s', on⟩ := answer
      cases goesOn
      have uses : used s' = _ := uses
      exact ⟨s', rfl, uses, by omega⟩
    · have stops := budget.stops (entryInfo (d.readSector lba) lba (e * 32)) s room (by omega)
      right
      generalize f (entryInfo (d.readSector lba) lba (e * 32)) s = answer at stops
      obtain ⟨s', on⟩ := answer
      cases stops
      exact ⟨s', rfl, by omega⟩

theorem visitSlots_budget (d : Device) (lba : Nat) (budget : Budgeted f used weight limit)
    (room : used s ≤ limit) (es : List Nat) :
    (∃ s', visitSlots f (d.readSector lba) lba es s = (s', true) ∧ (∀ e ∈ es, ¬Unused d lba e) ∧
        used s' = used s + (es.map (slotWeight weight d lba)).sum ∧ used s' ≤ limit) ∨
      ∃ s', visitSlots f (d.readSector lba) lba es s = (s', false) ∧
        ((∃ e ∈ es, Unused d lba e) ∨ limit < used s + (es.map (slotWeight weight d lba)).sum) := by
  induction es generalizing s with
  | nil => exact .inl ⟨s, rfl, fun _ mem => absurd mem List.not_mem_nil, rfl, room⟩
  | cons e rest ih =>
    rw [List.map_cons, List.sum_cons]
    by_cases unused : Unused d lba e
    · refine .inr ⟨s, ?_, .inl ⟨e, List.mem_cons_self, unused⟩⟩
      rw [visitSlots, if_pos (by simpa [Unused] using unused)]
    obtain ⟨s₁, step, uses, room₁⟩ | ⟨s₁, step, spent⟩ := visitSlots_step budget room unused rest
    · rw [step]
      obtain ⟨s', visited, full, total, within⟩ | ⟨s', visited, why⟩ := ih room₁
      · exact .inl ⟨s', visited, List.forall_mem_cons.mpr ⟨unused, full⟩, by omega, within⟩
      · refine .inr ⟨s', visited, why.imp ?_ (by omega)⟩
        rintro ⟨e', mem, unused'⟩
        exact ⟨e', List.mem_cons_of_mem _ mem, unused'⟩
    · exact .inr ⟨s₁, step, .inr (by omega)⟩

theorem visitSectors_budget (budget : Budgeted f used weight limit) (room : used s ≤ limit)
    (lbas : List Nat) :
    (∃ s', visitSectors f d lbas s = ((s', lbas.length), true) ∧
        (∀ lba ∈ lbas, ∀ e ∈ List.range 16, ¬Unused d lba e) ∧
        used s' = used s + (lbas.map (sectorWeight weight d)).sum ∧ used s' ≤ limit) ∨
      ∃ s' reads, visitSectors f d lbas s = ((s', reads), false) ∧ reads ≤ lbas.length ∧
        ((∃ lba ∈ lbas, ∃ e ∈ List.range 16, Unused d lba e) ∨
          limit < used s + (lbas.map (sectorWeight weight d)).sum) := by
  induction lbas generalizing s with
  | nil => exact .inl ⟨s, rfl, fun _ mem => absurd mem List.not_mem_nil, rfl, room⟩
  | cons lba rest ih =>
    rw [List.map_cons, List.sum_cons, visitSectors]
    unfold sectorWeight at ih ⊢
    obtain ⟨s₁, here, full₁, uses, room₁⟩ | ⟨s₁, here, why⟩ :=
      visitSlots_budget d lba budget room (List.range 16)
    · rw [here]
      dsimp only
      obtain ⟨s', visited, full, total, within⟩ | ⟨s', reads, visited, few, why⟩ := ih room₁
      · rw [visited]
        exact .inl ⟨s', rfl, List.forall_mem_cons.mpr ⟨full₁, full⟩, by omega, within⟩
      · rw [visited]
        refine .inr ⟨s', reads + 1, rfl, Nat.succ_le_succ few, why.imp ?_ (by omega)⟩
        rintro ⟨lba', mem, unused⟩
        exact ⟨lba', List.mem_cons_of_mem _ mem, unused⟩
    · rw [here]
      refine .inr ⟨s₁, 1, rfl, Nat.succ_le_succ (Nat.zero_le _), why.imp ?_ (by omega)⟩
      intro unused
      exact ⟨lba, List.mem_cons_self, unused⟩

/-! ## The walk along a chain -/

/-- The walk stops at the cluster, whatever the callback says. -/
def Halts (b : Bpb) (d : Device) (cluster : Nat) : Prop := Outside cluster ∨ Ends b d cluster

instance (b : Bpb) (d : Device) : DecidablePred (Halts b d) := fun _ =>
  inferInstanceAs (Decidable (_ ∨ _))

/-- What the entries of the first `n + 1` clusters need. -/
def chainWeight (weight : DirEntryInfo → Nat) (b : Bpb) (d : Device) (cluster n : Nat) : Nat :=
  ∑ i ∈ Finset.range (n + 1), clusterWeight weight b d ((fatNext b d)^[i] cluster)

theorem chainWeight_zero (weight : DirEntryInfo → Nat) (b : Bpb) (d : Device) (cluster : Nat) :
    chainWeight weight b d cluster 0 = clusterWeight weight b d cluster := by
  rw [chainWeight, Finset.sum_range_one, Function.iterate_zero, id]

theorem chainWeight_succ (weight : DirEntryInfo → Nat) (b : Bpb) (d : Device) (cluster n : Nat) :
    chainWeight weight b d cluster (n + 1)
      = clusterWeight weight b d cluster + chainWeight weight b d (fatNext b d cluster) n := by
  rw [chainWeight, Finset.sum_range_succ', Function.iterate_zero, id, Nat.add_comm]
  rfl

variable {b : Bpb} {cluster : Nat}

theorem clusterLbas_length (b : Bpb) (cluster : Nat) :
    (b.clusterLbas cluster).length = b.sectorsPerCluster := by
  rw [Bpb.clusterLbas, List.length_map, List.length_range]

/-- One cluster: the walk goes on with the next one, or ends in this one. -/
theorem visitChain_step (b : Bpb) (d : Device) (cluster : Nat)
    (budget : Budgeted f used weight limit) (room : used s ≤ limit) :
    (∃ s', (∀ fuel, visitChain f b d (fuel + 1) cluster s
          = (visitChain f b d fuel (fatNext b d cluster) s').map
              (fun r => (r.1, b.sectorsPerCluster + 1 + r.2))) ∧
        used s' = used s + clusterWeight weight b d cluster ∧ used s' ≤ limit ∧
        ¬Halts b d cluster) ∨
      ∃ s' reads, (∀ fuel, visitChain f b d (fuel + 1) cluster s = some (s', reads)) ∧
        reads ≤ b.sectorsPerCluster ∧
        (Halts b d cluster ∨ limit < used s + clusterWeight weight b d cluster) := by
  by_cases outside : Outside cluster
  · refine .inr ⟨s, 0, fun fuel => ?_, Nat.zero_le _, .inl (.inl outside)⟩
    rw [visitChain, if_pos outside]
  obtain ⟨s', visited, full, total, within⟩ | ⟨s', reads, visited, few, why⟩ :=
    @visitSectors_budget _ f used weight limit d s budget room (b.clusterLbas cluster)
  · refine .inl ⟨s', fun fuel => ?_, total, within, ?_⟩
    · rw [visitChain, if_neg outside, visited, clusterLbas_length]
    rintro (isOutside | ⟨lba, mem, e, slot, unused⟩)
    · exact outside isOutside
    · exact full lba mem e slot unused
  · rw [clusterLbas_length] at few
    refine .inr ⟨s', reads, fun fuel => ?_, few, why.imp .inr id⟩
    rw [visitChain, if_neg outside, visited]

/-- A walk that is stopped in cluster `n` ends there or before. -/
theorem visitChain_ends (budget : Budgeted f used weight limit) (room : used s ≤ limit) {n : Nat}
    (stops : Halts b d ((fatNext b d)^[n] cluster) ∨
      limit < used s + chainWeight weight b d cluster n) :
    ∃ result, visitChain f b d (n + 1) cluster s = some result ∧
      result.2 ≤ n * (b.sectorsPerCluster + 1) + b.sectorsPerCluster := by
  induction n generalizing cluster s with
  | zero =>
    obtain ⟨s', -, uses, room', goesOn⟩ | ⟨s', reads, step, few, -⟩ :=
      visitChain_step b d cluster budget room
    · rw [chainWeight_zero] at stops
      obtain halts | spent := stops
      · exact absurd halts goesOn
      · omega
    · exact ⟨_, step 0, by omega⟩
  | succ n ih =>
    obtain ⟨s', step, uses, room', -⟩ | ⟨s', reads, step, few, -⟩ :=
      visitChain_step b d cluster budget room
    · rw [Function.iterate_succ_apply, chainWeight_succ] at stops
      obtain ⟨result, visited, few⟩ := ih room' (stops.imp_right (by omega))
      refine ⟨_, (step (n + 1)).trans (congrArg _ visited), ?_⟩
      rw [Nat.succ_mul]
      dsimp only
      omega
    · exact ⟨_, step (n + 1), Nat.le_trans few (Nat.le_add_left _ _)⟩

/-- **Where a walk ends.** It reads fewer sectors than `count` whole clusters take
exactly if one of the first `count` clusters stops it or the budget is spent there. -/
theorem visitChain_lt_iff (budget : Budgeted f used weight limit) (room : used s ≤ limit)
    (count : Nat) :
    (∃ fuel result, visitChain f b d fuel cluster s = some result ∧
        result.2 < count * (b.sectorsPerCluster + 1)) ↔
      ∃ n < count, Halts b d ((fatNext b d)^[n] cluster) ∨
        limit < used s + chainWeight weight b d cluster n := by
  constructor
  · rintro ⟨fuel, result, visited, few⟩
    induction fuel generalizing cluster s count result with
    | zero => cases visited
    | succ fuel ih =>
      have positive : 0 < count := by
        by_contra none
        obtain rfl : count = 0 := by omega
        omega
      obtain ⟨s', step, uses, room', -⟩ | ⟨s', reads, step, -, why⟩ :=
        visitChain_step b d cluster budget room
      · rw [step fuel] at visited
        obtain ⟨later, visitedLater, rfl⟩ := Option.map_eq_some_iff.mp visited
        obtain ⟨count, rfl⟩ : ∃ less, count = less + 1 := ⟨count - 1, by omega⟩
        have fewer : later.2 < count * (b.sectorsPerCluster + 1) := by
          rw [Nat.succ_mul] at few
          dsimp only at few
          omega
        obtain ⟨n, bound, stops⟩ := ih room' count later visitedLater fewer
        refine ⟨n + 1, Nat.succ_lt_succ bound, ?_⟩
        rw [Function.iterate_succ_apply, chainWeight_succ]
        exact stops.imp_right (by omega)
      · exact ⟨0, positive, by rw [chainWeight_zero]; exact why⟩
  · rintro ⟨n, bound, stops⟩
    obtain ⟨result, visited, few⟩ := visitChain_ends budget room stops
    refine ⟨n + 1, result, visited, ?_⟩
    have upTo : (n + 1) * (b.sectorsPerCluster + 1) ≤ count * (b.sectorsPerCluster + 1) :=
      Nat.mul_le_mul_right _ bound
    rw [Nat.succ_mul] at upTo
    omega

end Budget

end OxideOS.Fat
