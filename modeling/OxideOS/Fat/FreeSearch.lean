import OxideOS.Fat.Allocation
import OxideOS.Install.Partitions

/-!
# Which cluster an allocation takes

`fat_alloc_cluster` looks through all the sectors of the table for a word that is 0. The
table may have more words than the partition has clusters, and the index of a word is
cut to sixteen bits before it becomes a cluster number. `allocates_inside_iff` says for
which tables the cluster is one of the partition.

The installer makes such a volume: its table has 4096 words, and there is room for the
clusters 2 to 2047.
-/

set_option autoImplicit false

namespace OxideOS.Fat

open Lib Disk

/-! ## Clusters of the partition -/

/-- A number for a cluster of a volume on a partition that ends before `partEnd`. -/
structure Bpb.Hosts (b : Bpb) (partEnd c : Nat) : Prop where
  two : 2 ≤ c
  /-- The number is not a mark for the end of a chain. -/
  low : c < 0xFFF8
  inside : ∀ lba ∈ b.clusterLbas c, b.dataStartLba ≤ lba ∧ lba < partEnd

/-- The allocation takes a free cluster of the partition, and fails only if there is none. -/
structure FatFs.AllocatesInside (fs : FatFs) (partEnd : Nat) : Prop where
  taken : fs.fatAllocCluster.1 ≠ 0 →
    Blank fs.bpb fs.device fs.fatAllocCluster.1 ∧ fs.bpb.Hosts partEnd fs.fatAllocCluster.1
  full : fs.fatAllocCluster.1 = 0 → ∀ c, fs.bpb.Hosts partEnd c → ¬Blank fs.bpb fs.device c

section Inside

variable {fs : FatFs} {partEnd : Nat}

theorem Bpb.Hosts.mod_eq {b : Bpb} {c : Nat} (hosts : b.Hosts partEnd c) : c % 65536 = c :=
  Nat.mod_eq_of_lt (Nat.lt_trans hosts.low (by decide))

theorem Bpb.Hosts.offered {b : Bpb} {d : Device} {c : Nat} (hosts : b.Hosts partEnd c)
    (blank : Blank b d c) : Offered b d c :=
  ⟨blank, by rw [hosts.mod_eq]; exact hosts.two⟩

theorem fatAllocCluster_fst :
    fs.fatAllocCluster.1 = (findFreeCluster fs.bpb fs.device).getD 0 := by
  unfold FatFs.fatAllocCluster
  cases findFreeCluster fs.bpb fs.device <;> rfl

/-- **An allocation stays inside the partition exactly if** every word that is taken for
a free cluster and is none of the partition has a free cluster of the partition before
it. -/
theorem allocates_inside_iff (fs : FatFs) (partEnd : Nat) :
    fs.AllocatesInside partEnd ↔
      ∀ n, Offered fs.bpb fs.device n → ¬fs.bpb.Hosts partEnd n →
        ∃ m < n, Blank fs.bpb fs.device m ∧ fs.bpb.Hosts partEnd m := by
  cases found : findFreeCluster fs.bpb fs.device with
  | none =>
    have nothing := findFreeCluster_none found
    have zero : fs.fatAllocCluster.1 = 0 := by
      rw [fatAllocCluster_fst, found]
      rfl
    constructor
    · intro _ n offered
      exact absurd offered (nothing n)
    · intro _
      exact ⟨fun nonzero => absurd zero nonzero,
        fun _ c hosts blank => nothing c (hosts.offered blank)⟩
  | some r =>
    obtain ⟨n, offered, number, first⟩ := findFreeCluster_some found
    have taken : fs.fatAllocCluster.1 = n % 65536 := by
      rw [fatAllocCluster_fst, found, ← number]
      rfl
    have nonzero : fs.fatAllocCluster.1 ≠ 0 := by
      have := offered.2
      omega
    constructor
    · intro inside k offeredK noneK
      obtain ⟨blank, hosts⟩ := inside.taken nonzero
      rw [taken] at blank hosts
      have uncut : n % 65536 = n := by
        by_contra cut
        have smaller : n % 65536 < n := Nat.lt_of_le_of_ne (Nat.mod_le _ _) cut
        exact first _ smaller (hosts.offered blank)
      rw [uncut] at blank hosts
      refine ⟨n, Nat.lt_of_not_le fun atMost => ?_, blank, hosts⟩
      obtain same | before := Nat.eq_or_lt_of_le atMost
      · exact noneK (same ▸ hosts)
      · exact first k before offeredK
    · intro earlier
      have hosts : fs.bpb.Hosts partEnd n := by
        by_contra noneN
        obtain ⟨m, before, blank, hosts⟩ := earlier n offered noneN
        exact first m before (hosts.offered blank)
      refine ⟨fun _ => ?_, fun zero => absurd zero nonzero⟩
      rw [taken, hosts.mod_eq]
      exact ⟨offered.1, hosts⟩

end Inside

/-! ## The installer's volume -/

/-- The volume the driver mounts on the data partition the installer formats. -/
def dataBpb : Bpb := readBpb Install.dataBootSector dataPartStart

/-- The end of the data partition. -/
def dataPartEnd : Nat := dataPartStart + dataPartSectors

/-- On a volume without files the first cluster is taken. -/
theorem allocates_inside_empty :
    (FatFs.mounted ⟨fun _ => Sector.zero, []⟩ dataBpb []).AllocatesInside dataPartEnd := by
  have hosts : dataBpb.Hosts dataPartEnd 2 := by
    refine ⟨by decide, by decide, ?_⟩
    decide +kernel
  have blank : Blank dataBpb ⟨fun _ => Sector.zero, []⟩ 2 := by decide +kernel
  refine (allocates_inside_iff _ dataPartEnd).mpr fun n offered noneN => ⟨2, ?_, blank, hosts⟩
  have atLeast : 2 ≤ n := Nat.le_trans offered.2 (Nat.mod_le _ _)
  refine Nat.lt_of_le_of_ne atLeast fun same => ?_
  subst same
  exact noneN hosts

/-- The data partition when every cluster it has room for is in use: the first eight
sectors of the table, the words of the clusters up to 2047, hold no 0. -/
def fullDisk : Device :=
  ⟨fun lba => if Install.fat16Fat1Lba ≤ lba ∧ lba < Install.fat16Fat1Lba + 8
    then fun _ => 0xFF else Sector.zero, []⟩

def fullVolume : FatFs := .mounted fullDisk dataBpb []

theorem fullVolume_takes : fullVolume.fatAllocCluster.1 = 2048 := by
  rw [fatAllocCluster_fst]
  decide +kernel

/-- The last sector of cluster 2048 is the fourth after the partition. -/
theorem full_volume_allocates_outside :
    fullVolume.bpb = dataBpb ∧ fullVolume.fatAllocCluster.1 = 2048 ∧
      ¬fullVolume.AllocatesInside dataPartEnd := by
  refine ⟨rfl, fullVolume_takes, fun inside => ?_⟩
  have hosts := (inside.taken (by rw [fullVolume_takes]; decide)).2
  rw [fullVolume_takes] at hosts
  have last : dataPartEnd + 3 ∈ dataBpb.clusterLbas 2048 := by decide +kernel
  exact absurd (hosts.inside _ last).2 (by omega)

end OxideOS.Fat
