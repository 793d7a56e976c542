import OxideOS.Mem.Machine

/-!
# System calls that store into a user buffer

A system call that returns data checks the buffer with `validateUserRange` and
then stores the bytes itself, in kernel mode, through the caller's page tables.
The address spaces are those of `Mem.Machine`.

A store that hits a copy-on-write page faults in kernel mode, and
`isr_common_handler` resolves such faults for user mode only: the system stops.
`copyOut_iff` says that this is the only obstacle: bytes for pages that the task
may write arrive, unseen by every other address space, if and only if none of the
pages is copy-on-write. `copyOut_halts` is a read into a page shared by a fork.
-/

set_option autoImplicit false

namespace OxideOS.Sys

open Lib Mem PageTableFlags PageTableEntry Paging

def userSpaceStart : Nat := 0x1000
def kernelSpaceBase : Nat := 0xFFFF800000000000
def einval : Int := -1

/-- The check of a user buffer by address only. -/
def validateUserRange (ptrAddr len : Nat) : Except Int Unit :=
  if len = 0 then .ok () else
  if ptrAddr < userSpaceStart ∨ 2 ^ 64 - 1 < len then .error einval else
  if 2 ^ 64 ≤ ptrAddr + (len - 1) then .error einval else
  if kernelSpaceBase ≤ ptrAddr + (len - 1) then .error einval else .ok ()

/-- The part of a system call that returns `bytes` in a buffer of `len` bytes. -/
def copyOut (cr3 attempts ptrAddr len : Nat) (bytes : List UInt8) (p : Paging) :
    Option (Except Int StoreResult × Paging) :=
  match validateUserRange ptrAddr len with
  | .error code => some (.error code, p)
  | .ok _ => (writeUser cr3 attempts ptrAddr bytes p).map fun r => (.ok r.1, r.2)

/-- `virt` is a user address in a page the task may write: its entries are open to
user mode, and it is writable or waits to be copied. -/
def mayWrite (p : Paging) (cr3 virt : Nat) : Bool :=
  let l4e := p.read (cr3 &&& addrMask) (l4Index virt)
  let l3e := p.read (addr l4e) (l3Index virt)
  let l2e := p.read (addr l3e) (l2Index virt)
  let l1e := p.read (addr l2e) (l1Index virt)
  decide (virt < 2 ^ 47) && (isPresent l4e && Access.userWrite.permits l4e) &&
    (isPresent l3e && !isHuge l3e && Access.userWrite.permits l3e) &&
    (isPresent l2e && !isHuge l2e && Access.userWrite.permits l2e) &&
    (isPresent l1e && isUser l1e && (isWritable l1e || isCow l1e))

/-- The page of `virt` is marked copy-on-write. -/
def cowPage (p : Paging) (root virt : Nat) : Bool :=
  match leafAt p.mem root (pageNumber virt) with
  | some e => isCow e
  | none => false

/-! ## Pages the task may write -/

/-- The walk to a page that the task may write. -/
structure UserPage (p : Paging) (r virt e : Nat) : Prop where
  walk : ∃ l4e l3e l2e, Walk p r virt l4e l3e l2e e ∧ Access.userWrite.permits l4e = true ∧
    Access.userWrite.permits l3e = true ∧ Access.userWrite.permits l2e = true
  user : isUser e = true
  write : isWritable e = true ∨ isCow e = true

theorem permits_of_userWrite {e : Nat} (allowed : Access.userWrite.permits e = true) (a : Access) :
    a.permits e = true := by
  simp only [Access.permits, Access.userWrite, Bool.not_true, Bool.false_or, Bool.and_eq_true] at *
  simp [allowed]

namespace UserPage

variable {p : Paging} {r virt e : Nat}

theorem of_mayWrite (small : r < 2 ^ 40) (may : mayWrite p (r * 4096) virt = true) :
    virt < 2 ^ 47 ∧ ∃ e, UserPage p r virt e := by
  simp only [mayWrite, cr3_frame small, read_frame, addr_eq_frame, Bool.and_eq_true,
    Bool.or_eq_true, Bool.not_eq_true', decide_eq_true_eq] at may
  obtain ⟨⟨⟨⟨bound, present₄, open₄⟩, ⟨present₃, small₃⟩, open₃⟩, ⟨present₂, small₂⟩, open₂⟩,
    ⟨present₁, user⟩, write⟩ := may
  exact ⟨bound, _, ⟨_, _, _, ⟨rfl, rfl, rfl, rfl, present₄, present₃, present₂, present₁, small₃,
    small₂⟩, open₄, open₃, open₂⟩, user, write⟩

/-- Such a page translates every access its leaf entry allows. -/
theorem translate (page : UserPage p r virt e) (small : r < 2 ^ 40) (a : Access) :
    p.translate (r * 4096) virt a =
      if a.permits e then .ok (frameOf e * 4096 + virt % 4096) else .error (a.errCode true) := by
  obtain ⟨l4e, l3e, l2e, walk, open₄, open₃, open₂⟩ := page.walk
  rw [walk.translate small, permits_of_userWrite open₄, permits_of_userWrite open₃,
    permits_of_userWrite open₂, Bool.true_and, Bool.true_and, Bool.true_and]

end UserPage

section Stores

variable {boot : Paging} {A : AddressSpaces} {extra : Nat → Nat} {p : Paging} {r virt e : Nat}

section

variable (page : UserPage p r virt e) (inv : Inv boot A ∅ extra p) (member : r ∈ A.roots)
include page inv member

theorem UserPage.view (bound : virt < 2 ^ 47) : A.view r (pageNumber virt) = some e := by
  obtain ⟨l4e, l3e, l2e, walk, -⟩ := page.walk
  exact inv.view_of_walk member (lowerHalf_of_lt bound) walk

/-- Storing a byte in a mapped frame moves no page. -/
theorem UserPage.writeByte (bound : virt < 2 ^ 47) {v d : Nat} (mapped : A.view r v = some d)
    (off b : Nat) : UserPage (p.writeByte (frameOf d * 4096 + off % 4096) b) r virt e := by
  obtain ⟨l4e, l3e, l2e, walk, opened⟩ := page.walk
  obtain ⟨m4e, m3e, m2e, walk', ⟨_, table₃⟩, ⟨_, table₂⟩, table₁⟩ :=
    inv.walk_of_mapped (page.view inv member bound)
  obtain ⟨rfl, rfl, rfl, -⟩ := walk.unique walk'
  have tables : ∀ {t n}, A.own t = some n →
      (p.writeByte (frameOf d * 4096 + off % 4096) b).mem t = p.mem t :=
    inv.writeByte_tables mapped off b
  refine ⟨⟨l4e, l3e, l2e, { walk with l4 := ?_, l3 := ?_, l2 := ?_, l1 := ?_ }, opened⟩, page.user,
    page.write⟩
  · rw [tables (inv.rep.root_own member)]
    exact walk.l4
  · rw [tables table₃]
    exact walk.l3
  · rw [tables table₂]
    exact walk.l2
  · rw [tables table₁]
    exact walk.l1

/-- A store of the kernel to a copy-on-write page stops the system. -/
theorem UserPage.store_cow (bound : virt < 2 ^ 47) (cow : isCow e = true) (attempts b : Nat) :
    store (r * 4096) virt b false (attempts + 1) p = some (.halted, p) := by
  have readonly : isWritable e = false := by
    by_contra writable
    rw [Bool.not_eq_false] at writable
    have clean := inv.acc.clean (page.view inv member bound) writable
    exact absurd (cow.symm.trans clean) (by decide)
  have refused : Access.permits ⟨false, true⟩ e = false := by simp [Access.permits, readonly]
  simp [store, page.translate (inv.root_small member), refused, pageFault]

/-- A store of the kernel to any other page the task may write is done. -/
theorem UserPage.store_private (private' : isCow e = false) (attempts b : Nat) :
    store (r * 4096) virt b false (attempts + 1) p =
      some (.stored, p.writeByte (frameOf e * 4096 + virt % 4096) b) := by
  have writable : isWritable e = true := by simpa [private'] using page.write
  have allowed : Access.permits ⟨false, true⟩ e = true := by simp [Access.permits, writable]
  simp [store, page.translate (inv.root_small member), allowed]

/-- What has been stored can be read. -/
theorem UserPage.userByte_writeByte (bound : virt < 2 ^ 47) (b : UInt8) :
    (p.writeByte (frameOf e * 4096 + virt % 4096) b.toNat).userByte (r * 4096) virt =
      some b.toNat := by
  have page' := page.writeByte inv member bound (page.view inv member bound) virt b.toNat
  have readable : Access.userRead.permits e = true := by
    simp [Access.permits, Access.userRead, page.user]
  simp only [Paging.userByte, page'.translate (inv.root_small member), readable, if_true]
  exact congrArg some (readByte_writeByte p _ (UInt8.toNat_lt b))

end

/-! ## Whole buffers -/

/-- Where no page is copy-on-write, all bytes arrive and nothing else changes. -/
theorem writeUser_private (member : r ∈ A.roots) (attempts : Nat) (bytes : List UInt8) :
    ∀ {virt : Nat} {p : Paging}, Inv boot A ∅ extra p → virt + bytes.length ≤ 2 ^ 47 →
      (∀ i < bytes.length, ∃ e, UserPage p r (virt + i) e ∧ isCow e = false) →
      ∃ p', writeUser (r * 4096) (attempts + 1) virt bytes p = some (.stored, p') ∧
        (∀ virt' < virt, p'.userByte (r * 4096) virt' = p.userByte (r * 4096) virt') ∧
        (∀ i (inside : i < bytes.length),
          p'.userByte (r * 4096) (virt + i) = some (bytes.get ⟨i, inside⟩).toNat) ∧
        Inv.Unseen A r p p' := by
  induction bytes with
  | nil =>
    intro virt p inv _ _
    exact ⟨p, rfl, fun _ _ => rfl, fun i inside => absurd inside (Nat.not_lt_zero i),
      fun _ _ _ _ => rfl⟩
  | cons b rest ih =>
    intro virt p inv bound pages
    rw [List.length_cons] at bound pages
    obtain ⟨e, page, private'⟩ := pages 0 (Nat.succ_pos _)
    rw [Nat.add_zero] at page
    have here : virt < 2 ^ 47 := by omega
    have mapped := page.view inv member here
    have writable : isWritable e = true := by simpa [private'] using page.write
    have plain : frameOf e ∉ (∅ : Set Nat) := Set.notMem_empty _
    have inv₁ : Inv boot A ∅ extra
        (p.writeByte (frameOf e * 4096 + virt % 4096) b.toNat) := inv.writeByte mapped
    have hidden : Inv.Unseen A r p (p.writeByte (frameOf e * 4096 + virt % 4096) b.toNat) :=
      inv.unseen_writeByte mapped writable plain
    have pages₁ : ∀ i < rest.length, ∃ e',
        UserPage (p.writeByte (frameOf e * 4096 + virt % 4096) b.toNat) r (virt + 1 + i) e' ∧
          isCow e' = false := by
      intro i inside
      obtain ⟨e', page', private₁⟩ := pages (i + 1) (by omega)
      have shift : virt + (i + 1) = virt + 1 + i := by omega
      rw [shift] at page'
      exact ⟨e', page'.writeByte inv member (by omega) mapped virt b.toNat, private₁⟩
    obtain ⟨p', done, before, arrived, unseen⟩ := ih inv₁ (by omega) pages₁
    refine ⟨p', ?_, ?_, ?_, ?_⟩
    · simp only [writeUser, page.store_private inv member private', done]
    · intro virt' below
      rw [before virt' (by omega)]
      exact inv.userByte_writeByte_of_ne member mapped plain (UInt8.toNat_lt b) here (by omega)
        (by omega)
    · intro i inside
      cases i with
      | zero =>
        rw [Nat.add_zero, before virt (by omega)]
        exact page.userByte_writeByte inv member here b
      | succ i =>
        have shift : virt + (i + 1) = virt + 1 + i := by omega
        rw [shift]
        exact arrived i (by simpa using inside)
    · intro r' member' other virt'
      rw [unseen r' member' other virt', hidden r' member' other virt']

/-- The first copy-on-write page stops the system. -/
theorem writeUser_cow (member : r ∈ A.roots) (attempts : Nat) (bytes : List UInt8) :
    ∀ {virt : Nat} {p : Paging}, Inv boot A ∅ extra p → virt + bytes.length ≤ 2 ^ 47 →
      (∀ i < bytes.length, ∃ e, UserPage p r (virt + i) e) →
      (∃ i < bytes.length, ∃ e, UserPage p r (virt + i) e ∧ isCow e = true) →
      ∃ p', writeUser (r * 4096) (attempts + 1) virt bytes p = some (.halted, p') := by
  induction bytes with
  | nil =>
    rintro virt p - - - ⟨i, inside, -⟩
    exact absurd inside (Nat.not_lt_zero i)
  | cons b rest ih =>
    intro virt p inv bound pages stop
    rw [List.length_cons] at bound pages stop
    obtain ⟨e, page⟩ := pages 0 (Nat.succ_pos _)
    rw [Nat.add_zero] at page
    have here : virt < 2 ^ 47 := by omega
    by_cases cow : isCow e = true
    · exact ⟨p, by simp only [writeUser, page.store_cow inv member here cow]⟩
    · rw [Bool.not_eq_true] at cow
      have mapped := page.view inv member here
      have moved : ∀ {i d}, i + 1 < rest.length + 1 → UserPage p r (virt + (i + 1)) d →
          UserPage (p.writeByte (frameOf e * 4096 + virt % 4096) b.toNat) r (virt + 1 + i) d := by
        intro i d inside page'
        have shift : virt + (i + 1) = virt + 1 + i := by omega
        rw [shift] at page'
        exact page'.writeByte inv member (by omega) mapped virt b.toNat
      have stop₁ : ∃ i < rest.length, ∃ d,
          UserPage (p.writeByte (frameOf e * 4096 + virt % 4096) b.toNat) r (virt + 1 + i) d ∧
            isCow d = true := by
        obtain ⟨i, inside, d, page', cow'⟩ := stop
        cases i with
        | zero =>
          rw [Nat.add_zero] at page'
          rw [Option.some.inj (mapped.symm.trans (page'.view inv member here)), cow'] at cow
          cases cow
        | succ i => exact ⟨i, by omega, d, moved inside page', cow'⟩
      have pages₁ : ∀ i < rest.length, ∃ d,
          UserPage (p.writeByte (frameOf e * 4096 + virt % 4096) b.toNat) r (virt + 1 + i) d := by
        intro i inside
        obtain ⟨d, page'⟩ := pages (i + 1) (by omega)
        exact ⟨d, moved (by omega) page'⟩
      obtain ⟨p', done⟩ := ih (inv.writeByte mapped) (by omega) pages₁ stop₁
      exact ⟨p', by simp only [writeUser, page.store_private inv member cow, done]⟩

/-- The mark of a page the task may write, read from the tables. -/
theorem UserPage.cowPage (page : UserPage p r virt e) (inv : Inv boot A ∅ extra p)
    (member : r ∈ A.roots) (bound : virt < 2 ^ 47) : cowPage p r virt = isCow e := by
  rw [Sys.cowPage, inv.rep.leafAt_eq member, page.view inv member bound]

end Stores

/-- The bytes have arrived in the buffer at `ptrAddr`, where the caller can read
them, and no other live address space sees a change. -/
def Delivered (s : System) (r ptrAddr : Nat) (bytes : List UInt8) (p' : Paging) : Prop :=
  (∀ i (inside : i < bytes.length),
    p'.userByte (r * 4096) (ptrAddr + i) = some (bytes.get ⟨i, inside⟩).toNat) ∧
  ∀ r' ∈ s.live, r' ≠ r → ∀ virt,
    p'.userByte (r' * 4096) virt = s.paging.userByte (r' * 4096) virt

/-- **Stores into user buffers.** In every state reached from boot by operations
that map and unmap in the lower half only, bytes for a valid buffer in pages that
the task may write are delivered if and only if none of these pages is
copy-on-write. -/
theorem copyOut_iff {boot : Paging} (start : Boot boot) {ops : List Op} {s : System}
    (low : Along step (fun _ op => InLowerHalf op) ⟨boot, ∅⟩ ops)
    (ran : run step ⟨boot, ∅⟩ ops = some s) {r : Nat} (live : r ∈ s.live)
    {ptrAddr len attempts : Nat} (positive : 0 < attempts) {bytes : List UInt8}
    (valid : validateUserRange ptrAddr len = .ok ()) (fits : bytes.length ≤ len)
    (may : ∀ i < bytes.length, mayWrite s.paging (r * 4096) (ptrAddr + i) = true) :
    (∃ p', copyOut (r * 4096) attempts ptrAddr len bytes s.paging = some (.ok .stored, p') ∧
        Delivered s r ptrAddr bytes p') ↔
      ∀ i < bytes.length, cowPage s.paging r (ptrAddr + i) = false := by
  obtain ⟨A, extra, inv, sub⟩ := wellFormed_of_run start low ran
  have member := sub live
  obtain ⟨attempts, rfl⟩ : ∃ n, attempts = n + 1 := Nat.exists_eq_add_one.mpr positive
  have pages : ∀ i < bytes.length, ptrAddr + i < 2 ^ 47 ∧
      ∃ e, UserPage s.paging r (ptrAddr + i) e :=
    fun i inside => UserPage.of_mayWrite (inv.root_small member) (may i inside)
  have bound : bytes = [] ∨ ptrAddr + bytes.length ≤ 2 ^ 47 := by
    rcases bytes.eq_nil_or_concat with empty | ⟨init, last, rfl⟩
    · exact .inl empty
    · have tail := (pages init.length (by simp)).1
      simp only [List.length_concat]
      exact .inr (by omega)
  simp only [copyOut, valid]
  constructor
  · rintro ⟨p', done, -⟩ i inside
    obtain ⟨here, e, page⟩ := pages i inside
    rw [page.cowPage inv member here]
    by_contra cow
    rw [Bool.not_eq_false] at cow
    have room : ptrAddr + bytes.length ≤ 2 ^ 47 := by
      refine bound.resolve_left ?_
      rintro rfl
      exact absurd inside (Nat.not_lt_zero i)
    obtain ⟨p₁, halted⟩ := writeUser_cow member attempts bytes inv room
      (fun j inside' => (pages j inside').2) ⟨i, inside, e, page, cow⟩
    rw [halted] at done
    cases done
  · intro clean
    rcases bound with rfl | room
    · refine ⟨s.paging, rfl, ?_, fun _ _ _ _ => rfl⟩
      intro i inside
      exact absurd inside (Nat.not_lt_zero i)
    · have private' : ∀ i < bytes.length, ∃ e, UserPage s.paging r (ptrAddr + i) e ∧
          isCow e = false := by
        intro i inside
        obtain ⟨here, e, page⟩ := pages i inside
        exact ⟨e, page, (page.cowPage inv member here).symm.trans (clean i inside)⟩
      obtain ⟨p', done, -, arrived, unseen⟩ :=
        writeUser_private member attempts bytes inv room private'
      refine ⟨p', by rw [done]; rfl, arrived, ?_⟩
      intro r' live' other virt
      exact unseen r' (sub live') other virt

/-- A page shared by a fork, after the parent has written to it again. -/
def forkAndWrite : List Op :=
  [.create, .map 8192 0x400000 1 true false, .fork 8192 (0x700000, 0x800000),
    .store 8192 0x400000 1]

theorem copyOut_iff_forkAndWrite :
    ∃ s p', run step ⟨smallBoot, ∅⟩ forkAndWrite = some s ∧
      copyOut (8192 * 4096) 1 0x400010 2 [7, 8] s.paging = some (.ok .stored, p') ∧
      Delivered s 8192 0x400010 [7, 8] p' := by
  have ends : (run step ⟨smallBoot, ∅⟩ forkAndWrite).map (fun s => decide (8192 ∈ s.live ∧
      ∀ i < 2, mayWrite s.paging (8192 * 4096) (0x400010 + i) = true ∧
        cowPage s.paging 8192 (0x400010 + i) = false)) = some true := by decide +kernel
  obtain ⟨s, ran, facts⟩ := Option.map_eq_some_iff.mp ends
  obtain ⟨live, pages⟩ := of_decide_eq_true facts
  have may : ∀ i < [7, 8].length, mayWrite s.paging (8192 * 4096) (0x400010 + i) = true :=
    fun i inside => (pages i inside).1
  have clean : ∀ i < [7, 8].length, cowPage s.paging 8192 (0x400010 + i) = false :=
    fun i inside => (pages i inside).2
  have delivered : ∃ p', copyOut (8192 * 4096) 1 0x400010 2 [7, 8] s.paging =
      some (.ok .stored, p') ∧ Delivered s 8192 0x400010 [7, 8] p' :=
    (copyOut_iff smallBoot_boot (by decide +kernel) ran live (by decide) rfl (by decide) may).mpr
      clean
  obtain ⟨p', done⟩ := delivered
  exact ⟨s, p', ran, done⟩

/-- A system call that returns one byte to a page shared by a fork stops the
system. -/
theorem copyOut_halts :
    ∃ s, run step ⟨smallBoot, ∅⟩
        [.create, .map 8192 0x400000 1 true false, .fork 8192 (0x700000, 0x800000)] = some s ∧
      8192 ∈ s.live ∧ validateUserRange 0x400000 1 = .ok () ∧
      mayWrite s.paging (8192 * 4096) 0x400000 = true ∧
      (copyOut (8192 * 4096) 1 0x400000 1 [7] s.paging).map (fun r => r.1.toOption) =
        some (some .halted) := by
  have ends : (run step ⟨smallBoot, ∅⟩
      [.create, .map 8192 0x400000 1 true false, .fork 8192 (0x700000, 0x800000)]).map
        (fun s => decide (8192 ∈ s.live ∧ mayWrite s.paging (8192 * 4096) 0x400000 = true ∧
          (copyOut (8192 * 4096) 1 0x400000 1 [7] s.paging).map (fun r => r.1.toOption) =
            some (some .halted))) = some true := by decide +kernel
  obtain ⟨s, ran, facts⟩ := Option.map_eq_some_iff.mp ends
  obtain ⟨live, may, halted⟩ := of_decide_eq_true facts
  exact ⟨s, ran, live, rfl, may, halted⟩

end OxideOS.Sys
