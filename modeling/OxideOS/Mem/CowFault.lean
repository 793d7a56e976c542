import OxideOS.Mem.Translation

/-!
# Copy-on-write faults and user stores

`tryResolveCowFault_spec`: the resolver either changes nothing or gives the
faulting page, and no other, a writable entry with the same content. From it,
`store_spec`: a user store ends after at most two attempts, either refused
without effect or done, and then no byte that another address space can read has
changed (`unseen_resolved`, `unseen_writeByte`).
-/

set_option autoImplicit false

namespace OxideOS.Mem

open Lib PageTableFlags PageTableEntry Function Paging

/-- From `p` to `p'` the copy-on-write entry `e` of one page has become the
writable entry `e'` with the same content. -/
structure Resolved (A : AddressSpaces) (r v : Nat) (p : Paging) (e e' : Nat) (p' : Paging) :
    Prop where
  mapped : A.view r v = some e
  cow : isCow e = true
  present : isPresent e' = true
  writable : isWritable e' = true
  private' : isCow e' = false
  user : isUser e' = isUser e
  entry : ∃ f < 2 ^ 40, e' = withFlags (f * 4096) (asWritableNoCow (flags e))
  content : p'.mem (frameOf e') = p.mem (frameOf e)
  tables : ∀ {t n}, A.own t = some n → n.root ≠ r ∨ n.level ≠ 1 → p'.mem t = p.mem t
  data : ∀ {f}, p.frameAllocator.bitmap f = true → A.own f = none → p'.mem f = p.mem f

namespace Inv

variable {boot : Paging} {A : AddressSpaces} {shm : Set Nat} {extra : Nat → Nat} {p : Paging}
variable {r virt : Nat}

theorem mapped_used (inv : Inv boot A shm extra p) {v e : Nat} (mapped : A.view r v = some e) :
    p.frameAllocator.bitmap (frameOf e) = true := by
  obtain ⟨pool, data⟩ := inv.acc.leaf mapped
  refine (inv.acc.used pool).mpr ?_
  by_cases shared : frameOf e ∈ shm
  · exact (inv.acc.shared shared).2.2
  · exact Nat.lt_of_lt_of_le (inv.acc.refs_pos mapped) (inv.acc.refs_le pool shared data)

/-- A sole owner gets write access in place. -/
theorem resolve_in_place (inv : Inv boot A shm extra p) {l4e l3e l2e e : Nat}
    (mapped : A.view r (pageNumber virt) = some e) (walk : Walk p r virt l4e l3e l2e e)
    (table : A.own (frameOf l2e) = some ⟨1, r, pageNumber virt / 512⟩) (cow : isCow e = true)
    (single : p.frameAllocator.getRefcount (frameOf e * 4096) ≤ 1) :
    let e' := withFlags (frameOf e * 4096) (asWritableNoCow (flags e))
    let p' := p.write (frameOf l2e * 4096) (l1Index virt) e'
    frameOf e' = frameOf e ∧ Inv boot (A.setView r (pageNumber virt) (some e')) shm extra p' ∧
      Resolved A r (pageNumber virt) p e e' p' := by
  obtain ⟨pool, data⟩ := inv.acc.leaf mapped
  have frame : frameOf (withFlags (frameOf e * 4096) (asWritableNoCow (flags e))) = frameOf e :=
    frameOf_withFlags pool.lt_two_pow _
  have present : isPresent (withFlags (frameOf e * 4096) (asWritableNoCow (flags e))) = true := by
    simp [walk.present₁]
  have written := inv.rep.setLeaf table (l1Index_lt virt)
    (withFlags (frameOf e * 4096) (asWritableNoCow (flags e)))
  rw [if_pos present, l1Index_eq, Nat.div_add_mod'] at written
  refine ⟨frame, ⟨inv.start, ?_, ?_, inv.l4⟩, ?_⟩
  · rw [write_mem_frame, l1Index_eq]
    exact written
  · refine inv.acc.setFlags mapped frame (fun _ => by simp) ?_
    intro _ plain
    rw [PhysicalFrameAllocator.getRefcount_frame pool.lt] at single
    have counted := inv.acc.refs_le pool plain data
    have positive := inv.acc.refs_pos mapped
    omega
  · refine ⟨mapped, cow, present, by simp, by simp, by simp, ⟨_, pool.lt_two_pow, rfl⟩, ?_, ?_, ?_⟩
    · rw [frame, write_mem_frame, update_of_ne]
      intro same
      rw [same, table] at data
      cases data
    · intro t n owned other
      rw [write_mem_frame, update_of_ne]
      rintro rfl
      rw [table] at owned
      cases owned
      simp at other
    · intro f used notTable
      rw [write_mem_frame, update_of_ne]
      rintro rfl
      rw [table] at notTable
      cases notTable

/-- A sharer gets a private copy in a pending frame. -/
theorem resolve_by_copy {f : Nat} (inv : Inv boot A shm (update extra f 1) p)
    (pending : Accounting.Pending boot A shm p.frameAllocator f) {l4e l3e l2e e : Nat}
    (mapped : A.view r (pageNumber virt) = some e) (walk : Walk p r virt l4e l3e l2e e)
    (table : A.own (frameOf l2e) = some ⟨1, r, pageNumber virt / 512⟩)
    (shared : 1 < p.frameAllocator.refcount (frameOf e)) :
    let e' := withFlags (f * 4096) (asWritableNoCow (flags e))
    Inv boot (A.setView r (pageNumber virt) (some e')) shm extra
      (((p.copy (frameOf e * 4096) (f * 4096)).write (frameOf l2e * 4096) (l1Index virt)
        e').freeFrame (frameOf e * 4096)) := by
  intro e'
  obtain ⟨pool, data⟩ := inv.acc.leaf mapped
  have other : frameOf e ≠ f := pending.unmapped mapped
  have frame : frameOf e' = f := frameOf_withFlags pending.pool.lt_two_pow _
  have present : isPresent e' = true := by simp [e', walk.present₁]
  refine ⟨inv.start, ?_, ?_, inv.l4⟩
  · have copied := inv.rep.setData pending.pool pending.data (p.mem (frameOf e))
    have written := copied.setLeaf table (l1Index_lt virt) e'
    rw [if_pos present, l1Index_eq, Nat.div_add_mod'] at written
    rw [freeFrame_mem, write_mem_frame, copy_mem_frame, l1Index_eq]
    exact written
  · have dropped := inv.acc.unmapLeaf inv.start mapped fun _ => shared
    have count : (p.frameAllocator.freeFrame (frameOf e * 4096)).refcount f = 1 := by
      rw [PhysicalFrameAllocator.freeFrame_refcount pool.lt, update_of_ne other.symm]
      exact pending.one
    have pending' : Accounting.Pending boot (A.setView r (pageNumber virt) none) shm
        (p.frameAllocator.freeFrame (frameOf e * 4096)) f := by
      refine ⟨pending.pool, pending.data, pending.plain, count, ?_⟩
      intro r' v' d present'
      rcases AddressSpaces.view_setView_cases present' with ⟨-, -, absurd⟩ | ⟨-, old⟩
      · cases absurd
      · exact pending.unmapped old
    obtain ⟨member, bound⟩ := inv.acc.bound mapped
    have done := dropped.mapFresh pending' member bound (AddressSpaces.setView_self _ _ _ _) frame
      fun _ => by simp [e']
    rw [AddressSpaces.setView_setView] at done
    exact done

/-- **Resolving a copy-on-write fault.** Either nothing happens, because the page
is not copy-on-write or no frame is left, or the page alone gets a writable entry
with the same content. -/
theorem tryResolveCowFault_spec (inv : Inv boot A shm extra p) (member : r ∈ A.roots)
    (low : LowerHalf virt) :
    (p.tryResolveCowFault (r * 4096) virt = (false, p) ∧
      ((∀ e, A.view r (pageNumber virt) = some e → isCow e = false) ∨
        p.frameAllocator.allocateFrame = none)) ∨
    ∃ e e' p', p.tryResolveCowFault (r * 4096) virt = (true, p') ∧
      Resolved A r (pageNumber virt) p e e' p' ∧
      Inv boot (A.setView r (pageNumber virt) (some e')) shm extra p' := by
  have small := inv.root_small member
  cases view : A.view r (pageNumber virt) with
  | none =>
    left
    refine ⟨(inv.stops_of_unmapped member low view).tryResolveCowFault small, .inl ?_⟩
    intro e absurd
    cases absurd
  | some e =>
    obtain ⟨l4e, l3e, l2e, walk, -, -, table⟩ := inv.walk_of_mapped view
    obtain ⟨pool, data⟩ := inv.acc.leaf view
    rw [walk.tryResolveCowFault small]
    by_cases cow : isCow e = true
    · simp only [cow, Bool.not_true, Bool.false_eq_true, if_false]
      by_cases single : p.frameAllocator.getRefcount (frameOf e * 4096) ≤ 1
      · obtain ⟨-, after, resolved⟩ := inv.resolve_in_place view walk table cow single
        rw [if_pos single]
        exact .inr ⟨e, _, _, rfl, resolved, after⟩
      · rw [if_neg single]
        cases result : p.frameAllocator.allocateFrame with
        | none => exact .inl ⟨rfl, .inr rfl⟩
        | some pair =>
          obtain ⟨a, fa⟩ := pair
          obtain ⟨f, rfl, free, same, pending, acc⟩ := inv.acc.allocate inv.start result
          have unused : frameOf e ≠ f := pending.unmapped view
          have shared : 1 < fa.refcount (frameOf e) := by
            rw [PhysicalFrameAllocator.getRefcount_frame pool.lt] at single
            rw [(same _ unused).1]
            omega
          have inv' : Inv boot A shm (update extra f 1)
              { p with frameAllocator := fa } := ⟨inv.start, inv.rep, acc, inv.l4⟩
          have walk' : Walk { p with frameAllocator := fa } r virt l4e l3e l2e e :=
            { walk with }
          have after := inv'.resolve_by_copy pending view walk' table shared
          refine .inr ⟨e, withFlags (f * 4096) (asWritableNoCow (flags e)), _, rfl, ?_, after⟩
          have frame : frameOf (withFlags (f * 4096) (asWritableNoCow (flags e))) = f :=
            frameOf_withFlags pending.pool.lt_two_pow _
          have notTable : ∀ {t n}, A.own t = some n → t ≠ f := by
            rintro t n owned rfl
            rw [pending.data] at owned
            cases owned
          refine ⟨view, cow, by simp [walk.present₁], by simp, by simp, by simp,
            ⟨f, pending.pool.lt_two_pow, rfl⟩, ?_, ?_, ?_⟩
          · rw [frame, freeFrame_mem, write_mem_frame, copy_mem_frame,
              update_of_ne (notTable table).symm, update_self]
          · intro t n owned elsewhere
            rw [freeFrame_mem, write_mem_frame, copy_mem_frame,
              update_of_ne, update_of_ne (notTable owned)]
            rintro rfl
            rw [table] at owned
            cases owned
            simp at elsewhere
          · intro g used isData
            have inUse : g ≠ f := by
              rintro rfl
              rw [free] at used
              cases used
            rw [freeFrame_mem, write_mem_frame, copy_mem_frame,
              update_of_ne, update_of_ne inUse]
            rintro rfl
            rw [table] at isData
            cases isData
    · rw [Bool.not_eq_true] at cow
      simp only [cow, Bool.not_false, if_true]
      refine .inl ⟨trivial, .inl ?_⟩
      rintro d ⟨⟩
      exact cow

end Inv

/-! ## Bytes that user code can read -/

namespace Paging

theorem readByte_congr {p p' : Paging} {phys : Nat}
    (same : p'.mem (phys / 4096) = p.mem (phys / 4096)) : p'.readByte phys = p.readByte phys := by
  simp only [readByte, read, same]

theorem frame_of_offset (f virt : Nat) : (f * 4096 + virt % 4096) / 4096 = f := by omega

theorem writeByte_mem_of_ne (p : Paging) {phys f : Nat} (b : Nat) (other : f ≠ phys / 4096) :
    (p.writeByte phys b).mem f = p.mem f := by
  simp only [writeByte, write]
  exact update_of_ne other _ _

theorem readByte_writeByte_of_ne (p : Paging) {phys phys' b : Nat} (byte : b < 256)
    (other : phys' ≠ phys) : (p.writeByte phys b).readByte phys' = p.readByte phys' := by
  simp only [readByte, writeByte, write, read]
  by_cases frame : phys' / 4096 = phys / 4096
  · rw [frame, update_self]
    by_cases word : phys' % 4096 / 8 = phys % 4096 / 8
    · rw [word, update_self]
      refine getByte_setByte_of_ne byte ?_
      omega
    · rw [update_of_ne word]
  · rw [update_of_ne frame]

theorem readByte_writeByte (p : Paging) (phys : Nat) {b : Nat} (byte : b < 256) :
    (p.writeByte phys b).readByte phys = b := by
  simp only [readByte, writeByte, write, read, update_self]
  exact getByte_setByte_self byte

end Paging

namespace Inv

variable {boot : Paging} {A A' : AddressSpaces} {shm shm' : Set Nat} {extra extra' : Nat → Nat}
variable {p p' : Paging} {r virt : Nat}

/-- What user code reads depends only on the tables of its address space and on
the frames mapped there. -/
theorem userByte_congr (inv : Inv boot A shm extra p) (inv' : Inv boot A' shm' extra' p')
    (member : r ∈ A.roots) (member' : r ∈ A'.roots)
    (tables : ∀ {t n}, A.own t = some n → n.root = r → p'.mem t = p.mem t)
    (data : ∀ {v e}, A.view r v = some e → p'.mem (frameOf e) = p.mem (frameOf e)) (virt : Nat) :
    p'.userByte (r * 4096) virt = p.userByte (r * 4096) virt := by
  by_cases low : LowerHalf virt
  · simp only [Paging.userByte, inv.translate_congr member low tables]
    cases result : p.translate (r * 4096) virt .userRead with
    | error _ => rfl
    | ok phys =>
      obtain ⟨e, mapped, rfl, -⟩ := inv.translate_ok member low result
      refine congrArg some (readByte_congr ?_)
      rw [frame_of_offset]
      exact data mapped
  · obtain ⟨_, refused⟩ := inv.translate_upper_user member low (rfl : Access.userRead.user = true)
    obtain ⟨_, refused'⟩ :=
      inv'.translate_upper_user member' low (rfl : Access.userRead.user = true)
    simp only [Paging.userByte, refused, refused']

/-- Writing to a mapped frame keeps the state well formed. -/
theorem writeByte (inv : Inv boot A shm extra p) {v e off b : Nat} (mapped : A.view r v = some e) :
    Inv boot A shm extra (p.writeByte (frameOf e * 4096 + off % 4096) b) := by
  obtain ⟨pool, data⟩ := inv.acc.leaf mapped
  refine ⟨inv.start, ?_, inv.acc, inv.l4⟩
  simp only [Paging.writeByte, Paging.write, frame_of_offset]
  exact inv.rep.setData pool data _

theorem writeByte_tables (inv : Inv boot A shm extra p) {v e : Nat} (mapped : A.view r v = some e)
    (off b : Nat) {t : Nat} {n : Node} (owned : A.own t = some n) :
    (p.writeByte (frameOf e * 4096 + off % 4096) b).mem t = p.mem t := by
  refine writeByte_mem_of_ne _ _ ?_
  rw [frame_of_offset]
  rintro rfl
  rw [(inv.acc.leaf mapped).2] at owned
  cases owned

/-- A write to a private page changes no other byte of its own address space. -/
theorem userByte_writeByte_of_ne (inv : Inv boot A shm extra p) {e b virt' : Nat}
    (member : r ∈ A.roots) (mapped : A.view r (pageNumber virt) = some e) (plain : frameOf e ∉ shm)
    (byte : b < 256) (bound : virt < 2 ^ 47) (bound' : virt' < 2 ^ 47) (other : virt' ≠ virt) :
    (p.writeByte (frameOf e * 4096 + virt % 4096) b).userByte (r * 4096) virt' =
      p.userByte (r * 4096) virt' := by
  have low : LowerHalf virt' := by
    rw [lowerHalf_iff, pageNumber, userPages]
    omega
  have tables : ∀ {t n}, A.own t = some n → n.root = r →
      (p.writeByte (frameOf e * 4096 + virt % 4096) b).mem t = p.mem t :=
    fun owned _ => inv.writeByte_tables mapped virt b owned
  simp only [Paging.userByte, inv.translate_congr member low tables]
  cases result : p.translate (r * 4096) virt' .userRead with
  | error _ => rfl
  | ok phys =>
    obtain ⟨e', mapped', rfl, -⟩ := inv.translate_ok member low result
    refine congrArg some (readByte_writeByte_of_ne p byte ?_)
    intro same
    have frame : frameOf e = frameOf e' := by omega
    have page := inv.acc.home mapped mapped' frame plain
    rw [pageNumber, pageNumber] at page
    omega

/-- No other address space reads a different byte in `p'` than in `p`. -/
def Unseen (A : AddressSpaces) (r : Nat) (p p' : Paging) : Prop :=
  ∀ r' ∈ A.roots, r' ≠ r → ∀ virt, p'.userByte (r' * 4096) virt = p.userByte (r' * 4096) virt

/-- A write to a private writable page is invisible to the other address spaces. -/
theorem unseen_writeByte (inv : Inv boot A shm extra p) {v e off b : Nat}
    (mapped : A.view r v = some e) (writable : isWritable e = true) (plain : frameOf e ∉ shm) :
    Unseen A r p (p.writeByte (frameOf e * 4096 + off % 4096) b) := by
  intro r' member other virt
  refine inv.userByte_congr (inv.writeByte mapped) member member ?_ ?_ virt
  · intro t n owned _
    exact inv.writeByte_tables mapped off b owned
  · intro v' e' mapped'
    refine writeByte_mem_of_ne _ _ ?_
    rw [frame_of_offset]
    intro same
    have single := inv.acc.writable mapped writable plain
    exact other (inv.acc.sole_entry mapped mapped' same.symm plain single).1.symm

/-- Resolving a fault is invisible to the other address spaces. -/
theorem unseen_resolved (inv : Inv boot A shm extra p) (inv' : Inv boot A' shm extra p')
    (roots : A'.roots = A.roots) {v e e' : Nat} (resolved : Resolved A r v p e e' p') :
    Unseen A r p p' := by
  intro r' member other virt
  refine inv.userByte_congr inv' member (roots.symm ▸ member) ?_ ?_ virt
  · intro t n owned root
    exact resolved.tables owned (.inl (root ▸ other))
  · intro v' d mapped
    exact resolved.data (inv.mapped_used mapped) (inv.acc.leaf mapped).2

/-! ## User stores -/

/-- A store that is let through hits the frame of a writable page. -/
theorem store_through (inv : Inv boot A shm extra p) (member : r ∈ A.roots) {user : Bool}
    {phys b : Nat} (low : LowerHalf virt)
    (through : p.translate (r * 4096) virt ⟨user, true⟩ = .ok phys) :
    Inv boot A shm extra (p.writeByte phys b) ∧
      ((∀ e, A.view r (pageNumber virt) = some e → frameOf e ∉ shm) →
        Unseen A r p (p.writeByte phys b)) := by
  obtain ⟨e, mapped, rfl, allowed⟩ := inv.translate_ok member low through
  refine ⟨inv.writeByte mapped, ?_⟩
  intro plain
  have writable : isWritable e = true := by
    simp only [Access.permits, Bool.and_eq_true] at allowed
    simpa using allowed.2
  exact inv.unseen_writeByte mapped writable (plain e mapped)

/-- **User stores.** A user store ends within two attempts, either done or with
the task killed. At most the copy-on-write page that was stored to is remapped,
and no other address space sees a change. -/
theorem userStore_spec (inv : Inv boot A shm extra p) (member : r ∈ A.roots) (virt b : Nat) :
    ∃ res p' A', Paging.store (r * 4096) virt b true 2 p = some (res, p') ∧
      Inv boot A' shm extra p' ∧
      (A' = A ∨ ∃ e f, A.view r (pageNumber virt) = some e ∧ isCow e = true ∧ f < 2 ^ 40 ∧
        A' = A.setView r (pageNumber virt)
          (some (withFlags (f * 4096) (asWritableNoCow (flags e))))) ∧
      ((∀ e, A'.view r (pageNumber virt) = some e → frameOf e ∉ shm) → Unseen A r p p') := by
  have quiet : Unseen A r p p := fun _ _ _ _ => rfl
  by_cases low : LowerHalf virt
  · cases first : p.translate (r * 4096) virt ⟨true, true⟩ with
    | ok phys =>
      obtain ⟨after, unseen⟩ := inv.store_through (b := b) member low first
      exact ⟨.stored, _, A, by simp only [Paging.store, first], after, .inl rfl, unseen⟩
    | error code =>
      by_cases write : code &&& 3 = 3
      · rcases inv.tryResolveCowFault_spec member low with
          ⟨refused, -⟩ | ⟨e, e', p₁, done, resolved, inv₁⟩
        · refine ⟨.killed, p, A, ?_, inv, .inl rfl, fun _ => quiet⟩
          simp [Paging.store, first, Paging.pageFault, write, refused]
        · have member₁ : r ∈ (A.setView r (pageNumber virt) (some e')).roots := member
          have hidden := inv.unseen_resolved inv₁ rfl resolved
          obtain ⟨f, small, form⟩ := resolved.entry
          have moved : A.setView r (pageNumber virt) (some e') = A ∨
              ∃ d f, A.view r (pageNumber virt) = some d ∧ isCow d = true ∧ f < 2 ^ 40 ∧
                A.setView r (pageNumber virt) (some e') = A.setView r (pageNumber virt)
                  (some (withFlags (f * 4096) (asWritableNoCow (flags d)))) :=
            .inr ⟨e, f, resolved.mapped, resolved.cow, small, by rw [form]⟩
          cases second : p₁.translate (r * 4096) virt ⟨true, true⟩ with
          | ok phys =>
            obtain ⟨after, unseen⟩ := inv₁.store_through (b := b) member₁ low second
            refine ⟨.stored, _, _, ?_, after, moved, ?_⟩
            · simp [Paging.store, first, Paging.pageFault, write, done, second]
            · intro plain r' member' other virt'
              rw [unseen plain r' member' other virt', hidden r' member' other]
          | error code' =>
            refine ⟨.killed, p₁, _, ?_, inv₁, moved, fun _ => hidden⟩
            rcases inv₁.tryResolveCowFault_spec member₁ low with
              ⟨refused, -⟩ | ⟨d, d', p₂, -, again, -⟩
            · by_cases write' : code' &&& 3 = 3
              · simp [Paging.store, first, Paging.pageFault, write, done, second, write',
                  refused]
              · simp [Paging.store, first, Paging.pageFault, write, done, second, write']
            · have entry := again.mapped
              rw [AddressSpaces.setView_self] at entry
              cases entry
              exact absurd again.cow (by simp [resolved.private'])
      · refine ⟨.killed, p, A, ?_, inv, .inl rfl, fun _ => quiet⟩
        simp [Paging.store, first, Paging.pageFault, write]
  · obtain ⟨code, refused⟩ := inv.translate_upper_user member low
      (a := ⟨true, true⟩) rfl
    refine ⟨.killed, p, A, ?_, inv, .inl rfl, fun _ => quiet⟩
    have untouched := inv.tryResolveCowFault_upper member low
    by_cases write : code &&& 3 = 3
    · simp [Paging.store, refused, Paging.pageFault, write, untouched]
    · simp [Paging.store, refused, Paging.pageFault, write]

/-! ## Copies of the kernel -/

/-- A copy of the kernel that is let through moves no page. -/
theorem writeUser_stored (member : r ∈ A.roots) {bytes : List UInt8} :
    ∀ {virt : Nat} {p p' : Paging}, Inv boot A shm extra p → virt + bytes.length ≤ 2 ^ 47 →
      Paging.writeUser (r * 4096) 1 virt bytes p = some (.stored, p') →
      Inv boot A shm extra p' := by
  induction bytes with
  | nil =>
    intro virt p p' inv _ done
    cases done
    exact inv
  | cons b rest ih =>
    intro virt p p' inv bound done
    rw [List.length_cons] at bound
    have low : LowerHalf virt := lowerHalf_of_lt (by omega)
    cases through : p.translate (r * 4096) virt ⟨false, true⟩ with
    | ok phys =>
      have after : Inv boot A shm extra (p.writeByte phys b.toNat) :=
        (inv.store_through member low through).1
      simp only [Paging.writeUser, Paging.store, through] at done
      exact ih after (by omega) done
    | error code =>
      simp [Paging.writeUser, Paging.store, through, Paging.pageFault] at done

/-- **Copies of the kernel** into the lower half change the content of mapped
frames only. -/
theorem copyToRegionIn_spec (inv : Inv boot A shm extra p) (member : r ∈ A.roots)
    {bytes : List UInt8} (bound : virt + bytes.length ≤ 2 ^ 47)
    (done : p.copyToRegionIn (r * 4096) virt bytes = some p') : Inv boot A shm extra p' := by
  unfold Paging.copyToRegionIn at done
  split at done
  · split at done
    · next stored =>
        cases done
        exact writeUser_stored member inv bound stored
    · cases done
  · cases done

end Inv

end OxideOS.Mem
