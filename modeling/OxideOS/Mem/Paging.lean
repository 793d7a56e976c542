import OxideOS.Lib.Prog
import OxideOS.Mem.Entry
import OxideOS.Mem.FrameAllocator

/-!
# The paging allocator

`Paging` is the state the paging code works on: the frame allocator, the words
of physical memory (reached through the higher-half window, so that every frame
is readable and writable whatever CR3 holds) and the physical address of the
kernel's own L4 table. The functions below are those of the paging allocator on
user address spaces, from `createUserPageTable` to `tryResolveCowFault`. They
are taken after initialisation, when the allocator is initialised and the
page-table manager exists.

Table walks use `l4Index`, …, `l1Index`. A procedure that can fail is a
`Lib.Prog`: what it has done before the failure stays done. The nested loops of
teardown and fork, one per table level, are written as one recursion on the
level (`freeLevel`, `cowForkLevel`).
-/

set_option autoImplicit false

namespace OxideOS.Mem

open Lib PageTableFlags PageTableEntry Function

/-- The failures of the paging functions. -/
inductive PagingError where
  | oomL3Table | oomL2Table | oomL1Table
  | pageAlreadyMapped
  | notMappedL4 | notMappedL3 | notMappedL2 | notMappedL1
  | outOfFrames
  | oomL3 | oomL2 | oomL1
  /-- The `None` of a function that returns an `Option`. -/
  | exhausted
  deriving DecidableEq, Repr

/-- The errors that report a lack of frames. -/
def PagingError.isOutOfMemory : PagingError → Bool
  | .oomL3Table | .oomL2Table | .oomL1Table | .outOfFrames | .oomL3 | .oomL2 | .oomL1
  | .exhausted => true
  | .pageAlreadyMapped | .notMappedL4 | .notMappedL3 | .notMappedL2 | .notMappedL1 => false

/-- Frame allocator, physical memory by frame and word, and the kernel's L4. -/
structure Paging where
  frameAllocator : PhysicalFrameAllocator
  mem : Nat → Nat → Nat
  l4TablePhys : Nat

/-! ## Page-table indices of a virtual address -/

def l4Index (virt : Nat) : Nat := (virt >>> 39) &&& 0x1FF
def l3Index (virt : Nat) : Nat := (virt >>> 30) &&& 0x1FF
def l2Index (virt : Nat) : Nat := (virt >>> 21) &&& 0x1FF
def l1Index (virt : Nat) : Nat := (virt >>> 12) &&& 0x1FF

namespace Paging

/-! ## Physical memory through the higher-half window -/

/-- Word `i` of the frame at physical address `phys`. -/
def read (p : Paging) (phys i : Nat) : Nat := p.mem (phys / 4096) i

def write (p : Paging) (phys i value : Nat) : Paging :=
  let frame := phys / 4096
  { p with mem := update p.mem frame (update (p.mem frame) i value) }

/-- Fill the frame at `phys` with zeros. -/
def zero (p : Paging) (phys : Nat) : Paging :=
  { p with mem := update p.mem (phys / 4096) fun _ => 0 }

/-- Copy the frame at `src` over the frame at `dst`. -/
def copy (p : Paging) (src dst : Nat) : Paging :=
  { p with mem := update p.mem (dst / 4096) (p.mem (src / 4096)) }

def freeFrame (p : Paging) (phys : Nat) : Paging :=
  { p with frameAllocator := p.frameAllocator.freeFrame phys }

def incRefcount (p : Paging) (phys : Nat) : Paging :=
  { p with frameAllocator := p.frameAllocator.incRefcount phys }

/-- Allocate a frame or stop with `oom`. -/
def allocateFrame (oom : PagingError) : Prog Paging PagingError Nat := fun p =>
  match p.frameAllocator.allocateFrame with
  | none => (.error oom, p)
  | some (phys, fa) => (.ok phys, { p with frameAllocator := fa })

/-! ## Mapping and unmapping one page -/

/-- One level of the walk of `map`: the table the entry points to, its flags
widened by `pf`, or a fresh zeroed table linked there. -/
def nextTable (table i pf : Nat) (oom : PagingError) : Prog Paging PagingError Nat := do
  let e ← Prog.gets (·.read table i)
  if isPresent e then
    Prog.update (·.write table i (PageTableEntry.set (addr e) (merge (flags e) pf)))
    Prog.gets fun p => addr (p.read table i)
  else
    let t ← allocateFrame oom
    Prog.update (·.write table i (PageTableEntry.set t pf))
    Prog.update (·.zero t)
    return t

/-- Walk or build the four-level table at `l4` and install a leaf mapping. -/
def map (l4 virt phys fl : Nat) : Prog Paging PagingError PUnit := do
  let pf := parentTableFlags fl
  let l3 ← nextTable l4 (l4Index virt) pf .oomL3Table
  let l2 ← nextTable l3 (l3Index virt) pf .oomL2Table
  let l1 ← nextTable l2 (l2Index virt) pf .oomL1Table
  let e ← Prog.gets (·.read l1 (l1Index virt))
  if isPresent e then Prog.fail .pageAlreadyMapped
  else Prog.update (·.write l1 (l1Index virt) (PageTableEntry.set phys fl))

/-- The entry of `table` at `i`, which must be present. -/
def presentEntry (table i : Nat) (missing : PagingError) : Prog Paging PagingError Nat := do
  let e ← Prog.gets (·.read table i)
  if isPresent e then return e else Prog.fail missing

/-- Remove a leaf mapping, drop the reference it held and return its address. -/
def unmap (l4 virt : Nat) : Prog Paging PagingError Nat := do
  let l4e ← presentEntry l4 (l4Index virt) .notMappedL4
  let l3e ← presentEntry (addr l4e) (l3Index virt) .notMappedL3
  let l2e ← presentEntry (addr l3e) (l2Index virt) .notMappedL2
  let l1e ← presentEntry (addr l2e) (l1Index virt) .notMappedL1
  Prog.update (·.write (addr l2e) (l1Index virt) 0)
  Prog.update (·.freeFrame (addr l1e))
  return addr l1e

/-! ## Address spaces -/

/-- Fill a fresh L4: an empty lower half and the kernel's upper half. -/
def initL4 (p : Paging) (l4 : Nat) : Paging :=
  { p with mem := update p.mem (l4 / 4096) fun i =>
      if i < 256 then 0 else p.read p.l4TablePhys i }

def createUserPageTable : Prog Paging PagingError Nat := do
  let l4 ← allocateFrame .exhausted
  Prog.update (·.initL4 l4)
  return l4

/-- The virtual address of page `page` of a region; the addition is on 64 bits. -/
def pageVirt (virt page : Nat) : Nat := (virt + page * 4096) % 2 ^ 64

def mapUserRegionIn (cr3 virt numPages : Nat) (isWritable executable : Bool) :
    Prog Paging PagingError PUnit :=
  Prog.forRange (fun page => do
    let phys ← allocateFrame .outOfFrames
    Prog.update (·.zero phys)
    map cr3 (pageVirt virt page) phys (userFlags isWritable executable)) 0 numPages

def unmapUserRegionIn (cr3 virt numPages : Nat) (p : Paging) : Paging :=
  loop (fun page p => (unmap cr3 (pageVirt virt page) p).2) 0 numPages p

/-- Free what the first `count` entries of a table of the given level lead to:
at level 1 the mapped frames, above it whole subtrees with their tables. -/
def freeLevel (mem : Nat → Nat → Nat) :
    (level table count : Nat) → PhysicalFrameAllocator → PhysicalFrameAllocator
  | 0, _, _, fa => fa
  | level + 1, table, count, fa =>
    loop (fun i fa =>
      let e := mem (table / 4096) i
      if isPresent e then (freeLevel mem level (addr e) 512 fa).freeFrame (addr e)
      else fa) 0 count fa

/-- Free every mapped leaf frame and every table below the user half, then the
L4 frame itself. Memory is not written. -/
def freeUserPageTable (cr3 : Nat) (p : Paging) : Paging :=
  { p with frameAllocator := (freeLevel p.mem 4 cr3 256 p.frameAllocator).freeFrame cr3 }

/-! ## Fork -/

def inRange (virt : Nat) (r : Nat × Nat) : Bool := decide (r.1 ≤ virt) && decide (virt < r.2)

/-- One leaf of the fork: shared memory is shared verbatim, the stack is copied,
everything else is shared copy-on-write. -/
def cowForkLeaf (stackRange : Nat × Nat) (shmRanges : List (Nat × Nat))
    (src dst i virt : Nat) : Prog Paging PagingError PUnit := do
  let e ← Prog.gets (·.read src i)
  if isPresent e then
    if shmRanges.any (inRange virt) then
      Prog.update (·.write dst i e)
    else if inRange virt stackRange then
      let frame ← allocateFrame .exhausted
      Prog.update (·.copy (addr e) frame)
      Prog.update (·.write dst i (withFlags frame e))
    else
      Prog.update (·.incRefcount (addr e))
      let newFlags := if isWritable (flags e) then asCow (flags e) else flags e
      Prog.update (·.write dst i (withFlags (addr e) newFlags))
      if newFlags ≠ flags e then
        Prog.update (·.write src i (withFlags (addr e) newFlags))
      else return ⟨⟩
  else return ⟨⟩

/-- Copy the first `count` entries of a table of the given level, entry by
entry, into the empty table `dst`; `virt` collects the indices of the levels
above. -/
def cowForkLevel (stackRange : Nat × Nat) (shmRanges : List (Nat × Nat)) :
    (level src dst virt count : Nat) → Prog Paging PagingError PUnit
  | 0, _, _, _, _ => Prog.ret ⟨⟩
  | 1, src, dst, virt, count =>
    Prog.forRange (fun i =>
      cowForkLeaf stackRange shmRanges src dst i (virt ||| (i <<< 12))) 0 count
  | level + 2, src, dst, virt, count =>
    Prog.forRange (fun i => do
      let e ← Prog.gets (·.read src i)
      if isPresent e then
        let table ← allocateFrame .exhausted
        Prog.update (·.zero table)
        Prog.update (·.write dst i (withFlags table e))
        cowForkLevel stackRange shmRanges (level + 1) (addr e) table
          (virt ||| (i <<< (12 + 9 * (level + 1)))) 512
      else return ⟨⟩) 0 count

def cowForkUserPageTable (srcCr3 : Nat) (stackRange : Nat × Nat)
    (shmRanges : List (Nat × Nat)) : Prog Paging PagingError Nat := do
  let l4 ← allocateFrame .exhausted
  Prog.update (·.initL4 l4)
  cowForkLevel stackRange shmRanges 4 srcCr3 l4 0 256
  return l4

/-! ## Copy-on-write faults -/

/-- Resolve a write fault at `faultAddr` under `cr3`: a sole owner gets write
access in place, a sharer a private copy. The answer is `false` when the page is
not marked copy-on-write or no frame is left. -/
def tryResolveCowFault (cr3 faultAddr : Nat) (p : Paging) : Bool × Paging :=
  let l4e := p.read (cr3 &&& addrMask) (l4Index faultAddr)
  if !isPresent l4e then (false, p) else
  let l3e := p.read (addr l4e) (l3Index faultAddr)
  if !isPresent l3e || isHuge l3e then (false, p) else
  let l2e := p.read (addr l3e) (l2Index faultAddr)
  if !isPresent l2e || isHuge l2e then (false, p) else
  let l1e := p.read (addr l2e) (l1Index faultAddr)
  if !isPresent l1e then (false, p) else
  if !isCow (flags l1e) then (false, p) else
  let frame := addr l1e
  let newFlags := asWritableNoCow (flags l1e)
  if p.frameAllocator.getRefcount frame ≤ 1 then
    (true, p.write (addr l2e) (l1Index faultAddr) (withFlags frame newFlags))
  else
    match p.frameAllocator.allocateFrame with
    | none => (false, p)
    | some (newFrame, fa) =>
      let p := { p with frameAllocator := fa }
      let p := p.copy frame newFrame
      let p := p.write (addr l2e) (l1Index faultAddr) (withFlags newFrame newFlags)
      (true, p.freeFrame frame)

/-! ## Frames for shared memory -/

/-- Allocate and zero `numPages` frames one by one and return the address of the
first, or 0 when a frame is missing; that the others follow it in memory is not
checked. -/
def allocPhysFrames (numPages : Nat) (p : Paging) : Nat × Paging :=
  let run : Prog Paging PagingError Nat := do
    let first ← allocateFrame .exhausted
    Prog.update (·.zero first)
    Prog.forRange (fun _ => do
      let next ← allocateFrame .exhausted
      Prog.update (·.zero next)) 1 (numPages - 1)
    return first
  match run p with
  | (.ok first, p) => (first, p)
  | (.error _, p) => (0, p)

/-- One level of the walk of `mapPhysLeaf`: as `nextTable`, but the flags of an
entry that is there stay as they are. -/
def nextTablePhys (table i pf : Nat) (oom : PagingError) : Prog Paging PagingError Nat := do
  let e ← Prog.gets (·.read table i)
  if isPresent e then return addr e
  else
    let t ← allocateFrame oom
    Prog.update (·.write table i (PageTableEntry.set t pf))
    Prog.update (·.zero t)
    return t

/-- Install a leaf for a given frame; a leaf that is there is overwritten. -/
def mapPhysLeaf (l4 virt phys fl : Nat) : Prog Paging PagingError PUnit := do
  let pf := parentTableFlags fl
  let l3 ← nextTablePhys l4 (l4Index virt) pf .oomL3
  let l2 ← nextTablePhys l3 (l3Index virt) pf .oomL2
  let l1 ← nextTablePhys l2 (l2Index virt) pf .oomL1
  Prog.update (·.write l1 (l1Index virt) (PageTableEntry.set phys fl))

def mapPhysPagesIn (cr3 virtBase physBase numPages : Nat) (isWritable : Bool) :
    Prog Paging PagingError PUnit :=
  Prog.forRange (fun i =>
    mapPhysLeaf cr3 (pageVirt virtBase i) (physBase + i * 4096)
      (userFlags isWritable false)) 0 numPages

end Paging

end OxideOS.Mem
