import OxideOS.Proc.Scheduler

/-!
# New tasks and new programs

`spawn` starts a program in a free slot, `forkTask` copies a task into one, and
`execBinary` replaces the program of the current task. A slot is free when its
task is `Empty` or `Dead`; pids are slot numbers plus one.

What the ELF loader finds in a binary is an `Image`: one region to map, the
pieces to copy into it, and the entry point. A binary that the loader gives up on
half-way is an image with `ok` false. The block of arguments and environment that
goes on top of the stack is an input.
-/

set_option autoImplicit false

namespace OxideOS.Proc

open Lib Mem Fs Ipc

/-- What the loader makes of a binary. -/
structure Image where
  elf : Bool
  virt : Nat
  pages : Nat
  chunks : List (Nat × List UInt8)
  entry : Nat
  ok : Bool

/-- The image of a flat binary. -/
def Image.flat (code : List UInt8) : Image :=
  ⟨false, userCodeAddr, (code.length + 4095) / 4096, [(userCodeAddr, code)], userCodeAddr, true⟩

inductive LoadError where
  | emptyBinary | maxTasks
  | oomPageTable | oomStack | oomCode
  /-- The loader reports an error of its own. -/
  | badImage
  /-- The kernel faulted while it copied the image. -/
  | halted
  deriving DecidableEq, Repr

/-- The code `exec` returns for an error. -/
def LoadError.execCode : LoadError → Int
  | .badImage => -1
  | _ => -4

/-! ## Building an address space -/

abbrev Loader (α : Type) : Type := Prog Paging LoadError α

def copyIn (cr3 virt : Nat) (bytes : List UInt8) : Loader PUnit := fun p =>
  match p.copyToRegionIn cr3 virt bytes with
  | some p' => (.ok ⟨⟩, p')
  | none => (.error .halted, p)

def createSpace : Loader Nat := Paging.createUserPageTable.mapError fun _ => .oomPageTable

def mapStack (cr3 : Nat) : Loader PUnit :=
  (Paging.mapUserRegionIn cr3 (userStackTop - userStackPages * 4096) userStackPages true
    false).mapError fun _ => .oomStack

/-- Map and fill the page that signal handlers return to, if it can be mapped. -/
def mapTrampoline (cr3 : Nat) : Loader PUnit := do
  let mapped ← (Paging.mapUserRegionIn cr3 userSigtramp 1 true true).isOk
  if mapped then copyIn cr3 userSigtramp sigtrampBytes else return ⟨⟩

/-- Map the region of an image; the map functions have nothing to do for one
without pages. -/
def mapImage (img : Image) (cr3 : Nat) : Loader PUnit :=
  (Paging.mapUserRegionIn cr3 img.virt img.pages true true).mapError fun _ =>
    if img.elf then .badImage else .oomCode

def loadImage (img : Image) (cr3 : Nat) : Loader PUnit := do
  mapImage img cr3
  Prog.forEach (fun chunk => copyIn cr3 chunk.1 chunk.2) img.chunks
  if img.ok then return ⟨⟩ else Prog.fail .badImage

/-- Put the argument block on top of the stack and return the stack pointer; a
block of more than 2048 bytes is left out. -/
def writeArgvToStack (cr3 : Nat) (block : List UInt8) : Loader Nat := do
  if 2048 < block.length then return userStackTop - 8
  copyIn cr3 (userStackTop - block.length) block
  return userStackTop - block.length

/-- The address space of a spawned task before its slot is filled. -/
def spawnSpace (img : Image) : Loader Nat := do
  let cr3 ← createSpace
  mapStack cr3
  loadImage img cr3
  return cr3

/-- The address space and stack pointer of an executed program. -/
def execSpace (img : Image) (block : List UInt8) : Loader (Nat × Nat) := do
  let cr3 ← createSpace
  mapStack cr3
  mapTrampoline cr3
  loadImage img cr3
  let rsp ← writeArgvToStack cr3 block
  return (cr3, rsp)

namespace Kernel

/-! ## Spawn -/

/-- The task that `spawn` puts into a slot, over what was there. -/
def spawnedTask (old : Task) (slot cr3 entry rsp uid : Nat) (name : List UInt8) : Task :=
  { old with
    state := .ready, firstRun := true, ctx := .zeroed, entry := entry, cr3 := cr3
    pid := slot + 1, parentPid := 0, fsBase := 0, heapEnd := 0, mmapEnd := 0, outputLen := 0
    fdTable := .new, pendingSignals := 0, signalMask := 0, savedSignalMask := 0
    inSigsuspend := false, alarmDeadline := 0, signalHandlers := fun _ => 0
    shmAttaches := fun _ => .empty, mmapRegions := fun _ => .empty, mmapNregions := 0
    initialRsp := rsp, name := name.take 16, uid := uid, parentUid := 0 }

/-- Start a program in the first free slot: its pid or an error. A failure gives
nothing back of the address space begun. -/
def spawn (binary : Option Image) (name block : List UInt8) (k : Kernel) :
    Except LoadError Nat × Kernel :=
  match binary with
  | none => (.error .emptyBinary, k)
  | some img =>
    match firstBelow maxTasks fun i => (k.tasks i).state.isFree with
    | none => (.error .maxTasks, k)
    | some slot =>
      match spawnSpace img k.paging with
      | (.error e, p) => (.error e, { k with paging := p })
      | (.ok cr3, p) =>
        let finish : Loader Nat := do
          mapTrampoline cr3
          writeArgvToStack cr3 block
        match finish p with
        | (.error e, p) => (.error e, { k with paging := p })
        | (.ok rsp, p) =>
          (.ok (slot + 1),
            { k.setTask slot
                (spawnedTask (k.tasks slot) slot cr3 img.entry rsp k.nextUid name) with
              paging := p
              nextUid := k.nextUid + 1 })

/-! ## Fork -/

def stackRange : Nat × Nat := (userStackTop - userStackPages * 4096, userStackTop)

/-- The task that `fork` puts into a slot, over what was there. -/
def forkedTask (old parent : Task) (slot cr3 uid : Nat) (ctx : TaskContext) : Task :=
  { old with
    state := .ready, ctx := ctx, firstRun := false, entry := parent.entry, cr3 := cr3
    pid := slot + 1, parentPid := parent.pid, pgid := parent.pgid, heapEnd := parent.heapEnd
    mmapEnd := parent.mmapEnd, outputLen := 0, fdTable := parent.fdTable, cwd := parent.cwd
    pendingSignals := 0, signalMask := 0, savedSignalMask := 0, inSigsuspend := false
    alarmDeadline := 0, signalHandlers := parent.signalHandlers
    shmAttaches := fun _ => .empty, mmapRegions := parent.mmapRegions
    mmapNregions := parent.mmapNregions, name := parent.name
    uid := uid, parentUid := parent.uid }

/-- Copy the task in slot `parentIdx` into the first free slot: the pid of the
child, or `none`. -/
def forkTask (parentIdx : Nat) (childCtx : TaskContext) (k : Kernel) : Option Nat × Kernel :=
  match firstBelow maxTasks fun i => i != parentIdx && (k.tasks i).state.isFree with
  | none => (none, k)
  | some slot =>
    let parent := k.tasks parentIdx
    match Paging.cowForkUserPageTable parent.cr3 stackRange
        (shmRanges parent.shmAttaches k.segtab) k.paging with
    | (.error _, p) => (none, { k with paging := p })
    | (.ok cr3, p) =>
      (some (slot + 1),
        { (k.setTask slot
            (forkedTask (k.tasks slot) parent slot cr3 k.nextUid childCtx)).note
            (.forked parent.uid k.nextUid (slot + 1)) with
          paging := p
          files := parent.fdTable.addrefAll k.files
          nextUid := k.nextUid + 1 })

/-! ## Exec -/

/-- Replace the program of the current task. On success the old address space is
freed and the scheduler starts the new program at its next turn. -/
def execBinary (img : Image) (block : List UInt8) : Kern Int := fun k =>
  match execSpace img block k.paging with
  | (.error .halted, p) => (.error .halt, { k with paging := p })
  | (.error e, p) => (.ok e.execCode, { k with paging := p })
  | (.ok (cr3, rsp), p) =>
    let task := k.tasks k.current
    let k := k.modifyTask k.current fun t =>
      { t with
        cr3 := cr3, entry := img.entry, firstRun := true, initialRsp := rsp
        fdTable := t.fdTable.execTable, outputLen := 0 }
    let freed := if task.cr3 = 0 then p else p.freeUserPageTable task.cr3
    (.error (.exitToKernel exitPreempted), { k with paging := freed })

end Kernel

end OxideOS.Proc
