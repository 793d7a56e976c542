import OxideOS.Mem.SharedFrames
import OxideOS.Proc.Spawn

/-!
# Building an address space

`spawn` and `exec` build the address space of a program in the same way: a new
root, and then steps that map fresh pages or copy bytes into them. A `Plan` is the
list of these steps with the place where the program starts. `startTask` and
`execPlan` are `spawn` and `exec` for any plan, and `spawn_eq` and `execBinary_eq`
say that the kernel's own procedures are instances.

`build_spec` is what a plan in the lower half does: it adds one address space, or
leaves one behind that nobody knows of, and every other address space is as it
was.
-/

set_option autoImplicit false

namespace OxideOS.Proc

open Lib Mem Fs Ipc
open Prog hiding update

/-! ## Plans -/

/-- One step of the building of an address space. -/
inductive LoadStep where
  /-- Map fresh pages; if that fails, building ends with the error. -/
  | map (virt pages : Nat) (isWritable executable : Bool) (failure : LoadError)
  | copy (virt : Nat) (bytes : List UInt8)
  /-- Map one page and fill it, if it can be mapped. -/
  | filled (virt : Nat) (bytes : List UInt8)
  | stop (e : LoadError)

def LoadStep.run (cr3 : Nat) : LoadStep → Loader PUnit
  | .map virt pages isWritable executable failure =>
    (Paging.mapUserRegionIn cr3 virt pages isWritable executable).mapError fun _ => failure
  | .copy virt bytes => copyIn cr3 virt bytes
  | .filled virt bytes => do
      let mapped ← (Paging.mapUserRegionIn cr3 virt 1 true true).isOk
      if mapped then copyIn cr3 virt bytes else return ⟨⟩
  | .stop e => Prog.fail e

def build (steps : List LoadStep) : Loader Nat := do
  let cr3 ← createSpace
  Prog.forEach (LoadStep.run cr3) steps
  return cr3

/-- The steps of a program and where it starts. -/
structure Plan where
  steps : List LoadStep
  entry : Nat
  rsp : Nat

def stackSteps : List LoadStep :=
  [.map (userStackTop - userStackPages * 4096) userStackPages true false .oomStack]

def trampolineSteps : List LoadStep := [.filled userSigtramp sigtrampBytes]

def imageSteps (img : Image) : List LoadStep :=
  .map img.virt img.pages true true (if img.elf then .badImage else .oomCode) ::
    (img.chunks.map (fun chunk => .copy chunk.1 chunk.2) ++ if img.ok then [] else
      [.stop .badImage])

def argvSteps (block : List UInt8) : List LoadStep :=
  if 2048 < block.length then [] else [.copy (userStackTop - block.length) block]

def argvRsp (block : List UInt8) : Nat :=
  if 2048 < block.length then userStackTop - 8 else userStackTop - block.length

def spawnPlan (img : Image) (block : List UInt8) : Plan where
  steps := stackSteps ++ imageSteps img ++ trampolineSteps ++ argvSteps block
  entry := img.entry
  rsp := argvRsp block

def execPlanOf (img : Image) (block : List UInt8) : Plan where
  steps := stackSteps ++ trampolineSteps ++ imageSteps img ++ argvSteps block
  entry := img.entry
  rsp := argvRsp block

namespace Kernel

/-- `spawn` for a plan. -/
def startTask (plan : Plan) (name : List UInt8) (k : Kernel) : Except LoadError Nat × Kernel :=
  match firstBelow maxTasks fun i => (k.tasks i).state.isFree with
  | none => (.error .maxTasks, k)
  | some slot =>
    match build plan.steps k.paging with
    | (.error e, p) => (.error e, { k with paging := p })
    | (.ok cr3, p) =>
      (.ok (slot + 1),
        { k.setTask slot
            (spawnedTask (k.tasks slot) slot cr3 plan.entry plan.rsp k.nextUid name) with
          paging := p
          nextUid := k.nextUid + 1 })

/-- `exec` for a plan. -/
def execPlan (plan : Plan) : Kern Int := fun k =>
  match build plan.steps k.paging with
  | (.error .halted, p) => (.error .halt, { k with paging := p })
  | (.error e, p) => (.ok e.execCode, { k with paging := p })
  | (.ok cr3, p) =>
    let task := k.tasks k.current
    let k := k.modifyTask k.current fun t =>
      { t with
        cr3 := cr3, entry := plan.entry, firstRun := true, initialRsp := plan.rsp
        fdTable := t.fdTable.execTable, outputLen := 0 }
    let freed := if task.cr3 = 0 then p else p.freeUserPageTable task.cr3
    (.error (.exitToKernel exitPreempted), { k with paging := freed })

end Kernel

/-! ## The kernel's own plans -/

theorem loadImage_eq (img : Image) (cr3 : Nat) :
    loadImage img cr3 = Prog.forEach (LoadStep.run cr3) (imageSteps img) := by
  have chunks : Prog.forEach (LoadStep.run cr3)
      (img.chunks.map fun chunk => LoadStep.copy chunk.1 chunk.2) =
        Prog.forEach (fun chunk => copyIn cr3 chunk.1 chunk.2) img.chunks :=
    Prog.forEach_map _ _ _
  have last : Prog.forEach (LoadStep.run cr3) (if img.ok then [] else [.stop .badImage]) =
      if img.ok then return ⟨⟩ else Prog.fail .badImage := by
    cases img.ok
    · exact Prog.forEach_singleton _ _
    · rfl
  show loadImage img cr3 = (mapImage img cr3 >>= fun _ => Prog.forEach (LoadStep.run cr3) _)
  rw [Prog.forEach_append, chunks, last]
  rfl

theorem writeArgvToStack_eq (cr3 : Nat) (block : List UInt8) :
    writeArgvToStack cr3 block =
      (do Prog.forEach (LoadStep.run cr3) (argvSteps block); return argvRsp block) := by
  unfold writeArgvToStack argvSteps argvRsp
  by_cases long : 2048 < block.length
  · simp only [long, if_true]
    rfl
  · simp only [long, if_false, Prog.forEach_singleton]
    rfl

/-- The address space of an executed program is that of its plan. -/
theorem execSpace_eq (img : Image) (block : List UInt8) :
    execSpace img block = (do
      let cr3 ← build (execPlanOf img block).steps
      return (cr3, argvRsp block)) := by
  unfold execSpace build
  simp only [execPlanOf, stackSteps, trampolineSteps, Prog.forEach_append, Prog.forEach_singleton,
    bind_assoc, pure_bind, loadImage_eq, writeArgvToStack_eq]
  rfl

theorem spawnSpace_eq (img : Image) (block : List UInt8) :
    (do
      let cr3 ← spawnSpace img
      let rsp ← (do
        mapTrampoline cr3
        writeArgvToStack cr3 block)
      return (cr3, rsp)) = (do
      let cr3 ← build (spawnPlan img block).steps
      return (cr3, argvRsp block)) := by
  unfold spawnSpace build
  simp only [spawnPlan, stackSteps, trampolineSteps, Prog.forEach_append, Prog.forEach_singleton,
    bind_assoc, pure_bind, loadImage_eq, writeArgvToStack_eq]
  rfl

namespace Kernel

/-- **Exec is the execution of a plan.** -/
theorem execBinary_eq (img : Image) (block : List UInt8) :
    execBinary img block = execPlan (execPlanOf img block) := by
  funext k
  unfold execBinary execPlan
  rw [execSpace_eq, Prog.bind_apply]
  rcases build (execPlanOf img block).steps k.paging with ⟨e | cr3, p⟩
  · cases e <;> rfl
  · rfl

/-- **Spawn is the start of a plan.** -/
theorem spawn_eq (img : Image) (name block : List UInt8) (k : Kernel) :
    spawn (some img) name block k = startTask (spawnPlan img block) name k := by
  unfold spawn startTask
  cases firstBelow maxTasks fun i => (k.tasks i).state.isFree with
  | none => rfl
  | some slot =>
    have same := congrFun (spawnSpace_eq img block) k.paging
    rw [Prog.bind_apply, Prog.bind_apply] at same
    rcases spaced : spawnSpace img k.paging with ⟨e | cr3, p⟩
    · rcases built : build (spawnPlan img block).steps k.paging with ⟨e' | cr3', p'⟩ <;>
        rw [spaced, built] at same <;> cases same
      simp only [spaced]
    · rw [spaced] at same
      simp only [Prog.bind_apply] at same
      rcases finished : (mapTrampoline cr3 >>= fun _ => writeArgvToStack cr3 block) p with
          ⟨e | rsp, p₁⟩ <;>
        rcases built : build (spawnPlan img block).steps k.paging with ⟨e' | cr3', p'⟩ <;>
        rw [← Prog.bind_apply, finished, built] at same <;> cases same
      · simp only [spaced, finished]
      · simp only [spaced, finished]
        rfl

end Kernel

/-! ## What a plan does -/

/-- The step stays in the lower half. -/
def LoadStep.Low : LoadStep → Prop
  | .map virt pages _ _ _ => LowerRegion virt pages
  | .copy virt bytes => virt + bytes.length ≤ 2 ^ 47
  | .filled virt bytes => LowerRegion virt 1 ∧ virt + bytes.length ≤ 2 ^ 47
  | .stop _ => True

instance (s : LoadStep) : Decidable s.Low := by
  unfold LoadStep.Low
  split <;> infer_instance

/-- From `A` to `A'` the root `f` has been added; the other address spaces are as
they were. -/
structure Beside (A A' : AddressSpaces) (f : Nat) : Prop where
  new : f ∉ A.roots
  roots : A'.roots = insert f A.roots
  others : ∀ {r v}, r ≠ f → A'.view r v = A.view r v

/-- Further pages of the new root. -/
theorem Beside.mapped {A A' A'' : AddressSpaces} {f : Nat} (beside : Beside A A' f)
    (more : MapsMore A' A'' f) : Beside A A'' f where
  new := beside.new
  roots := more.roots.trans beside.roots
  others := fun other => (more.others other).trans (beside.others other)

theorem Beside.member {A A' : AddressSpaces} {f : Nat} (beside : Beside A A' f) :
    f ∈ A'.roots := by
  rw [beside.roots]
  exact Finset.mem_insert_self f A.roots

section Specs

variable {boot : Paging} {A : AddressSpaces} {shm : Set Nat} {f : Nat} {p : Paging}

/-- The state in which the root `f` is being filled. -/
def Building (boot : Paging) (A : AddressSpaces) (shm : Set Nat) (f : Nat) (p : Paging) : Prop :=
  ∃ A' extra, Inv boot A' shm extra p ∧ Beside A A' f

theorem copyIn_spec {virt : Nat} {bytes : List UInt8} (bound : virt + bytes.length ≤ 2 ^ 47)
    (building : Building boot A shm f p) :
    wp (copyIn (f * 4096) virt bytes) (fun _ p' => Building boot A shm f p')
      (fun _ p' => Building boot A shm f p') p := by
  obtain ⟨A', extra, inv, beside⟩ := building
  cases copied : p.copyToRegionIn (f * 4096) virt bytes with
  | none =>
    have ended : copyIn (f * 4096) virt bytes p = (.error .halted, p) := by
      rw [copyIn, copied]
    rw [wp_error ended]
    exact ⟨A', extra, inv, beside⟩
  | some p' =>
    have ended : copyIn (f * 4096) virt bytes p = (.ok ⟨⟩, p') := by
      rw [copyIn, copied]
    rw [wp_ok ended]
    exact ⟨A', extra, inv.copyToRegionIn_spec beside.member bound copied, beside⟩

theorem mapPages_spec {virt pages : Nat} (low : LowerRegion virt pages) (w x : Bool)
    (building : Building boot A shm f p) :
    wp (Paging.mapUserRegionIn (f * 4096) virt pages w x)
      (fun _ p' => Building boot A shm f p') (fun _ p' => Building boot A shm f p') p := by
  obtain ⟨A', extra, inv, beside⟩ := building
  refine wp_mono ?_ ?_ (inv.mapUserRegionIn_spec beside.member low w x)
  · rintro - p' ⟨A'', inv', more, -⟩
    exact ⟨A'', extra, inv', beside.mapped more.toMapsMore⟩
  · rintro - p' ⟨A'', extra', inv', more, -⟩
    exact ⟨A'', extra', inv', beside.mapped more.toMapsMore⟩

/-- One step of a plan works on the new root only. -/
theorem LoadStep.run_spec {s : LoadStep} (low : s.Low) (building : Building boot A shm f p) :
    wp (s.run (f * 4096)) (fun _ p' => Building boot A shm f p')
      (fun _ p' => Building boot A shm f p') p := by
  cases s with
  | map virt pages w x failure =>
    rw [LoadStep.run, wp_mapError]
    exact mapPages_spec low w x building
  | copy virt bytes => exact copyIn_spec low building
  | filled virt bytes =>
    simp only [LoadStep.run, wp_bind, wp_isOk]
    refine wp_mono ?_ ?_ (mapPages_spec low.1 true true building)
    · intro _ p' mapped
      exact copyIn_spec low.2 mapped
    · intro _ p' failed
      exact failed
  | stop e => exact building

/-- **Building an address space.** -/
theorem build_spec {extra : Nat → Nat} (inv : Inv boot A shm extra p) {steps : List LoadStep}
    (low : ∀ s ∈ steps, s.Low) :
    wp (build steps)
      (fun cr3 p' => ∃ f, cr3 = f * 4096 ∧ Building boot A shm f p')
      (fun _ p' => p' = p ∨ ∃ f, Building boot A shm f p') p := by
  simp only [build, createSpace, wp_bind, wp_mapError, wp_pure]
  refine wp_mono ?_ (fun _ _ failed => .inl failed.2) inv.createUserPageTable_spec
  rintro _ p' ⟨f, A', rfl, new, inv', roots, view⟩
  have begun : Building boot A shm f p' :=
    ⟨A', extra, inv', new, roots, fun {r v} _ => by rw [view]⟩
  refine wp_mono ?_ (fun _ _ failed => .inr ⟨f, failed⟩)
    (wp_forEach (fun s member _ building => s.run_spec (low s member) building) begun)
  intro _ p'' done
  exact ⟨f, rfl, done⟩

end Specs

end OxideOS.Proc
