import OxideOS.Fs.RamDescriptors
import OxideOS.Lib.Run
import OxideOS.Lib.Text
import Mathlib.Data.List.Perm.Basic

/-!
# The descriptors of the shell

The main loop of `userspace/sh/src/main.rs`: a line is read, cut at its redirection and
at its pipes, and carried out as a builtin, as a child or as a pipeline. Only the shell
itself is followed. A child works on a copy of the table; what it and all other tasks do
to the things that descriptors lead to is part of `World`.

A descriptor leads to a place, the position of a node of the RAM disk or a slot of a
driver, and denotes the object there. Others can take it away (`Other`) between any two
calls of the shell. An `unlink` on the RAM disk renumbers the nodes and corrects all
tables; a `rename` onto an existing file renumbers them and corrects none. Slots of
files on disk are not counted, so one task closes them for all: a child that puts a
redirection in the place of its copy of descriptor 1 closes the file of the shell's.

A redirection is opened before the command is looked at, and closed by what then runs.
The builtins other than `echo` do not close it, and neither does a command that is not
UTF-8 (`redirected_pwd_leaks`). After lines without these, during which nobody touches the
objects of descriptors 0 to 2, the descriptors of the prompt are those of the first
prompt and denote the same objects (`prompt_descriptors_same`).
-/

set_option autoImplicit false

namespace OxideOS.User

open Lib Fs Function

abbrev Bytes := List UInt8

/-! ## Reading and cutting a line -/

def lineCap : Nat := 256
def expandCap : Nat := 512
def valueCap : Nat := 256
def maxSegs : Nat := 8

/-- The line `readline` returns for the keys typed up to the end of the line. -/
def readline (keys : Bytes) : Bytes :=
  keys.foldl (fun line c =>
    if c = 8 ∨ c = 127 then line.dropLast
    else if 32 ≤ c ∧ line.length < lineCap - 1 then line ++ [c] else line) []

/-- Cut at the first occurrence of `needle`, as `find_bytes` and `find_byte` are used. -/
def cutAt (needle : Bytes) : Bytes → Option (Bytes × Bytes)
  | [] => if needle = [] then some ([], []) else none
  | b :: rest =>
    if needle.isPrefixOf (b :: rest) then some ([], (b :: rest).drop needle.length)
    else (cutAt needle rest).map fun cut => (b :: cut.1, cut.2)

def isBlank (b : UInt8) : Bool := b == 0x20 || b == 0x09

def trimBytes (s : Bytes) : Bytes := ((s.dropWhile isBlank).reverse.dropWhile isBlank).reverse

def bar : UInt8 := 0x7C
def greater : UInt8 := 0x3E
def ampersand : UInt8 := 0x26
def dollar : UInt8 := 0x24

/-- A trailing `&` asks for the background. -/
def takeBackground (line : Bytes) : Bytes × Bool :=
  let trimmed := trimBytes line
  if trimmed.getLast? = some ampersand then (trimmed.dropLast, true) else (trimmed, false)

/-- The command and, if there is one, the redirection: whether it appends, and its path. -/
def parseRedirect (line : Bytes) : Bytes × Option (Bool × Bytes) :=
  match cutAt [greater, greater] line with
  | some (before, after) => (trimBytes before, some (true, trimBytes after))
  | none =>
    match cutAt [greater] line with
    | some (before, after) => (trimBytes before, some (false, trimBytes after))
    | none => (line, none)

def isNameByte (b : UInt8) : Bool :=
  (decide (0x30 ≤ b) && decide (b ≤ 0x39)) || (decide (0x41 ≤ b) && decide (b ≤ 0x5A)) ||
    (decide (0x61 ≤ b) && decide (b ≤ 0x7A)) || b == 0x5F

/-- Replace variables by their values. `room` is what is left of the output buffer, `fuel`
bounds the rounds by the length of the input. -/
def expandFrom (env : Bytes → Bytes) : (fuel room : Nat) → Bytes → Bytes
  | 0, _, _ => []
  | _ + 1, 0, _ => []
  | _ + 1, _ + 1, [] => []
  | fuel + 1, room + 1, b :: rest =>
    let name := rest.takeWhile isNameByte
    if b = dollar ∧ name ≠ [] then
      let value := ((env name).take valueCap).take (room + 1)
      value ++ expandFrom env fuel (room + 1 - value.length) (rest.dropWhile isNameByte)
    else b :: expandFrom env fuel room rest

def expandVars (env : Bytes → Bytes) (input : Bytes) : Bytes :=
  expandFrom env input.length (expandCap - 1) input

/-- Split at the bars into at most `room` trimmed segments; the rest is dropped. -/
def splitPipes : (room : Nat) → Bytes → List Bytes
  | 0, _ => []
  | room + 1, rest =>
    match cutAt [bar] rest with
    | some (before, after) => trimBytes before :: splitPipes room after
    | none => [trimBytes rest]

/-- The command word and its arguments. -/
def words (line : List Char) : List Char × List Char :=
  if ' ' ∈ line then
    (trim (line.takeWhile (· ≠ ' ')), trim ((line.dropWhile (· ≠ ' ')).drop 1))
  else (line, [])

/-- A line cut into its parts. -/
structure Parsed where
  background : Bool
  redir : Option (Bool × Bytes)
  segs : List Bytes

def parse (env : Bytes → Bytes) (line : Bytes) : Parsed :=
  let (line, background) := takeBackground line
  let (cmd, redir) := parseRedirect line
  ⟨background, redir, splitPipes maxSegs (expandVars env cmd)⟩

inductive Command where
  | exit | echo | cat | ls | pwd | clear | help | jobs | fg | export | empty | external
  deriving DecidableEq, Repr

/-- The arm of the `match` on the command word that is taken. -/
def command (cmd : List Char) : Command :=
  if cmd = "exit".toList ∨ cmd = "quit".toList then .exit
  else if cmd = "echo".toList then .echo
  else if cmd = "cat".toList then .cat
  else if cmd = "ls".toList then .ls
  else if cmd = "pwd".toList then .pwd
  else if cmd = "clear".toList then .clear
  else if cmd = "help".toList then .help
  else if cmd = "jobs".toList then .jobs
  else if cmd = "fg".toList then .fg
  else if cmd = "export".toList then .export
  else if cmd = [] then .empty
  else .external

/-! ## Jobs -/

def maxJobs : Nat := 8

/-- The background jobs: process id and the first bytes of the name. -/
abbrev JobTable := List (Nat × Bytes)

namespace JobTable

/-- The job number is 0 when the table is full. -/
def add (jobs : JobTable) (pid : Nat) (name : Bytes) : Nat × JobTable :=
  if maxJobs ≤ jobs.length then (0, jobs) else (jobs.length + 1, jobs ++ [(pid, name.take 31)])

def removePid (jobs : JobTable) (pid : Nat) : JobTable := jobs.eraseP fun job => job.1 == pid

def getByNum (jobs : JobTable) (n : Nat) : Option Nat :=
  if n = 0 ∨ jobs.length < n then none else (jobs[n - 1]?).map Prod.fst

end JobTable

/-- Leading decimal digits after blanks, in 32 bits. -/
def parseU32 (s : List Char) : Option Nat :=
  let digits := (s.dropWhile (· = ' ')).takeWhile fun c => decide ('0' ≤ c) && decide (c ≤ '9')
  if digits = [] then none
  else some (digits.foldl (fun v c => (v * 10 + (c.toNat - 48)) % 2 ^ 32) 0)

/-! ## What descriptors denote -/

/-- The position of a node, or a slot of a driver. -/
abbrev Place := FdBackend × Nat

def place (e : FdEntry) : Place :=
  (e.backend, if e.backend = .ramFS then e.inodeIdx else e.rawFd)

/-- Pipes and files on disk have slots in tables that all tasks share. -/
def onSlot (e : FdEntry) : Bool := e.backend == .pipe || e.backend == .fat16 || e.backend == .ext2

/-- The object at a place, by the number it got when it was made; a free place has none. -/
structure Objects where
  number : Place → Option Nat
  next : Nat

namespace Objects

def take (p : Place) (o : Objects) : Objects :=
  ⟨update o.number p (some o.next), o.next + 1⟩

def free (p : Place) (o : Objects) : Objects := { o with number := update o.number p none }

/-- A node of the RAM disk is removed, and those behind it move up. -/
def erase (idx : Nat) (o : Objects) : Objects :=
  { o with number := fun p =>
      if p.1 = .ramFS ∧ idx ≤ p.2 then o.number (p.1, p.2 + 1) else o.number p }

/-- The entry of a descriptor denotes an object, a device or a directory. -/
def denoted (o : Objects) (e : FdEntry) : FdBackend × Option Nat × Bytes :=
  (e.backend, o.number (place e), e.dirPath)

end Objects

/-- What the rest of the system does to places. -/
inductive Other where
  | unlink (idx : Nat)
  /-- By a `rename` onto the node there. -/
  | replace (idx : Nat)
  /-- A node is made, or a slot is opened. -/
  | take (p : Place)
  /-- A slot is closed, by whichever task. -/
  | free (p : Place)

namespace Other

def onTable (t : FdTable) : Other → FdTable
  | .unlink idx => t.onInodeRemoved idx
  | _ => t

def onObjects (o : Objects) : Other → Objects
  | .unlink idx | .replace idx => o.erase idx
  | .take p => o.take p
  | .free p => o.free p

/-- The object of the entry is not touched. -/
def sparesEntry (e : FdEntry) : Other → Bool
  | .unlink idx => place e ≠ (.ramFS, idx)
  | .replace idx => e.backend ≠ .ramFS ∨ e.inodeIdx < idx
  | .take p | .free p => place e ≠ p

/-- The objects of descriptors 0, 1 and 2 are not touched. -/
def spares (t : FdTable) (ev : Other) : Bool :=
  (List.range 3).all fun fd => (t.entries fd).all fun e => ev.sparesEntry e

end Other

/-! ## The system calls of the shell -/

/-- What the rest of the system decides while one line is handled; the calls of the line
are numbered. -/
structure World where
  /-- What others do right before a call. -/
  others : Nat → List Other
  /-- The entry an `open` of a path with some flags leads to, and whether it makes a node. -/
  file : Nat → List Char → Nat → Option (FdEntry × Bool)
  /-- The ends of the pipe a `pipe` gets, if one is left. -/
  ends : Nat → Option (Nat × Nat)
  /-- The child of a `fork`, if it succeeds. -/
  child : Nat → Option Nat
  /-- The number of blocks `cat` reads before the end of its file. -/
  blocks : Nat
  env : Bytes → Bytes

structure Shell where
  table : FdTable
  objects : Objects
  jobs : JobTable
  /-- The number of calls made since the prompt. -/
  clock : Nat
  /-- Nobody has touched the objects of descriptors 0 to 2 since the prompt; a history
  variable. -/
  spared : Bool

namespace Shell

variable {α : Type}

def disturb (s : Shell) (ev : Other) : Shell :=
  { s with
    table := ev.onTable s.table
    objects := ev.onObjects s.objects
    spared := s.spared && ev.spares s.table }

/-- What others did since the last call. -/
def disturbed (w : World) (s : Shell) : Shell :=
  (w.others s.clock).foldl disturb { s with clock := s.clock + 1 }

/-- The calls that leave the descriptors alone: `read`, `write`, `waitpid` and the like. -/
def idle (w : World) (s : Shell) : Shell := s.disturbed w

/-- A descriptor for an entry. A new node or a slot is taken first; drivers offer free
ones only. -/
def placeEntry (e : FdEntry) (new : Bool) (s : Shell) : Int × Shell :=
  if (onSlot e || new) && (s.objects.number (place e)).isSome then (enoent, s) else
  let (fd, t) := s.table.place e
  (fd, { s with
    table := t
    objects := if onSlot e || new then s.objects.take (place e) else s.objects })

def openFile (w : World) (path : List Char) (flags : Nat) (s : Shell) : Int × Shell :=
  match w.file s.clock path flags with
  | none => (enoent, s.disturbed w)
  | some (e, new) => (s.disturbed w).placeEntry e new

def closeEntry (fd : Int) (s : Shell) : Shell :=
  match s.table.get fd with
  | none => s
  | some e =>
    { s with
      table := s.table.set fd.toNat none
      objects := if onSlot e then s.objects.free (place e) else s.objects }

def close (w : World) (fd : Int) (s : Shell) : Shell := (s.disturbed w).closeEntry fd

/-- The two variables keep their -1 when the call fails. -/
def placeEnds (rawReadFd rawWriteFd : Nat) (s : Shell) : (Int × Int) × Shell :=
  if (s.objects.number (.pipe, rawReadFd)).isSome || (s.objects.number (.pipe, rawWriteFd)).isSome
  then ((-1, -1), s) else
  match s.table.openPipe rawReadFd rawWriteFd with
  | (none, t) => ((-1, -1), { s with table := t })
  | (some (r, w), t) =>
    ((r, w), { s with
      table := t
      objects := (s.objects.take (.pipe, rawReadFd)).take (.pipe, rawWriteFd) })

def pipe (w : World) (s : Shell) : (Int × Int) × Shell :=
  match w.ends s.clock with
  | none => ((-1, -1), s.disturbed w)
  | some (rawReadFd, rawWriteFd) => (s.disturbed w).placeEnds rawReadFd rawWriteFd

def fork (w : World) (s : Shell) : Option Nat × Shell := (w.child s.clock, s.disturbed w)

/-! ## Carrying a line out -/

def closeIfOpen (w : World) (fd : Int) (s : Shell) : Shell :=
  if 0 ≤ fd then s.close w fd else s

def openPipes (w : World) : Nat → Shell → List (Int × Int) × Shell
  | 0, s => ([], s)
  | n + 1, s =>
    let (ends, s) := s.pipe w
    let (rest, s) := openPipes w n s
    (ends :: rest, s)

/-- Fork the stages; a stage whose `fork` failed keeps pid 0. -/
def forkStages (w : World) : Nat → Shell → List Nat × Shell
  | 0, s => ([], s)
  | n + 1, s =>
    let (child, s) := s.fork w
    let (rest, s) := forkStages w n s
    (child.getD 0 :: rest, s)

def closePipes (w : World) : List (Int × Int) → Shell → Shell
  | [], s => s
  | (r, wr) :: rest, s => closePipes w rest ((s.close w r).close w wr)

def waitAll (w : World) : List Nat → Shell → Shell
  | [], s => s
  | pid :: rest, s => waitAll w rest (if 0 < pid then s.idle w else s)

def runPipeline (w : World) (n : Nat) (finalOutFd : Int) (s : Shell) : Shell :=
  if n = 0 then s else
  let (ends, s) := openPipes w (n - 1) s
  let (childPids, s) := forkStages w n s
  let s := closePipes w ends s
  let s := closeIfOpen w finalOutFd s
  waitAll w childPids s

/-- The reads of `do_cat`, the last of which ends the loop. -/
def readBlocks (w : World) : Nat → Shell → Shell
  | 0, s => s.idle w
  | n + 1, s => readBlocks w n (s.idle w)

def doCat (w : World) (path : List Char) (s : Shell) : Shell :=
  if path = [] then s else
  let (fd, s) := s.openFile w path 0
  if fd < 0 then s else
  (readBlocks w w.blocks s).close w fd

def foreground (w : World) (args : List Char) (s : Shell) : Shell :=
  let jnum := if args = [] then s.jobs.length else (parseU32 args).getD 0
  match s.jobs.getByNum jnum with
  | none => s
  | some pid =>
    let s := s.idle w
    { s with jobs := s.jobs.removePid pid }

def external (w : World) (background : Bool) (redirFd : Int) (prog : List Char) (s : Shell) :
    Shell :=
  let (child, s) := s.fork w
  let s := closeIfOpen w redirFd s
  match child with
  | none => s
  | some pid =>
    if background then
      { s with jobs := (s.jobs.add pid (String.ofList prog).toUTF8.toList).2 }
    else s.idle w

/-- The `match` on the command word; `none` when the shell exits. -/
def runCommand (w : World) (background : Bool) (redirFd : Int) (cmd args : List Char)
    (s : Shell) : Option Shell :=
  match command cmd with
  | .exit => none
  | .echo =>
    if 0 ≤ redirFd then some (((s.idle w).idle w).close w redirFd) else some s
  | .cat => some (s.doCat w args)
  | .ls => some (s.idle w)
  | .pwd | .clear | .help | .jobs => some s
  | .fg => some (s.foreground w args)
  | .export => some (s.idle w)
  | .empty => some (s.closeIfOpen w redirFd)
  | .external => some (s.external w background redirFd cmd)

def redirFlags (append : Bool) : Nat := oWronly ||| oCreat ||| if append then oAppend else oTrunc

/-- Open the redirection; `none` sends the shell back to its prompt. -/
def openRedirect (w : World) (redir : Option (Bool × Bytes)) (s : Shell) : Option Int × Shell :=
  match redir with
  | none => (some (-1), s)
  | some (append, path) =>
    match fromUtf8 path with
    | none => (none, s)
    | some path =>
      let (fd, s) := s.openFile w (trim path) (redirFlags append)
      if fd < 0 then (none, s) else (some fd, s)

def execute (w : World) (p : Parsed) (redirFd : Int) (s : Shell) : Option Shell :=
  if 1 < p.segs.length then some (s.runPipeline w p.segs.length redirFd) else
  match fromUtf8 (p.segs.headD []) with
  | none => some s
  | some line =>
    let line := trim line
    if line = [] then some (s.closeIfOpen w redirFd) else
    s.runCommand w p.background redirFd (words line).1 (words line).2

/-- One round of the main loop, from prompt to prompt. -/
def runLine (s : Shell) (input : World × Bytes) : Option Shell :=
  let (w, keys) := input
  let s := { s with clock := 0, spared := true }.idle w
  let line := readline keys
  if line = [] then some s else
  let p := parse w.env line
  match s.openRedirect w p.redir with
  | (none, s) => some s
  | (some redirFd, s) => s.execute w p redirFd

/-! ## What others do -/

/-- What the descriptors denote. -/
def denotes (s : Shell) (fd : Nat) : Option (FdBackend × Option Nat × Bytes) :=
  (s.table.entries fd).map s.objects.denoted

section Others

variable {ev : Other} {t : FdTable} {o : Objects} {e e' : FdEntry} {fd : Nat}

theorem ne_ramFS_of_onSlot (slot : onSlot e = true) : e.backend ≠ .ramFS := by
  intro ram
  simp [onSlot, ram] at slot

/-- Others change entries of the RAM disk only. -/
theorem onTable_some (here : (ev.onTable t).entries fd = some e') :
    ∃ e, t.entries fd = some e ∧ (e' = e ∨ e'.backend = .ramFS) := by
  cases ev with
  | replace | take | free => exact ⟨e', here, .inl rfl⟩
  | unlink idx =>
    simp only [Other.onTable, FdTable.onInodeRemoved] at here
    cases entry : t.entries fd with
    | none => simp [entry] at here
    | some e =>
      refine ⟨e, rfl, ?_⟩
      by_cases ram : e.backend = .ramFS
      · right
        simp only [entry, ram, ne_eq, not_true_eq_false, if_false] at here
        split at here
        · cases here
        · split at here
          · cases here
            rfl
          · cases here
            exact ram
      · left
        simp only [entry, ne_eq, ram, not_false_eq_true, if_true, Option.some.injEq] at here
        exact here.symm

/-- An entry whose object is not touched denotes it still. -/
theorem denoted_spared (here : t.entries fd = some e) (spared : ev.sparesEntry e = true) :
    ((ev.onTable t).entries fd).map (ev.onObjects o).denoted = some (o.denoted e) := by
  cases ev with
  | take p | free p =>
    have other : place e ≠ p := of_decide_eq_true spared
    simp [Other.onTable, Other.onObjects, here, Objects.denoted, Objects.take, Objects.free, other]
  | replace idx =>
    have before : e.backend ≠ .ramFS ∨ e.inodeIdx < idx := of_decide_eq_true spared
    have same : (o.erase idx).number (place e) = o.number (place e) := by
      simp only [Objects.erase, place]
      rw [if_neg]
      rintro ⟨ram, behind⟩
      rw [if_pos ram] at behind
      exact before.elim (absurd ram) (by omega)
    simp [Other.onTable, Other.onObjects, here, Objects.denoted, same]
  | unlink idx =>
    have other : place e ≠ (.ramFS, idx) := of_decide_eq_true spared
    simp only [Other.onTable, Other.onObjects, FdTable.onInodeRemoved, here]
    by_cases ram : e.backend = .ramFS
    · have ne : e.inodeIdx ≠ idx := by
        intro same
        exact other (by simp [place, ram, same])
      rw [if_neg (by simp [ram]), if_neg ne]
      split
      · next behind =>
          have back : e.inodeIdx - 1 + 1 = e.inodeIdx := by omega
          have moved : idx ≤ e.inodeIdx - 1 := by omega
          simp [Objects.denoted, place, ram, Objects.erase, moved, back]
      · next ahead =>
          have stays : ¬ idx ≤ e.inodeIdx := by omega
          simp [Objects.denoted, place, ram, Objects.erase, stays]
    · simp [Objects.denoted, place, ram, Objects.erase]

end Others

/-! ## Descriptors on top of those of the prompt -/

/-- Descriptors at a prompt: those a program is started with, each with its object. -/
structure Prompt (d : Nat → Option (FdBackend × Option Nat × Bytes)) : Prop where
  fresh : ∀ fd, 3 ≤ fd → d fd = none
  grounded : ∀ fd x, d fd = some x → x.2.1.isSome = true

/-- A descriptor the shell has opened, or the -1 of a failed call. -/
def Opened (x : Int) : Prop := x = -1 ∨ (3 ≤ x ∧ x < (maxFd : Int))

/-- The place is not that of a descriptor below 3. -/
def Apart (p : Place) (t : FdTable) : Prop := ∀ fd < 3, ∀ e, t.entries fd = some e → place e ≠ p

/-- Descriptors below 3 denote what they did at the prompt. The others are in `extra`, and
have slots of their own. -/
structure Kept (d : Nat → Option (FdBackend × Option Nat × Bytes)) (extra : List Int)
    (s : Shell) : Prop where
  rest : ∀ fd < 3, s.denotes fd = d fd
  only : ∀ fd e, 3 ≤ fd → s.table.entries fd = some e →
    (fd : Int) ∈ extra ∧ (onSlot e = true → Apart (place e) s.table)

namespace Kept

variable {d : Nat → Option (FdBackend × Option Nat × Bytes)} {extra : List Int} {s : Shell}
  {fd : Nat} {e : FdEntry} {p : Place}

theorem mono {more : List Int} (kept : Kept d extra s)
    (sub : ∀ x : Nat, (x : Int) ∈ extra → (x : Int) ∈ more) : Kept d more s :=
  ⟨kept.rest, fun fd e high here => (kept.only fd e high here).imp_left (sub fd)⟩

theorem denoted (kept : Kept d extra s) (low : fd < 3) (here : s.table.entries fd = some e) :
    d fd = some (s.objects.denoted e) := by
  rw [← kept.rest fd low, denotes, here, Option.map_some]

theorem disturb (kept : Kept d extra s) {ev : Other} (spares : ev.spares s.table = true) :
    Kept d extra (s.disturb ev) := by
  constructor
  · intro fd low
    cases here : s.table.entries fd with
    | some e =>
      have spared : ev.sparesEntry e = true := by
        have := List.all_eq_true.mp spares fd (List.mem_range.mpr low)
        rwa [here, Option.all_some] at this
      exact (denoted_spared here spared).trans (kept.denoted low here).symm
    | none =>
      rw [← kept.rest fd low, denotes, denotes, here]
      cases after : (s.disturb ev).table.entries fd with
      | none => rfl
      | some e' =>
        obtain ⟨e, there, -⟩ := onTable_some after
        cases here.symm.trans there
  · intro x e high here
    obtain ⟨e₀, here₀, same⟩ := onTable_some here
    obtain ⟨inside, apart⟩ := kept.only x e₀ high here₀
    refine ⟨inside, fun slot fd low e' there equal => ?_⟩
    have plain := same.resolve_right (ne_ramFS_of_onSlot slot)
    subst plain
    obtain ⟨e₁, there₀, same | ram⟩ := onTable_some there
    · subst same
      exact apart slot fd low e' there₀ equal
    · exact ne_ramFS_of_onSlot slot ((congrArg Prod.fst equal).symm.trans ram)

theorem apart_of_free (kept : Kept d extra s) (prompt : Prompt d)
    (free : s.objects.number p = none) : Apart p s.table := by
  intro fd low e here same
  have taken : (s.objects.number (place e)).isSome = true :=
    prompt.grounded fd _ (kept.denoted low here)
  rw [same, free] at taken
  cases taken

/-- The object at a place that is not of the prompt may change. -/
theorem setObject (kept : Kept d extra s) {o : Objects} (apart : Apart p s.table)
    (same : ∀ q ≠ p, o.number q = s.objects.number q) : Kept d extra { s with objects := o } := by
  refine ⟨fun fd low => ?_, kept.only⟩
  rw [← kept.rest fd low]
  simp only [denotes]
  cases here : s.table.entries fd with
  | none => rfl
  | some e => simp only [Option.map_some, Objects.denoted, same _ (apart fd low e here)]

theorem take (kept : Kept d extra s) (apart : Apart p s.table) :
    Kept d extra { s with objects := s.objects.take p } :=
  kept.setObject apart fun _ other => update_of_ne other ..

/-- A descriptor above those of the prompt is set or closed. -/
theorem set (kept : Kept d extra s) (high : 3 ≤ fd) {new : Option FdEntry} {more : List Int}
    (sub : ∀ x : Nat, x ≠ fd → (x : Int) ∈ extra → (x : Int) ∈ more)
    (own : ∀ e ∈ new, (fd : Int) ∈ more ∧ (onSlot e = true → Apart (place e) s.table)) :
    Kept d more { s with table := s.table.set fd new } := by
  have below : ∀ low < 3, (s.table.set fd new).entries low = s.table.entries low := by
    intro low small
    rw [FdTable.set_entries, if_neg (by omega)]
  have apart : ∀ {q}, Apart q s.table → Apart q (s.table.set fd new) :=
    fun apart low small e here => apart low small e (below low small ▸ here)
  refine ⟨fun low small => ?_, fun x e high' here => ?_⟩
  · rw [← kept.rest low small, denotes, denotes, below low small]
  · rw [FdTable.set_entries] at here
    split at here
    · next same =>
        subst same
        exact (own e here).imp_right fun own slot => apart (own slot)
    · next other =>
        obtain ⟨inside, own⟩ := kept.only x e high' here
        exact ⟨sub x other inside, fun slot => apart (own slot)⟩

theorem opening (kept : Kept d extra s) (high : 3 ≤ fd)
    (apart : onSlot e = true → Apart (place e) s.table) :
    Kept d (fd :: extra) { s with table := s.table.set fd (some e) } :=
  kept.set high (fun _ _ => List.mem_cons_of_mem _) (by
    rintro e' ⟨⟩
    exact ⟨List.mem_cons_self, apart⟩)

/-- Closing an extra descriptor leaves the others. -/
theorem closeEntry (kept : Kept d ((fd : Int) :: extra) s) (high : 3 ≤ fd) (small : fd < maxFd) :
    Kept d extra (s.closeEntry fd) := by
  have same : s.table.get fd = s.table.entries fd := by
    rw [FdTable.get, if_neg (by omega), Int.toNat_natCast]
  have sub : ∀ x : Nat, x ≠ fd → (x : Int) ∈ (fd : Int) :: extra → (x : Int) ∈ extra :=
    fun x other inside => (List.mem_cons.mp inside).resolve_left fun same =>
      other (Int.ofNat.inj same)
  unfold Shell.closeEntry
  rw [same]
  cases here : s.table.entries fd with
  | none =>
    refine ⟨kept.rest, fun x e high' there => ?_⟩
    refine (kept.only x e high' there).imp_left (sub x ?_)
    rintro rfl
    cases here.symm.trans there
  | some e =>
    simp only [Int.toNat_natCast]
    have gone : ∀ e' ∈ (none : Option FdEntry), (fd : Int) ∈ extra ∧
        (onSlot e' = true → Apart (place e') s.table) := by simp
    split
    · next slot =>
        have freed := kept.setObject (o := s.objects.free (place e))
          ((kept.only fd e high here).2 slot) fun _ other => update_of_ne other ..
        exact freed.set high sub gone
    · exact kept.set high sub gone

/-- There is room as long as the shell has few descriptors open. -/
theorem allocFd_isSome (kept : Kept d extra s) (few : extra.length < maxFd - 3) :
    ∃ fd, s.table.allocFd = some fd := by
  cases found : s.table.allocFd with
  | some fd => exact ⟨fd, rfl⟩
  | none =>
    exfalso
    have full := firstFrom_eq_none.mp found
    have sub : (List.range' 3 (maxFd - 3)).map Int.ofNat ⊆ extra := by
      intro x inside
      obtain ⟨fd, within, rfl⟩ := List.mem_map.mp inside
      rw [List.mem_range'_1] at within
      obtain ⟨e, here⟩ := Option.isSome_iff_exists.mp
        (Option.isNone_eq_false_iff.mp (full fd within.1 within.2))
      exact (kept.only fd e within.1 here).1
    have nodup : ((List.range' 3 (maxFd - 3)).map Int.ofNat).Nodup :=
      List.Nodup.map (fun _ _ same => Int.ofNat.inj same) List.nodup_range'
    have := (List.subperm_of_subset nodup sub).length_le
    rw [List.length_map, List.length_range'] at this
    omega

end Kept

theorem opened_of_allocFd {t : FdTable} {fd : Nat} (found : t.allocFd = some fd) :
    3 ≤ fd ∧ Opened fd := by
  obtain ⟨low, high, -⟩ := firstFrom_eq_some found
  unfold Opened maxFd at *
  omega

/-- Unless others have touched the objects of the prompt, the descriptors in `extra` are
all there are on top of its own. -/
structure Over (d : Nat → Option (FdBackend × Option Nat × Bytes)) (extra : List Int)
    (s : Shell) : Prop where
  kept : s.spared = true → Kept d extra s
  opened : ∀ x ∈ extra, Opened x

namespace Over

variable {w : World} {d : Nat → Option (FdBackend × Option Nat × Bytes)} {extra : List Int}
  {s : Shell}

theorem mono {more : List Int} (h : Over d extra s) (sub : ∀ x ∈ extra, x = -1 ∨ x ∈ more)
    (back : ∀ x ∈ more, x = -1 ∨ x ∈ extra) : Over d more s :=
  ⟨fun spared => (h.kept spared).mono fun x inside => (sub x inside).resolve_left (by omega),
    fun x inside => (back x inside).elim .inl (h.opened x)⟩

theorem withJobs (h : Over d extra s) (jobs : JobTable) : Over d extra { s with jobs := jobs } :=
  ⟨fun spared => ⟨(h.kept spared).rest, (h.kept spared).only⟩, h.opened⟩

/-- The part of a call that others play. -/
theorem disturbed (h : Over d extra s) : Over d extra (s.disturbed w) := by
  unfold Shell.disturbed
  have start : Over d extra { s with clock := s.clock + 1 } :=
    ⟨fun spared => ⟨(h.kept spared).rest, (h.kept spared).only⟩, h.opened⟩
  generalize { s with clock := s.clock + 1 } = s₀ at start
  induction w.others s.clock generalizing s₀ with
  | nil => exact start
  | cons ev rest ih =>
    refine ih _ ⟨fun spared => ?_, start.opened⟩
    obtain ⟨before, spares⟩ := Bool.and_eq_true_iff.mp spared
    exact (start.kept before).disturb spares

theorem idle (h : Over d extra s) : Over d extra (s.idle w) := h.disturbed

/-- A call that failed has opened nothing. -/
theorem unopened {fd : Int} (h : Over d (fd :: extra) s) (negative : fd < 0) : Over d extra s := by
  have failed : fd = -1 := by
    have := h.opened fd List.mem_cons_self
    unfold Opened at this
    omega
  refine h.mono (fun x inside => ?_) fun x inside => .inr (List.mem_cons_of_mem _ inside)
  exact (List.mem_cons.mp inside).imp (·.trans failed) id

theorem close {fd : Int} (h : Over d (fd :: extra) s) : Over d extra (s.close w fd) := by
  have before := h.disturbed (w := w)
  unfold Shell.close
  rcases Int.lt_or_le fd 0 with negative | positive
  · rw [Shell.closeEntry, FdTable.get, if_pos (.inl negative)]
    exact before.unopened negative
  · refine ⟨fun spared => ?_, fun x inside => h.opened x (List.mem_cons_of_mem _ inside)⟩
    have untouched : ((s.disturbed w).closeEntry fd).spared = (s.disturbed w).spared := by
      unfold Shell.closeEntry
      split <;> rfl
    have range := h.opened fd List.mem_cons_self
    unfold Opened at range
    lift fd to Nat using positive
    exact (before.kept (untouched ▸ spared)).closeEntry (by omega) (by omega)

theorem closeIfOpen {fd : Int} (h : Over d (fd :: extra) s) :
    Over d extra (s.closeIfOpen w fd) := by
  unfold Shell.closeIfOpen
  split
  · exact h.close
  · next negative => exact h.unopened (by omega)

theorem failed (h : Over d extra s) : Over d (-1 :: -1 :: extra) s :=
  h.mono (fun x inside => by simp [inside]) fun x inside => by simpa using inside

/-- The descriptors of some pipes. -/
def endsOf (pipes : List (Int × Int)) : List Int := pipes.flatMap fun p => [p.1, p.2]

theorem closePipes : ∀ (pipes : List (Int × Int)) {s : Shell},
    Over d (endsOf pipes ++ extra) s → Over d extra (s.closePipes w pipes)
  | [], _, h => h
  | _ :: rest, _, h => closePipes rest h.close.close

theorem fork (h : Over d extra s) : Over d extra (s.fork w).2 := h.disturbed

theorem forkStages : ∀ (n : Nat) {s : Shell},
    Over d extra s → Over d extra (s.forkStages w n).2
  | 0, _, h => h
  | n + 1, _, h => forkStages n h.fork

theorem waitAll : ∀ (pids : List Nat) {s : Shell},
    Over d extra s → Over d extra (s.waitAll w pids)
  | [], _, h => h
  | pid :: rest, s, h => by
      unfold Shell.waitAll
      split
      · exact waitAll rest h.idle
      · exact waitAll rest h

theorem readBlocks : ∀ (n : Nat) {s : Shell},
    Over d extra s → Over d extra (s.readBlocks w n)
  | 0, _, h => h.idle
  | n + 1, _, h => readBlocks n h.idle

theorem foreground (h : Over d [] s) (args : List Char) :
    Over d [] (s.foreground w args) := by
  simp only [Shell.foreground]
  split
  · exact h
  · exact h.idle.withJobs _

theorem external {fd : Int} (h : Over d [fd] s) (background : Bool)
    (prog : List Char) : Over d [] (s.external w background fd prog) := by
  have closed := (h.fork (w := w)).closeIfOpen (w := w)
  simp only [Shell.external]
  split
  · exact closed
  · split
    · exact closed.withJobs _
    · exact closed.idle

section Opening

variable (prompt : Prompt d)
include prompt

/-- An `open` fails, or its answer is one more descriptor. -/
theorem placeEntry (h : Over d extra s) (e : FdEntry) (new : Bool) :
    (s.placeEntry e new).1 < 0 ∧ Over d extra (s.placeEntry e new).2 ∨
    0 ≤ (s.placeEntry e new).1 ∧
      Over d ((s.placeEntry e new).1 :: extra) (s.placeEntry e new).2 := by
  unfold Shell.placeEntry
  split
  · exact .inl ⟨show enoent < 0 by decide, h⟩
  · next offered =>
      have free (spared : s.spared = true) (slot : (onSlot e || new) = true) :
          Apart (place e) s.table := by
        rw [slot, Bool.true_and] at offered
        exact (h.kept spared).apart_of_free prompt (Option.not_isSome_iff_eq_none.mp offered)
      have taken : s.spared = true → Kept d extra { s with
          objects := if onSlot e || new then s.objects.take (place e) else s.objects } := by
        intro spared
        split
        · next slot => exact (h.kept spared).take (free spared slot)
        · exact h.kept spared
      simp only [FdTable.place]
      cases found : s.table.allocFd with
      | none => exact .inl ⟨show emfile < 0 by decide, taken, h.opened⟩
      | some fd =>
        obtain ⟨high, opened⟩ := opened_of_allocFd found
        exact .inr ⟨Int.natCast_nonneg fd,
          fun spared => (taken spared).opening high fun slot => free spared (by rw [slot]; rfl),
          List.forall_mem_cons.mpr ⟨opened, h.opened⟩⟩

theorem openFile (h : Over d extra s) (path : List Char) (flags : Nat) :
    (s.openFile w path flags).1 < 0 ∧ Over d extra (s.openFile w path flags).2 ∨
    0 ≤ (s.openFile w path flags).1 ∧
      Over d ((s.openFile w path flags).1 :: extra) (s.openFile w path flags).2 := by
  unfold Shell.openFile
  split
  · exact .inl ⟨show enoent < 0 by decide, h.disturbed⟩
  · exact h.disturbed.placeEntry prompt ..

/-- With room for two, a `pipe` fails without a trace or has both its ends. -/
theorem placeEnds (h : Over d extra s) (few : extra.length + 2 ≤ maxFd - 3) (r w : Nat) :
    Over d ((s.placeEnds r w).1.1 :: (s.placeEnds r w).1.2 :: extra) (s.placeEnds r w).2 := by
  unfold Shell.placeEnds
  split
  · exact h.failed
  · next offered =>
      rw [Bool.or_eq_true, not_or, Option.not_isSome_iff_eq_none,
        Option.not_isSome_iff_eq_none] at offered
      unfold FdTable.openPipe
      cases found : s.table.allocFd with
      | none =>
        refine Over.failed ⟨fun spared => ?_, h.opened⟩
        obtain ⟨fd, room⟩ := (h.kept spared).allocFd_isSome (by omega)
        cases found.symm.trans room
      | some rfd =>
        obtain ⟨high, opened⟩ := opened_of_allocFd found
        have one (spared : s.spared = true) :=
          (h.kept spared).opening (e := .plain .pipe r false) high
            fun _ => (h.kept spared).apart_of_free prompt offered.1
        dsimp only
        cases found' : (s.table.set rfd (some (.plain .pipe r false))).allocFd with
        | none =>
          refine Over.failed ⟨fun spared => ?_, h.opened⟩
          obtain ⟨fd, room⟩ := (one spared).allocFd_isSome (by simp; omega)
          cases found'.symm.trans room
        | some wfd =>
          obtain ⟨high', opened'⟩ := opened_of_allocFd found'
          refine ⟨fun spared => ?_, List.forall_mem_cons.mpr
            ⟨opened, List.forall_mem_cons.mpr ⟨opened', h.opened⟩⟩⟩
          have two := (one spared).opening (e := .plain .pipe w true) high'
            fun _ => (one spared).apart_of_free prompt offered.2
          refine ((two.take (two.apart_of_free prompt offered.1)).take
            (two.apart_of_free prompt offered.2)).mono fun x => ?_
          simp only [List.mem_cons]
          tauto

theorem pipe (h : Over d extra s) (few : extra.length + 2 ≤ maxFd - 3) :
    Over d ((s.pipe w).1.1 :: (s.pipe w).1.2 :: extra) (s.pipe w).2 := by
  unfold Shell.pipe
  split
  · exact h.disturbed.failed
  · exact h.disturbed.placeEnds prompt few ..

theorem openPipes : ∀ (n : Nat) {extra : List Int} {s : Shell},
    Over d extra s → extra.length + 2 * n ≤ maxFd - 3 →
    Over d (endsOf (s.openPipes w n).1 ++ extra) (s.openPipes w n).2
  | 0, _, _, h, _ => h
  | n + 1, extra, s, h, few => by
      have first := h.pipe (w := w) prompt (by omega)
      have all := openPipes n first (by simp; omega)
      simp only [Shell.openPipes]
      refine all.mono (fun x inside => .inr ?_) fun x inside => .inr ?_
      all_goals
        simp only [endsOf, List.flatMap_cons, List.mem_append, List.mem_cons] at inside ⊢
        tauto

/-! ## The parts of a line -/

/-- A pipeline of at most eight stages closes all its pipes, and its redirection. -/
theorem runPipeline {n : Nat} {fd : Int} (h : Over d [fd] s) (some_ : n ≠ 0)
    (stages : n ≤ maxSegs) : Over d [] (s.runPipeline w n fd) := by
  have few : [fd].length + 2 * (n - 1) ≤ maxFd - 3 := by
    unfold maxSegs at stages
    simp only [List.length_cons, List.length_nil, maxFd]
    omega
  have opened := h.openPipes (w := w) prompt (n - 1) few
  have forked := opened.forkStages (w := w) n
  have closed := (forked.closePipes (w := w) _).closeIfOpen (w := w)
  simp only [Shell.runPipeline, if_neg some_]
  exact closed.waitAll _

theorem doCat (h : Over d [] s) (path : List Char) :
    Over d [] (s.doCat w path) := by
  simp only [Shell.doCat]
  split
  · exact h
  · rcases h.openFile (w := w) prompt path 0 with ⟨failed, after⟩ | ⟨opened, after⟩
    · rw [if_pos failed]
      exact after
    · rw [if_neg (by omega)]
      exact (after.readBlocks w.blocks).close

end Opening

end Over

/-! ## Lines that close what they open -/

/-- The arms that close the redirection, or do not come back to the prompt. -/
def closesRedirect : Command → Bool
  | .exit | .echo | .empty | .external => true
  | .cat | .ls | .pwd | .clear | .help | .jobs | .fg | .export => false

/-- The line has no redirection, or what runs closes it. -/
def Tidy (p : Parsed) : Prop :=
  p.redir = none ∨ 1 < p.segs.length ∨
    ((fromUtf8 (p.segs.headD [])).any fun line =>
      trim line = [] ∨ closesRedirect (command (words (trim line)).1)) = true

instance (p : Parsed) : Decidable (Tidy p) := by
  unfold Tidy
  infer_instance

theorem splitPipes_length : ∀ (room : Nat) (line : Bytes), (splitPipes room line).length ≤ room
  | 0, _ => Nat.le_refl 0
  | room + 1, line => by
      unfold splitPipes
      split
      · exact Nat.succ_le_succ (splitPipes_length room _)
      · exact Nat.succ_le_succ (Nat.zero_le room)

section Lines

variable {w : World} {d : Nat → Option (FdBackend × Option Nat × Bytes)} {s s' : Shell}
  (prompt : Prompt d)
include prompt

theorem runCommand_over {fd : Int} {background : Bool} {cmd args : List Char}
    (h : Over d [fd] s) (closes : fd = -1 ∨ closesRedirect (command cmd) = true)
    (ran : s.runCommand w background fd cmd args = some s') : Over d [] s' := by
  have alone (failed : fd = -1) : Over d [] s := h.unopened (by omega)
  unfold Shell.runCommand at ran
  cases arm : command cmd with
  | exit => simp [arm] at ran
  | echo =>
    simp only [arm] at ran
    split at ran
    · cases ran
      exact h.idle.idle.close
    · next negative =>
        cases ran
        exact h.unopened (by omega)
  | empty =>
    simp only [arm, Option.some.injEq] at ran
    exact ran ▸ h.closeIfOpen
  | external =>
    simp only [arm, Option.some.injEq] at ran
    exact ran ▸ h.external background cmd
  | cat =>
    simp only [arm, closesRedirect, Bool.false_eq_true, or_false, Option.some.injEq] at ran closes
    exact ran ▸ (alone closes).doCat prompt args
  | fg =>
    simp only [arm, closesRedirect, Bool.false_eq_true, or_false, Option.some.injEq] at ran closes
    exact ran ▸ (alone closes).foreground args
  | ls | «export» =>
    simp only [arm, closesRedirect, Bool.false_eq_true, or_false, Option.some.injEq] at ran closes
    exact ran ▸ (alone closes).idle
  | pwd | clear | help | jobs =>
    simp only [arm, closesRedirect, Bool.false_eq_true, or_false, Option.some.injEq] at ran closes
    exact ran ▸ alone closes

theorem execute_over {p : Parsed} {fd : Int} (stages : p.segs.length ≤ maxSegs)
    (tidy : Tidy p) (alone : p.redir = none → fd = -1) (h : Over d [fd] s)
    (ran : s.execute w p fd = some s') : Over d [] s' := by
  unfold Shell.execute at ran
  split at ran
  · next several =>
      cases ran
      exact h.runPipeline prompt (by omega) stages
  · next single =>
      have closes : fd = -1 ∨ ((fromUtf8 (p.segs.headD [])).any fun line =>
          trim line = [] ∨ closesRedirect (command (words (trim line)).1)) = true := by
        rcases tidy with none_ | several | closes
        · exact .inl (alone none_)
        · exact absurd several single
        · exact .inr closes
      cases decoded : fromUtf8 (p.segs.headD []) with
      | none =>
        simp only [decoded, Option.some.injEq, Option.any_none, Bool.false_eq_true,
          or_false] at ran closes
        exact ran ▸ h.unopened (by omega)
      | some line =>
        simp only [decoded, Option.any_some, decide_eq_true_eq] at ran closes
        split at ran
        · cases ran
          exact h.closeIfOpen
        · next filled =>
            exact runCommand_over prompt h (closes.imp_right fun c => c.resolve_left filled) ran

theorem openRedirect_over (h : Over d [] s) (redir : Option (Bool × Bytes)) :
    ∃ s', (s.openRedirect w redir = (none, s') ∧ Over d [] s') ∨
      ∃ fd, s.openRedirect w redir = (some fd, s') ∧ (redir = none → fd = -1) ∧
        Over d [fd] s' := by
  match redir with
  | none =>
    exact ⟨s, .inr ⟨-1, rfl, fun _ => rfl, h.mono (fun x inside => absurd inside List.not_mem_nil)
      fun x inside => .inl (List.mem_singleton.mp inside)⟩⟩
  | some (append, path) =>
    cases decoded : fromUtf8 path with
    | none => exact ⟨s, .inl ⟨by simp only [Shell.openRedirect, decoded], h⟩⟩
    | some path =>
      simp only [Shell.openRedirect, decoded]
      rcases h.openFile (w := w) prompt (trim path) (redirFlags append) with
        ⟨failed, after⟩ | ⟨opened, after⟩
      · exact ⟨_, .inl ⟨if_pos failed, after⟩⟩
      · exact ⟨_, .inr ⟨_, if_neg (by omega), by simp, after⟩⟩

/-- **One line.** Back at the prompt, the descriptors are those of the prompt before. -/
theorem runLine_over {keys : Bytes} (before : s.denotes = d)
    (tidy : Tidy (parse w.env (readline keys))) (ran : s.runLine (w, keys) = some s') :
    Over d [] s' := by
  have free : ∀ fd e, 3 ≤ fd → s.table.entries fd ≠ some e := by
    intro fd e high here
    have := (congrFun before fd).trans (prompt.fresh fd high)
    simp [denotes, here] at this
  have start : Over d [] { s with clock := 0, spared := true } :=
    ⟨fun _ => ⟨fun fd _ => congrFun before fd, fun fd e high here => absurd here (free fd e high)⟩,
      fun x inside => absurd inside List.not_mem_nil⟩
  have shown := start.idle (w := w)
  simp only [Shell.runLine] at ran
  split at ran
  · cases ran
    exact shown
  · obtain ⟨after, ⟨reached, opened⟩ | ⟨fd, reached, alone, opened⟩⟩ :=
      openRedirect_over (w := w) prompt shown (parse w.env (readline keys)).redir
    · rw [reached] at ran
      cases ran
      exact opened
    · rw [reached] at ran
      exact execute_over prompt (splitPipes_length _ _) tidy alone opened ran

end Lines

/-! ## Whole sessions -/

/-- While the line is carried out nobody touches the objects of descriptors 0 to 2. -/
def Spared (s : Shell) (input : World × Bytes) : Prop :=
  (s.runLine input).all Shell.spared = true

/-- The line closes what it opens, and the others leave the shell's objects alone. -/
def Orderly (s : Shell) (input : World × Bytes) : Prop :=
  Tidy (parse input.1.env (readline input.2)) ∧ Spared s input

instance (s : Shell) (input : World × Bytes) : Decidable (Orderly s input) := by
  unfold Orderly Spared
  infer_instance

theorem runLine_same {s s' : Shell} {input : World × Bytes} (prompt : Prompt s.denotes)
    (orderly : Orderly s input) (ran : s.runLine input = some s') : s'.denotes = s.denotes := by
  have spared : s'.spared = true := by
    have := orderly.2
    rwa [Spared, ran, Option.all_some] at this
  have kept := (runLine_over prompt rfl orderly.1 ran).kept spared
  funext fd
  rcases Nat.lt_or_ge fd 3 with low | high
  · exact kept.rest fd low
  · rw [prompt.fresh fd high]
    cases here : s'.table.entries fd with
    | none => rw [denotes, here, Option.map_none]
    | some e => exact absurd (kept.only fd e high here).1 List.not_mem_nil

/-- Everything succeeds and nobody else does anything. -/
def quietWorld : World where
  others := fun _ => []
  file := fun _ _ _ => some (.plain .ramFS 0 true, false)
  ends := fun k => some (80 + 4 * k, 81 + 4 * k)
  child := fun k => some (k + 10)
  blocks := 2
  env := fun _ => []

/-- A shell whose standard output is a file with some back end. -/
def redirectedShell (b : FdBackend) : Shell :=
  ⟨FdTable.new.set 1 (some (.plain b 0 true)), ⟨fun p => if p = (b, 0) then some 0 else none, 1⟩,
    [], 0, true⟩

theorem prompt_redirectedShell (b : FdBackend) : Prompt (redirectedShell b).denotes := by
  have entries : ∀ fd, (redirectedShell b).table.entries fd =
      if fd = 1 then some (.plain b 0 true) else none := fun fd => FdTable.set_entries ..
  constructor
  · intro fd high
    rw [denotes, entries, if_neg (by omega), Option.map_none]
  · intro fd x here
    rw [denotes, entries] at here
    split at here
    · cases here
      cases b <;> rfl
    · cases here

/-- A pipeline, a background job and a `cat`, the first two with a redirection. -/
def sampleLines : List (World × Bytes) :=
  [(quietWorld, ascii "ls | sort | wc >> f"), (quietWorld, ascii "sleep 5 > f &"),
    (quietWorld, ascii "cat f")]

/-- A child of the shell, forked by its third call, puts the redirection in the place of
its descriptor 1 and so closes slot 0 of the FAT driver. -/
def childWorld : World :=
  { quietWorld with others := fun k => if k = 3 then [.free (.fat16, 0)] else [] }

end Shell
end OxideOS.User
