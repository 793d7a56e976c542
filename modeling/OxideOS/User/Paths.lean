import OxideOS.Fs.RamFs
import OxideOS.Sys.UserBuffer

/-!
# Paths between the user library and the kernel

A wrapper of `userspace/oxide-rt` passes a path as a pointer and a length. The handlers
of `mkdir`, `unlink`, `rename` and `readdir` expect that, and those of `stat` and `exec`
recognise it by the length being small. The handlers of `open` and `chdir` expect a path
that ends in a NUL byte and take the length for something else; the path they work with
includes the NUL.

`handler_gets_path_iff` says for which calls the handler works with the path of the
caller: for those of the first group always, except that `readdir` takes a pointer below
4096 for a descriptor, for `stat` and `exec` if the path is not empty, for `open` and
`chdir` never. `open_scans_past_path` is an `open` that gets the
length of the path as its flags.

A program that uses the calls of Linux ends its path in a NUL. By `linux_path_iff` the
handler works with the NUL too; `stat_includes_nul` does not find `/etc` that way.
-/

set_option autoImplicit false

namespace OxideOS.User

open Sys

/-! ## Memory -/

/-- The memory of a program: the pages that are mapped, and the bytes. -/
structure UserMem where
  mapped : Nat → Bool
  byte : Nat → UInt8

namespace UserMem

/-- The bytes a slice of memory has. -/
def slice (m : UserMem) (ptr len : Nat) : List UInt8 :=
  (List.range len).map fun i => m.byte (ptr + i)

/-- The loop of `strnlen_user` from `i` on. A page is looked up once for each of its
bytes here, which makes no difference. -/
def strnlenFrom (m : UserMem) (ptr : Nat) : (i count : Nat) → Nat
  | i, 0 => i
  | i, count + 1 =>
    if !m.mapped ((ptr + i) / 4096) then 0
    else if m.byte (ptr + i) = 0 then i + 1
    else strnlenFrom m ptr (i + 1) count

/-- The length of a string with its NUL, or 0 if the string leaves the mapped pages. -/
def strnlenUser (m : UserMem) (ptr max : Nat) : Nat := m.strnlenFrom ptr 0 max

variable {m : UserMem} {ptr i count max : Nat}

theorem length_slice (len : Nat) : (m.slice ptr len).length = len := by simp [slice]

/-- A string that is not refused ends in a NUL, or is as long as allowed. -/
theorem strnlenFrom_cases :
    m.strnlenFrom ptr i count = 0 ∨ m.strnlenFrom ptr i count = i + count ∨
      ∃ j, m.strnlenFrom ptr i count = j + 1 ∧ m.byte (ptr + j) = 0 := by
  induction count generalizing i with
  | zero => exact .inr (.inl rfl)
  | succ count ih =>
    rw [strnlenFrom]
    split
    · exact .inl rfl
    · split
      · next nul => exact .inr (.inr ⟨i, rfl, nul⟩)
      · rcases ih (i := i + 1) with none | whole | nul
        · exact .inl none
        · exact .inr (.inl (by omega))
        · exact .inr (.inr nul)

/-- The scan never finds just the bytes of a short string without NUL. -/
theorem slice_strnlenUser_ne {path : List UInt8} (clean : (0 : UInt8) ∉ path)
    (short : path.length < max) (some : m.strnlenUser ptr max ≠ 0) :
    m.slice ptr (m.strnlenUser ptr max) ≠ path := by
  rintro rfl
  rw [length_slice] at short
  have cases : m.strnlenFrom ptr 0 max = 0 ∨ m.strnlenFrom ptr 0 max = 0 + max ∨
      ∃ j, m.strnlenFrom ptr 0 max = j + 1 ∧ m.byte (ptr + j) = 0 := strnlenFrom_cases
  rcases cases with none | whole | ⟨j, len, nul⟩
  · exact some none
  · have all : m.strnlenUser ptr max = 0 + max := whole
    omega
  · have length : m.strnlenUser ptr max = j + 1 := len
    refine clean (List.mem_map.mpr ⟨j, ?_, nul⟩)
    rw [length, List.mem_range]
    omega

end UserMem

/-! ## The two sides -/

/-- The calls a handler makes to the runtime. -/
inductive Op where
  | fsOpen (path : List UInt8) (flags : Nat)
  | chdir (path : List UInt8)
  | mkdir (path : List UInt8)
  | unlink (path : List UInt8)
  | rename (old new : List UInt8)
  | stat (path : List UInt8) (buf : Nat)
  | readdir (path : List UInt8) (buf room : Nat)
  | getdents64 (fd buf count : Nat)
  | exec (path : List UInt8)
  deriving DecidableEq

structure Request where
  number : Nat
  arg1 : Nat
  arg2 : Nat
  arg3 : Nat
  arg4 : Nat

def validate (ptr len : Nat) (rest : Except Int Op) : Except Int Op :=
  match validateUserRange ptr len with
  | .error e => .error e
  | .ok _ => rest

def sysOpen (m : UserMem) (pathPtr flags : Nat) : Except Int Op :=
  let pathLen := m.strnlenUser pathPtr 4096
  if pathLen = 0 then .error einval else
  validate pathPtr pathLen (.ok (.fsOpen (m.slice pathPtr pathLen) (flags % 2 ^ 32)))

def sysChdir (m : UserMem) (pathPtr : Nat) : Except Int Op :=
  let pathLen := m.strnlenUser pathPtr 4096
  if pathLen = 0 then .error einval else
  validate pathPtr pathLen (.ok (.chdir (m.slice pathPtr pathLen)))

def sysMkdir (m : UserMem) (pathPtr pathLen : Nat) : Except Int Op :=
  validate pathPtr pathLen (.ok (.mkdir (m.slice pathPtr pathLen)))

def sysUnlink (m : UserMem) (pathPtr pathLen : Nat) : Except Int Op :=
  validate pathPtr pathLen (.ok (.unlink (m.slice pathPtr pathLen)))

def sysRename (m : UserMem) (oldPtr oldLen newPtr newLen : Nat) : Except Int Op :=
  validate oldPtr oldLen (validate newPtr newLen
    (.ok (.rename (m.slice oldPtr oldLen) (m.slice newPtr newLen))))

/-- A second argument from 4096 on is the buffer of the Linux call. -/
def sysStat (m : UserMem) (pathPtr arg2 arg3 : Nat) : Except Int Op :=
  let pathLen := if 4096 ≤ arg2 then m.strnlenUser pathPtr 4096 else arg2
  let statBuf := if 4096 ≤ arg2 then arg2 else arg3
  if pathLen = 0 then .error einval else
  validate pathPtr pathLen (validate statBuf 144 (.ok (.stat (m.slice pathPtr pathLen) statBuf)))

def sysReaddir (m : UserMem) (pathPtr pathLen bufPtr bufLen : Nat) : Except Int Op :=
  validate pathPtr pathLen (validate bufPtr bufLen
    (.ok (.readdir (m.slice pathPtr pathLen) bufPtr bufLen)))

def sysExec (m : UserMem) (pathPtr arg2 : Nat) : Except Int Op :=
  let pathLen := if 4096 ≤ arg2 ∨ arg2 = 0 then m.strnlenUser pathPtr 4096 else arg2
  if pathLen = 0 then .error einval else
  validate pathPtr pathLen (.ok (.exec (m.slice pathPtr pathLen)))

def enosys : Int := -2

/-- The part of the dispatcher for calls with paths. A first argument below 4096 makes
`readdir` the Linux call on a descriptor. -/
def dispatch (m : UserMem) (r : Request) : Except Int Op :=
  match r.number with
  | 2 => sysOpen m r.arg1 r.arg2
  | 4 => sysStat m r.arg1 r.arg2 r.arg3
  | 59 => sysExec m r.arg1 r.arg2
  | 78 =>
    if r.arg1 < 4096 then validate r.arg2 r.arg3 (.ok (.getdents64 r.arg1 r.arg2 r.arg3))
    else sysReaddir m r.arg1 r.arg2 r.arg3 r.arg4
  | 80 => sysChdir m r.arg1
  | 82 => sysRename m r.arg1 r.arg2 r.arg3 r.arg4
  | 83 => sysMkdir m r.arg1 r.arg2
  | 87 => sysUnlink m r.arg1 r.arg2
  | _ => .error enosys

/-- A string of the program. -/
structure Str where
  ptr : Nat
  len : Nat

def Str.bytes (s : Str) (m : UserMem) : List UInt8 := m.slice s.ptr s.len

/-- The wrappers of the user library. -/
inductive Wrapper where
  | open (path : Str) (flags : Nat)
  | chdir (path : Str)
  | mkdir (path : Str)
  | unlink (path : Str)
  | rename (old new : Str)
  | stat (path : Str) (out : Nat)
  | readdir (path : Str) (buf room : Nat)
  | exec (path : Str)

/-- The registers a wrapper sets; the others hold what they held (`junk3`, `junk4`). -/
def Wrapper.request (junk3 junk4 : Nat) : Wrapper → Request
  | .open path flags => ⟨2, path.ptr, path.len, flags, junk4⟩
  | .chdir path => ⟨80, path.ptr, path.len, junk3, junk4⟩
  | .mkdir path => ⟨83, path.ptr, path.len, junk3, junk4⟩
  | .unlink path => ⟨87, path.ptr, path.len, junk3, junk4⟩
  | .rename old new => ⟨82, old.ptr, old.len, new.ptr, new.len⟩
  | .stat path out => ⟨4, path.ptr, path.len, out, junk4⟩
  | .readdir path buf room => ⟨78, path.ptr, path.len, buf, room⟩
  | .exec path => ⟨59, path.ptr, path.len, junk3, junk4⟩

/-- What the caller means. -/
def Wrapper.meaning (m : UserMem) : Wrapper → Op
  | .open path flags => .fsOpen (path.bytes m) flags
  | .chdir path => .chdir (path.bytes m)
  | .mkdir path => .mkdir (path.bytes m)
  | .unlink path => .unlink (path.bytes m)
  | .rename old new => .rename (old.bytes m) (new.bytes m)
  | .stat path out => .stat (path.bytes m) out
  | .readdir path buf room => .readdir (path.bytes m) buf room
  | .exec path => .exec (path.bytes m)

/-! ## Agreement -/

/-- The buffer is one a program can have. -/
def InUser (ptr len : Nat) : Prop := len = 0 ∨ userSpaceStart ≤ ptr ∧ ptr + len ≤ 2 ^ 47

/-- A path: not too long, and without NUL bytes. What follows it is not said. -/
def Str.IsPath (s : Str) (m : UserMem) : Prop :=
  InUser s.ptr s.len ∧ s.len ≤ 255 ∧ (0 : UInt8) ∉ s.bytes m

def Wrapper.Sound (m : UserMem) : Wrapper → Prop
  | .open path flags => path.IsPath m ∧ flags < 2 ^ 32
  | .chdir path | .mkdir path | .unlink path | .exec path => path.IsPath m
  | .rename old new => old.IsPath m ∧ new.IsPath m
  | .stat path out => path.IsPath m ∧ userSpaceStart ≤ out ∧ out + 16 ≤ 2 ^ 47
  | .readdir path buf room => path.IsPath m ∧ InUser buf room

/-- The wrappers whose handlers take a pointer and a length; for two of them the length
must not be zero, and for one the pointer must not be small. -/
def Wrapper.Counted : Wrapper → Prop
  | .open _ _ | .chdir _ => False
  | .mkdir _ | .unlink _ | .rename _ _ => True
  | .readdir path _ _ => 4096 ≤ path.ptr
  | .stat path _ | .exec path => path.len ≠ 0

section

variable {m : UserMem} {ptr len : Nat} {rest : Except Int Op} {op : Op}

theorem validate_inUser (inside : InUser ptr len) : validate ptr len rest = rest := by
  have passes : validateUserRange ptr len = .ok () := by
    unfold validateUserRange
    rcases inside with rfl | ⟨low, high⟩
    · rfl
    · unfold userSpaceStart at low
      split
      · rfl
      · rw [if_neg (by unfold userSpaceStart; omega), if_neg (by omega),
          if_neg (by unfold kernelSpaceBase; omega)]
  rw [validate, passes]

theorem validate_ok (passed : validate ptr len rest = .ok op) : rest = .ok op := by
  unfold validate at passed
  split at passed
  · cases passed
  · exact passed

/-- The bytes up to the NUL are not the path. -/
def ScansPast (m : UserMem) (ptr : Nat) (path : List UInt8) : Prop :=
  m.strnlenUser ptr 4096 ≠ 0 → m.slice ptr (m.strnlenUser ptr 4096) ≠ path

theorem Str.IsPath.ne_scan {s : Str} (path : s.IsPath m) : ScansPast m s.ptr (s.bytes m) := by
  have short : (s.bytes m).length < 4096 := by
    rw [Str.bytes, UserMem.length_slice]
    have := path.2.1
    omega
  exact UserMem.slice_strnlenUser_ne path.2.2 short

section

variable {path : List UInt8} (past : ScansPast m ptr path)
include past

theorem sysOpen_ne (arg2 flags : Nat) :
    sysOpen m ptr arg2 ≠ .ok (.fsOpen path flags) := by
  intro agreed
  simp only [sysOpen] at agreed
  split at agreed
  · cases agreed
  · next some =>
      have same := validate_ok agreed
      simp only [Except.ok.injEq, Op.fsOpen.injEq] at same
      exact past some same.1

theorem sysChdir_ne : sysChdir m ptr ≠ .ok (.chdir path) := by
  intro agreed
  simp only [sysChdir] at agreed
  split at agreed
  · cases agreed
  · next some =>
      have same := validate_ok agreed
      simp only [Except.ok.injEq, Op.chdir.injEq] at same
      exact past some same

theorem sysExec_ne {arg2 : Nat} (scans : 4096 ≤ arg2 ∨ arg2 = 0) :
    sysExec m ptr arg2 ≠ .ok (.exec path) := by
  intro agreed
  simp only [sysExec, if_pos scans] at agreed
  split at agreed
  · cases agreed
  · next some =>
      have same := validate_ok agreed
      simp only [Except.ok.injEq, Op.exec.injEq] at same
      exact past some same

/-- A buffer below 4096 is taken for the length, and the third argument for the buffer. -/
theorem sysStat_ne {buf : Nat} (arg3 : Nat) :
    sysStat m ptr buf arg3 ≠ .ok (.stat path buf) := by
  intro agreed
  by_cases scans : 4096 ≤ buf
  · simp only [sysStat, if_pos scans] at agreed
    split at agreed
    · cases agreed
    · next some =>
        have same := validate_ok (validate_ok agreed)
        simp only [Except.ok.injEq, Op.stat.injEq] at same
        exact past some same.1
  · simp only [sysStat, if_neg scans] at agreed
    split at agreed
    · cases agreed
    · have stored := validate_ok agreed
      have same := validate_ok stored
      simp only [Except.ok.injEq, Op.stat.injEq] at same
      have low : arg3 < userSpaceStart := by
        unfold userSpaceStart
        omega
      rw [validate, validateUserRange, if_neg (by decide), if_pos (.inl low)] at stored
      cases stored

end

theorem sysStat_iff {path : Str} {out : Nat} (sound : path.IsPath m) (low : userSpaceStart ≤ out)
    (high : out + 16 ≤ 2 ^ 47) :
    sysStat m path.ptr path.len out = .ok (.stat (path.bytes m) out) ↔ path.len ≠ 0 := by
  have short : ¬4096 ≤ path.len := by
    have := sound.2.1
    omega
  have buffer : validate out 144 (.ok (.stat (path.bytes m) out)) =
      .ok (.stat (path.bytes m) out) := by
    have passes : validateUserRange out 144 = .ok () := by
      unfold userSpaceStart at low
      unfold validateUserRange
      rw [if_neg (by decide), if_neg (by unfold userSpaceStart; omega), if_neg (by omega),
        if_neg (by unfold kernelSpaceBase; omega)]
    rw [validate, passes]
  simp only [sysStat, if_neg short, validate_inUser sound.1]
  by_cases empty : path.len = 0
  · rw [if_pos empty]
    refine ⟨fun agreed => ?_, fun filled => absurd empty filled⟩
    cases agreed
  · rw [if_neg empty]
    exact ⟨fun _ => empty, fun _ => buffer⟩

theorem sysExec_iff {path : Str} (sound : path.IsPath m) :
    sysExec m path.ptr path.len = .ok (.exec (path.bytes m)) ↔ path.len ≠ 0 := by
  by_cases empty : path.len = 0
  · refine ⟨fun agreed => ?_, fun filled => absurd empty filled⟩
    exact absurd agreed (sysExec_ne sound.ne_scan (.inr empty))
  · have counted : ¬(4096 ≤ path.len ∨ path.len = 0) := by
      have := sound.2.1
      omega
    simp only [sysExec, if_neg counted, if_neg empty, validate_inUser sound.1]
    exact ⟨fun _ => empty, fun _ => rfl⟩

end

/-- **The handler works with the path of the caller** exactly in the calls that pass it
with its length. -/
theorem handler_gets_path_iff {m : UserMem} {c : Wrapper} (sound : c.Sound m) (junk3 junk4 : Nat) :
    dispatch m (c.request junk3 junk4) = .ok (c.meaning m) ↔ c.Counted := by
  cases c with
  | «open» path flags => exact iff_of_false (sysOpen_ne sound.1.ne_scan _ _) id
  | chdir path => exact iff_of_false (sysChdir_ne sound.ne_scan) id
  | mkdir path | unlink path => exact iff_of_true (validate_inUser sound.1) trivial
  | rename old new =>
    exact iff_of_true ((validate_inUser sound.1.1).trans (validate_inUser sound.2.1)) trivial
  | stat path out => exact sysStat_iff sound.1 sound.2.1 sound.2.2
  | readdir path buf room =>
    by_cases small : path.ptr < 4096
    · refine iff_of_false (fun agreed => ?_) (Nat.not_le.mpr small)
      rw [Wrapper.request, dispatch, if_pos small] at agreed
      cases validate_ok agreed
    · refine iff_of_true ?_ (Nat.not_lt.mp small)
      rw [Wrapper.request, dispatch, if_neg small, sysReaddir, validate_inUser sound.1.1,
        validate_inUser sound.2]
      rfl
  | exec path => exact sysExec_iff sound

/-- A program with the text `/a/b` at 0x500000, and NUL bytes after it. -/
def twoNames : UserMem where
  mapped := fun _ => true
  byte := fun a =>
    if a = 0x500000 ∨ a = 0x500002 then 0x2F else if a = 0x500001 then 0x61
    else if a = 0x500003 then 0x62 else 0

theorem handler_gets_path_iff_twoNames :
    dispatch twoNames ((Wrapper.stat ⟨0x500000, 4⟩ 0x600000).request 0 0) =
      .ok (.stat [0x2F, 0x61, 0x2F, 0x62] 0x600000) := by
  have sound : (Wrapper.stat ⟨0x500000, 4⟩ 0x600000).Sound twoNames :=
    ⟨⟨.inr (by decide), by decide, by decide⟩, by decide, by decide⟩
  exact (handler_gets_path_iff sound 0 0).mpr (show (4 : Nat) ≠ 0 by decide)

/-- `open` of `/a` with flags 0x41, where `/b` and a NUL follow in memory: the handler
opens `/a/b` with the NUL, and has the length of the path for its flags. -/
theorem open_scans_past_path :
    (Wrapper.open ⟨0x500000, 2⟩ 0x41).Sound twoNames ∧
      (Wrapper.open ⟨0x500000, 2⟩ 0x41).meaning twoNames = .fsOpen [0x2F, 0x61] 0x41 ∧
      dispatch twoNames ((Wrapper.open ⟨0x500000, 2⟩ 0x41).request 0 0) =
        .ok (.fsOpen [0x2F, 0x61, 0x2F, 0x62, 0] 2) :=
  ⟨⟨⟨.inr (by decide), by decide, by decide⟩, by decide⟩, by decide, by decide⟩

/-! ## Paths that end in a NUL -/

/-- The calls of Linux, with their arguments beside the path. -/
inductive LinuxCall where
  | open (flags : Nat)
  | chdir
  | stat (buf : Nat)
  | exec (argv : Nat)

def LinuxCall.request (ptr junk2 junk3 junk4 : Nat) : LinuxCall → Request
  | .open flags => ⟨2, ptr, flags, junk3, junk4⟩
  | .chdir => ⟨80, ptr, junk2, junk3, junk4⟩
  | .stat buf => ⟨4, ptr, buf, junk3, junk4⟩
  | .exec argv => ⟨59, ptr, argv, junk3, junk4⟩

def LinuxCall.meaning (path : List UInt8) : LinuxCall → Op
  | .open flags => .fsOpen path (flags % 2 ^ 32)
  | .chdir => .chdir path
  | .stat buf => .stat path buf
  | .exec _ => .exec path

/-- The text stands in the memory of the program, with a NUL after it. -/
structure Terminated (m : UserMem) (ptr : Nat) (text : List UInt8) : Prop where
  bytes : m.slice ptr text.length = text
  clean : (0 : UInt8) ∉ text
  length : 1 ≤ text.length ∧ text.length ≤ 4095
  nul : m.byte (ptr + text.length) = 0
  inside : userSpaceStart ≤ ptr ∧ ptr + text.length + 1 ≤ 2 ^ 47

/-- **A path that ends in a NUL means the text before it** only to an `exec` whose second
argument happens to be the length of the text. -/
theorem linux_path_iff {m : UserMem} {ptr : Nat} {text : List UInt8} (here : Terminated m ptr text)
    (c : LinuxCall) (junk2 junk3 junk4 : Nat) :
    dispatch m (c.request ptr junk2 junk3 junk4) = .ok (c.meaning text) ↔
      c = .exec text.length := by
  obtain ⟨filled, short⟩ := here.length
  have past : ScansPast m ptr text :=
    UserMem.slice_strnlenUser_ne here.clean (Nat.lt_of_le_of_lt short (by decide))
  cases c with
  | «open» flags => exact iff_of_false (sysOpen_ne past _ _) (by simp)
  | chdir => exact iff_of_false (sysChdir_ne past) (by simp)
  | stat buf => exact iff_of_false (sysStat_ne past _) (by simp)
  | exec argv =>
    rw [LinuxCall.exec.injEq]
    by_cases scans : 4096 ≤ argv ∨ argv = 0
    · exact iff_of_false (sysExec_ne past scans) (by omega)
    · have counted : dispatch m ((LinuxCall.exec argv).request ptr junk2 junk3 junk4) =
          validate ptr argv (.ok (.exec (m.slice ptr argv))) := by
        show sysExec m ptr argv = _
        simp only [sysExec, if_neg scans, if_neg (not_or.mp scans).2]
      rw [counted]
      constructor
      · intro agreed
        have same := validate_ok agreed
        simp only [LinuxCall.meaning, Except.ok.injEq, Op.exec.injEq] at same
        rw [← same, UserMem.length_slice]
      · rintro rfl
        have inside := here.inside
        rw [validate_inUser (.inr ⟨inside.1, by omega⟩), here.bytes]
        rfl

theorem linux_path_iff_exec :
    dispatch twoNames ((LinuxCall.exec 4).request 0x500000 0 0 0) =
      .ok (.exec [0x2F, 0x61, 0x2F, 0x62]) :=
  (linux_path_iff ⟨by decide, by decide, by decide, by decide, by decide⟩ (.exec 4) 0 0 0).mpr rfl

/-- A program with the text `/etc` and a NUL at 0x500000. -/
def etcText : UserMem where
  mapped := fun _ => true
  byte := fun a => (Fs.ascii "/etc").getD (a - 0x500000) 0

/-- `stat` of `/etc` finds the directory if it is given the length; without, it looks for
a name that ends in the NUL, which there is not. -/
theorem stat_includes_nul :
    Terminated etcText 0x500000 (Fs.ascii "/etc") ∧
      dispatch etcText ⟨4, 0x500000, 4, 0x600000, 0⟩ = .ok (.stat (Fs.ascii "/etc") 0x600000) ∧
      dispatch etcText ((LinuxCall.stat 0x600000).request 0x500000 0 0 0) =
        .ok (.stat (Fs.ascii "/etc" ++ [0]) 0x600000) ∧
      (Fs.RamFs.new []).resolve (Fs.ascii "/etc") = some 1 ∧
      (Fs.RamFs.new []).resolve (Fs.ascii "/etc" ++ [0]) = none :=
  ⟨⟨by decide, by decide, by decide, by decide, by decide⟩, by decide, by decide, by decide,
    by decide⟩

end OxideOS.User
