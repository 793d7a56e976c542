import OxideOS.Lib.SlotMap

/-!
# The environment

Variables are kept in a table of 32 slots. A slot that is given up keeps its old key and
value, and the next variable is written over them.

`env_refines_map`: every sequence of `setenv` and `getenv` is answered as a finite map
answers it, and `write_env_strings` gives out each variable of the map once.
-/

set_option autoImplicit false

namespace OxideOS.Proc

open Lib Function

/-! ## The table -/

def maxVars : Nat := 32
def maxKey : Nat := 32
def maxVal : Nat := 256

/-- The bytes of an array up to a length. -/
def bytesOf (buf : Nat → UInt8) (len : Nat) : List UInt8 := (List.range len).map buf

def bytesEq (buf : Nat → UInt8) (b : List UInt8) : Bool := bytesOf buf b.length == b

def bytesCopy (buf : Nat → UInt8) (src : List UInt8) : Nat → UInt8 := fun i => src.getD i (buf i)

structure EnvEntry where
  key : Nat → UInt8
  keyLen : Nat
  val : Nat → UInt8
  valLen : Nat
  used : Bool

def EnvEntry.empty : EnvEntry := ⟨fun _ => 0, 0, fun _ => 0, 0, false⟩

abbrev EnvTable : Type := Nat → EnvEntry

namespace EnvTable

def empty : EnvTable := fun _ => .empty

/-- The test of the two search loops. -/
def holdsKey (t : EnvTable) (key : List UInt8) (i : Nat) : Bool :=
  (t i).used && ((t i).keyLen == key.length && bytesEq (t i).key key)

def getenv (t : EnvTable) (key : List UInt8) : Option (List UInt8) :=
  if key = [] ∨ maxKey < key.length then none else
  (firstBelow maxVars (t.holdsKey key)).map fun i => bytesOf (t i).val (t i).valLen

def setenv (t : EnvTable) (key val : List UInt8) : Bool × EnvTable :=
  if key = [] ∨ maxKey < key.length ∨ maxVal < val.length then (false, t) else
  match firstBelow maxVars (t.holdsKey key) with
  | some i =>
    if val = [] then (true, update t i { t i with used := false })
    else (true, update t i
      { t i with val := bytesCopy (t i).val val, valLen := val.length })
  | none =>
    if val = [] then (true, t) else
    match firstBelow maxVars fun i => !(t i).used with
    | none => (false, t)
    | some i => (true, update t i
        ⟨bytesCopy (t i).key key, key.length, bytesCopy (t i).val val, val.length, true⟩)

/-- One round of `write_env_strings`: the number of variables and the bytes so far. A
variable for which there is no room is left out. -/
def writeEntry (room : Nat) (out : Nat × List UInt8) (e : EnvEntry) : Nat × List UInt8 :=
  if !e.used then out else
  if room < out.2.length + (e.keyLen + 1 + e.valLen + 1) then out else
  (out.1 + 1, out.2 ++ (bytesOf e.key e.keyLen ++ 0x3D :: (bytesOf e.val e.valLen ++ [0])))

def writeEnvStrings (t : EnvTable) (room : Nat) : Nat × List UInt8 :=
  ((List.range maxVars).map t).foldl (writeEntry room) (0, [])

end EnvTable

/-! ## The map -/

inductive EnvCall where
  | getenv (key : List UInt8)
  | setenv (key val : List UInt8)

inductive EnvAnswer where
  | value (val : Option (List UInt8))
  | done (success : Bool)

def EnvTable.call (t : EnvTable) : EnvCall → EnvAnswer × EnvTable
  | .getenv key => (.value (t.getenv key), t)
  | .setenv key val => (.done (t.setenv key val).1, (t.setenv key val).2)

/-- The environment as a finite map. -/
abbrev EnvMap : Type := Finmap fun _ : List UInt8 => List UInt8

namespace EnvMap

/-- An empty value removes the key; a new key needs room. -/
def setenv (m : EnvMap) (key val : List UInt8) : Bool × EnvMap :=
  if key = [] ∨ maxKey < key.length ∨ maxVal < val.length then (false, m)
  else if val = [] then (true, m.erase key)
  else if key ∉ m ∧ m.keys.card = maxVars then (false, m)
  else (true, m.insert key val)

def call (m : EnvMap) : EnvCall → EnvAnswer × EnvMap
  | .getenv key => (.value (m.lookup key), m)
  | .setenv key val => (.done (m.setenv key val).1, (m.setenv key val).2)

/-- Keys have 1 to 32 bytes, values 1 to 256, and there are at most 32 keys. -/
structure Sized (m : EnvMap) : Prop where
  key : ∀ {k v}, m.lookup k = some v → ¬(k = [] ∨ maxKey < k.length)
  value : ∀ {k v}, m.lookup k = some v → v ≠ [] ∧ v.length ≤ maxVal
  few : m.keys.card ≤ maxVars

end EnvMap

/-- The answers to a sequence of calls, and the state after them. -/
def perform {σ : Type} (call : σ → EnvCall → EnvAnswer × σ) : σ → List EnvCall → List EnvAnswer × σ
  | s, [] => ([], s)
  | s, c :: rest =>
    let later := perform call (call s c).2 rest
    ((call s c).1 :: later.1, later.2)

/-! ## What a slot stands for -/

def EnvEntry.binding (e : EnvEntry) : Option (List UInt8 × List UInt8) :=
  if e.used then some (bytesOf e.key e.keyLen, bytesOf e.val e.valLen) else none

namespace EnvTable

def bindings (t : EnvTable) (i : Nat) : Option (List UInt8 × List UInt8) := (t i).binding

variable {t : EnvTable} {m : EnvMap} {key val : List UInt8} {i : Nat}

theorem length_bytesOf (buf : Nat → UInt8) (len : Nat) : (bytesOf buf len).length = len := by
  simp [bytesOf]

theorem bytesOf_bytesCopy (buf : Nat → UInt8) (src : List UInt8) :
    bytesOf (bytesCopy buf src) src.length = src := by
  refine List.ext_getElem (length_bytesOf _ _) fun i inside inside' => ?_
  simp [bytesOf, bytesCopy, inside']

theorem bindings_update (e : EnvEntry) :
    bindings (update t i e) = update t.bindings i e.binding := by
  funext j
  by_cases same : j = i
  · rw [same, bindings, update_self, update_self]
  · rw [bindings, update_of_ne same, update_of_ne same, bindings]

/-- The search loops look for the key of a slot. -/
theorem holdsKey_iff : t.holdsKey key i = true ↔
    t.bindings i = some (key, bytesOf (t i).val (t i).valLen) := by
  rw [holdsKey, bindings, EnvEntry.binding, Bool.and_eq_true, Bool.and_eq_true, beq_iff_eq, bytesEq,
    beq_iff_eq]
  cases (t i).used with
  | false => simp
  | true =>
    simp only [true_and, if_true, Option.some.injEq, Prod.mk.injEq, and_true]
    constructor
    · rintro ⟨len, same⟩
      rw [len, same]
    · intro same
      have len : (t i).keyLen = key.length := by rw [← same, length_bytesOf]
      exact ⟨len, len ▸ same⟩

theorem not_mem_of_search (rep : Represents maxVars t.bindings m)
    (none : firstBelow maxVars (t.holdsKey key) = none) : key ∉ m := by
  intro member
  obtain ⟨i, inside, v, held⟩ := rep.mem_iff.mp member
  have value : v = bytesOf (t i).val (t i).valLen := by
    rw [bindings, EnvEntry.binding] at held
    split at held
    · cases held
      rfl
    · cases held
  have found := firstBelow_eq_none.mp none i inside
  rw [holdsKey_iff.mpr (value ▸ held)] at found
  cases found

/-- The table stands for the map, and the sizes are in range. -/
structure Refines (t : EnvTable) (m : EnvMap) : Prop extends
    Represents maxVars t.bindings m, EnvMap.Sized m

theorem Refines.of_represents (rep : Represents maxVars t.bindings m)
    (key : ∀ {k v}, m.lookup k = some v → ¬(k = [] ∨ maxKey < k.length))
    (value : ∀ {k v}, m.lookup k = some v → v ≠ [] ∧ v.length ≤ maxVal) : t.Refines m :=
  { rep with key := key, value := value, few := rep.card_le }

namespace Refines

section

variable (ref : t.Refines m)
include ref

/-- A lookup in the table is a lookup in the map. -/
theorem getenv (key : List UInt8) : t.getenv key = m.lookup key := by
  unfold EnvTable.getenv
  split
  · next outside =>
      cases found : m.lookup key with
      | none => rfl
      | some v => exact absurd outside (ref.key found)
  · cases found : firstBelow maxVars (t.holdsKey key) with
    | none => exact (Finmap.lookup_eq_none.mpr (not_mem_of_search ref.toRepresents found)).symm
    | some i =>
      obtain ⟨inside, here, -⟩ := firstBelow_eq_some found
      exact (ref.lookup inside (holdsKey_iff.mp here)).symm

theorem erase {t' : EnvTable}
    (rep : Represents maxVars t'.bindings (m.erase key)) : t'.Refines (m.erase key) := by
  have old : ∀ {k v}, (m.erase key).lookup k = some v → m.lookup k = some v := by
    intro k v found
    by_cases same : k = key
    · rw [same, Finmap.lookup_erase] at found
      cases found
    · rwa [Finmap.lookup_erase_ne same] at found
  exact .of_represents rep (fun found => ref.key (old found)) fun found => ref.value (old found)

theorem insert {t' : EnvTable} (inside : ¬(key = [] ∨ maxKey < key.length))
    (some : val ≠ []) (short : val.length ≤ maxVal)
    (rep : Represents maxVars t'.bindings (m.insert key val)) : t'.Refines (m.insert key val) := by
  have cases : ∀ {k v}, (m.insert key val).lookup k = .some v →
      k = key ∧ v = val ∨ m.lookup k = .some v := by
    intro k v found
    by_cases same : k = key
    · rw [same, Finmap.lookup_insert] at found
      exact .inl ⟨same, (Option.some.inj found).symm⟩
    · rw [Finmap.lookup_insert_of_ne _ same] at found
      exact .inr found
  refine .of_represents rep (fun found => ?_) fun found => ?_
  · rcases cases found with ⟨rfl, -⟩ | old
    · exact inside
    · exact ref.key old
  · rcases cases found with ⟨-, rfl⟩ | old
    · exact ⟨some, short⟩
    · exact ref.value old

/-- `setenv` is insertion or removal, and is refused when the map refuses it. -/
theorem setenv (key val : List UInt8) :
    (t.setenv key val).1 = (m.setenv key val).1 ∧
      (t.setenv key val).2.Refines (m.setenv key val).2 := by
  unfold EnvTable.setenv EnvMap.setenv
  split
  · exact ⟨rfl, ref⟩
  · next valid =>
      have inside : ¬(key = [] ∨ maxKey < key.length) := fun outside => valid (by tauto)
      have short : val.length ≤ maxVal := Nat.not_lt.mp fun long => valid (by tauto)
      cases found : firstBelow maxVars (t.holdsKey key) with
      | some i =>
        obtain ⟨bound, here, -⟩ := firstBelow_eq_some found
        have held := holdsKey_iff.mp here
        have member : key ∈ m := ref.mem_iff.mpr ⟨i, bound, _, held⟩
        by_cases removes : val = []
        · simp only [removes, if_true]
          refine ⟨trivial, ref.erase ?_⟩
          rw [bindings_update]
          exact ref.clear bound held
        · simp only [removes, if_false, member, not_true_eq_false, false_and]
          refine ⟨trivial, ref.insert inside removes short ?_⟩
          have used : (t i).used = true := (Bool.and_eq_true _ _ ▸ here).1
          have keeps : bytesOf (t i).key (t i).keyLen = key := by
            rw [bindings, EnvEntry.binding, if_pos used] at held
            exact (Prod.mk.inj (Option.some.inj held)).1
          rw [bindings_update, EnvEntry.binding]
          simp only [used, if_true, bytesOf_bytesCopy, keeps]
          exact ref.store bound (.inl ⟨_, held⟩)
      | none =>
        have fresh := not_mem_of_search ref.toRepresents found
        by_cases removes : val = []
        · simp only [removes, if_true]
          have same : m.erase key = m := by
            refine Finmap.ext_lookup fun k => ?_
            by_cases same : k = key
            · rw [same, Finmap.lookup_erase, Finmap.lookup_eq_none.mpr fresh]
            · rw [Finmap.lookup_erase_ne same]
          exact ⟨trivial, same.symm ▸ ref⟩
        · simp only [removes, if_false, fresh, not_false_eq_true, true_and]
          have free_iff : ∀ i, (!(t i).used) = true ↔ t.bindings i = .none := by
            intro i
            rw [bindings, EnvEntry.binding]
            cases (t i).used <;> simp
          cases free : firstBelow maxVars fun i => !(t i).used with
          | none =>
            have full : m.keys.card = maxVars := by
              refine ref.full_iff.mp fun i bound vacant => ?_
              have taken := firstBelow_eq_none.mp free i bound
              rw [(free_iff i).mpr vacant] at taken
              cases taken
            simp only [full, if_true]
            exact ⟨trivial, ref⟩
          | some i =>
            obtain ⟨bound, vacant, -⟩ := firstBelow_eq_some free
            have vacant := (free_iff i).mp vacant
            have room : m.keys.card ≠ maxVars := fun full => ref.full_iff.mpr full i bound vacant
            simp only [room, if_false]
            refine ⟨trivial, ref.insert inside removes short ?_⟩
            rw [bindings_update, EnvEntry.binding]
            simp only [if_true, bytesOf_bytesCopy]
            exact ref.store bound (.inr ⟨vacant, fresh⟩)

theorem call (c : EnvCall) :
    (t.call c).1 = (m.call c).1 ∧ (t.call c).2.Refines (m.call c).2 := by
  cases c with
  | getenv key => exact ⟨congrArg EnvAnswer.value (ref.getenv key), ref⟩
  | setenv key val => exact ⟨congrArg EnvAnswer.done (ref.setenv key val).1, (ref.setenv key val).2⟩

/-- Any sequence of calls. -/
theorem perform (calls : List EnvCall) :
    (Proc.perform EnvTable.call t calls).1 = (Proc.perform EnvMap.call m calls).1 ∧
      (Proc.perform EnvTable.call t calls).2.Refines (Proc.perform EnvMap.call m calls).2 := by
  induction calls generalizing t m with
  | nil => exact ⟨rfl, ref⟩
  | cons c rest ih =>
    obtain ⟨answer, after⟩ := ref.call c
    obtain ⟨answers, done⟩ := ih after
    refine ⟨?_, done⟩
    simp only [Proc.perform, answer, answers]

end

end Refines

/-! ## Giving out the variables -/

/-- A variable as it is given out. -/
def text (pair : List UInt8 × List UInt8) : List UInt8 := pair.1 ++ 0x3D :: (pair.2 ++ [0])

/-- With room for all, the loop gives out what the slots stand for. -/
theorem foldl_writeEntry {room : Nat} (entries : List EnvEntry) (out : Nat × List UInt8)
    (enough : out.2.length + ((entries.filterMap EnvEntry.binding).flatMap text).length ≤ room) :
    entries.foldl (writeEntry room) out =
      (out.1 + (entries.filterMap EnvEntry.binding).length,
        out.2 ++ (entries.filterMap EnvEntry.binding).flatMap text) := by
  induction entries generalizing out with
  | nil => simp
  | cons e entries ih =>
    cases used : e.used with
    | false =>
      have idle : e.binding = none := by simp [EnvEntry.binding, used]
      rw [List.filterMap_cons, idle] at enough ⊢
      rw [List.foldl_cons, show writeEntry room out e = out by simp [writeEntry, used]]
      exact ih out enough
    | true =>
      have bound : e.binding = some (bytesOf e.key e.keyLen, bytesOf e.val e.valLen) := by
        simp [EnvEntry.binding, used]
      rw [List.filterMap_cons, bound] at enough ⊢
      simp only [List.flatMap_cons, List.length_append, text, List.length_cons, List.length_nil,
        length_bytesOf] at enough
      have written : writeEntry room out e = (out.1 + 1, out.2 ++ text
          (bytesOf e.key e.keyLen, bytesOf e.val e.valLen)) := by
        rw [writeEntry, used, if_neg (by simp), if_neg (by omega)]
        rfl
      rw [List.foldl_cons, written, ih]
      · simp only [List.length_cons, List.flatMap_cons, List.append_assoc, Prod.mk.injEq, and_true]
        omega
      · simp only [List.length_append, text, List.length_cons, List.length_nil, length_bytesOf]
        omega

/-- The table gives out each binding of the map once, if there is room for all. -/
def GivesOut (t : EnvTable) (m : EnvMap) : Prop :=
  ∃ pairs : List (List UInt8 × List UInt8), (pairs.map Prod.fst).Nodup ∧
    (∀ k v, (k, v) ∈ pairs ↔ m.lookup k = some v) ∧
    ∀ spare, t.writeEnvStrings ((pairs.flatMap text).length + spare) =
      (pairs.length, pairs.flatMap text)

theorem Refines.givesOut (ref : t.Refines m) : t.GivesOut m := by
  have keys : (((List.range maxVars).filterMap t.bindings).map Prod.fst) =
      slotKeys maxVars t.bindings := List.map_filterMap ..
  refine ⟨(List.range maxVars).filterMap t.bindings, keys ▸ ref.nodup_slotKeys, fun k v => ?_,
    fun spare => ?_⟩
  · rw [ref.found, List.mem_filterMap]
    simp only [List.mem_range]
  · have slots : ((List.range maxVars).map t).filterMap EnvEntry.binding =
        (List.range maxVars).filterMap t.bindings := List.filterMap_map ..
    rw [writeEnvStrings, foldl_writeEntry, slots]
    · simp
    · rw [slots]
      simp

/-- **The environment is a finite map.** -/
theorem env_refines_map (calls : List EnvCall) :
    (perform call empty calls).1 = (perform EnvMap.call ∅ calls).1 ∧
      (perform EnvMap.call ∅ calls).2.Sized ∧
      (perform call empty calls).2.GivesOut (perform EnvMap.call ∅ calls).2 := by
  have start : empty.Refines ∅ :=
    .of_represents (represents_empty fun _ _ => rfl) (fun found => by simp at found)
      fun found => by simp at found
  obtain ⟨answers, done⟩ := start.perform calls
  exact ⟨answers, done.toSized, done.givesOut⟩

end EnvTable

end OxideOS.Proc
