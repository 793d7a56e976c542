import Mathlib.Logic.Function.Basic
import Mathlib.Order.Defs.Unbundled
import Mathlib.Tactic.Common

/-!
# Programs over a state that may stop with an error

A `Prog σ ε α` transforms a state and returns either a value or an error. The
state reached is kept in both cases: an early return from the middle of a
procedure leaves behind whatever it has already done.

`Prog.wp` is the weakest precondition of a program for a postcondition on
normal return and one on errors. The rules of this module
(`Prog.wp_bind`, `Prog.wp_mono`, `Prog.wp_forRange`) take a program apart along
its structure; `loop` is the counted loop of code that cannot fail, with its
invariant rule `loop_invariant`.
-/

set_option autoImplicit false

namespace OxideOS.Lib

universe u v w

variable {σ : Type u} {ε : Type v} {α β : Type w}

/-! ## Counted loops without errors -/

/-- Run `body` for the indices `start`, …, `start + count - 1` in order. -/
def loop (body : Nat → σ → σ) : (start count : Nat) → σ → σ
  | _, 0, s => s
  | start, count + 1, s => loop body (start + 1) count (body start s)

theorem loop_succ (body : Nat → σ → σ) (start count : Nat) (s : σ) :
    loop body start (count + 1) s = loop body (start + 1) count (body start s) := rfl

variable {start count : Nat}

/-- A property indexed by the loop counter that every iteration carries one
step further holds at the end with the final counter. -/
theorem loop_invariant {body : Nat → σ → σ} (I : Nat → σ → Prop)
    (step : ∀ i s, start ≤ i → i < start + count → I i s → I (i + 1) (body i s))
    {s : σ} (initially : I start s) : I (start + count) (loop body start count s) := by
  induction count generalizing start s with
  | zero => exact initially
  | succ count ih =>
    have first : I (start + 1) (body start s) :=
      step start s (Nat.le_refl _) (by omega) initially
    have rest : I (start + 1 + count) (loop body (start + 1) count (body start s)) :=
      ih (fun i s' lower upper => step i s' (by omega) (by omega)) first
    rw [loop_succ]
    rwa [Nat.add_right_comm] at rest

/-- The invariant rule of a loop that starts at zero. -/
theorem loop_zero_invariant {body : Nat → σ → σ} (I : Nat → σ → Prop)
    (step : ∀ i s, i < count → I i s → I (i + 1) (body i s))
    {s : σ} (initially : I 0 s) : I count (loop body 0 count s) := by
  have done : I (0 + count) (loop body 0 count s) :=
    loop_invariant I (fun i s _ bound => step i s (by omega)) initially
  rwa [Nat.zero_add] at done

/-! ## Programs -/

/-- A program over the state `σ` that returns an `α` or stops with an `ε`. The
state reached is kept in both cases. -/
def Prog (σ : Type u) (ε : Type v) (α : Type w) : Type (max u v w) :=
  σ → Except ε α × σ

namespace Prog

/-- Return a value and leave the state alone. -/
def ret (a : α) : Prog σ ε α := fun s => (.ok a, s)

/-- Stop with an error and keep the state reached. -/
def fail (e : ε) : Prog σ ε α := fun s => (.error e, s)

/-- Run `c`; on success go on with `next`, on an error stop there. -/
def andThen (c : Prog σ ε α) (next : α → Prog σ ε β) : Prog σ ε β := fun s =>
  match c s with
  | (.ok a, s') => next a s'
  | (.error e, s') => (.error e, s')

instance : Monad (Prog.{u, v, w} σ ε) where
  pure := ret
  bind := andThen

/-- The value of `f` at the current state. -/
def gets (f : σ → α) : Prog σ ε α := fun s => (.ok (f s), s)

/-- Replace the current state. -/
def update (f : σ → σ) : Prog σ ε PUnit := fun s => (.ok ⟨⟩, f s)

/-- Report the errors of `c` under other names. -/
def mapError {ε' : Type v} (f : ε → ε') (c : Prog σ ε α) : Prog σ ε' α := fun s =>
  match c s with
  | (.ok a, s') => (.ok a, s')
  | (.error e, s') => (.error (f e), s')

/-- Run `c` and answer whether it succeeded; an error does not stop the program. -/
def isOk {ε' : Type v} (c : Prog σ ε α) : Prog.{u, v, 0} σ ε' Bool := fun s =>
  match c s with
  | (.ok _, s') => (.ok true, s')
  | (.error _, s') => (.ok false, s')

/-- Run `body` for the elements of a list in order, stopping at the first error. -/
def forEach {κ : Type} (body : κ → Prog σ ε PUnit) : List κ → Prog σ ε PUnit
  | [] => ret ⟨⟩
  | x :: rest => andThen (body x) fun _ => forEach body rest

/-- Run `body` for the indices `start`, …, `start + count - 1`, stopping at the
first error. -/
def forRange (body : Nat → Prog σ ε PUnit) : (start count : Nat) → Prog σ ε PUnit
  | _, 0 => ret ⟨⟩
  | start, count + 1 => andThen (body start) fun _ => forRange body (start + 1) count

/-! ## Laws of sequencing -/

theorem bind_apply (c : Prog σ ε α) (next : α → Prog σ ε β) (s : σ) :
    (c >>= next) s =
      match c s with
      | (.ok a, s') => next a s'
      | (.error e, s') => (.error e, s') := rfl

theorem andThen_assoc {γ : Type w} (c : Prog σ ε α) (f : α → Prog σ ε β) (g : β → Prog σ ε γ) :
    andThen (andThen c f) g = andThen c fun a => andThen (f a) g := by
  funext s
  unfold andThen
  cases c s with
  | mk result s' => cases result <;> rfl

theorem andThen_ret (c : Prog σ ε α) : andThen c ret = c := by
  funext s
  unfold andThen
  cases run : c s with
  | mk result s' => cases result <;> rfl

instance : LawfulMonad (Prog.{u, v, w} σ ε) :=
  LawfulMonad.mk' _ (fun c => andThen_ret c) (fun _ _ => rfl) andThen_assoc

variable {κ : Type}

theorem forEach_append (body : κ → Prog σ ε PUnit) (xs ys : List κ) :
    forEach body (xs ++ ys) = (do forEach body xs; forEach body ys) := by
  induction xs with
  | nil => rfl
  | cons x rest ih =>
    show andThen (body x) (fun _ => forEach body (rest ++ ys)) = _
    rw [ih]
    exact (andThen_assoc (body x) (fun _ => forEach body rest) fun _ => forEach body ys).symm

theorem forEach_singleton (body : κ → Prog σ ε PUnit) (x : κ) :
    forEach body [x] = body x := andThen_ret (body x)

theorem forEach_map {ι : Type} (body : κ → Prog σ ε PUnit) (f : ι → κ) (xs : List ι) :
    forEach body (xs.map f) = forEach (fun x => body (f x)) xs := by
  induction xs with
  | nil => rfl
  | cons x rest ih => exact congrArg (fun next => andThen (body (f x)) fun _ => next) ih

/-! ## Weakest preconditions -/

/-- Running `c` from `s` ends with a value and a state in `Q`, or with an error
and a state in `E`. -/
def wp (c : Prog σ ε α) (Q : α → σ → Prop) (E : ε → σ → Prop) (s : σ) : Prop :=
  match c s with
  | (.ok a, s') => Q a s'
  | (.error e, s') => E e s'

variable {c : Prog σ ε α} {Q Q' : α → σ → Prop} {E E' : ε → σ → Prop} {s : σ}

theorem wp_ok {a : α} {s' : σ} (run : c s = (.ok a, s')) : wp c Q E s ↔ Q a s' := by
  simp only [wp, run]

theorem wp_error {e : ε} {s' : σ} (run : c s = (.error e, s')) : wp c Q E s ↔ E e s' := by
  simp only [wp, run]

@[simp] theorem wp_pure (a : α) : wp (pure a : Prog σ ε α) Q E s ↔ Q a s := Iff.rfl

@[simp] theorem wp_ret (a : α) : wp (ret a : Prog σ ε α) Q E s ↔ Q a s := Iff.rfl

@[simp] theorem wp_fail (e : ε) : wp (fail e : Prog σ ε α) Q E s ↔ E e s := Iff.rfl

@[simp] theorem wp_gets (f : σ → α) : wp (gets f : Prog σ ε α) Q E s ↔ Q (f s) s := Iff.rfl

@[simp] theorem wp_update (f : σ → σ) {R : PUnit → σ → Prop} :
    wp (update f : Prog σ ε PUnit) R E s ↔ R ⟨⟩ (f s) := Iff.rfl

theorem wp_andThen (next : α → Prog σ ε β) {R : β → σ → Prop} :
    wp (andThen c next) R E s ↔ wp c (fun a s' => wp (next a) R E s') E s := by
  unfold wp andThen
  cases c s with
  | mk result s' => cases result <;> rfl

@[simp] theorem wp_bind (next : α → Prog σ ε β) {R : β → σ → Prop} :
    wp (c >>= next) R E s ↔ wp c (fun a s' => wp (next a) R E s') E s :=
  wp_andThen next

@[simp] theorem wp_mapError {ε' : Type v} (f : ε → ε') {F : ε' → σ → Prop} :
    wp (mapError f c) Q F s ↔ wp c Q (fun e s' => F (f e) s') s := by
  unfold wp mapError
  cases c s with
  | mk result s' => cases result <;> rfl

@[simp] theorem wp_isOk {ε' : Type v} {R : Bool → σ → Prop} {F : ε' → σ → Prop} :
    wp (isOk c) R F s ↔ wp c (fun _ s' => R true s') (fun _ s' => R false s') s := by
  unfold wp isOk
  cases c s with
  | mk result s' => cases result <;> rfl

/-- A stronger postcondition may be replaced by a weaker one. -/
theorem wp_mono (normal : ∀ a s', Q a s' → Q' a s') (error : ∀ e s', E e s' → E' e s')
    (holds : wp c Q E s) : wp c Q' E' s := by
  unfold wp at holds ⊢
  cases run : c s with
  | mk result s' =>
    cases result with
    | ok a => exact normal a s' (by simpa [run] using holds)
    | error e => exact error e s' (by simpa [run] using holds)

/-- What holds of the state reached whether or not the program fails. -/
theorem wp_state {P : σ → Prop} :
    wp c (fun _ s' => P s') (fun _ s' => P s') s ↔ P (c s).2 := by
  unfold wp
  cases c s with
  | mk result s' => cases result <;> rfl

/-- Two postconditions at once. -/
theorem wp_and (first : wp c Q E s) (second : wp c Q' E' s) :
    wp c (fun a s' => Q a s' ∧ Q' a s') (fun e s' => E e s' ∧ E' e s') s := by
  unfold wp at first second ⊢
  cases run : c s with
  | mk result s' =>
    rw [run] at first second
    cases result with
    | ok a | error e => exact ⟨first, second⟩

/-- What every element's run preserves is preserved by the run over a list. -/
theorem wp_forEach {body : κ → Prog σ ε PUnit} {I : σ → Prop} {xs : List κ}
    (step : ∀ x ∈ xs, ∀ s, I s → wp (body x) (fun _ s' => I s') E s) (initially : I s) :
    wp (forEach body xs) (fun _ s' => I s') E s := by
  induction xs generalizing s with
  | nil => exact initially
  | cons x rest ih =>
    rw [forEach, wp_andThen]
    refine wp_mono (fun _ s' next => ?_) (fun _ _ stopped => stopped)
      (step x List.mem_cons_self s initially)
    exact ih (fun y member => step y (List.mem_cons_of_mem x member)) next

variable {body : Nat → Prog σ ε PUnit}

/-- The invariant rule of the counted loop: an iteration either carries the
invariant one step further or ends the whole loop in `E`. -/
theorem wp_forRange (I : Nat → σ → Prop) (step : ∀ i s, start ≤ i → i < start + count → I i s →
      wp (body i) (fun _ s' => I (i + 1) s') E s) (initially : I start s) :
    wp (forRange body start count) (fun _ s' => I (start + count) s') E s := by
  induction count generalizing start s with
  | zero => simpa [forRange] using initially
  | succ count ih =>
    rw [forRange, wp_andThen]
    refine wp_mono (fun _ s' next => ?_) (fun _ _ stopped => stopped)
      (step start s (Nat.le_refl _) (by omega) initially)
    have rest : wp (forRange body (start + 1) count)
        (fun _ t => I (start + 1 + count) t) E s' :=
      ih (fun i t lower upper => step i t (by omega) (by omega)) next
    rwa [Nat.add_right_comm] at rest

/-- The invariant rule of a counted loop that starts at zero. -/
theorem wp_forRange_zero (I : Nat → σ → Prop)
    (step : ∀ i s, i < count → I i s → wp (body i) (fun _ s' => I (i + 1) s') E s)
    (initially : I 0 s) : wp (forRange body 0 count) (fun _ s' => I count s') E s := by
  have done : wp (forRange body 0 count) (fun _ s' => I (0 + count) s') E s :=
    wp_forRange I (fun i s _ bound => step i s (by omega)) initially
  rwa [Nat.zero_add] at done

/-! ## What a program does whether or not it fails -/

/-- The program leads from every state to one related by `R`, and stops with an error
only in `E`. -/
structure Leads (R : σ → σ → Prop) (E : ε → σ → Prop) (c : Prog σ ε α) : Prop where
  spec : ∀ s, wp c (fun _ s' => R s s') (fun e s' => R s s' ∧ E e s') s

variable {c d : Prog σ ε α} {next : α → Prog σ ε β}

namespace Leads

variable {R S : σ → σ → Prop} {F : ε → σ → Prop}

theorem related (leads : Leads R F c) (s : σ) : R s (c s).2 :=
  wp_state.mp (wp_mono (fun _ _ one => one) (fun _ _ one => one.1) (leads.spec s))

theorem result (leads : Leads R F c) {s s' : σ} {r : Except ε α} (ran : c s = (r, s')) :
    R s s' := by
  have one := leads.related s
  rwa [ran] at one

theorem error (leads : Leads R F c) {s s' : σ} {e : ε} (ran : c s = (.error e, s')) : F e s' :=
  ((wp_error ran).mp (leads.spec s)).2

theorem mono {G : ε → σ → Prop} (leads : Leads R F c) (wider : ∀ s s', R s s' → S s s')
    (weaker : ∀ e s, F e s → G e s) : Leads S G c :=
  ⟨fun s => wp_mono (fun _ s' => wider s s')
    (fun e s' stopped => ⟨wider s s' stopped.1, weaker e s' stopped.2⟩) (leads.spec s)⟩

theorem update {f : σ → σ} (moves : ∀ s, R s (f s)) :
    Leads R F (Prog.update f : Prog σ ε PUnit) := ⟨moves⟩

theorem ite {p : Prop} [Decidable p] (yes : Leads R F c) (no : Leads R F d) :
    Leads R F (if p then c else d) := by
  split
  · exact yes
  · exact no

theorem mapError {ε' : Type v} {G : ε' → σ → Prop} {f : ε → ε'} (leads : Leads R F c)
    (weaker : ∀ e s, F e s → G (f e) s) : Leads R G (c.mapError f) :=
  ⟨fun s => (wp_mapError f).mpr (wp_mono (fun _ _ one => one)
    (fun e s' stopped => ⟨stopped.1, weaker e s' stopped.2⟩) (leads.spec s))⟩

theorem isOk {ε' : Type v} {G : ε' → σ → Prop} (leads : Leads R F c) :
    Leads R G (c.isOk : Prog σ ε' Bool) :=
  ⟨fun s => wp_isOk.mpr (wp_mono (fun _ _ one => one) (fun _ _ one => one.1) (leads.spec s))⟩

variable [IsPreorder σ R]

theorem pure (a : α) : Leads R F (Pure.pure a : Prog σ ε α) := ⟨fun s => refl_of R s⟩

theorem ret (a : α) : Leads R F (Prog.ret a : Prog σ ε α) := ⟨fun s => refl_of R s⟩

theorem gets (f : σ → α) : Leads R F (Prog.gets f : Prog σ ε α) := ⟨fun s => refl_of R s⟩

theorem fail {e : ε} (expected : ∀ s, F e s) : Leads R F (Prog.fail e : Prog σ ε α) :=
  ⟨fun s => ⟨refl_of R s, expected s⟩⟩

theorem andThen (first : Leads R F c) (second : ∀ a, Leads R F (next a)) :
    Leads R F (Prog.andThen c next) := by
  refine ⟨fun s => ?_⟩
  rw [wp_andThen]
  refine wp_mono (fun a s' one => ?_) (fun _ _ stopped => stopped) (first.spec s)
  exact wp_mono (fun _ _ => trans_of R one)
    (fun _ _ stopped => ⟨trans_of R one stopped.1, stopped.2⟩) ((second a).spec s')

theorem bind (first : Leads R F c) (second : ∀ a, Leads R F (next a)) :
    Leads R F (c >>= next) := first.andThen second

theorem forEach {body : κ → Prog σ ε PUnit} (step : ∀ x, Leads R F (body x)) :
    ∀ xs : List κ, Leads R F (Prog.forEach body xs)
  | [] => ret _
  | x :: rest => (step x).andThen fun _ => forEach step rest

theorem forRange (step : ∀ i, Leads R F (body i)) :
    ∀ start count, Leads R F (Prog.forRange body start count)
  | _, 0 => ret _
  | start, count + 1 => (step start).andThen fun _ => forRange step (start + 1) count

end Leads

/-- Nothing is said of where a program leads. -/
instance : IsPreorder σ fun _ _ => True where
  refl _ := trivial
  trans _ _ _ _ _ := trivial

/-- The part `π` of the state is as it was. -/
def Same {κ : Type} (π : σ → κ) (s s' : σ) : Prop := π s' = π s

instance {κ : Type} (π : σ → κ) : IsPreorder σ (Same π) where
  refl _ := rfl
  trans _ _ _ first second := second.trans first

/-- The program does not change the part `π` of the state, and can fail only with
an error in `E`. -/
abbrev Keeps {κ : Type} (π : σ → κ) (E : ε → Prop) (c : Prog σ ε α) : Prop :=
  Leads (Same π) (fun e _ => E e) c

/-- What is kept as a part of `π` is kept. -/
theorem Keeps.project {κ κ' : Type} {π : σ → κ} {E : ε → Prop} (kept : Keeps π E c) (f : κ → κ') :
    Keeps (fun s => f (π s)) E c :=
  kept.mono (fun _ _ same => congrArg f same) fun _ _ expected => expected

end Prog

end OxideOS.Lib
