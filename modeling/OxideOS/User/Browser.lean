import Mathlib.Algebra.Order.Ring.Int
import OxideOS.Lib.Text

/-!
# The history of the browser

The navigation of `userspace/browser/src/main.rs`: the URL bar, the history and the load
that is in progress. A page comes in two steps. `startNavigate` forks a child that
fetches it, and `pollFetch`, called in every round of the main loop, takes the result
over once the child is done.

What a history is for is said by `Stacks`: the pages behind the current one, and those
ahead of it. The browser pushes every page it has loaded, also one it went back to, so
the history is that of `Stacks` exactly as long as the Back button does nothing
(`history_is_stacks_iff`): a Back that loads its page throws the pages ahead away and
leaves two copies of it, and Forward is never enabled (`back_forgets`).
-/

set_option autoImplicit false

namespace OxideOS.User

open Lib Function

abbrev Url := List Char

def size (s : Url) : Nat := (s.map Char.utf8Size).sum

/-- The first `n` bytes; `none` if a character is cut in two. -/
def clip : Nat → Url → Option Url
  | _, [] => some []
  | 0, _ :: _ => some []
  | n + 1, c :: rest =>
    if c.utf8Size ≤ n + 1 then (clip (n + 1 - c.utf8Size) rest).map (c :: ·) else none

/-- What a buffer of `n` bytes gives back. -/
def fixStr (n : Nat) (s : Url) : Url := (clip n s).getD []

def histCap : Nat := 16
def urlCap : Nat := 256

/-! ## The code -/

structure NavHistory where
  entries : Nat → Url
  count : Nat
  pos : Nat

namespace NavHistory

def new : NavHistory := ⟨fun _ => [], 0, 0⟩

/-- The entries after the current one are dropped. -/
def truncate (h : NavHistory) : NavHistory :=
  if h.pos + 1 < h.count then { h with count := h.pos + 1 } else h

/-- A full history loses its oldest entry. -/
def makeRoom (h : NavHistory) : NavHistory :=
  if histCap ≤ h.count then
    { entries := fun i => if i < histCap - 1 then h.entries (i + 1) else h.entries i
      count := histCap - 1
      pos := h.pos - 1 }
  else h

def push (url : Url) (h : NavHistory) : NavHistory :=
  let h := h.truncate.makeRoom
  { entries := update h.entries h.count (fixStr urlCap url)
    count := h.count + 1
    pos := h.count }

def current (h : NavHistory) : Url := if h.count = 0 then [] else h.entries h.pos

def canBack (h : NavHistory) : Bool := decide (0 < h.pos)
def canFwd (h : NavHistory) : Bool := decide (h.pos + 1 < h.count)

def goBack (h : NavHistory) : Url × NavHistory :=
  let h := if h.canBack then { h with pos := h.pos - 1 } else h
  (h.current, h)

def goFwd (h : NavHistory) : Url × NavHistory :=
  let h := if h.canFwd then { h with pos := h.pos + 1 } else h
  (h.current, h)

end NavHistory

/-- `page` is the URL of the page that is shown, if it is neither the home page nor an
error, and `loading` that of the one that a child is fetching. -/
structure Browser where
  urlBar : Url
  history : NavHistory
  page : Option Url
  loading : Option Url

namespace Browser

def new : Browser := ⟨[], .new, none, none⟩

def http : Url := ['h', 't', 't', 'p', ':', '/', '/']
def https : Url := ['h', 't', 't', 'p', 's', ':', '/', '/']

def withScheme (url : Url) : Url :=
  if http.isPrefixOf url || https.isPrefixOf url then url else http ++ url

/-- The URL that is fetched. -/
def fullUrl (url : Url) : Url := fixStr 512 (withScheme (trim url))

def isLoading (b : Browser) : Bool := b.loading.isSome

def cancelFetch (b : Browser) : Browser := { b with loading := none }

/-- `ready` says that shared memory, pipe and child could be had. -/
def startNavigate (url : Url) (ready : Bool) (b : Browser) : Browser :=
  if trim url = [] then b else
  let b := if b.isLoading then b.cancelFetch else b
  let full := fullUrl url
  let b := { b with urlBar := fixStr urlCap full }
  if ready then { b with loading := some (fixStr 511 full) } else b

/-- What the child has to say. -/
inductive Fetched where
  | again
  | error
  | page

/-- It is the text of the URL bar that goes into the history. -/
def pollFetch (fetched : Fetched) (b : Browser) : Browser :=
  match b.loading with
  | none => b
  | some url =>
    match fetched with
    | .again => b
    | .error => { b with page := none, loading := none }
    | .page => { b with history := b.history.push b.urlBar, page := some url, loading := none }

def pressBack (ready : Bool) (b : Browser) : Browser :=
  if b.history.canBack && !b.isLoading then
    let (url, history) := b.history.goBack
    startNavigate url ready { b with history := history, urlBar := fixStr urlCap url }
  else b

def pressForward (ready : Bool) (b : Browser) : Browser :=
  if b.history.canFwd && !b.isLoading then
    let (url, history) := b.history.goFwd
    startNavigate url ready { b with history := history, urlBar := fixStr urlCap url }
  else b

/-- Enter or Go with this text in the URL bar, or a click on a link. -/
def navigate (url : Url) (ready : Bool) (b : Browser) : Browser :=
  startNavigate url ready { b with urlBar := fixStr urlCap url }

inductive Action where
  | visit (url : Url)
  | back
  | forward
  deriving DecidableEq, Repr

/-- The action, with a load that succeeds. -/
def act (b : Browser) : Action → Browser
  | .visit url => pollFetch .page (navigate url true b)
  | .back => pollFetch .page (pressBack true b)
  | .forward => pollFetch .page (pressForward true b)

end Browser

/-! ## What a history is for -/

/-- The page, those behind it, the nearest first, and those ahead of it. -/
structure Stacks where
  behind : List Url
  current : Option Url
  ahead : List Url
  deriving DecidableEq, Repr

namespace Stacks

def empty : Stacks := ⟨[], none, []⟩

/-- Only a new page throws those ahead away. -/
def visit (url : Url) (s : Stacks) : Stacks := ⟨s.current.toList ++ s.behind, some url, []⟩

def back (s : Stacks) : Stacks :=
  match s.behind with
  | [] => s
  | url :: rest => ⟨rest, some url, s.current.toList ++ s.ahead⟩

def forward (s : Stacks) : Stacks :=
  match s.ahead with
  | [] => s
  | url :: rest => ⟨s.current.toList ++ s.behind, some url, rest⟩

def act (s : Stacks) : Browser.Action → Stacks
  | .visit url => s.visit (Browser.fullUrl url)
  | .back => s.back
  | .forward => s.forward

end Stacks

/-! ## The history as stacks -/

theorem fixStr_of_size {n : Nat} {s : Url} (fits : size s ≤ n) : fixStr n s = s := by
  have clipped : clip n s = some s := by
    induction s generalizing n with
    | nil => cases n <;> rfl
    | cons c rest ih =>
      have positive := c.utf8Size_pos
      simp only [size, List.map_cons, List.sum_cons] at fits ih
      cases n with
      | zero => omega
      | succ n => rw [clip, if_pos (by omega), ih (by omega)]; rfl
  rw [fixStr, clipped]
  rfl

namespace NavHistory

variable {h : NavHistory}

def asStacks (h : NavHistory) : Stacks where
  behind := ((List.range h.pos).map h.entries).reverse
  current := if h.count = 0 then none else some (h.entries h.pos)
  ahead := (List.range (h.count - (h.pos + 1))).map fun i => h.entries (h.pos + 1 + i)

theorem canBack_iff : h.canBack = true ↔ h.asStacks.behind ≠ [] := by
  simp [canBack, asStacks, Nat.pos_iff_ne_zero]

theorem canFwd_iff : h.canFwd = true ↔ h.asStacks.ahead ≠ [] := by
  simp [canFwd, asStacks, Nat.sub_eq_zero_iff_le]

/-- A page pushed at the end of the history. -/
theorem stacks_push {url : Url} (last : h.pos = h.count - 1) (room : h.count < histCap)
    (fits : size url ≤ urlCap) : (h.push url).asStacks = h.asStacks.visit url := by
  have kept : h.truncate.makeRoom = h := by
    rw [truncate, if_neg (by omega), makeRoom, if_neg (by omega)]
  have below : (List.range h.count).map (update h.entries h.count (fixStr urlCap url)) =
      (List.range h.count).map h.entries := by
    refine List.map_congr_left fun i member => update_of_ne ?_ ..
    exact Nat.ne_of_lt (List.mem_range.mp member)
  simp only [push, kept, asStacks, Stacks.visit, fixStr_of_size fits] at below ⊢
  rw [below, update_self]
  cases count : h.count with
  | zero =>
    rw [count] at last
    simp [last]
  | succ n =>
    rw [count] at last
    simp [last, List.range_succ]

/-- A push leaves nothing ahead. -/
theorem canFwd_push (url : Url) : (h.push url).canFwd = false := by
  simp [push, canFwd]

end NavHistory

namespace Browser

open NavHistory

/-- The visits of URLs that can be typed or clicked: not blank, and with their scheme not
longer than the URL bar. -/
def Loads (url : Url) : Prop := trim url ≠ [] ∧ size (withScheme (trim url)) ≤ urlCap

def visits (actions : List Action) : Nat :=
  (actions.filter fun a => match a with | .visit _ => true | _ => false).length

/-- The history is that of the stacks, and the page shown is the current one. -/
def Matches (b : Browser) (s : Stacks) : Prop := b.history.asStacks = s ∧ b.page = s.current

/-- The browser and the stacks go together at the start and after each action. -/
def Agree : Browser → Stacks → List Action → Prop
  | b, s, [] => Matches b s
  | b, s, a :: rest => Matches b s ∧ Agree (b.act a) (s.act a) rest

/-- Back is only pressed while there is at most one page; `n` have been visited. -/
def BackIdle : Nat → List Action → Prop
  | _, [] => True
  | n, .visit _ :: rest => BackIdle (n + 1) rest
  | n, .back :: rest => n ≤ 1 ∧ BackIdle n rest
  | n, .forward :: rest => BackIdle n rest

variable {b : Browser} {s : Stacks} {n : Nat} {url : Url}

/-- Nothing but visits so far: the last of the `n` pages is the current one. -/
structure Straight (n : Nat) (b : Browser) (s : Stacks) : Prop where
  same : Matches b s
  count : b.history.count = n
  pos : b.history.pos = n - 1
  idle : b.loading = none
  named : ∀ i < n, ∃ rest, b.history.entries i = 'h' :: rest

theorem fullUrl_eq (loads : Loads url) : fullUrl url = withScheme (trim url) :=
  fixStr_of_size (Nat.le_trans loads.2 (by decide))

theorem withScheme_cons (url : Url) : ∃ rest, withScheme url = 'h' :: rest := by
  unfold withScheme
  split
  · next scheme =>
      simp only [Bool.or_eq_true, List.isPrefixOf_iff_prefix] at scheme
      rcases scheme with ⟨rest, rfl⟩ | ⟨rest, rfl⟩
      · exact ⟨_, rfl⟩
      · exact ⟨_, rfl⟩
  · exact ⟨_, rfl⟩

/-- A navigation that starts while nothing is being loaded. -/
theorem startNavigate_idle (idle : b.loading = none) (ink : trim url ≠ []) :
    startNavigate url true b =
      { b with
        urlBar := fixStr urlCap (fullUrl url), loading := some (fixStr 511 (fullUrl url)) } := by
  simp [startNavigate, ink, isLoading, idle]

theorem act_visit (idle : b.loading = none) (loads : Loads url) :
    b.act (.visit url) =
      { urlBar := fullUrl url, history := b.history.push (fullUrl url)
        page := some (fullUrl url), loading := none } := by
  have started : navigate url true b =
      { b with
        urlBar := fixStr urlCap (fullUrl url), loading := some (fixStr 511 (fullUrl url)) } :=
    startNavigate_idle (b := { b with urlBar := fixStr urlCap url }) idle loads.1
  have fits : size (fullUrl url) ≤ urlCap := by
    rw [fullUrl_eq loads]
    exact loads.2
  rw [fixStr_of_size fits, fixStr_of_size (Nat.le_trans fits (by decide))] at started
  rw [act, started]
  rfl

/-- A Back that does anything pushes the page it has gone back to. -/
theorem act_back_canFwd (idle : b.loading = none) (enabled : b.history.canBack = true)
    (ink : trim b.history.goBack.1 ≠ []) : (b.act .back).history.canFwd = false := by
  have pressed : pressBack true b =
      { urlBar := fixStr urlCap (fullUrl b.history.goBack.1), history := b.history.goBack.2
        page := b.page, loading := some (fixStr 511 (fullUrl b.history.goBack.1)) } := by
    have notLoading : b.isLoading = false := by rw [isLoading, idle]; rfl
    have started := startNavigate_idle
      (b := { b with history := b.history.goBack.2, urlBar := fixStr urlCap b.history.goBack.1 })
      idle ink
    rw [pressBack, enabled, notLoading]
    exact started
  rw [act, pressed]
  exact canFwd_push _

section

variable (straight : Straight n b s)
include straight

theorem Straight.behind : s.behind = [] ↔ n ≤ 1 := by
  have off := canBack_iff (h := b.history)
  rw [straight.same.1] at off
  rw [← not_iff_not, ← Ne, ← off, canBack, straight.pos, decide_eq_true_iff]
  omega

theorem Straight.ahead : s.ahead = [] := by
  have off := canFwd_iff (h := b.history)
  rw [straight.same.1] at off
  by_contra more
  have enabled := off.mpr more
  rw [canFwd, straight.pos, straight.count, decide_eq_true_iff] at enabled
  omega

theorem Straight.visit (loads : Loads url) (room : n < histCap) :
    Straight (n + 1) (b.act (.visit url)) (s.act (.visit url)) := by
  have fits : size (fullUrl url) ≤ urlCap := by
    rw [fullUrl_eq loads]
    exact loads.2
  have last : b.history.pos = b.history.count - 1 := by rw [straight.pos, straight.count]
  have kept : b.history.truncate.makeRoom = b.history := by
    rw [truncate, if_neg (by omega), makeRoom, if_neg (by rw [straight.count]; omega)]
  have pushed : b.history.push (fullUrl url) =
      ⟨update b.history.entries n (fullUrl url), n + 1, n⟩ := by
    rw [push, kept, straight.count, fixStr_of_size fits]
  rw [act_visit straight.idle loads]
  refine ⟨⟨?_, rfl⟩, ?_, ?_, rfl, ?_⟩
  · show (b.history.push (fullUrl url)).asStacks = s.visit (fullUrl url)
    rw [stacks_push last (by rw [straight.count]; exact room) fits, straight.same.1]
  · rw [pushed]
  · rw [pushed]
    rfl
  · intro i below
    rw [pushed]
    show ∃ rest, update b.history.entries n (fullUrl url) i = 'h' :: rest
    by_cases new : i = n
    · subst new
      obtain ⟨rest, scheme⟩ := withScheme_cons (trim url)
      exact ⟨rest, by rw [update_self, fullUrl_eq loads, scheme]⟩
    · obtain ⟨rest, named⟩ := straight.named i (by omega)
      exact ⟨rest, by rw [update_of_ne new, named]⟩

theorem Straight.back (few : n ≤ 1) :
    b.act .back = b ∧ s.act .back = s := by
  constructor
  · have disabled : b.history.canBack = false := by
      rw [canBack, straight.pos]
      exact decide_eq_false (by omega)
    simp [act, pressBack, disabled, pollFetch, straight.idle]
  · simp [Stacks.act, Stacks.back, straight.behind.mpr few]

theorem Straight.forward :
    b.act .forward = b ∧ s.act .forward = s := by
  constructor
  · have disabled : b.history.canFwd = false := by
      rw [canFwd, straight.pos, straight.count]
      exact decide_eq_false (by omega)
    simp [act, pressForward, disabled, pollFetch, straight.idle]
  · simp [Stacks.act, Stacks.forward, straight.ahead]

/-- After a Back from the second page or a later one the stacks have a page ahead, and
the browser has none. -/
theorem Straight.back_apart (many : ¬n ≤ 1) :
    ¬Matches (b.act .back) (s.act .back) := by
  rintro ⟨same, -⟩
  have enabled : b.history.canBack = true := by
    rw [canBack, straight.pos]
    exact decide_eq_true (by omega)
  have ink : trim b.history.goBack.1 ≠ [] := by
    obtain ⟨rest, named⟩ := straight.named (n - 2) (by omega)
    have here : b.history.goBack.1 = 'h' :: rest := by
      rw [goBack, if_pos enabled, NavHistory.current, if_neg (by rw [straight.count]; omega),
        ← named, straight.pos]
      rfl
    rw [here]
    exact trim_cons_ne_nil (by decide) rest
  have none := act_back_canFwd straight.idle enabled ink
  have more : (s.act .back).ahead ≠ [] := by
    obtain ⟨first, rest, cons⟩ := List.exists_cons_of_ne_nil (mt straight.behind.mp many)
    obtain ⟨current, here⟩ : ∃ current, s.current = some current := by
      rw [← straight.same.1]
      exact ⟨_, if_neg (by rw [straight.count]; omega)⟩
    simp [Stacks.act, Stacks.back, cons, here]
  rw [← same, ← canFwd_iff, none] at more
  cases more

theorem Straight.agree_iff {actions : List Action}
    (loads : ∀ url, .visit url ∈ actions → Loads url) (few : n + visits actions ≤ histCap) :
    Agree b s actions ↔ BackIdle n actions := by
  induction actions generalizing n b s with
  | nil => exact ⟨fun _ => trivial, fun _ => straight.same⟩
  | cons a rest ih =>
    have later : ∀ url, .visit url ∈ rest → Loads url :=
      fun url member => loads url (List.mem_cons_of_mem _ member)
    cases a with
    | visit url =>
      have more : visits (.visit url :: rest) = visits rest + 1 := rfl
      rw [more] at few
      have next := straight.visit (loads url List.mem_cons_self) (by omega)
      rw [Agree, BackIdle, ih next later (by omega)]
      exact and_iff_right straight.same
    | forward =>
      have fewer : n + visits rest ≤ histCap := few
      obtain ⟨still, stillToo⟩ := straight.forward
      rw [Agree, BackIdle, still, stillToo, ih straight later fewer]
      exact and_iff_right straight.same
    | back =>
      have fewer : n + visits rest ≤ histCap := few
      rw [Agree, BackIdle]
      by_cases idle : n ≤ 1
      · obtain ⟨still, stillToo⟩ := straight.back idle
        rw [still, stillToo, ih straight later fewer]
        exact ⟨fun both => ⟨idle, both.2⟩, fun both => ⟨straight.same, both.2⟩⟩
      · refine ⟨fun both => ?_, fun both => absurd both.1 idle⟩
        refine absurd ?_ (straight.back_apart idle)
        cases rest with
        | nil => exact both.2
        | cons next rest => exact both.2.1

end

/-- **The history is a pair of stacks** exactly for the sessions in which Back is never
pressed with a page behind. -/
theorem history_is_stacks_iff {actions : List Action}
    (loads : ∀ url, .visit url ∈ actions → Loads url) (few : visits actions ≤ histCap) :
    Agree new .empty actions ↔ BackIdle 0 actions := by
  have straight : Straight 0 new .empty :=
    ⟨⟨rfl, rfl⟩, rfl, rfl, rfl, fun i below => absurd below (Nat.not_lt_zero i)⟩
  exact straight.agree_iff loads (by omega)

instance (url : Url) : Decidable (Loads url) :=
  inferInstanceAs (Decidable (trim url ≠ [] ∧ size (withScheme (trim url)) ≤ urlCap))

theorem history_is_stacks_iff_twoPages :
    Agree new .empty [.visit ['a', '.', 'b'], .back, .visit ['c', '.', 'd'], .forward] := by
  refine (history_is_stacks_iff ?_ (by decide)).mpr ⟨by decide, trivial⟩
  intro url member
  simp only [List.mem_cons, reduceCtorEq, Action.visit.injEq, List.not_mem_nil, or_false,
    false_or] at member
  rcases member with rfl | rfl
  · decide
  · decide

/-- Two pages, and Back: the first page is there twice, and Forward is not enabled. -/
theorem back_forgets :
    let a : Url := ['a', '.', 'b']
    let b := ((new.act (.visit a)).act (.visit ['c', '.', 'd'])).act .back
    b.page = some (http ++ a) ∧ b.history.asStacks = ⟨[http ++ a], some (http ++ a), []⟩ ∧
      b.history.canFwd = false ∧
      ¬Agree new .empty [.visit a, .visit ['c', '.', 'd'], .back] := by
  refine ⟨by decide, by decide, by decide, ?_⟩
  rintro ⟨-, -, -, same, -⟩
  exact absurd (congrArg Stacks.ahead same) (by decide)

end Browser
end OxideOS.User
