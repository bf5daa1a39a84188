/-
Module: Unshield.Foundation.Handles
Purpose: The trace of what is done with the handles of an interface, and the ledger of a client that
  holds some of them.
Trusted boundary: none
Main exports: Handles.Event, Handles.Live, Handles.Disciplined, Handles.ClosedOnce, Handles.Ledger,
  Handles.Ledger.Guarded, Handles.Ledger.Balanced, Handles.Ledger.Keeps
-/
import Mathlib.Data.List.Count

namespace Handles

/-- What is done with a handle.  Each handle that is given out has an identifier of its own. -/
inductive Event where
  | opened (id : Nat)
  | used (id : Nat)
  | closed (id : Nat)
deriving Repr, DecidableEq

/-! ### Traces

The last event is in front.
-/

/-- The handle was given out and has not been closed. -/
def Live (trace : List Event) (id : Nat) : Prop := .opened id ∈ trace ∧ .closed id ∉ trace

instance (trace : List Event) (id : Nat) : Decidable (Live trace id) :=
  inferInstanceAs (Decidable (_ ∧ _))

/-- Each handle is live when it is used or closed. -/
def Disciplined : List Event → Prop
  | [] => True
  | .opened _ :: earlier => Disciplined earlier
  | .used id :: earlier => Live earlier id ∧ Disciplined earlier
  | .closed id :: earlier => Live earlier id ∧ Disciplined earlier

def Disciplined.decide : (trace : List Event) → Decidable (Disciplined trace)
  | [] => .isTrue trivial
  | .opened _ :: earlier => Disciplined.decide earlier
  | .used _ :: earlier => @instDecidableAnd _ _ inferInstance (Disciplined.decide earlier)
  | .closed _ :: earlier => @instDecidableAnd _ _ inferInstance (Disciplined.decide earlier)

instance (trace : List Event) : Decidable (Disciplined trace) := Disciplined.decide trace

/-- Each handle that was given out has been closed once. -/
def ClosedOnce (trace : List Event) : Prop :=
  ∀ id, .opened id ∈ trace → trace.count (.closed id) = 1

/-- No handle from `next` on was given out or closed. -/
def Below (next : Nat) (trace : List Event) : Prop :=
  ∀ id, .opened id ∈ trace ∨ .closed id ∈ trace → id < next

theorem Live.opened {trace : List Event} {id : Nat} (live : Live trace id) (other : Nat) :
    Live (.opened other :: trace) id := by
  refine ⟨List.mem_cons_of_mem _ live.1, ?_⟩
  rintro (_ | ⟨_, closed⟩)
  exact live.2 closed

theorem Live.used {trace : List Event} {id : Nat} (live : Live trace id) (other : Nat) :
    Live (.used other :: trace) id := by
  refine ⟨List.mem_cons_of_mem _ live.1, ?_⟩
  rintro (_ | ⟨_, closed⟩)
  exact live.2 closed

theorem Live.closed {trace : List Event} {id other : Nat} (live : Live trace id)
    (different : id ≠ other) : Live (.closed other :: trace) id := by
  refine ⟨List.mem_cons_of_mem _ live.1, ?_⟩
  intro member
  rcases List.mem_cons.1 member with same | closed
  · exact different (Event.closed.inj same)
  · exact live.2 closed

theorem Live.fresh {trace : List Event} {next : Nat} (below : Below next trace) :
    Live (.opened next :: trace) next := by
  refine ⟨List.mem_cons_self, ?_⟩
  rintro (_ | ⟨_, closed⟩)
  exact Nat.lt_irrefl _ (below next (Or.inr closed))

theorem Below.opened {trace : List Event} {next : Nat} (below : Below next trace) :
    Below (next + 1) (.opened next :: trace) := by
  intro id member
  rcases member with opened | closed
  · rcases List.mem_cons.1 opened with same | earlier
    · exact Event.opened.inj same ▸ Nat.lt_succ_self _
    · exact Nat.lt_succ_of_lt (below id (Or.inl earlier))
  · rcases List.mem_cons.1 closed with same | earlier
    · cases same
    · exact Nat.lt_succ_of_lt (below id (Or.inr earlier))

theorem Below.used {trace : List Event} {next : Nat} (below : Below next trace) (other : Nat) :
    Below next (.used other :: trace) := by
  intro id member
  rcases member with opened | closed
  · rcases List.mem_cons.1 opened with same | earlier
    · cases same
    · exact below id (Or.inl earlier)
  · rcases List.mem_cons.1 closed with same | earlier
    · cases same
    · exact below id (Or.inr earlier)

theorem Below.closed {trace : List Event} {next other : Nat} (below : Below next trace)
    (given : other < next) : Below next (.closed other :: trace) := by
  intro id member
  rcases member with opened | closed
  · rcases List.mem_cons.1 opened with same | earlier
    · cases same
    · exact below id (Or.inl earlier)
  · rcases List.mem_cons.1 closed with same | earlier
    · exact Event.closed.inj same ▸ given
    · exact below id (Or.inr earlier)

theorem Below.mono {trace : List Event} {next : Nat} (below : Below next trace) :
    Below (next + 1) trace :=
  fun id member => Nat.lt_succ_of_lt (below id member)

/-! ### Ledgers -/

/-- The next identifier, the trace so far, and the handles that a client holds. -/
structure Ledger where
  next : Nat
  trace : List Event
  held : List Nat
deriving Repr, DecidableEq

namespace Ledger

/-- A new handle of the interface. -/
def opens (ledger : Ledger) : Ledger where
  next := ledger.next + 1
  trace := .opened ledger.next :: ledger.trace
  held := ledger.next :: ledger.held

def uses (ledger : Ledger) (id : Nat) : Ledger := { ledger with trace := .used id :: ledger.trace }

def closes (ledger : Ledger) (id : Nat) : Ledger :=
  { ledger with trace := .closed id :: ledger.trace, held := ledger.held.erase id }

/-- A handle that is held no longer, without having been closed. -/
def forgets (ledger : Ledger) (id : Nat) : Ledger := { ledger with held := ledger.held.erase id }

/-- No operation of the interface on a handle that is held breaks the property, nor does the order of
the handles matter to it. -/
structure Keeps (P : Ledger → Prop) : Prop where
  opens : ∀ ledger, P ledger → P ledger.opens
  uses : ∀ ledger id, id ∈ ledger.held → P ledger → P (ledger.uses id)
  closes : ∀ ledger id, id ∈ ledger.held → P ledger → P (ledger.closes id)
  perm : ∀ ledger held, ledger.held.Perm held → P ledger → P { ledger with held := held }

/-! ### Only live handles are held -/

structure Guarded (ledger : Ledger) : Prop where
  below : Below ledger.next ledger.trace
  nodup : ledger.held.Nodup
  live : ∀ id ∈ ledger.held, Live ledger.trace id
  disciplined : Disciplined ledger.trace

theorem Guarded.lt {ledger : Ledger} (guarded : ledger.Guarded) {id : Nat} (held : id ∈ ledger.held) :
    id < ledger.next :=
  guarded.below id (Or.inl (guarded.live id held).1)

theorem Guarded.forgets {ledger : Ledger} (guarded : ledger.Guarded) (id : Nat) :
    (ledger.forgets id).Guarded where
  below := guarded.below
  nodup := guarded.nodup.erase id
  live := fun other held => guarded.live other (List.mem_of_mem_erase held)
  disciplined := guarded.disciplined

theorem keeps_guarded : Keeps Guarded where
  opens := fun ledger guarded =>
    { below := guarded.below.opened
      nodup := List.nodup_cons.2 ⟨fun held => Nat.lt_irrefl _ (guarded.lt held), guarded.nodup⟩
      live := by
        intro id held
        rcases List.mem_cons.1 held with rfl | before
        · exact Live.fresh guarded.below
        · exact (guarded.live id before).opened _
      disciplined := guarded.disciplined }
  uses := fun ledger id held guarded =>
    { below := guarded.below.used id
      nodup := guarded.nodup
      live := fun other member => (guarded.live other member).used id
      disciplined := ⟨guarded.live id held, guarded.disciplined⟩ }
  closes := fun ledger id held guarded =>
    { below := guarded.below.closed (guarded.lt held)
      nodup := guarded.nodup.erase id
      live := by
        intro other member
        obtain ⟨different, before⟩ := guarded.nodup.mem_erase_iff.1 member
        exact (guarded.live other before).closed different
      disciplined := ⟨guarded.live id held, guarded.disciplined⟩ }
  perm := fun ledger held perm guarded =>
    { below := guarded.below
      nodup := perm.nodup_iff.1 guarded.nodup
      live := fun id member => guarded.live id (perm.mem_iff.2 member)
      disciplined := guarded.disciplined }

/-! ### Whatever was given out is closed or held -/

structure Balanced (ledger : Ledger) : Prop where
  below : Below ledger.next ledger.trace
  held_below : ∀ id ∈ ledger.held, id < ledger.next
  balance : ∀ id, .opened id ∈ ledger.trace →
    ledger.trace.count (.closed id) + ledger.held.count id = 1

theorem Balanced.uses {ledger : Ledger} (balanced : ledger.Balanced) (id : Nat) :
    (ledger.uses id).Balanced where
  below := balanced.below.used id
  held_below := balanced.held_below
  balance := by
    intro other opened
    show (Event.used id :: ledger.trace).count (.closed other) + ledger.held.count other = 1
    rw [List.count_cons_of_ne (by simp)]
    rcases List.mem_cons.1 opened with same | earlier
    · cases same
    · exact balanced.balance other earlier

/-- A handle that is not one of the interface may be held. -/
theorem Balanced.takes {ledger : Ledger} (balanced : ledger.Balanced) {id : Nat} (given : id < ledger.next)
    (foreign : .opened id ∉ ledger.trace) : Balanced { ledger with held := id :: ledger.held } where
  below := balanced.below
  held_below := by
    intro other held
    rcases List.mem_cons.1 held with rfl | before
    · exact given
    · exact balanced.held_below other before
  balance := by
    intro other opened
    show ledger.trace.count (.closed other) + (id :: ledger.held).count other = 1
    rw [List.count_cons_of_ne (by rintro rfl; exact foreign opened)]
    exact balanced.balance other opened

/-- An identifier may be given to something else. -/
theorem Balanced.skips {ledger : Ledger} (balanced : ledger.Balanced) :
    Balanced { ledger with next := ledger.next + 1 } where
  below := balanced.below.mono
  held_below := fun id held => Nat.lt_succ_of_lt (balanced.held_below id held)
  balance := balanced.balance

/-- A handle that is not one of the interface may be forgotten. -/
theorem Balanced.forgets {ledger : Ledger} (balanced : ledger.Balanced) {id : Nat}
    (foreign : .opened id ∉ ledger.trace) : (ledger.forgets id).Balanced where
  below := balanced.below
  held_below := fun other member => balanced.held_below other (List.mem_of_mem_erase member)
  balance := by
    intro other opened
    show ledger.trace.count (.closed other) + (ledger.held.erase id).count other = 1
    rw [List.count_erase_of_ne (by rintro rfl; exact foreign opened)]
    exact balanced.balance other opened

theorem keeps_balanced : Keeps Balanced where
  opens := fun ledger balanced =>
    { below := balanced.below.opened
      held_below := by
        intro id held
        rcases List.mem_cons.1 held with rfl | before
        · exact Nat.lt_succ_self _
        · exact Nat.lt_succ_of_lt (balanced.held_below id before)
      balance := by
        intro id opened
        show (Event.opened ledger.next :: ledger.trace).count (.closed id) +
          (ledger.next :: ledger.held).count id = 1
        rw [List.count_cons_of_ne (by simp)]
        rcases List.mem_cons.1 opened with same | earlier
        · obtain rfl := Event.opened.inj same
          have unheld : ledger.held.count ledger.next = 0 :=
            List.count_eq_zero.2 fun held => Nat.lt_irrefl _ (balanced.held_below _ held)
          have unclosed : ledger.trace.count (.closed ledger.next) = 0 :=
            List.count_eq_zero.2 fun closed => Nat.lt_irrefl _ (balanced.below _ (Or.inr closed))
          rw [List.count_cons_self, unheld, unclosed]
        · have different : ledger.next ≠ id := Nat.ne_of_gt (balanced.below id (Or.inl earlier))
          rw [List.count_cons_of_ne different]
          exact balanced.balance id earlier }
  uses := fun _ id _ balanced => balanced.uses id
  closes := fun ledger id held balanced =>
    { below := balanced.below.closed (balanced.held_below id held)
      held_below := fun other member => balanced.held_below other (List.mem_of_mem_erase member)
      balance := by
        intro other opened
        show (Event.closed id :: ledger.trace).count (.closed other) +
          (ledger.held.erase id).count other = 1
        rcases List.mem_cons.1 opened with same | earlier
        · cases same
        · have before := balanced.balance other earlier
          by_cases same : id = other
          · subst same
            have holds : 0 < ledger.held.count id := List.count_pos_iff.2 held
            rw [List.count_cons_self, List.count_erase_self]
            omega
          · rw [List.count_cons_of_ne (fun eq => same (Event.closed.inj eq)),
              List.count_erase_of_ne (Ne.symm same)]
            exact before }
  perm := fun ledger held perm balanced =>
    { below := balanced.below
      held_below := fun id member => balanced.held_below id (perm.mem_iff.2 member)
      balance := by
        intro id opened
        show ledger.trace.count (.closed id) + held.count id = 1
        rw [← perm.count_eq]
        exact balanced.balance id opened }

/-- When nothing is held any more, everything is closed. -/
theorem Balanced.closedOnce {ledger : Ledger} (balanced : ledger.Balanced) (nothing : ledger.held = []) :
    ClosedOnce ledger.trace := by
  intro id opened
  have balance := balanced.balance id opened
  rwa [nothing] at balance

end Ledger

end Handles
