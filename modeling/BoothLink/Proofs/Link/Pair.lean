import BoothLink.Proofs.Link.Announced

/-!
# Two ends of a main connection

Two ends are joined back to back: what one of them writes comes to the other in the order in which
it was written, after any delay. A turn of either end may be next, and a message can be read once it
is the first on its way. Each end on its own goes through a history of its own, and what it has read
and what is on the way to it are together what the other end has written. An end announces its
services before anything else, so at the start both have announced theirs.

* `Side`, `MainPair`, `MainPair.machine`.
* `MainPair.turns`: the events of one end; `MainPair.ends_after`, `MainPair.possible_turns`.
* **`MainPair.heard_append_coming`**: nothing is lost, repeated or overtaken.
-/

namespace BoothLink

/-- The ends of a connection. -/
inductive Side where
  | near
  | far
  deriving DecidableEq

/-- The opposite end. -/
def Side.other : Side → Side
  | near => far
  | far => near

theorem Side.other_ne (i : Side) : i.other ≠ i := by
  cases i <;> decide

/-- Two ends of a main connection, and the messages on their way to each of them. -/
structure MainPair where
  ends : Side → MainTasks
  coming : Side → List Message

namespace MainPair

open Message (announced)
open MainTasks (heardIn rounds)
open Side (near far)

/-- Two ends that have announced their services. -/
def start (token target : Side → Token) (offered : Side → List Service) (beating : Side → Bool) :
    MainPair :=
  let ends := fun i => MainTasks.start (token i) (target i) (offered i) (beating i)
  { ends, coming := fun i => (ends i.other).sent }

/-- A turn of one end. -/
abbrev Event := Side × MainTasks.Event

/-- An end can read only the first message on its way to it. -/
def Enabled (p : MainPair) (e : Event) : Prop :=
  (p.ends e.1).Enabled e.2 ∧ heardIn [e.2] <+: p.coming e.1

instance (p : MainPair) (e : Event) : Decidable (p.Enabled e) :=
  inferInstanceAs (Decidable (_ ∧ _))

/-- What comes of a turn. -/
def next (p : MainPair) (e : Event) : MainPair where
  ends i := if i = e.1 then (p.ends i).next e.2 else p.ends i
  coming i := if i = e.1 then (p.coming i).drop (heardIn [e.2]).length else p.coming i ++ e.2.writes

def machine : Machine MainPair Event := ⟨Enabled, next⟩

instance (p : MainPair) (e : Event) : Decidable (machine.Enabled p e) :=
  inferInstanceAs (Decidable (p.Enabled e))

/-! ## Each end on its own -/

/-- The turns of one end. -/
def turns (i : Side) (es : List Event) : List MainTasks.Event :=
  es.filterMap fun e => if i = e.1 then some e.2 else none

variable {s p : MainPair} {es fs : List Event} {e : Event} {i : Side}

@[simp] theorem turns_append : turns i (es ++ fs) = turns i es ++ turns i fs :=
  List.filterMap_append

theorem turns_cons : turns i (e :: es) = (if i = e.1 then [e.2] else []) ++ turns i es := by
  unfold turns
  by_cases hi : i = e.1
  · rw [List.filterMap_cons_some (by exact if_pos hi), if_pos hi]
    rfl
  · rw [List.filterMap_cons_none (by exact if_neg hi), if_neg hi]
    rfl

theorem ends_after (s : MainPair) (es : List Event) (i : Side) :
    (machine.after s es).ends i = MainTasks.machine.after (s.ends i) (turns i es) := by
  induction es generalizing s with
  | nil => rfl
  | cons e es ih =>
    rw [Machine.after_cons, ih, turns_cons, Machine.after_append]
    congr 1
    show (if i = e.1 then _ else _) = _
    split <;> rfl

theorem possible_turns (h : machine.Possible s es) (i : Side) :
    MainTasks.machine.Possible (s.ends i) (turns i es) := by
  induction es generalizing s with
  | nil => trivial
  | cons e es ih =>
    have hrest := ih h.2
    have hends : (machine.next s e).ends i =
        if i = e.1 then (s.ends i).next e.2 else s.ends i := rfl
    rw [hends] at hrest
    rw [turns_cons]
    by_cases hi : i = e.1
    · rw [if_pos hi] at hrest ⊢
      subst hi
      exact ⟨h.1.1, hrest⟩
    · rw [if_neg hi] at hrest ⊢
      exact hrest

/-! ## Messages on their way -/

/-- **What one end has read and what is on the way to it are what was on the way at first and what
the other end has written since.** -/
theorem heard_append_coming (h : machine.Possible s es) (i : Side) :
    heardIn (turns i es) ++ (machine.after s es).coming i =
      s.coming i ++ (turns i.other es).flatMap MainTasks.Event.writes := by
  induction es generalizing s with
  | nil => exact (List.append_nil _).symm
  | cons e es ih =>
    have hcoming : (machine.next s e).coming i = if i = e.1 then
      (s.coming i).drop (heardIn [e.2]).length else s.coming i ++ e.2.writes := rfl
    rw [Machine.after_cons, turns_cons, turns_cons, MainTasks.heardIn_append, List.append_assoc,
      ih h.2, hcoming, List.flatMap_append]
    by_cases hi : i = e.1
    · have hother : i.other ≠ e.1 := fun ho => i.other_ne (ho.trans hi.symm)
      rw [if_pos hi, if_pos hi, if_neg hother, List.flatMap_nil, List.nil_append,
        ← List.append_assoc]
      congr 1
      rw [hi]
      exact List.prefix_iff_eq_append.mp h.1.2
    · have hother : i.other = e.1 := by
        generalize e.1 = j at hi
        revert hi
        cases i <;> cases j <;> decide
      rw [if_neg hi, if_neg hi, if_pos hother, List.flatMap_singleton, List.append_assoc]
      rfl

end MainPair

end BoothLink
