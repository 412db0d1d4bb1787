import Mathlib.Data.List.Induction

/-!
# Machines and their histories

A machine is given by what may happen in each of its states and by what comes of it. A history is a
list of events, each of which may happen where the ones before it have led.

* `Machine`, `Machine.after`, `Machine.Possible`; `Machine.along`, for what the events of a history
  bring besides the state.
* **`Machine.Possible.induction`**: what holds at first and is kept by each further event holds of
  every history; `Machine.Possible.induction_of`, if all its events are of one sort, and
  `Machine.Possible.invariant`, for what holds of the state alone.
* `Machine.Possible.first_iff`: what has come about once, and for good, came about at one event.
* `Machine.Possible.filter`: events that change nothing but what no other event looks at can be left
  out.
-/

namespace BoothLink

/-- What may happen in a state, and the state after it. -/
structure Machine (σ ε : Type) where
  Enabled : σ → ε → Prop
  next : σ → ε → σ

namespace Machine

variable {σ ε : Type} {M : Machine σ ε} {s : σ} {es fs : List ε} {e : ε}

/-- The state to which some events lead. -/
def after (M : Machine σ ε) (s : σ) (es : List ε) : σ := es.foldl M.next s

/-- Each event may happen after those before it. -/
def Possible (M : Machine σ ε) : σ → List ε → Prop
  | _, [] => True
  | s, e :: es => M.Enabled s e ∧ Possible M (M.next s e) es

instance decidablePossible (M : Machine σ ε) [∀ s e, Decidable (M.Enabled s e)] :
    (s : σ) → (es : List ε) → Decidable (M.Possible s es)
  | _, [] => instDecidableTrue
  | s, e :: es =>
    have := decidablePossible M (M.next s e) es
    inferInstanceAs (Decidable (M.Enabled s e ∧ M.Possible (M.next s e) es))

@[simp] theorem after_nil : M.after s [] = s := rfl

@[simp] theorem after_cons : M.after s (e :: es) = M.after (M.next s e) es := rfl

@[simp] theorem after_append : M.after s (es ++ fs) = M.after (M.after s es) fs :=
  List.foldl_append

/-- What comes of each event of a history besides the state. -/
def along {β : Type} (M : Machine σ ε) (f : σ → ε → List β) : σ → List ε → List β
  | _, [] => []
  | s, e :: es => f s e ++ along M f (M.next s e) es

theorem along_append {β : Type} (f : σ → ε → List β) :
    M.along f s (es ++ fs) = M.along f s es ++ M.along f (M.after s es) fs := by
  induction es generalizing s with
  | nil => rfl
  | cons e es ih => rw [List.cons_append, along, ih, along, List.append_assoc, after_cons]

theorem along_snoc {β : Type} (f : σ → ε → List β) :
    M.along f s (es ++ [e]) = M.along f s es ++ f (M.after s es) e := by
  rw [along_append, along, along, List.append_nil]

@[simp] theorem possible_nil : M.Possible s [] := trivial

@[simp] theorem possible_cons :
    M.Possible s (e :: es) ↔ M.Enabled s e ∧ M.Possible (M.next s e) es := Iff.rfl

@[simp] theorem possible_append :
    M.Possible s (es ++ fs) ↔ M.Possible s es ∧ M.Possible (M.after s es) fs := by
  induction es generalizing s with
  | nil => simp
  | cons e es ih => simp [ih, and_assoc]

/-- **What holds at first and is kept by each further event holds of every history.** -/
@[elab_as_elim]
theorem Possible.induction {motive : List ε → Prop} (h : M.Possible s es) (nil : motive [])
    (snoc : ∀ es e, M.Possible s es → M.Enabled (M.after s es) e → motive es → motive (es ++ [e])) :
    motive es := by
  induction es using List.reverseRecOn with
  | nil => exact nil
  | append_singleton es e ih =>
    rw [possible_append, possible_cons] at h
    exact snoc es e h.1 h.2.1 (ih h.1)

theorem Possible.invariant (Inv : σ → Prop) (h : M.Possible s es) (start : Inv s)
    (next : ∀ {s e}, Inv s → M.Enabled s e → Inv (M.next s e)) : Inv (M.after s es) := by
  refine h.induction start ?_
  intro es e _ he ih
  rw [after_append]
  exact next ih he

/-- **What has come about once, and for good, came about at one event.** -/
theorem Possible.first_iff {β : Type} (left : σ → Option β) {Ends : σ → ε → β → Prop}
    (hnone : left s = none)
    (hends : ∀ {es e b}, M.Possible s es → M.Enabled (M.after s es) e → left (M.after s es) = none →
      (left (M.next (M.after s es) e) = some b ↔ Ends (M.after s es) e b))
    (hkept : ∀ {es e b}, M.Possible s es → M.Enabled (M.after s es) e →
      left (M.after s es) = some b → left (M.next (M.after s es) e) = some b)
    (h : M.Possible s es) {b : β} :
    left (M.after s es) = some b ↔ ∃ before e later, es = before ++ e :: later ∧
      left (M.after s before) = none ∧ Ends (M.after s before) e b := by
  refine h.induction ?_ ?_
  · exact iff_of_false (by simp [hnone]) fun ⟨_, _, _, hes, _⟩ => by simp at hes
  · intro es e hes he ih
    rw [after_append, after_cons, after_nil]
    -- A decomposition of the longer history splits at its last event, or is one of the shorter.
    have hsplit : ∀ before e' later, es ++ [e] = before ++ e' :: later →
        (before = es ∧ e' = e) ∨ ∃ later', es = before ++ e' :: later' := by
      intro before e' later heq
      rcases List.eq_nil_or_concat later with rfl | ⟨later', x, rfl⟩
      · obtain ⟨hbefore, hlast⟩ := List.append_inj' heq rfl
        exact .inl ⟨hbefore.symm, (List.singleton_inj.mp hlast).symm⟩
      · refine .inr ⟨later', ?_⟩
        rw [List.concat_eq_append, ← List.cons_append, ← List.append_assoc] at heq
        exact (List.append_inj' heq rfl).1
    cases hleft : left (M.after s es) with
    | none =>
      rw [hends hes he hleft]
      constructor
      · intro hend
        exact ⟨es, e, [], rfl, hleft, hend⟩
      · rintro ⟨before, e', later, heq, hbefore, hend⟩
        obtain ⟨rfl, rfl⟩ | ⟨later', hshort⟩ := hsplit before e' later heq
        · exact hend
        · have hsome := ih.mpr ⟨before, e', later', hshort, hbefore, hend⟩
          rw [hleft] at hsome
          cases hsome
    | some b' =>
      rw [hkept hes he hleft]
      rw [hleft] at ih
      constructor
      · intro hsame
        obtain ⟨before, e', later, rfl, hrest⟩ := ih.mp hsame
        exact ⟨before, e', later ++ [e], by simp, hrest⟩
      · rintro ⟨before, e', later, heq, hbefore, hend⟩
        obtain ⟨rfl, rfl⟩ | ⟨later', hshort⟩ := hsplit before e' later heq
        · rw [hleft] at hbefore
          cases hbefore
        · exact ih.mpr ⟨before, e', later', hshort, hbefore, hend⟩

/-- **Events that change nothing but what no other event looks at can be left out.** -/
theorem Possible.filter (Alike : σ → σ → Prop) (p : ε → Bool) {s' : σ} (halike : Alike s s')
    (hskip : ∀ {s s' e}, Alike s s' → M.Enabled s' e → p e = false → Alike s (M.next s' e))
    (hkeep : ∀ {s s' e}, Alike s s' → M.Enabled s' e → p e = true →
      M.Enabled s e ∧ Alike (M.next s e) (M.next s' e))
    (h : M.Possible s' es) :
    M.Possible s (es.filter p) ∧ Alike (M.after s (es.filter p)) (M.after s' es) := by
  induction es generalizing s s' with
  | nil => exact ⟨trivial, halike⟩
  | cons e es ih =>
    cases hp : p e with
    | false =>
      rw [List.filter_cons_of_neg (by simp [hp])]
      exact ih (hskip halike h.1 hp) h.2
    | true =>
      rw [List.filter_cons_of_pos hp]
      obtain ⟨hen, hnext⟩ := hkeep halike h.1 hp
      obtain ⟨hpos, hafter⟩ := ih hnext h.2
      exact ⟨⟨hen, hpos⟩, hafter⟩

end Machine

end BoothLink
