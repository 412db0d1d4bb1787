import BoothLink.Proofs.Discovery.Moves

/-!
# What the listener takes itself to have told

A listener keeps what it last told the network. Between moves it is idle or present. When it is present,
the network was last told so. The reverse holds as long as nobody calls for our departure while
announcements recur: such a call leaves the listener idle, and the next announcement that recurs tells the
network that we are here.

* `Listener.Tells`, `Listener.Tells.after`: what holds between a listener and the network.
* `Listener.Hushed`, `Listener.hushed_iff`: a call for our departure while announcements recur.
* `Listener.Agrees`, `Listener.Repeated`: the listener is right; an announcement has recurred since.
* **`Listener.agrees_iff_not_repeated`**: it is right exactly as long as none has.
* **`Listener.not_always_agrees`**: it can be wrong.
-/

namespace BoothLink

namespace Listener

variable {s l : Listener} {m : Move} {ms : List Move} {action : Action}

/-! ## The last announcement -/

theorem getLast?_append_replicate (told : List Action) (action : Action) {n : Nat} (hn : 0 < n) :
    (told ++ List.replicate n action).getLast? = some action := by
  obtain ⟨n, rfl⟩ := Nat.exists_eq_succ_of_ne_zero (Nat.ne_of_gt hn)
  rw [List.replicate_succ', ← List.append_assoc, List.getLast?_concat]

/-- What the network has been told last, after a move. -/
theorem Reaches.last_move (h : l.Reaches) (m : Move) :
    (l.joins m = true → (l.move m).told.getLast? = some .howdy) ∧
    (l.leaves m = true → (l.move m).told.getLast? = some .exit) ∧
    (l.joins m = false → l.leaves m = false → (l.move m).told = l.told ∨
      (l.move m).told.getLast? = some .howdy ∧ l.announcer.isSome = true) := by
  obtain ⟨hjoined, hleft, hgone⟩ := h.told_move m
  refine ⟨fun hjoins => ?_, fun hleaves => ?_, fun hjoins hleaves => ?_⟩
  · rw [hjoined hjoins]
    exact getLast?_append_replicate _ _ h.pos
  · rw [hleft hleaves]
    exact getLast?_append_replicate _ _ h.pos
  · obtain ⟨k, htold, hnone⟩ := hgone hjoins hleaves
    rcases Nat.eq_zero_or_pos k with rfl | hk
    · exact .inl (htold.trans (List.append_nil _))
    · refine .inr ⟨htold ▸ getLast?_append_replicate _ _ hk, ?_⟩
      by_contra hnot
      exact absurd (hnone (Option.not_isSome_iff_eq_none.mp hnot)) (Nat.ne_of_gt hk)

/-- What holds between a listener and the network. -/
structure Tells (l : Listener) : Prop where
  state : l.announceState = .idle ∨ l.announceState = .announcing .present
  present : l.announceState = .announcing .present → l.told.getLast? = some .howdy
  idle : l.announceState = .idle → l.told.getLast? = some .howdy → l.announcer.isSome = true
  closed : l.closed = true → l.announcer.isSome = false

theorem tells_bind (options : ListenerOptions) (fresh : Token) : (bind options fresh).Tells where
  state := .inl rfl
  present := fun h => by cases h
  idle := fun _ h => by cases h
  closed := fun _ => rfl

/-- Nothing recurs on a listener that is closed. -/
theorem Tells.closed_move (h : l.Tells) (m : Move) (hclosed : (l.move m).closed = true) :
    (l.move m).announcer.isSome = false := by
  rw [(state_move l m).2.1] at hclosed
  rw [announcer_move]
  cases hopen : l.closed with
  | true =>
    have hnone := h.closed hopen
    cases m <;> simp [joins, hopen, hnone]
  | false =>
    rw [hopen, Bool.or_false, decide_eq_true_eq] at hclosed
    subst hclosed
    rfl

theorem Tells.move (h : l.Tells) (hreaches : l.Reaches) (m : Move) : (l.move m).Tells := by
  obtain ⟨hjoined, hleft, hgone⟩ := hreaches.last_move m
  obtain ⟨hstate, -⟩ := state_move l m
  cases hjoins : l.joins m with
  | true =>
    rw [hjoins, if_pos rfl] at hstate
    refine ⟨.inr hstate, fun _ => hjoined hjoins, fun hidle => ?_, h.closed_move m⟩
    rw [hstate] at hidle
    cases hidle
  | false =>
    cases hleaves : l.leaves m with
    | true =>
      rw [hjoins, hleaves, if_neg Bool.false_ne_true, if_pos rfl] at hstate
      refine ⟨.inl hstate, fun hpresent => ?_, fun _ hhowdy => ?_, h.closed_move m⟩
      · rw [hstate] at hpresent
        cases hpresent
      · rw [hleft hleaves] at hhowdy
        cases hhowdy
    | false =>
      -- The state stays, and what recurs still recurs; if it has been told, the network knows.
      have hgoes := goes_move hjoins hleaves
      have hsame : (l.move m).announceState = l.announceState := hgoes.announceState
      have hrecurs : (l.move m).announcer.isSome = l.announcer.isSome := hgoes.announcer
      refine ⟨hsame ▸ h.state, fun hpresent => ?_, fun hidle hhowdy => ?_, h.closed_move m⟩
      · obtain htold | ⟨hlast, -⟩ := hgone hjoins hleaves
        · rw [htold]
          exact h.present (hsame.symm.trans hpresent)
        · exact hlast
      · obtain htold | ⟨-, hsome⟩ := hgone hjoins hleaves
        · rw [htold] at hhowdy
          exact hrecurs.trans (h.idle (hsame.symm.trans hidle) hhowdy)
        · exact hrecurs.trans hsome

theorem Tells.after (h : l.Tells) (hreaches : l.Reaches) (ms : List Move) : (l.after ms).Tells := by
  induction ms generalizing l with
  | nil => exact h
  | cons m ms ih => exact ih (h.move hreaches m) (hreaches.move m).1

/-! ## Recurring announcements -/

/-- Whether a move is no call for our arrival, our departure or the end. -/
def Move.quiet : Move → Bool
  | announce | unannounce | close => false
  | _ => true

theorem goes_quiet (hjoins : l.joins m = false) (hquiet : m.quiet = true) : Goes l (l.move m) := by
  have hleaves : l.leaves m = false := by
    cases m with
    | unannounce | close => cases hquiet
    | _ => rfl
  have hopen : decide (m = .close) = false := by
    cases m with
    | close => cases hquiet
    | _ => rfl
  have hgoes := goes_move hjoins hleaves
  rwa [hopen, Bool.false_or] at hgoes

/-- What recurs does not begin again. -/
theorem not_joins_of_quiet (hrecurs : l.announcer.isSome = true) (hquiet : m.quiet = true) :
    l.joins m = false := by
  cases m with
  | announce => cases hquiet
  | announceEvery interval => simp [joins, hrecurs]
  | _ => rfl

theorem goes_after (hrecurs : l.announcer.isSome = true) (hquiet : ∀ m ∈ ms, m.quiet = true) :
    Goes l (l.after ms) := by
  induction ms generalizing l with
  | nil => exact .refl l
  | cons m ms ih =>
    obtain ⟨hfirst, hrest⟩ := List.forall_mem_cons.mp hquiet
    have hgoes := goes_quiet (not_joins_of_quiet hrecurs hfirst) hfirst
    exact hgoes.trans (ih (hgoes.announcer.trans hrecurs) hrest)

/-- The last call has been for our departure, and announcements recur. -/
def Hushed (s : Listener) (ms : List Move) : Prop :=
  ∃ before later, ms = before ++ .unannounce :: later ∧ (∀ m ∈ later, m.quiet = true) ∧
    (s.after before).announcer.isSome = true

/-- Since the last call for our departure there has been one of the announcements that recur. -/
def Repeated (s : Listener) (ms : List Move) : Prop :=
  ∃ before later, ms = before ++ .unannounce :: later ∧ (∀ m ∈ later, m.quiet = true) ∧
    (s.after before).announcer.isSome = true ∧
      (s.after ms).told ≠ (s.after (before ++ [.unannounce])).told

/-- After a call for our departure the listener is idle, and what recurs goes on. -/
theorem goes_unannounced (hrecurs : (s.after ms).announcer.isSome = true) {later : List Move}
    (hquiet : ∀ m ∈ later, m.quiet = true) :
    (s.after (ms ++ [.unannounce])).announceState = .idle ∧
      (s.after (ms ++ [.unannounce])).announcer.isSome = true ∧
        Goes (s.after (ms ++ [.unannounce])) (s.after (ms ++ .unannounce :: later)) := by
  have hstill : (s.after (ms ++ [.unannounce])).announcer.isSome = true := by
    rw [after_snoc, announcer_move]
    exact hrecurs
  refine ⟨?_, hstill, ?_⟩
  · rw [after_snoc, (state_move _ _).1]
    rfl
  · rw [List.append_cons ms .unannounce later, after_append s (ms ++ [Move.unannounce]) later]
    exact goes_after hstill hquiet

/-- **Announcements recur while the listener is idle exactly if the last call has been for our
departure.** -/
theorem hushed_iff {options : ListenerOptions} {fresh : Token}
    (hreaches : (bind options fresh).Reaches) (ms : List Move) :
    (bind options fresh).Hushed ms ↔ ((bind options fresh).after ms).announceState = .idle ∧
      ((bind options fresh).after ms).announcer.isSome = true := by
  constructor
  · rintro ⟨before, later, rfl, hquiet, hrecurs⟩
    obtain ⟨hidle, hstill, hgoes⟩ := goes_unannounced hrecurs hquiet
    exact ⟨hgoes.announceState.trans hidle, hgoes.announcer.trans hstill⟩
  · -- Back along the history the listener stays idle, until the call that has made it so.
    induction ms using List.reverseRecOn with
    | nil =>
      rintro ⟨-, hrecurs⟩
      cases hrecurs
    | append_singleton ms m ih =>
      rintro ⟨hidle, hrecurs⟩
      have htells := (tells_bind options fresh).after hreaches ms
      generalize hl : (bind options fresh).after ms = l at ih htells
      rw [after_snoc, hl] at hidle hrecurs
      have hjoins : l.joins m = false := by
        by_contra hjoined
        rw [(state_move l m).1, if_pos (by simpa using hjoined)] at hidle
        cases hidle
      cases hquiet : m.quiet with
      | true =>
        have hgoes := goes_quiet hjoins hquiet
        obtain ⟨before, later, rfl, hlater, hrecurred⟩ :=
          ih ⟨hgoes.announceState.symm.trans hidle, hgoes.announcer.symm.trans hrecurs⟩
        refine ⟨before, later ++ [m], by simp, ?_, hrecurred⟩
        exact List.forall_mem_append.mpr ⟨hlater, by simpa using hquiet⟩
      | false =>
        rw [announcer_move] at hrecurs
        cases m with
        | announce => cases hjoins
        | unannounce => exact ⟨ms, [], rfl, by simp, hl ▸ hrecurs⟩
        | close =>
          obtain ⟨hclosed, hrecurs⟩ := (Bool.and_eq_true _ _).mp hrecurs
          rw [htells.closed hclosed] at hrecurs
          cases hrecurs
        | _ => cases hquiet

/-! ## Right and wrong -/

/-- The listener is right about what the network has been told last. -/
def Agrees (l : Listener) : Prop :=
  (l.announceState = .announcing .present ↔ l.told.getLast? = some .howdy) ∧
    (l.announceState = .idle ↔ l.told = [] ∨ l.told.getLast? = some .exit)

theorem last_of_not_howdy {told : List Action} (h : told.getLast? ≠ some .howdy) :
    told = [] ∨ told.getLast? = some .exit := by
  rw [← List.getLast?_eq_none_iff]
  cases hlast : told.getLast? with
  | none => exact .inl rfl
  | some action =>
    cases action with
    | howdy => exact absurd hlast h
    | exit => exact .inr rfl

theorem Tells.agrees_iff (h : l.Tells) :
    l.Agrees ↔ ¬ (l.announceState = .idle ∧ l.told.getLast? = some .howdy) := by
  constructor
  · rintro ⟨hpresent, -⟩ ⟨hidle, hlast⟩
    rw [hpresent.mpr hlast] at hidle
    cases hidle
  · intro hnot
    obtain hidle | hpresent := h.state
    · have hlast : l.told.getLast? ≠ some .howdy := fun hlast => hnot ⟨hidle, hlast⟩
      refine ⟨⟨h.present, fun hhowdy => absurd hhowdy hlast⟩, fun _ => last_of_not_howdy hlast, ?_⟩
      exact fun _ => hidle
    · have hlast := h.present hpresent
      refine ⟨⟨fun _ => hlast, fun _ => hpresent⟩, fun hidle => ?_, ?_⟩
      · rw [hpresent] at hidle
        cases hidle
      · rintro (hnone | hexit)
        · rw [hnone] at hlast
          cases hlast
        · rw [hexit] at hlast
          cases hlast

/-- While announcements recur after a call for our departure, the network is told that we are here as
soon as one has been sent. -/
theorem told_hushed (hreaches : s.Reaches) {before later : List Move}
    (hquiet : ∀ m ∈ later, m.quiet = true) (hrecurs : (s.after before).announcer.isSome = true) :
    (s.after (before ++ .unannounce :: later)).told.getLast? = some .howdy ↔
      (s.after (before ++ .unannounce :: later)).told ≠ (s.after (before ++ [.unannounce])).told := by
  obtain ⟨-, -, hgoes⟩ := goes_unannounced hrecurs hquiet
  obtain ⟨k, htold, -⟩ := hgoes.told (hreaches.after _).1
  have hexit : (s.after (before ++ [.unannounce])).told.getLast? = some .exit := by
    rw [after_snoc]
    exact ((hreaches.after before).1.last_move _).2.1 rfl
  rw [htold]
  rcases Nat.eq_zero_or_pos k with rfl | hk
  · rw [List.replicate_zero, List.append_nil, hexit]
    simp
  · refine iff_of_true (getLast?_append_replicate _ _ hk) fun hsame => ?_
    have hlen := congrArg List.length hsame
    rw [List.length_append, List.length_replicate] at hlen
    omega

/-- **A listener is idle or present between moves. If it is present the network was last told so, and if
the network was not, it is idle. It is right about the network as long as no announcement has recurred
since the last call for our departure.** -/
theorem agrees_iff_not_repeated {options : ListenerOptions} {fresh : Token}
    (hreaches : (bind options fresh).Reaches) (ms : List Move) :
    let s := bind options fresh
    let l := s.after ms
    (l.announceState = .idle ∨ l.announceState = .announcing .present) ∧
      (l.announceState = .announcing .present → l.told.getLast? = some .howdy) ∧
      (l.told = [] ∨ l.told.getLast? = some .exit → l.announceState = .idle) ∧
      (l.Agrees ↔ ¬ s.Repeated ms) := by
  intro s l
  have htells : l.Tells := (tells_bind options fresh).after hreaches ms
  refine ⟨htells.state, htells.present, fun hlast => ?_, ?_⟩
  · obtain hidle | hpresent := htells.state
    · exact hidle
    · have hhowdy := htells.present hpresent
      obtain hnone | hexit := hlast
      · rw [hnone] at hhowdy
        cases hhowdy
      · rw [hexit] at hhowdy
        cases hhowdy
  · rw [htells.agrees_iff, not_iff_not]
    constructor
    · rintro ⟨hidle, hlast⟩
      have hhushed := (hushed_iff hreaches ms).mpr ⟨hidle, htells.idle hidle hlast⟩
      obtain ⟨before, later, rfl, hquiet, hrecurs⟩ := hhushed
      exact ⟨before, later, rfl, hquiet, hrecurs, (told_hushed hreaches hquiet hrecurs).mp hlast⟩
    · rintro ⟨before, later, rfl, hquiet, hrecurs, hmore⟩
      obtain ⟨hidle, -⟩ := (hushed_iff hreaches _).mp ⟨before, later, rfl, hquiet, hrecurs⟩
      exact ⟨hidle, (told_hushed hreaches hquiet hrecurs).mpr hmore⟩

/-- A listener that tells one target who it is. -/
def booth : ListenerOptions where
  profile := ⟨⟨.zero, "a", "b", "1"⟩, 1⟩
  targets := [.reachable]

theorem reaches_booth : (bind booth .zero).Reaches := by
  refine ⟨by decide, fun action => ?_⟩
  cases action <;> rfl

/-- It announces itself and takes that back, and time passes. -/
def takenBack : List Move := [.announceEvery 20, .unannounce, .wait 20]

theorem agrees_iff_not_repeated_takenBack : (bind booth .zero).Reaches ∧
    (bind booth .zero).Repeated takenBack ∧ ¬ ((bind booth .zero).after takenBack).Agrees := by
  have hrepeated : (bind booth .zero).Repeated takenBack :=
    ⟨[.announceEvery 20], [.wait 20], rfl, by decide, rfl, by decide⟩
  obtain ⟨-, -, -, hagrees⟩ := agrees_iff_not_repeated reaches_booth takenBack
  exact ⟨reaches_booth, hrepeated, fun h => hagrees.mp h hrepeated⟩

/-- **A listener can be idle when the network was last told that we are here.** -/
theorem not_always_agrees : ¬ ∀ (options : ListenerOptions) (fresh : Token),
    (bind options fresh).Reaches → ∀ ms : List Move, ((bind options fresh).after ms).Agrees := by
  intro hall
  have hlast : ((bind booth .zero).after takenBack).told.getLast? = some .howdy := by decide
  have hpresent := (hall booth .zero reaches_booth takenBack).1.mpr hlast
  have hidle : ((bind booth .zero).after takenBack).announceState = .idle := rfl
  rw [hidle] at hpresent
  cases hpresent

end Listener

end BoothLink
