import BoothLink.Proofs.Link.Collected

/-!
# The services found last

An end shows the services that a reference has closed a collection with, as long as it does not need
the place for something else: they go when a further call begins to collect, and when a request
cannot be written. So a call that is still under way, or that fails, hides what an earlier one has
found.

* `MainTasks.Keeps`, `MainTasks.keeping`: the events that leave the services found last in place.
* `MainTasks.lastServices_next`: what one event does to them.
* **`MainTasks.lastServices_while_kept`**: they are shown from the reference on up to the first
  event that does not keep them.
* **`MainTasks.lastServices_lost`**: the services of the last call that was answered are not always
  shown.
-/

namespace BoothLink

namespace MainTasks

variable {s t : MainTasks} {es : List Event} {e : Event} {call : Nat} {services : List Service}

/-- No call begins to collect, and no request fails to be written. -/
def Keeps (t : MainTasks) (e : Event) : Prop :=
  (e = .called → ¬ t.Free) ∧ ∀ call err, e ≠ .askFailed call err

/-- What may happen while the services found last stay in place. -/
def keeping : Machine MainTasks Event := ⟨Keeps, next⟩

theorem lastServices_eq_some_iff {n : Negotiation} :
    n.lastServices = some services ↔ n.progress = .completed services := by
  unfold Negotiation.lastServices
  cases n.progress <;> simp

theorem completed_hear {p : Progress} {m : Message} : p.hear m = .completed services ↔
    p = .completed services ∨ m.count? ≠ none ∧ ∃ call, p = .collecting call services := by
  cases p with
  | collecting call found => cases hcount : m.count? <;> simp [Progress.hear, hcount]
  | idle => simp [Progress.hear]
  | completed found => simp [Progress.hear]

/-- **The services shown after an event were shown before and it keeps them, or it is the reference
that completes their collection.** -/
theorem lastServices_next (t : MainTasks) (e : Event) (services : List Service) :
    (t.next e).state.lastServices = some services ↔
      (t.state.lastServices = some services ∧ t.Keeps e) ∨
        ∃ m call, e = .heard m ∧ m.count? ≠ none ∧
          t.state.progress = .collecting call services := by
  simp only [lastServices_eq_some_iff]
  cases e with
  | called =>
    obtain ⟨hnot, err, hrefused⟩ | hfree := called_cases t
    · rw [hrefused]
      simp [Keeps, hnot]
    · rw [next_called_of_free hfree]
      simp [Keeps, hfree]
  | heard m =>
    rw [next_heard_state, completed_hear]
    simp [Keeps]
  | askFailed c err => simp [Keeps, next, resolve, leave, Negotiation.requestFailed]
  | replyFailed | stopped =>
    rw [next, finish_eq, Negotiation.endReading]
    cases hp : t.state.progress <;> simp [Keeps]
  | asked | returned | gaveUp | replied | counted | beat | beatFailed | hushed | closed =>
    refine ⟨fun h => .inl ⟨h, by simp [Keeps]⟩, ?_⟩
    rintro (⟨h, -⟩ | ⟨_, _, he, -⟩)
    · exact h
    · cases he

/-- A reference has closed a collection with these services, and all events since have kept them. -/
def Kept (s : MainTasks) (es : List Event) (services : List Service) : Prop :=
  ∃ before m later call, es = before ++ .heard m :: later ∧ m.count? ≠ none ∧
    (machine.after s before).state.progress = .collecting call services ∧
      keeping.Possible (machine.after s (before ++ [.heard m])) later

theorem keeping_after (s : MainTasks) (before later : List Event) (e : Event) :
    keeping.after (machine.after s (before ++ [e])) later =
      machine.after s (before ++ e :: later) := by
  rw [List.append_cons before e later]
  exact Machine.after_append.symm

/-- The services found last have been kept, or a reference has just closed their collection. -/
theorem kept_append_singleton : s.Kept (es ++ [e]) services ↔
    (s.Kept es services ∧ (machine.after s es).Keeps e) ∨
      ∃ m call, e = .heard m ∧ m.count? ≠ none ∧
        (machine.after s es).state.progress = .collecting call services := by
  constructor
  · rintro ⟨before, m, later, call, hes, hcount, hp, hkeeps⟩
    induction later using List.reverseRecOn with
    | nil =>
      obtain ⟨rfl, he⟩ := List.append_inj' hes rfl
      cases he
      exact .inr ⟨m, call, rfl, hcount, hp⟩
    | append_singleton later last _ =>
      have hes' : es ++ [e] = (before ++ .heard m :: later) ++ [last] := by simpa using hes
      obtain ⟨rfl, he⟩ := List.append_inj' hes' rfl
      cases he
      rw [Machine.possible_append, keeping_after] at hkeeps
      exact .inl ⟨⟨before, m, later, call, rfl, hcount, hp, hkeeps.1⟩, hkeeps.2.1⟩
  · rintro (⟨⟨before, m, later, call, rfl, hcount, hp, hkeeps⟩, he⟩ | ⟨m, call, rfl, hcount, hp⟩)
    · refine ⟨before, m, later ++ [e], call, by simp, hcount, hp, ?_⟩
      rw [Machine.possible_append, keeping_after]
      exact ⟨hkeeps, he, trivial⟩
    · exact ⟨es, m, [], call, rfl, hcount, hp, trivial⟩

/-- **The services found last are shown exactly as long as nothing has taken their place.** -/
theorem lastServices_after (hs : s.state.lastServices = none) (es : List Event)
    (services : List Service) :
    (machine.after s es).state.lastServices = some services ↔ s.Kept es services := by
  induction es using List.reverseRecOn with
  | nil =>
    rw [Machine.after_nil, hs]
    refine ⟨nofun, ?_⟩
    rintro ⟨before, m, later, call, h, -⟩
    exact absurd h.symm (List.append_ne_nil_of_right_ne_nil before (List.cons_ne_nil _ _))
  | append_singleton es e ih =>
    rw [Machine.after_append, kept_append_singleton, ← ih]
    exact lastServices_next _ e services

/-- **The services of a call are shown from the reference on that closes its collection, until
another call begins to collect or a request cannot be written**; at any other time none are shown.
-/
theorem lastServices_while_kept (token target : Token) (offered : List Service) (beating : Bool)
    {es : List Event} (h : machine.Possible (start token target offered beating) es) :
    let s := start token target offered beating
    let t := machine.after s es
    (∀ services, t.state.lastServices = some services ↔ s.Kept es services) ∧
      ∀ call services, (call, .ok services) ∈ t.answers → ∃ before m later,
        es = before ++ .heard m :: later ∧ m.count? ≠ none ∧
          (machine.after s before).state.progress = .collecting call services ∧
            (keeping.Possible (machine.after s (before ++ [.heard m])) later →
              t.state.lastServices = some services) := by
  intro s t
  have hshown := lastServices_after (s := s) rfl es
  refine ⟨hshown, fun call services hok => ?_⟩
  obtain ⟨before, m, later, hes, hcount, hp⟩ := (closed_of_ok rfl rfl h).2 call services hok
  refine ⟨before, m, later, hes, hcount, hp, fun hkeeps => ?_⟩
  exact (hshown services).mpr ⟨before, m, later, call, hes, hcount, hp, hkeeps⟩

/-- A call that finds a service. -/
def oneRound : List Event :=
  [.called, .asked 0 (.servicesRequest .zero), .heard (.serviceAnnouncement .zero "StateMap" 40001),
    .heard (.reference .zero .zero 7), .returned 0 (.ok [⟨"StateMap", 40001⟩])]

theorem lastServices_oneRound : machine.Possible (start .zero .zero []) oneRound ∧
    (machine.after (start .zero .zero []) oneRound).state.lastServices =
      some [⟨"StateMap", 40001⟩] := by
  have h : machine.Possible (start .zero .zero []) oneRound := by decide
  refine ⟨h, ((lastServices_while_kept .zero .zero [] true h).1 _).mpr ?_⟩
  exact ⟨oneRound.take 3, .reference .zero .zero 7, oneRound.drop 4, 0, rfl, nofun, rfl,
    ⟨nofun, nofun⟩, trivial⟩

/-- The services with which a call has been answered last. -/
def lastOk (answers : List (Nat × ServicesAnswer)) : Option (List Service) :=
  (answers.filterMap fun p => p.2.toOption).getLast?

/-- A second call: under way, failed because its request could not be written, and failed because
the stream ended. -/
def secondRounds : List (List Event) :=
  [[.called], [.called, .askFailed 1 (.io .brokenPipe)],
    [.called, .asked 1 (.servicesRequest .zero), .stopped none, .returned 1 (.error .closed)]]

/-- **The services of the last call that was answered are not always shown**: each of the second
calls has hidden those of the first. -/
theorem lastServices_lost :
    (¬ ∀ es, machine.Possible (start .zero .zero []) es →
      ∀ services, lastOk (machine.after (start .zero .zero []) es).answers = some services →
        (machine.after (start .zero .zero []) es).state.lastServices = some services) ∧
    ∀ second ∈ secondRounds, machine.Possible (start .zero .zero []) (oneRound ++ second) ∧
      lastOk (machine.after (start .zero .zero []) (oneRound ++ second)).answers =
        some [⟨"StateMap", 40001⟩] ∧
      (machine.after (start .zero .zero []) (oneRound ++ second)).state.lastServices = none := by
  have hhidden : ∀ second ∈ secondRounds,
      machine.Possible (start .zero .zero []) (oneRound ++ second) ∧
      lastOk (machine.after (start .zero .zero []) (oneRound ++ second)).answers =
        some [⟨"StateMap", 40001⟩] ∧
      (machine.after (start .zero .zero []) (oneRound ++ second)).state.lastServices = none := by
    decide
  refine ⟨fun h => ?_, hhidden⟩
  obtain ⟨hpossible, hanswered, hnone⟩ := hhidden [.called] (by decide)
  rw [h _ hpossible _ hanswered] at hnone
  cases hnone

end MainTasks

end BoothLink
