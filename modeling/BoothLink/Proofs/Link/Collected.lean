import BoothLink.Proofs.Link.Calls

/-!
# What a call collects

A call gets the services of all announcements that are read between its start and the next
reference, in the order in which they come, whoever sends them and however often. While no call
collects, an announcement changes nothing and a reference only the peer's count.

* `MainTasks.Collecting`, `MainTasks.collecting_since`: what has been found so far.
* `MainTasks.Collected`, `MainTasks.collected_of_closed`: what has been found in the end.
* `MainTasks.peerCount_after`: the count of the last reference that was read.
* **`MainTasks.ok_answer_collected`**: all of it, for every history of an end.
-/

namespace BoothLink

namespace MainTasks

variable {s t : MainTasks} {es : List Event} {e : Event} {call : Nat}
  {found services : List Service}

/-- A call has begun to collect in the course of some events, and no reference has been read since.
These are the services that have been announced from there on. -/
def Collecting (s : MainTasks) (es : List Event) (call : Nat) (found : List Service) : Prop :=
  ∃ before since, es = before ++ .called :: since ∧ (machine.after s before).made = call ∧
    (machine.after s before).Free ∧ (∀ m ∈ heardIn since, m.count? = none) ∧
      found = Message.announced (heardIn since)

/-- **A collection holds what has been announced since its call was made.** -/
theorem collecting_since (hidle : ∀ c f, s.state.progress ≠ .collecting c f)
    (hes : machine.Possible s es) :
    ∀ call found, (machine.after s es).state.progress = .collecting call found →
      s.Collecting es call found := by
  refine hes.induction ?_ ?_
  · intro call found hp
    exact absurd hp (hidle call found)
  · intro es e _ _ ih call found hp
    rw [Machine.after_append] at hp
    rcases collecting_of_next hp with ⟨rfl, hfree, rfl, rfl⟩ | ⟨before, hbefore, rfl, hcount⟩
    · exact ⟨es, [], rfl, rfl, hfree, by simp [heardIn], rfl⟩
    · obtain ⟨first, since, rfl, hmade, hfree, hnone, rfl⟩ := ih call before hbefore
      refine ⟨first, since ++ [e], by simp, hmade, hfree, ?_, ?_⟩
      · rw [heardIn_append]
        exact List.forall_mem_append.mpr ⟨hnone, hcount⟩
      · rw [heardIn_append, Message.announced_append]

/-- A reference has closed the collection of a call with these services: all that was announced
between the call and the first reference after it. Right then they are the services found last. -/
def Collected (s : MainTasks) (es : List Event) (call : Nat) (services : List Service) : Prop :=
  ∃ before since m later, es = before ++ .called :: (since ++ .heard m :: later) ∧
    (machine.after s before).made = call ∧ (machine.after s before).Free ∧
    (∀ m ∈ heardIn since, m.count? = none) ∧ m.count? ≠ none ∧
    services = Message.announced (heardIn since) ∧
      (machine.after s (before ++ .called :: (since ++ [.heard m]))).state.lastServices =
        some services

/-- A reference completes the collection. -/
theorem lastServices_of_count {m : Message} (hp : t.state.progress = .collecting call found)
    (hcount : m.count? ≠ none) : (t.next (.heard m)).state.lastServices = some found := by
  obtain ⟨n, hn⟩ := Option.ne_none_iff_exists'.mp hcount
  simp only [next_heard_state, Negotiation.lastServices, hp, Progress.hear, hn]

theorem collected_of_closed (hidle : ∀ c f, s.state.progress ≠ .collecting c f)
    (hes : machine.Possible s es) (h : s.Closed es call services) :
    s.Collected es call services := by
  obtain ⟨first, m, later, rfl, hcount, hp⟩ := h
  obtain ⟨hfirst, -⟩ := Machine.possible_append.mp hes
  obtain ⟨before, since, rfl, hmade, hfree, hnone, hservices⟩ :=
    collecting_since hidle hfirst call services hp
  refine ⟨before, since, m, later, by simp, hmade, hfree, hnone, hcount, hservices, ?_⟩
  have hsplit : before ++ .called :: (since ++ [.heard m]) =
      (before ++ .called :: since) ++ [.heard m] := by simp
  rw [hsplit, Machine.after_append]
  exact lastServices_of_count hp hcount

/-! ## Messages while no call collects -/

theorem next_announcement_of_idle (hidle : ∀ c f, t.state.progress ≠ .collecting c f)
    {token : Token} {name : String} {port : UInt16}
    (he : t.Enabled (.heard (.serviceAnnouncement token name port))) :
    t.next (.heard (.serviceAnnouncement token name port)) = t := by
  obtain ⟨-, hreplies⟩ := he
  simp only [next, Negotiation.dispatch, note, ← hreplies]

theorem next_reference_of_idle (hidle : ∀ c f, t.state.progress ≠ .collecting c f)
    {token target : Token} {count : Int64}
    (he : t.Enabled (.heard (.reference token target count))) :
    t.next (.heard (.reference token target count)) =
      { t with state := { t.state with peerCount := some count } } := by
  obtain ⟨-, hreplies⟩ := he
  simp only [next, Negotiation.dispatch, note, ← hreplies]

/-- The peer's count is the one in the last reference that was read. -/
theorem peerCount_after (hs : s.state.peerCount = none) (es : List Event) :
    (machine.after s es).state.peerCount = ((heardIn es).filterMap Message.count?).getLast? := by
  induction es using List.reverseRecOn with
  | nil => exact hs
  | append_singleton es e ih =>
    rw [Machine.after_append, heardIn_append, List.filterMap_append, List.getLast?_append, ← ih]
    exact congrArg Negotiation.peerCount (state_next _ e)

/-- **A call gets what is announced between its start and the next reference.** -/
theorem ok_answer_collected (token target : Token) (offered : List Service) (beating : Bool)
    {es : List Event} (h : machine.Possible (start token target offered beating) es) :
    let s := start token target offered beating
    let t := machine.after s es
    (∀ call services, (call, .ok services) ∈ t.answers → s.Collected es call services) ∧
    ((∀ c f, t.state.progress ≠ .collecting c f) →
      (∀ sender name port, t.Enabled (.heard (.serviceAnnouncement sender name port)) →
        t.next (.heard (.serviceAnnouncement sender name port)) = t) ∧
      ∀ sender addressee count, t.Enabled (.heard (.reference sender addressee count)) →
        t.next (.heard (.reference sender addressee count)) =
          { t with state := { t.state with peerCount := some count } }) ∧
    t.state.peerCount = ((heardIn es).filterMap Message.count?).getLast? := by
  intro s t
  have hidle : ∀ c f, s.state.progress ≠ .collecting c f := fun c f h => by cases h
  refine ⟨?_, ?_, peerCount_after rfl es⟩
  · intro call services hok
    exact collected_of_closed hidle h ((closed_of_ok rfl rfl h).2 call services hok)
  · intro hfree
    exact ⟨fun _ _ _ he => next_announcement_of_idle hfree he,
      fun _ _ _ he => next_reference_of_idle hfree he⟩

/-- An announcement that nobody waits for, then a call that gets two services, one of them twice. -/
def withRepeats : List Event :=
  [.heard (.serviceAnnouncement .zero "BeatInfo" 40002), .called,
    .heard (.serviceAnnouncement .zero "StateMap" 40001), .asked 0 (.servicesRequest .zero),
    .heard (.serviceAnnouncement .zero "BeatInfo" 40002),
    .heard (.serviceAnnouncement .zero "StateMap" 40001), .heard (.reference .zero .zero 7),
    .returned 0 (.ok [⟨"StateMap", 40001⟩, ⟨"BeatInfo", 40002⟩, ⟨"StateMap", 40001⟩])]

theorem ok_answer_collected_withRepeats : machine.Possible (start .zero .zero []) withRepeats ∧
    (start .zero .zero []).Collected withRepeats 0
      [⟨"StateMap", 40001⟩, ⟨"BeatInfo", 40002⟩, ⟨"StateMap", 40001⟩] ∧
    (machine.after (start .zero .zero []) withRepeats).state.peerCount = some 7 := by
  have h : machine.Possible (start .zero .zero []) withRepeats := by decide
  obtain ⟨hcollected, -, hcount⟩ := ok_answer_collected .zero .zero [] true h
  exact ⟨h, hcollected 0 _ (by decide), hcount.trans rfl⟩

end MainTasks

end BoothLink
