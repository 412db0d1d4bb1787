import BoothLink.Proofs.Link.Pair

/-!
# What a call learns of the peer's services

The end of an answer is marked by a reference, and the peer sends references all the time: nothing
in one tells to which request it belongs, or whether the answer is complete. So a call gets whatever
section of the peer's announcements lies between its start and a reference. It learns just what the
peer offers when it is made while all is quiet, every request answered and no announcement on the
way, and the next reference is not written before the answer is complete.

* `MainPair.Settled`, `MainPair.Quiet`, `MainPair.Undisturbed`.
* `MainPair.infix_of_ok`: an answer is a section of what the far end has announced.
* `MainPair.settled_iff_of_asks`: what has become of the request while the call asks.
* `MainPair.opening_writes`: what is written up to the next reference.
* **`MainPair.ok_answer_offered`**: when a call gets the services that the far end offers.
* **`MainPair.ok_answer_not_offered`**: it can get fewer, and more.
-/

namespace BoothLink

namespace MainPair

open Message (announced)
open MainTasks (heardIn rounds)
open Side (near far)

variable {token target : Side → Token} {offered : Side → List Service} {beating : Side → Bool}
  {s p : MainPair} {es fs : List Event} {services : List Service}

/-! ## Histories from the start -/

section

variable (hs : s = start token target offered beating)
include hs

theorem sound_after (h : machine.Possible s es) (i : Side) :
    ((machine.after s es).ends i).Sound := by
  subst hs
  rw [ends_after]
  exact (MainTasks.sound_start _ _ _ _).after (possible_turns h i)

theorem tidy_after (es : List Event) (i : Side) : ((machine.after s es).ends i).Tidy := by
  subst hs
  rw [ends_after]
  exact (MainTasks.tidy_start _ _ _ _).after _

/-- Nothing that has been written is lost, repeated or overtaken. -/
theorem heard_append_coming_eq_sent (h : machine.Possible s es) (i : Side) :
    heardIn (turns i es) ++ (machine.after s es).coming i =
      ((machine.after s es).ends i.other).sent := by
  subst hs
  rw [heard_append_coming h i, ends_after, MainTasks.sent_after]
  rfl

/-- The far end announces its services once at first and once for each request that it has read. -/
theorem announced_far (h : machine.Possible s es) :
    announced ((machine.after s es).ends far).sent ++
      announced ((machine.after s es).ends far).replies =
        rounds (1 + (heardIn (turns far es)).countP Message.isRequest) (offered far) := by
  subst hs
  rw [ends_after]
  exact MainTasks.announced_after _ _ _ _ (possible_turns h far)

theorem collected_of_ok (h : machine.Possible s es) {call : Nat}
    (hok : (call, .ok services) ∈ ((machine.after s es).ends near).answers) :
    (s.ends near).Collected (turns near es) call services := by
  subst hs
  rw [ends_after] at hok
  have hnear := possible_turns h near
  exact MainTasks.collected_of_closed (fun c f h => by cases h) hnear
    ((MainTasks.closed_of_ok rfl rfl hnear).2 call services hok)

/-- **What a call gets is a section of what the far end has announced.** -/
theorem infix_of_ok (h : machine.Possible s es) {call : Nat}
    (hok : (call, .ok services) ∈ ((machine.after s es).ends near).answers) :
    services <:+: rounds (1 + (heardIn (turns far es)).countP Message.isRequest) (offered far) := by
  obtain ⟨before, since, m, later, hes, -, -, -, -, rfl, -⟩ := collected_of_ok hs h hok
  have hheard : heardIn since <:+: heardIn (turns near es) := by
    have hsince : since <:+: turns near es :=
      ⟨before ++ [.called], .heard m :: later, by simp [hes]⟩
    exact hsince.filterMap _
  have hsent : heardIn (turns near es) <+: ((machine.after s es).ends far).sent :=
    ⟨_, heard_append_coming_eq_sent hs h near⟩
  have hinfix : announced (heardIn since) <:+: announced ((machine.after s es).ends far).sent :=
    (hheard.trans hsent.isInfix).filterMap _
  exact hinfix.trans ⟨[], _, announced_far hs h⟩

end

/-! ## Requests that have been answered -/

/-- The far end has read and answered every request of the near end, and none is about to be
written. -/
structure Settled (p : MainPair) : Prop where
  replies : (p.ends far).replies = []
  coming : ∀ m ∈ p.coming far, m.isRequest = false
  request : ∀ k ∈ (p.ends near).calls, k.request = none

theorem Settled.countP_coming (h : p.Settled) : (p.coming far).countP Message.isRequest = 0 :=
  List.countP_eq_zero.mpr fun m hm => by rw [h.coming m hm]; exact Bool.false_ne_true

section

variable (hs : s = start token target offered beating) (hsettled : (machine.after s es).Settled)
  (h : machine.Possible s (es ++ fs))
include hs hsettled h

/-- From a settled state on, the far end announces its services once for each request that it reads.
-/
theorem announced_since : announced ((turns far fs).flatMap MainTasks.Event.writes) ++
    announced ((machine.after s (es ++ fs)).ends far).replies =
      rounds ((heardIn (turns far fs)).countP Message.isRequest) (offered far) := by
  have hbefore := announced_far hs (Machine.possible_append.mp h).1
  rw [hsettled.replies, show announced [] = [] from rfl, List.append_nil] at hbefore
  have hsent : ((machine.after s (es ++ fs)).ends far).sent =
      ((machine.after s es).ends far).sent ++ (turns far fs).flatMap MainTasks.Event.writes := by
    rw [Machine.after_append, ends_after, MainTasks.sent_after]
  have hafter := announced_far hs h
  rw [hsent, Message.announced_append, hbefore, turns_append, MainTasks.heardIn_append,
    List.countP_append, ← Nat.add_assoc,
    MainTasks.rounds_add _ ((heardIn (turns far fs)).countP Message.isRequest),
    List.append_assoc] at hafter
  exact List.append_cancel_left hafter

/-- The requests that have been written since a settled state have been read or are on the way. -/
theorem requests_since : ((machine.after s (es ++ fs)).ends near).sent.countP Message.isRequest =
    ((machine.after s es).ends near).sent.countP Message.isRequest +
      ((heardIn (turns far fs)).countP Message.isRequest +
        ((machine.after s (es ++ fs)).coming far).countP Message.isRequest) := by
  have hbefore := congrArg (List.countP Message.isRequest)
    (heard_append_coming_eq_sent hs (Machine.possible_append.mp h).1 far)
  have hafter := congrArg (List.countP Message.isRequest) (heard_append_coming_eq_sent hs h far)
  rw [List.countP_append, hsettled.countP_coming, Nat.add_zero] at hbefore
  rw [turns_append, MainTasks.heardIn_append, List.countP_append, List.countP_append, hbefore,
    Nat.add_assoc] at hafter
  exact hafter.symm

/-- **While a call asks that was made in a settled state, the far end reads at most one request, and
all is settled again once it has read that and has nothing more to reply.** -/
theorem settled_iff_of_asks {call : Nat} (hasks : ((machine.after s (es ++ fs)).ends near).Asks call
      (((machine.after s es).ends near).sent.countP Message.isRequest)) :
    (heardIn (turns far fs)).countP Message.isRequest ≤ 1 ∧
      ((machine.after s (es ++ fs)).Settled ↔
        (heardIn (turns far fs)).countP Message.isRequest = 1 ∧
          ((machine.after s (es ++ fs)).ends far).replies = []) := by
  have hrequests := requests_since hs hsettled h
  have hsound := sound_after hs h near
  obtain ⟨k, hk, -, hown⟩ := hasks.own
  refine ⟨?_, ?_, ?_⟩
  · split at hown <;> omega
  · intro hagain
    have hcoming := hagain.countP_coming
    rw [if_pos (hagain.request k hk)] at hown
    exact ⟨by omega, hagain.replies⟩
  · rintro ⟨hread, hreplies⟩
    refine ⟨hreplies, ?_, ?_⟩
    · have hcoming : ((machine.after s (es ++ fs)).coming far).countP Message.isRequest = 0 := by
        split at hown <;> omega
      intro m hm
      exact Bool.eq_false_iff.mpr (List.countP_eq_zero.mp hcoming m hm)
    · intro k' hk'
      cases hrequest : k'.request with
      | none => rfl
      | some m =>
        have hsent := (hasks.eq_of_request hsound hk' hrequest).2
        omega

end

/-! ## The next reference -/

/-- The messages up to the first reference. -/
def opening (ms : List Message) : List Message := ms.takeWhile (·.count?.isNone)

theorem opening_append {ms ns : List Message} (h : ∀ m ∈ ms, m.count? = none) :
    opening (ms ++ ns) = ms ++ opening ns :=
  List.takeWhile_append_of_pos fun m hm => by rw [h m hm]; rfl

theorem opening_append_cons {ms ns : List Message} {m : Message} (h : ∀ m ∈ ms, m.count? = none)
    (hcount : m.count? ≠ none) : opening (ms ++ m :: ns) = ms := by
  have hm : m.count?.isNone = false := by
    rwa [Option.isNone_eq_false_iff, Option.isSome_iff_ne_none]
  rw [opening_append h, opening, List.takeWhile_cons_of_neg (by rw [hm]; exact Bool.false_ne_true),
    List.append_nil]

theorem count?_of_mem_opening {ms : List Message} {m : Message} (h : m ∈ opening ms) :
    m.count? = none :=
  Option.isNone_iff_eq_none.mp (List.all_eq_true.mp List.all_takeWhile m h)

theorem opening_append_of_mem {ms ns : List Message} (h : ∃ m ∈ ms, m.count? ≠ none) :
    opening (ms ++ ns) = opening ms := by
  obtain ⟨m, hm, hcount⟩ := h
  refine List.takeWhile_append.trans (if_neg fun hlength => hcount ?_)
  have hall : opening ms = ms := (List.takeWhile_prefix _).eq_of_length hlength
  exact count?_of_mem_opening (hall.symm ▸ hm)

theorem announced_opening {ms : List Message} (h : announced ms = []) :
    announced (opening ms) = [] :=
  List.filterMap_eq_nil_iff.mpr fun m hm =>
    List.filterMap_eq_nil_iff.mp h m ((List.takeWhile_sublist _).mem hm)

/-- The far end writes a reference. -/
def beats : Event → Bool
  | (far, .beat _) => true
  | _ => false

/-- The turns before the far end writes its next reference. -/
def beforeBeat (es : List Event) : List Event := es.takeWhile fun e => !beats e

theorem prefix_beforeBeat (es : List Event) : beforeBeat es <+: es := List.takeWhile_prefix _

theorem possible_beforeBeat (h : machine.Possible s (es ++ (near, .called) :: fs)) :
    machine.Possible s (es ++ (near, .called) :: beforeBeat fs) := by
  obtain ⟨later, hlater⟩ := prefix_beforeBeat fs
  rw [← hlater, ← List.cons_append, ← List.append_assoc] at h
  exact (Machine.possible_append.mp h).1

/-- **What the far end writes up to its first reference it writes before the turn that writes one.**
-/
theorem opening_writes (htidy : (p.ends far).Tidy) (h : machine.Possible p es) :
    opening ((turns far es).flatMap MainTasks.Event.writes) =
      (turns far (beforeBeat es)).flatMap MainTasks.Event.writes := by
  induction es generalizing p with
  | nil => rfl
  | cons e es ih =>
    obtain ⟨i, e⟩ := e
    have hnext := ih (p := machine.next p (i, e)) ?_ h.2
    · cases i with
      | near => exact hnext
      | far =>
        -- A reference is written by a beat, and by nothing else.
        by_cases hbeats : ∃ m, e = .beat m
        · obtain ⟨m, rfl⟩ := hbeats
          obtain ⟨count, rfl⟩ := htidy.reference m h.1.1
          rfl
        · have hwrites : ∀ m ∈ e.writes, m.count? = none := by
            intro m hm
            rcases htidy.of_mem_writes h.1.1 hm with ⟨_, -, rfl⟩ | ⟨-, hm⟩ | ⟨rfl, -⟩
            · rfl
            · exact (Negotiation.service?_of_mem hm).2.1
            · exact absurd ⟨m, rfl⟩ hbeats
          have hbefore : beforeBeat ((far, e) :: es) = (far, e) :: beforeBeat es := by
            refine List.takeWhile_cons_of_pos ?_
            cases e with
            | beat m => exact absurd ⟨m, rfl⟩ hbeats
            | _ => rfl
          rw [hbefore, turns_cons, turns_cons, if_pos rfl, List.flatMap_append, List.flatMap_append,
            List.flatMap_singleton, opening_append hwrites, hnext]
    · cases i with
      | near => exact htidy
      | far => exact htidy.next e

/-! ## Answers -/

/-- All is settled, and no announcement is on the way to the near end. -/
structure Quiet (p : MainPair) : Prop extends p.Settled where
  announced : announced (p.coming near) = []

/-- No reference is on the way to the near end, and when the far end writes its next one all is
settled. -/
structure Undisturbed (p : MainPair) (es : List Event) : Prop where
  coming : ∀ m ∈ p.coming near, m.count? = none
  settled : (machine.after p (beforeBeat es)).Settled

/-- What the far end writes after a call up to its first reference it writes before that turn. -/
theorem opening_writes_called (hs : s = start token target offered beating)
    (h : machine.Possible s (es ++ (near, .called) :: fs)) :
    opening ((turns far fs).flatMap MainTasks.Event.writes) =
      (turns far (beforeBeat fs)).flatMap MainTasks.Event.writes := by
  rw [List.append_cons, Machine.possible_append] at h
  exact opening_writes (tidy_after hs _ far) h.2

/-- A call collects what is announced by the first messages on the way to it and written after it,
up to a reference. -/
theorem eq_announced_opening (hs : s = start token target offered beating)
    (h : machine.Possible s (es ++ (near, .called) :: fs))
    (hok : (((machine.after s es).ends near).made, .ok services) ∈
      ((machine.after s (es ++ (near, .called) :: fs)).ends near).answers) :
    ((machine.after s es).ends near).Free ∧ services = announced (opening
      ((machine.after s es).coming near ++ (turns far fs).flatMap MainTasks.Event.writes)) := by
  obtain ⟨before, since, m, later, hes, hmade, hfree, hnone, hcount, rfl, -⟩ :=
    collected_of_ok hs h hok
  rw [turns_append, turns_cons, if_pos rfl, List.singleton_append] at hes
  rw [ends_after] at hmade ⊢
  obtain ⟨rfl, hturns⟩ := MainTasks.eq_of_called hes hmade.symm
  have hfifo := heard_append_coming (Machine.possible_append.mp h).2 near
  have hheard : heardIn (turns near ((near, .called) :: fs)) =
      heardIn since ++ m :: heardIn later := by
    rw [turns_cons, hturns, MainTasks.heardIn_append, MainTasks.heardIn_append]
    rfl
  rw [hheard, List.append_assoc, List.cons_append] at hfifo
  refine ⟨hfree, congrArg announced ?_⟩
  exact (opening_append_cons hnone hcount).symm.trans (congrArg opening hfifo)

/-- Until the far end writes a reference the call goes on to ask. -/
theorem asks_beforeBeat (hs : s = start token target offered beating)
    (h : machine.Possible s (es ++ (near, .called) :: fs))
    (hfree : ((machine.after s es).ends near).Free)
    (hall : ∀ k ∈ ((machine.after s es).ends near).calls, k.request = none)
    (hcoming : ∀ m ∈ (machine.after s es).coming near, m.count? = none)
    (hok : (((machine.after s es).ends near).made, .ok services) ∈
      ((machine.after s (es ++ (near, .called) :: fs)).ends near).answers) :
    ((machine.after s (es ++ (near, .called) :: beforeBeat fs)).ends near).Asks
      ((machine.after s es).ends near).made
      (((machine.after s es).ends near).sent.countP Message.isRequest) := by
  obtain ⟨later, hlater⟩ := prefix_beforeBeat fs
  obtain ⟨hes, hfs⟩ := Machine.possible_append.mp h
  have hbefore := (Machine.possible_append.mp (possible_beforeBeat h)).2
  -- What the near end reads meanwhile was on the way to it or is written before the reference.
  have hnone : ∀ m ∈ heardIn (turns near (beforeBeat fs)), m.count? = none := by
    intro m hm
    have hfifo : heardIn (turns near (beforeBeat fs)) ++ _ = (machine.after s es).coming near ++
        (turns far (beforeBeat fs)).flatMap MainTasks.Event.writes :=
      heard_append_coming hbefore near
    rcases List.mem_append.mp (hfifo ▸ List.mem_append_left _ hm) with hm | hm
    · exact hcoming m hm
    · rw [← opening_writes_called hs h] at hm
      exact count?_of_mem_opening hm
  have hnear := possible_turns hfs near
  have hturns : turns near ((near, .called) :: fs) =
      .called :: (turns near (beforeBeat fs) ++ turns near later) := by
    rw [← turns_append, hlater]
    rfl
  rw [Machine.after_append, ends_after] at hok ⊢
  rw [hturns] at hok hnear
  exact MainTasks.asks_of_ok (sound_after hs hes near) (tidy_after hs es near) hfree hall hnear
    hnone hok

/-- What has been announced and what is still to be announced are one round at most. -/
theorem prefix_of_answer {n : Nat} {all : List Service} {replies : List Message} (hle : n ≤ 1)
    (h : services ++ announced replies = rounds n all)
    (hreplies : announced replies = [] → replies = []) :
    services <+: all ∧ (services = all ↔ all = [] ∨ n = 1 ∧ replies = []) := by
  obtain rfl | rfl := Nat.le_one_iff_eq_zero_or_eq_one.mp hle
  · obtain ⟨rfl, -⟩ := List.append_eq_nil_iff.mp h
    refine ⟨List.nil_prefix, fun h => .inl h.symm, ?_⟩
    rintro (h | ⟨h, -⟩)
    · exact h.symm
    · cases h
  · rw [MainTasks.rounds_one] at h
    subst h
    refine ⟨List.prefix_append _ _, fun h => .inr ⟨rfl, hreplies ?_⟩, ?_⟩
    · exact List.self_eq_append_right.mp h
    · rintro (h | ⟨-, h⟩)
      · rw [h, (List.append_eq_nil_iff.mp h).1]
      · rw [h]
        exact (List.append_nil _).symm

/-- **A call that is made when all is quiet gets the first of the services that the far end offers;
it gets all of them if and only if no reference cuts the answer short.** -/
theorem prefix_of_quiet (hs : s = start token target offered beating)
    (h : machine.Possible s (es ++ (near, .called) :: fs)) (hquiet : (machine.after s es).Quiet)
    (hok : (((machine.after s es).ends near).made, .ok services) ∈
      ((machine.after s (es ++ (near, .called) :: fs)).ends near).answers) :
    services <+: offered far ∧ (services = offered far ↔
      offered far = [] ∨ (machine.after s es).Undisturbed ((near, .called) :: fs)) := by
  obtain ⟨hfree, hservices⟩ := eq_announced_opening hs h hok
  by_cases hcoming : ∀ m ∈ (machine.after s es).coming near, m.count? = none
  · have hasks := asks_beforeBeat hs h hfree hquiet.request hcoming hok
    have hbefore := possible_beforeBeat h
    obtain ⟨hle, hsettled⟩ := settled_iff_of_asks hs hquiet.toSettled hbefore hasks
    have hsince := announced_since hs hquiet.toSettled hbefore
    rw [opening_append hcoming, opening_writes_called hs h, Message.announced_append,
      hquiet.announced, List.nil_append] at hservices
    have hundisturbed : (machine.after s es).Undisturbed ((near, .called) :: fs) ↔
        (machine.after s (es ++ (near, .called) :: beforeBeat fs)).Settled := by
      rw [Machine.after_append]
      exact ⟨fun hu => hu.settled, fun hq => ⟨hcoming, hq⟩⟩
    have hreplies := (tidy_after hs (es ++ (near, .called) :: beforeBeat fs) far).replies_eq_nil
    rw [hundisturbed, hsettled]
    generalize (machine.after s (es ++ (near, .called) :: beforeBeat fs)).ends far = u at *
    have hanswer : services ++ announced u.replies =
        rounds ((heardIn (turns far (beforeBeat fs))).countP Message.isRequest) (offered far) := by
      rw [hservices]
      exact hsince
    exact prefix_of_answer hle hanswer hreplies
  · -- Nothing is announced before a reference that is on the way already.
    have hnothing : services = [] := by
      have hreference : ∃ m ∈ (machine.after s es).coming near, m.count? ≠ none := by
        simpa only [not_forall, exists_prop] using hcoming
      rw [hservices, opening_append_of_mem hreference]
      exact announced_opening hquiet.announced
    rw [hnothing]
    refine ⟨List.nil_prefix, fun h => .inl h.symm, ?_⟩
    rintro (hnone | hu)
    · exact hnone.symm
    · exact absurd hu.coming hcoming

/-- **A call gets what is announced up to the first reference by the messages on their way to it and
by those that are written after it.** That is a section of what the far end has announced, and when
the call is made while all is quiet just the services that the far end offers, if and only if no
reference cuts the answer short. -/
theorem ok_answer_offered (token target : Side → Token) (offered : Side → List Service)
    (beating : Side → Bool) {es : List Event}
    (h : machine.Possible (start token target offered beating) es) :
    let s := start token target offered beating
    let answers := ((machine.after s es).ends near).answers
    (∀ call services, (call, .ok services) ∈ answers →
      services <:+: rounds (1 + (heardIn (turns far es)).countP Message.isRequest) (offered far)) ∧
    ∀ before later services, es = before ++ (near, .called) :: later →
      (((machine.after s before).ends near).made, .ok services) ∈ answers →
        services = announced (opening ((machine.after s before).coming near ++
          (turns far later).flatMap MainTasks.Event.writes)) ∧
        ((machine.after s before).Quiet → services <+: offered far ∧
          (services = offered far ↔ offered far = [] ∨
            (machine.after s before).Undisturbed ((near, .called) :: later))) := by
  intro s answers
  refine ⟨fun call services hok => infix_of_ok rfl h hok, ?_⟩
  rintro before later services rfl hok
  exact ⟨(eq_announced_opening rfl h hok).2, fun hquiet => prefix_of_quiet rfl h hquiet hok⟩

/-- Two services, the messages that announce them, and those that ask for them and end the answer.
-/
def stateMap : Service := ⟨"StateMap", 40001⟩

def beatInfo : Service := ⟨"BeatInfo", 40002⟩

def first : Message := .serviceAnnouncement .zero "StateMap" 40001

def second : Message := .serviceAnnouncement .zero "BeatInfo" 40002

def ask : Message := .servicesRequest .zero

def tick : Message := .reference .zero .zero 0

/-- Two ends of which the far one offers the two services. -/
def twoServices : MainPair :=
  start (fun _ => .zero) (fun _ => .zero) (fun | near => [] | far => [stateMap, beatInfo])
    fun _ => true

/-- The services with which the far end began have been announced to the near end. -/
def opened : List Event := [(near, .heard first), (near, .heard second)]

/-- The request is read and answered, and then a reference is written. -/
def answered : List Event :=
  [(near, .asked 0 ask), (far, .heard ask), (far, .replied first), (far, .counted),
    (far, .replied second), (near, .heard first), (far, .beat tick), (near, .heard second),
    (near, .heard tick), (near, .returned 0 (.ok [stateMap, beatInfo]))]

theorem ok_answer_offered_answered :
    machine.Possible twoServices (opened ++ (near, .called) :: answered) ∧
      [stateMap, beatInfo] <+: [stateMap, beatInfo] ∧
        (machine.after twoServices opened).Undisturbed ((near, .called) :: answered) := by
  have h : machine.Possible twoServices (opened ++ (near, .called) :: answered) := by decide
  have hquiet : (machine.after twoServices opened).Quiet := ⟨⟨rfl, by decide, by decide⟩, rfl⟩
  obtain ⟨-, hquietly⟩ := (ok_answer_offered _ _ _ _ h).2 opened answered [stateMap, beatInfo] rfl
    (by decide)
  obtain ⟨hfirst, hall⟩ := hquietly hquiet
  exact ⟨h, hfirst, (hall.mp rfl).resolve_left (by decide)⟩

/-- Calls that get something else, with what they get: a reference is written before the request, or
between the two announcements of the answer, or what the far end announced at first is still on the
way. -/
def disturbed : List (List Event × List Service) :=
  [(opened ++ [(near, .called), (far, .counted), (far, .beat tick), (near, .heard tick),
      (near, .asked 0 ask), (near, .returned 0 (.ok []))], []),
    (opened ++ [(near, .called), (near, .asked 0 ask), (far, .heard ask), (far, .replied first),
      (far, .counted), (far, .beat tick), (far, .replied second), (near, .heard first),
      (near, .heard tick), (near, .returned 0 (.ok [stateMap]))], [stateMap]),
    ([(near, .called), (near, .asked 0 ask), (far, .heard ask), (far, .replied first),
      (far, .replied second), (far, .counted), (far, .beat tick), (near, .heard first),
      (near, .heard second), (near, .heard first), (near, .heard second), (near, .heard tick),
      (near, .returned 0 (.ok [stateMap, beatInfo, stateMap, beatInfo]))],
      [stateMap, beatInfo, stateMap, beatInfo])]

/-- **A call can be answered with fewer services than the far end offers, and with more.** -/
theorem ok_answer_not_offered :
    (¬ ∀ es, machine.Possible twoServices es → ∀ call services,
      (call, .ok services) ∈ ((machine.after twoServices es).ends near).answers →
        services = [stateMap, beatInfo]) ∧
    ∀ run ∈ disturbed, machine.Possible twoServices run.1 ∧
      ((machine.after twoServices run.1).ends near).answers = [(0, .ok run.2)] ∧
        run.2 ≠ [stateMap, beatInfo] := by
  have hdisturbed : ∀ run ∈ disturbed, machine.Possible twoServices run.1 ∧
      ((machine.after twoServices run.1).ends near).answers = [(0, .ok run.2)] ∧
        run.2 ≠ [stateMap, beatInfo] := by decide
  refine ⟨fun h => ?_, hdisturbed⟩
  obtain ⟨hpossible, hanswers, hne⟩ := hdisturbed _ List.mem_cons_self
  exact hne (h _ hpossible 0 _ (by rw [hanswers]; exact List.mem_cons_self))

end MainPair

end BoothLink
