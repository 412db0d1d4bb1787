import BoothLink.Proofs.Link.Collected

/-!
# What an end announces

Whatever else its tasks write in between, the announcements of an end are whole rounds of the
services that it offers, one at first and one for each request that it has read, the last of them
perhaps not written to its end. Its own requests are counted in the same way: while a call asks, at
most one is written that was not written before it.

* `MainTasks.Tidy`: each task writes messages of its own kind.
* `MainTasks.rounds`, **`MainTasks.announced_after`**: the rounds of announcements.
* `MainTasks.Asks`, **`MainTasks.asks_of_ok`**: a call that is answered with services asks until a
  reference is read.
-/

namespace BoothLink

namespace Negotiation

variable {n : Negotiation} {m : Message}

theorem announced_announcements (n : Negotiation) :
    Message.announced n.announcements = n.offered := by
  rw [announcements, Message.announced, List.filterMap_map]
  exact List.filterMap_some

theorem service?_of_mem (h : m ∈ n.announcements) :
    (∃ service, m.service? = some service) ∧ m.count? = none ∧ m.isRequest = false := by
  obtain ⟨service, -, rfl⟩ := List.mem_map.mp h
  exact ⟨⟨service, rfl⟩, rfl, rfl⟩

end Negotiation

namespace MainTasks

open Message (announced)

variable {s t : MainTasks} {es : List Event} {e : Event} {call : Nat} {found : List Service}
  {k : Call} {m : Message}

/-! ## What is about to be written -/

/-- Who this end is, whom it talks to and what it offers stay the same. -/
theorem identity_next (t : MainTasks) (e : Event) : (t.next e).state.token = t.state.token ∧
    (t.next e).state.target = t.state.target ∧ (t.next e).state.offered = t.state.offered := by
  rw [state_next]
  exact ⟨rfl, rfl, rfl⟩

theorem announcements_next (t : MainTasks) (e : Event) :
    (t.next e).state.announcements = t.state.announcements := by
  obtain ⟨htoken, -, hoffered⟩ := identity_next t e
  have hsame : (t.next e).state.announcement = t.state.announcement := by
    funext service
    rw [Negotiation.announcement, Negotiation.announcement, htoken]
  rw [Negotiation.announcements, Negotiation.announcements, hsame, hoffered]

/-- Each task writes messages of its own kind. -/
structure Tidy (t : MainTasks) : Prop where
  request : ∀ k ∈ t.calls, ∀ m, k.request = some m → m = .servicesRequest t.state.token
  reply : ∀ m ∈ t.replies, m ∈ t.state.announcements
  reference : ∀ m, t.reference = some m → ∃ count, m = .reference t.state.token t.state.target count

theorem tidy_start (token target : Token) (offered : List Service) (beating : Bool) :
    (start token target offered beating).Tidy where
  request := fun k hk => by cases hk
  reply := fun m hm => by cases hm
  reference := fun m hm => by cases hm

theorem reply_of_next (h : m ∈ (t.next e).replies) :
    m ∈ t.replies ∨ m ∈ t.state.announcements := by
  rw [replies_next] at h
  unfold repliesAfter at h
  split at h
  · split at h
    · exact .inr h
    · cases h
  · exact .inl (List.mem_of_mem_tail h)
  · exact .inl h

theorem reference_of_next (h : (t.next e).reference = some m) :
    t.reference = some m ∨ ∃ count, m = .reference t.state.token t.state.target count := by
  rw [reference_next] at h
  unfold referenceAfter at h
  split at h
  · cases h
    exact .inr ⟨_, rfl⟩
  · cases h
  · cases h
  · cases h
  · exact .inl h

theorem Tidy.next (h : t.Tidy) (e : Event) : (t.next e).Tidy := by
  obtain ⟨htoken, htarget, -⟩ := identity_next t e
  refine ⟨?_, ?_, ?_⟩
  · intro k hk m hm
    rw [htoken]
    rcases call_of_next hk with ⟨-, -, rfl⟩ | ⟨k', hk', -, hrequest, -⟩
    · cases hm
      rfl
    · obtain hsame | ⟨hnone, -⟩ := hrequest
      · exact h.request k' hk' m (hsame.trans hm)
      · rw [hnone] at hm
        cases hm
  · intro m hm
    rw [announcements_next]
    exact (reply_of_next hm).elim (h.reply m) id
  · intro m hm
    rw [htoken, htarget]
    exact (reference_of_next hm).elim (h.reference m) id

theorem Tidy.after (h : t.Tidy) (es : List Event) : (machine.after t es).Tidy := by
  induction es generalizing t with
  | nil => exact h
  | cons e es ih => exact ih (h.next e)

/-- Each reply announces a service. -/
theorem Tidy.replies_eq_nil (h : t.Tidy) (hnone : announced t.replies = []) : t.replies = [] := by
  refine List.eq_nil_iff_forall_not_mem.mpr fun m hm => ?_
  obtain ⟨⟨service, hservice⟩, -, -⟩ := Negotiation.service?_of_mem (h.reply m hm)
  rw [List.filterMap_eq_nil_iff.mp hnone m hm] at hservice
  cases hservice

/-- What an event writes is a request, a reply or a reference. -/
theorem Tidy.of_mem_writes (h : t.Tidy) (he : t.Enabled e) (hm : m ∈ e.writes) :
    (∃ call, e = .asked call m ∧ m = .servicesRequest t.state.token) ∨
      (e = .replied m ∧ m ∈ t.state.announcements) ∨
      e = .beat m ∧ ∃ count, m = .reference t.state.token t.state.target count := by
  cases e with
  | asked call m' =>
    cases List.mem_singleton.mp hm
    obtain ⟨k, hk, -, hrequest⟩ := he
    exact .inl ⟨call, rfl, h.request k hk m hrequest⟩
  | replied m' =>
    cases List.mem_singleton.mp hm
    exact .inr (.inl ⟨rfl, h.reply m (List.mem_of_head? he.2)⟩)
  | beat m' =>
    cases List.mem_singleton.mp hm
    exact .inr (.inr ⟨rfl, h.reference m he⟩)
  | _ => cases hm

theorem sent_after (t : MainTasks) (es : List Event) :
    (machine.after t es).sent = t.sent ++ es.flatMap Event.writes := by
  induction es generalizing t with
  | nil => exact (List.append_nil _).symm
  | cons e es ih =>
    rw [Machine.after_cons, ih, List.flatMap_cons, ← List.append_assoc]
    exact congrArg (· ++ _) (sent_next t e)

/-! ## Announcements -/

/-- The services of some rounds of announcements. -/
def rounds (n : Nat) (offered : List Service) : List Service := (List.replicate n offered).flatten

theorem rounds_add (n k : Nat) (offered : List Service) :
    rounds (n + k) offered = rounds n offered ++ rounds k offered := by
  rw [rounds, ← List.replicate_append_replicate, List.flatten_append]
  rfl

theorem rounds_one (offered : List Service) : rounds 1 offered = offered := List.append_nil offered

/-- What is written and what is still to be written grow by a round for each request that is read.
-/
theorem Tidy.replies_next (h : t.Tidy) (he : t.Enabled e) :
    announced e.writes ++ announced (t.next e).replies =
      announced t.replies ++ rounds ((heardIn [e]).countP Message.isRequest) t.state.offered := by
  rw [MainTasks.replies_next]
  cases e with
  | asked call m =>
    obtain ⟨k, hk, -, hrequest⟩ := he
    rw [h.request k hk m hrequest]
    exact (List.append_nil _).symm
  | beat m =>
    obtain ⟨count, rfl⟩ := h.reference m he
    exact (List.append_nil _).symm
  | replied m =>
    obtain ⟨rest, hrest⟩ : ∃ rest, t.replies = m :: rest := List.head?_eq_some_iff.mp he.2
    rw [repliesAfter, hrest, List.tail_cons, ← Message.announced_append]
    exact (List.append_nil _).symm
  | heard m =>
    rw [he.2, repliesAfter]
    cases hm : m.isRequest <;>
      simp [Event.writes, heardIn, Event.heard?, hm, rounds, announced, Message.announced,
        ← Negotiation.announced_announcements t.state]
  | called | askFailed | returned | gaveUp | replyFailed | stopped | counted | beatFailed | hushed
  | closed => exact (List.append_nil _).symm

theorem offered_after (t : MainTasks) (es : List Event) :
    (machine.after t es).state.offered = t.state.offered := by
  induction es generalizing t with
  | nil => rfl
  | cons e es ih => exact (ih (t.next e)).trans (identity_next t e).2.2

/-- **An end announces its services once at first and once for each request that it has read**, some
of them still to be written. -/
theorem announced_after (token target : Token) (offered : List Service) (beating : Bool)
    {es : List Event} (h : machine.Possible (start token target offered beating) es) :
    announced (machine.after (start token target offered beating) es).sent ++
      announced (machine.after (start token target offered beating) es).replies =
        rounds (1 + (heardIn es).countP Message.isRequest) offered := by
  refine h.induction ?_ ?_
  · have hsent : announced (start token target offered beating).sent = offered :=
      Negotiation.announced_announcements { token, target, offered }
    exact (List.append_nil _).trans (hsent.trans (rounds_one offered).symm)
  · intro es e _ he ih
    generalize hu : machine.after (start token target offered beating) es = u at he ih
    have hoffered : u.state.offered = offered := hu ▸ offered_after _ es
    have htidy : u.Tidy := hu ▸ (tidy_start token target offered beating).after es
    rw [Machine.after_append, hu]
    calc announced (u.next e).sent ++ announced (u.next e).replies
        = announced u.sent ++ (announced e.writes ++ announced (u.next e).replies) := by
          rw [sent_next, Message.announced_append, List.append_assoc]
      _ = announced u.sent ++ announced u.replies ++
            rounds ((heardIn [e]).countP Message.isRequest) offered := by
          rw [htidy.replies_next he, hoffered, List.append_assoc]
      _ = rounds (1 + (heardIn (es ++ [e])).countP Message.isRequest) offered := by
          rw [ih, ← rounds_add, Nat.add_assoc, heardIn_append, List.countP_append]

/-! ## The request of the call that collects -/

/-- A call collects, and besides the requests that had been written before it there is at most its
own. -/
structure Asks (t : MainTasks) (call before : Nat) : Prop where
  collecting : ∃ found, t.state.progress = .collecting call found
  own : ∃ k ∈ t.calls, k.number = call ∧
    t.sent.countP Message.isRequest + (if k.request = none then 0 else 1) = before + 1
  alone : ∀ k ∈ t.calls, k.request ≠ none → k.number = call

/-- A call that can only fail. -/
abbrev Fails (t : MainTasks) (call : Nat) : Prop := t.Decided call fun a => ∃ err, a = .error err

variable {before : Nat}

theorem asks_of_called (hfree : t.Free) (hall : ∀ k ∈ t.calls, k.request = none) :
    (t.next .called).Asks t.made (t.sent.countP Message.isRequest) := by
  rw [next_called_of_free hfree]
  refine ⟨⟨[], rfl⟩, ⟨_, List.mem_append_right _ (List.mem_singleton_self _), rfl, rfl⟩, ?_⟩
  intro k hk hrequest
  rcases List.mem_append.mp hk with hk | hk
  · exact absurd (hall k hk) hrequest
  · rw [List.mem_singleton.mp hk]

/-- A call that leaves without having been answered can only fail. -/
theorem fails_of_leave (hs : t.Sound) (hp : t.state.progress = .collecting call found) :
    (t.leave call).Fails call := by
  obtain ⟨-, hlt, -, hanswers⟩ := hs.unanswered call found hp
  refine ⟨hlt, ?_, ?_⟩
  · intro k hk hn
    have hne := (List.mem_filter.mp hk).2
    simp [hn] at hne
  · intro a ha
    exact absurd (List.mem_map_of_mem ha) hanswers

theorem fails_of_askFailed (hs : t.Sound) (hp : t.state.progress = .collecting call found)
    (err : LinkError) : (t.next (.askFailed call err)).Fails call := by
  obtain ⟨-, hlt, -, hanswers⟩ := hs.unanswered call found hp
  rw [MainTasks.next, abandon_eq]
  refine ⟨hlt, ?_, ?_⟩
  · intro k hk hn
    have hne := (List.mem_filter.mp hk).2
    simp [hn] at hne
  · intro a ha
    rcases List.mem_append.mp ha with hold | hnew
    · exact absurd (List.mem_map_of_mem hold) hanswers
    · cases List.mem_singleton.mp hnew
      exact ⟨err, rfl⟩

theorem Asks.leave (h : t.Asks call before) {c : Nat} (hc : c ≠ call) :
    (t.leave c).Asks call before := by
  obtain ⟨k, hk, hn, hcount⟩ := h.own
  refine ⟨h.collecting, ⟨k, List.mem_filter.mpr ⟨hk, ?_⟩, hn, hcount⟩, ?_⟩
  · rw [hn]
    exact decide_eq_true hc.symm
  · intro k' hk'
    exact h.alone k' (List.mem_filter.mp hk').1

/-- Only the call that collects has a request to write. -/
theorem Asks.eq_of_request (h : t.Asks call before) (hs : t.Sound) {m : Message} (hk : k ∈ t.calls)
    (hrequest : k.request = some m) :
    k.number = call ∧ t.sent.countP Message.isRequest = before := by
  obtain ⟨k', hk', hn', hcount⟩ := h.own
  have hn : k.number = call := h.alone k hk (by rw [hrequest]; exact Option.some_ne_none m)
  have hsame : k' = k :=
    List.inj_on_of_nodup_map (List.nodup_append.mp hs.distinct).1 hk' hk (hn'.trans hn.symm)
  rw [hsame, hrequest, if_neg (Option.some_ne_none m)] at hcount
  exact ⟨hn, by omega⟩

theorem Asks.asked (h : t.Asks call before) (hs : t.Sound) (htidy : t.Tidy) {c : Nat} {m : Message}
    (he : t.Enabled (.asked c m)) : (t.next (.asked c m)).Asks call before := by
  obtain ⟨k, hk, rfl, hrequest⟩ := he
  obtain ⟨hn, hcount⟩ := h.eq_of_request hs hk hrequest
  refine ⟨h.collecting, ?_, ?_⟩
  · refine ⟨{ k with request := none }, List.mem_map.mpr ⟨k, hk, if_pos rfl⟩, hn, ?_⟩
    have hm : m.isRequest = true := by
      rw [htidy.request k hk m hrequest]
      rfl
    simp [MainTasks.next, List.countP_append, hm, hcount]
  · intro k' hk' hsome
    obtain ⟨k'', hk'', rfl⟩ := List.mem_map.mp hk'
    by_cases hc : k''.number = k.number
    · rw [if_pos hc] at hsome
      exact absurd rfl hsome
    · rw [if_neg hc] at hsome ⊢
      exact h.alone k'' hk'' hsome

theorem Asks.heard (h : t.Asks call before) (hcount : m.count? = none) :
    (t.next (.heard m)).Asks call before := by
  obtain ⟨found, hp⟩ := h.collecting
  have hcalls : (t.next (.heard m)).calls = t.calls := by
    simp only [MainTasks.next, note, Negotiation.dispatch_answer, hp, Progress.outcome, hcount]
    rfl
  have hsent : (t.next (.heard m)).sent = t.sent := (sent_next t _).trans (List.append_nil _)
  refine ⟨⟨found ++ m.service?.toList, ?_⟩, ?_, ?_⟩
  · simp only [next_heard_state, hp, Progress.hear, hcount]
  · rw [hcalls, hsent]
    exact h.own
  · rw [hcalls]
    exact h.alone

/-- Until a reference is read the call goes on to collect, or it can only fail. -/
theorem Asks.next (h : t.Asks call before) (hs : t.Sound) (htidy : t.Tidy) (he : t.Enabled e)
    (hnone : ∀ m ∈ heardIn [e], m.count? = none) :
    (t.next e).Asks call before ∨ (t.next e).Fails call := by
  obtain ⟨found, hp⟩ := h.collecting
  cases e with
  | called =>
    obtain ⟨-, err, hrefused⟩ | hfree := called_cases t
    · rw [hrefused]
      exact .inl ⟨h.collecting, h.own, h.alone⟩
    · exact absurd hp (hfree.2 _ _)
  | asked c m => exact .inl (h.asked hs htidy he)
  | askFailed c err =>
    obtain ⟨k, hk, rfl, hrequest⟩ := he
    rw [h.alone k hk hrequest]
    exact .inr (fails_of_askFailed hs hp err)
  | returned c a =>
    obtain ⟨k, hk, rfl, -, hchannel⟩ := he
    have hc : k.number ≠ call := by
      intro hn
      rw [(hs.unanswered call found hp).2.2.1 k hk hn] at hchannel
      cases hchannel
    have hleave := h.leave hc
    exact .inl ⟨hleave.collecting, hleave.own, hleave.alone⟩
  | gaveUp c =>
    by_cases hc : c = call
    · rw [hc]
      exact .inr (fails_of_leave hs hp)
    · exact .inl (h.leave hc)
  | heard m => exact .inl (h.heard (hnone m (List.mem_singleton_self m)))
  | replyFailed | stopped =>
    exact .inr ((decided_of_endsReading hs (by rfl) hp).2.imp fun a ha => ⟨_, ha⟩)
  | replied m =>
    have hm := (Negotiation.service?_of_mem (htidy.reply m (List.mem_of_head? he.2))).2.2
    refine .inl ⟨h.collecting, ?_, h.alone⟩
    simpa [MainTasks.next, List.countP_append, hm] using h.own
  | beat m =>
    obtain ⟨count, rfl⟩ := htidy.reference m he
    refine .inl ⟨h.collecting, ?_, h.alone⟩
    simpa [MainTasks.next, List.countP_append, Message.isRequest] using h.own
  | counted | beatFailed | hushed | closed => exact .inl ⟨h.collecting, h.own, h.alone⟩

theorem Asks.after (h : t.Asks call before) (hs : t.Sound) (htidy : t.Tidy)
    (hes : machine.Possible t es) (hnone : ∀ m ∈ heardIn es, m.count? = none) :
    (machine.after t es).Asks call before ∨ (machine.after t es).Fails call := by
  induction es generalizing t with
  | nil => exact .inl h
  | cons e es ih =>
    obtain ⟨he, hrest⟩ := hes
    rw [← List.singleton_append, heardIn_append] at hnone
    obtain ⟨hfirst, hlater⟩ := List.forall_mem_append.mp hnone
    obtain hasks | hfails := h.next hs htidy he hfirst
    · exact ih hasks (hs.next he) (htidy.next e) hrest hlater
    · exact .inr (hfails.after (hs.next he) hrest fun err _ => ⟨err, rfl⟩)

/-- A call that is answered with services asks until a reference is read. -/
theorem asks_of_ok {since later : List Event} {services : List Service} (hs : t.Sound)
    (htidy : t.Tidy) (hfree : t.Free) (hall : ∀ k ∈ t.calls, k.request = none)
    (hes : machine.Possible t (.called :: (since ++ later)))
    (hnone : ∀ m ∈ heardIn since, m.count? = none)
    (hok : (t.made, .ok services) ∈ (machine.after t (.called :: (since ++ later))).answers) :
    (machine.after t (.called :: since)).Asks t.made (t.sent.countP Message.isRequest) := by
  obtain ⟨hsince, hlater⟩ := Machine.possible_append.mp hes.2
  have hs' : (t.next .called).Sound := hs.next hes.1
  obtain hasks | hfails := (asks_of_called hfree hall).after hs' (htidy.next _) hsince hnone
  · exact hasks
  · rw [Machine.after_cons, Machine.after_append] at hok
    have hfails' := hfails.after (hs'.after hsince) hlater fun err _ => ⟨err, rfl⟩
    obtain ⟨err, herr⟩ := hfails'.answers _ hok
    cases herr

end MainTasks

end BoothLink
