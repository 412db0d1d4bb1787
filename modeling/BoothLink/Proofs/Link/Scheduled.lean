import BoothLink.Proofs.Link.Calls

/-!
# A connection and its tasks

A main connection that reads whatever it can as soon as it can, and writes whole batches at once,
goes through some of the histories of its tasks. After anything that may happen on it, its tasks can
have taken turns so that they have come to the same negotiation, calls, answers and octets written,
and all of them wait. What holds of every history of the tasks so holds of every connection. The reverse is not true: the
tasks can take turns in more ways than such a connection lets them.

* `MainLink.Shows`: what a connection shows of its tasks while they wait.
* `MainLink.Reached`: the tasks can come to what a connection shows.
* `MainLink.Shows.settle`, `MainLink.Shows.move`: reading, and anything that may happen.
* **`MainLink.shows_moves`**: every history of a connection is one of its tasks.
* **`MainLink.waiting_moves`**: a call waits only while it collects, and none once reading has
  ended.
-/

namespace BoothLink

namespace MainLink

/-- A call whose request has been written and that waits for its answer. -/
def waitingCall (number : Nat) : Call := { number, request := none }

/-- What a connection shows of its tasks while they wait, but for some replies that are to be
written. -/
structure Shows (l : MainLink) (t : MainTasks) (replies : List Message) : Prop where
  state : t.state = l.state
  made : t.made = l.calls
  calls : t.calls = l.waiting.map waitingCall
  answers : l.answers <:+ t.answers
  replies : t.state.ended = false → t.replies = replies
  reference : t.reference = none
  beating : t.beating = l.heartbeat.isSome
  ended : l.fate.ended = l.state.ended ∧ t.fate.ended = l.fate.ended
  cause : l.fate.cause = none ∨ l.fate.cause = t.fate.cause
  sent : l.pipe.outbound <:+ Message.stream t.sent

/-- The tasks may go on so that a connection shows them. -/
def Reached (t : MainTasks) (l : MainLink) (replies : List Message) : Prop :=
  ∃ es, MainTasks.machine.Possible t es ∧ l.Shows (MainTasks.machine.after t es) replies

variable {l l' : MainLink} {t : MainTasks} {ms ms' : List Message} {call : Nat} {a : ServicesAnswer}

theorem Shows.reached (h : l.Shows t ms) : Reached t l ms := ⟨[], trivial, h⟩

theorem Reached.trans (h : Reached t l ms) (hl : ∀ u, l.Shows u ms → Reached u l' ms') :
    Reached t l' ms' := by
  obtain ⟨es, hes, hshows⟩ := h
  obtain ⟨fs, hfs, hshows'⟩ := hl _ hshows
  refine ⟨es ++ fs, Machine.possible_append.mpr ⟨hes, hfs⟩, ?_⟩
  rw [Machine.after_append]
  exact hshows'

theorem Reached.step {e : MainTasks.Event} (he : t.Enabled e) (h : Reached (t.next e) l ms) :
    Reached t l ms := by
  obtain ⟨es, hes, hshows⟩ := h
  exact ⟨e :: es, ⟨he, hes⟩, hshows⟩

/-! ## Answers -/

theorem filter_fill (t : MainTasks) (call : Nat) (a : ServicesAnswer) :
    (t.fill call a).calls.filter (·.number ≠ call) = t.calls.filter (·.number ≠ call) := by
  rw [MainTasks.fill]
  induction t.calls with
  | nil => rfl
  | cons k ks ih =>
    by_cases hk : k.number = call <;> simpa [hk] using ih

theorem filter_waitingCall (ns : List Nat) (call : Nat) :
    (ns.map waitingCall).filter (·.number ≠ call) = (ns.filter (· ≠ call)).map waitingCall :=
  List.filter_map

theorem fill_of_not_mem (hcalls : t.calls = l.waiting.map waitingCall) (hnot : call ∉ l.waiting) :
    t.fill call a = t := by
  have hsame : (t.fill call a).calls = t.calls := by
    refine (List.map_congr_left fun k hk => ?_).trans (List.map_id _)
    rw [hcalls] at hk
    obtain ⟨n, hn, rfl⟩ := List.mem_map.mp hk
    exact if_neg fun h : n = call => hnot (h ▸ hn)
  calc t.fill call a = { t with calls := (t.fill call a).calls } := rfl
    _ = t := by rw [hsame]

theorem suffix_append_right {α : Type} {xs ys : List α} (h : xs <:+ ys) (zs : List α) :
    xs ++ zs <:+ ys ++ zs := by
  obtain ⟨front, rfl⟩ := h
  exact ⟨front, (List.append_assoc front xs zs).symm⟩

/-- A call that waits returns the answer that it is given. -/
theorem Shows.answer (h : l.Shows t ms) (call : Nat) (a : ServicesAnswer) :
    Reached (t.fill call a) (l.answer call a) ms := by
  unfold MainLink.answer
  split
  · next hmem =>
    refine .step (e := .returned call a) ?_ (Shows.reached ?_)
    · refine ⟨{ number := call, request := none, channel := some a }, ?_, rfl, rfl, rfl⟩
      rw [MainTasks.fill, h.calls]
      exact List.mem_map.mpr ⟨waitingCall call, List.mem_map_of_mem hmem, if_pos rfl⟩
    · refine { h with calls := ?_, answers := suffix_append_right h.answers _ }
      exact (filter_fill t call a).trans (by rw [h.calls, filter_waitingCall])
  · next hnot =>
    rw [fill_of_not_mem h.calls hnot]
    exact h.reached

/-! ## Reading -/

theorem finish_fate {f g : Fate} (cause : Option LinkError) (h : f.ended = g.ended)
    (hcause : g.cause = none ∨ g.cause = f.cause) :
    (g.finish cause).ended = true ∧ (f.finish cause).ended = (g.finish cause).ended ∧
      ((g.finish cause).cause = none ∨ (g.finish cause).cause = (f.finish cause).cause) := by
  unfold Fate.finish
  rw [h]
  cases hg : g.ended with
  | true => exact ⟨hg, h, hcause⟩
  | false => exact ⟨rfl, rfl, .inr rfl⟩

theorem Shows.finish (h : l.Shows t ms) (cause : Option LinkError) :
    Reached (t.finish cause) (l.finish cause) ms' := by
  obtain ⟨hended, hfate, hcause⟩ := finish_fate cause h.ended.2 h.cause
  have hover : l.state.endReading.1.ended = true := by
    unfold Negotiation.endReading
    split <;> rfl
  unfold MainLink.finish MainTasks.finish
  rw [h.state]
  generalize l.state.endReading = r at hover
  obtain ⟨state, call⟩ := r
  have hshows : Shows { l with state, fate := l.fate.finish cause }
      { t with state, fate := t.fate.finish cause } ms' :=
    { h with
      state := rfl
      replies := fun hreads => by rw [hover] at hreads; cases hreads
      ended := ⟨hended.trans hover.symm, hfate⟩
      cause := hcause }
  cases call with
  | none => exact hshows.reached
  | some call => exact hshows.answer call _

theorem send_outbound {p q : Pipe} {m : Message} (h : p.send m = .ok q) :
    q.outbound = p.outbound ++ Message.stream [m] := by
  unfold Pipe.send at h
  split at h
  · cases h
  · next b hb =>
    split at h
    · cases h
      rw [Message.stream_singleton hb]
    · cases h

theorem Shows.sent_append (h : l.Shows t ms) {m : Message} {pipe : Pipe}
    (hsend : l.pipe.send m = .ok pipe) : pipe.outbound <:+ Message.stream (t.sent ++ [m]) := by
  rw [send_outbound hsend, Message.stream_append]
  exact suffix_append_right h.sent _

/-- The replies are written, or reading ends at the first that cannot be. -/
theorem Shows.reply (h : l.Shows t ms) (hreads : t.state.ended = false) :
    (∀ after, l.reply ms = (after, none) → Reached t after []) ∧
      ∀ after e, l.reply ms = (after, some e) → Reached t (after.finish (some e)) [] := by
  induction ms generalizing l t with
  | nil =>
    have hnothing : l.reply [] = (l, none) := rfl
    rw [hnothing]
    refine ⟨fun after hr => ?_, fun after e hr => ?_⟩
    · rw [← (Prod.mk.inj hr).1]
      exact h.reached
    · exact absurd (Prod.mk.inj hr).2 (Option.some_ne_none e).symm
  | cons m ms ih =>
    have hreplies := h.replies hreads
    cases hsend : l.pipe.send m with
    | error e =>
      have hfails : l.reply (m :: ms) = (l, some e) := by
        simp only [MainLink.reply, Pipe.sendAll, hsend]
      rw [hfails]
      refine ⟨fun after hr => absurd (Prod.mk.inj hr).2 (Option.some_ne_none e), ?_⟩
      intro after e' hr
      rw [← (Prod.mk.inj hr).1, ← (Prod.mk.inj hr).2]
      refine .step (e := .replyFailed e) ⟨hreads, ?_⟩ (h.finish (some e))
      rw [hreplies]
      exact List.cons_ne_nil m ms
    | ok pipe =>
      have hgoes : l.reply (m :: ms) = MainLink.reply { l with pipe } ms := by
        simp only [MainLink.reply, Pipe.sendAll, hsend]
      have hnext : Shows { l with pipe } (t.next (.replied m)) ms :=
        { h with
          replies := fun _ => by rw [MainTasks.next, hreplies, List.tail_cons]
          sent := h.sent_append hsend }
      have he : t.Enabled (.replied m) := ⟨hreads, by rw [hreplies, List.head?_cons]⟩
      obtain ⟨hall, hfails⟩ := ih hnext hreads
      rw [hgoes]
      exact ⟨fun after hr => .step he (hall after hr),
        fun after e hr => .step he (hfails after e hr)⟩

theorem answer_state (l : MainLink) (call : Nat) (a : ServicesAnswer) :
    (l.answer call a).state = l.state := by
  unfold MainLink.answer
  split <;> rfl

theorem note_state (l : MainLink) (d : Negotiation.Dispatched) : (l.note d).state = d.state := by
  unfold MainLink.note
  split
  · exact answer_state _ _ _
  · rfl

theorem Shows.note (h : l.Shows t []) {d : Negotiation.Dispatched}
    (hended : d.state.ended = l.state.ended) : Reached (t.note d) (l.note d) d.replies := by
  have hshows : Shows { l with state := d.state } { t with state := d.state, replies := d.replies }
      d.replies :=
    { h with
      state := rfl
      replies := fun _ => rfl
      ended := ⟨h.ended.1.trans hended.symm, h.ended.2⟩ }
  obtain ⟨state, answer, replies⟩ := d
  cases answer with
  | none => exact hshows.reached
  | some answer => exact hshows.answer _ _

/-- A message is dispatched, the call that it answers returns, and the replies are written. -/
theorem Shows.receive (h : l.Shows t []) (hreads : t.state.ended = false) (m : Message) :
    (∀ after, l.receive m = (after, none) → Reached t after []) ∧
      ∀ after e, l.receive m = (after, some e) → Reached t (after.finish (some e)) [] := by
  have hended : (l.state.dispatch m).state.ended = l.state.ended := by
    rw [Negotiation.dispatch_state]
  have he : t.Enabled (.heard m) := ⟨hreads, h.replies hreads⟩
  have hnote : Reached (t.next (.heard m)) (l.note (l.state.dispatch m))
      (l.state.dispatch m).replies := by
    rw [MainTasks.next, h.state]
    exact h.note hended
  have hreads' : ∀ u : MainTasks,
      (l.note (l.state.dispatch m)).Shows u (l.state.dispatch m).replies →
        u.state.ended = false := by
    intro u hu
    rw [hu.state, note_state, hended, ← h.state, hreads]
  exact ⟨fun after hr => .step he (hnote.trans fun u hu => (hu.reply (hreads' u hu)).1 after hr),
    fun after e hr => .step he (hnote.trans fun u hu => (hu.reply (hreads' u hu)).2 after e hr)⟩

theorem poll_outbound (r : Inbox) (p : Pipe) : (r.poll p).2.2.outbound = p.outbound := by
  unfold Inbox.poll
  split <;> rfl

/-- Reading leaves what is shown as it was. -/
theorem Shows.polled (h : l.Shows t ms) {poll : Inbox.Poll} {inbox : Inbox} {pipe : Pipe}
    (hpoll : l.inbox.poll l.pipe = (poll, inbox, pipe)) : Shows { l with inbox, pipe } t ms := by
  have houtbound : pipe.outbound = l.pipe.outbound := by
    rw [← poll_outbound l.inbox l.pipe, hpoll]
  exact { h with sent := houtbound ▸ h.sent }

theorem Shows.reads (h : l.Shows t ms) (hl : ¬ l.fate.ended = true) : t.state.ended = false := by
  rw [h.state, ← h.ended.1]
  exact Bool.eq_false_iff.mpr hl

/-- **Whatever is read, the tasks can have read it too.** -/
theorem Shows.settle (h : l.Shows t []) : Reached t l.settle [] := by
  fun_induction MainLink.settle l generalizing t with
  | case1 l hover => exact h.reached
  | case2 l hreads inbox pipe hpoll => exact (h.polled hpoll).reached
  | case3 l hreads inbox pipe hpoll =>
    exact .step (e := .stopped none) ⟨h.reads hreads, h.replies (h.reads hreads)⟩
      ((h.polled hpoll).finish none)
  | case4 l hreads e inbox pipe hpoll =>
    exact .step (e := .stopped (some e)) ⟨h.reads hreads, h.replies (h.reads hreads)⟩
      ((h.polled hpoll).finish (some e))
  | case5 l hreads m inbox pipe hpoll after e hreceive =>
    exact ((h.polled hpoll).receive (h.reads hreads) m).2 after e hreceive
  | case6 l hreads m inbox pipe hpoll after hreceive ih =>
    exact (((h.polled hpoll).receive (h.reads hreads) m).1 after hreceive).trans fun u hu => ih hu

theorem Shows.peer (h : l.Shows t []) (act : Pipe.Act) : Reached t (l.peer act) [] := by
  have hacts : Shows { l with pipe := l.pipe.peer act } t [] := by
    refine { h with sent := ?_ }
    have houtbound : (l.pipe.peer act).outbound = l.pipe.outbound := by
      cases act with
      | write b =>
        rw [Pipe.peer, Pipe.deliver]
        split <;> rfl
      | hangUp => rfl
      | vanish => rfl
    exact houtbound ▸ h.sent
  cases act <;> exact hacts.settle

/-! ## References -/

theorem Shows.sendReference (h : l.Shows t ms) : Reached t l.sendReference ms := by
  unfold MainLink.sendReference
  cases hbeats : l.heartbeat with
  | none => exact h.reached
  | some ticker =>
    have hbeating : t.beating = true := by rw [h.beating, hbeats, Option.isSome_some]
    refine .step (e := .counted) ⟨hbeating, h.reference⟩ ?_
    have hcounted : t.next .counted =
        { t with state := l.state.beat.1, reference := some l.state.beat.2 } := by
      rw [MainTasks.next, h.state]
    have hreplies : l.state.beat.1.ended = false → t.replies = ms := by
      intro hreads
      exact h.replies (by rw [h.state]; exact hreads)
    rw [hcounted]
    cases hsend : l.pipe.send l.state.beat.2 with
    | ok pipe =>
      simp only [Option.isNone_some, Bool.false_eq_true, if_false, hsend]
      refine .step (e := .beat l.state.beat.2) rfl (Shows.reached ?_)
      exact { h with
        state := rfl
        replies := hreplies
        reference := rfl
        beating := hbeating
        sent := h.sent_append hsend }
    | error e =>
      simp only [Option.isNone_some, Bool.false_eq_true, if_false, hsend]
      refine .step (e := .beatFailed e) (Option.some_ne_none _) (Shows.reached ?_)
      refine { h with
        state := rfl
        replies := hreplies
        reference := rfl
        beating := ?_ }
      show (t.beating && !e.isClosed) = (if e.isClosed then none else some ticker).isSome
      rw [hbeating]
      cases e.isClosed <;> rfl

theorem Shows.advance (h : l.Shows t ms) (milliseconds : Nat) :
    Reached t (l.advance milliseconds) ms := by
  unfold MainLink.advance
  cases hbeats : l.heartbeat with
  | none => exact Shows.reached { h with beating := by rw [h.beating, hbeats] }
  | some ticker =>
    have hbeating : t.beating = true := by rw [h.beating, hbeats, Option.isSome_some]
    simp only
    generalize ticker.fires (l.now + milliseconds) = r
    induction r.1 with
    | zero => exact Shows.reached { h with beating := hbeating }
    | succ n ih => exact ih.trans fun u hu => hu.sendReference

/-! ## Calls -/

theorem request_ok {s state : Negotiation} {m : Message} (h : s.request call = .ok (state, m)) :
    state.ended = s.ended ∧ state.progress = .collecting call [] := by
  unfold Negotiation.request at h
  split at h
  · cases h
  · split at h
    · cases h
    · cases h
      exact ⟨rfl, rfl⟩

/-- A call that has just been made is the only one with its number. -/
theorem Shows.calls_not_mem (h : l.Shows t ms) (hs : t.Sound) : l.calls ∉ l.waiting := by
  intro hmem
  have hnumber : l.calls ∈ t.numbers := by
    refine List.mem_append_left _ ?_
    rw [h.calls, List.map_map]
    exact List.mem_map.mpr ⟨l.calls, hmem, rfl⟩
  have hlt := hs.number_lt l.calls hnumber
  rw [h.made] at hlt
  exact Nat.lt_irrefl _ hlt

/-- Of the calls only the last has a request to write. -/
theorem map_request_none (ns : List Nat) (call : Nat) (request : Option Message) :
    (ns.map waitingCall ++ [({ number := call, request } : Call)]).map
      (fun k => if k.number = call then { k with request := none } else k) =
        (ns ++ [call]).map waitingCall := by
  rw [List.map_append, List.map_append, List.map_map, List.map_singleton, if_pos rfl]
  refine congrArg (· ++ _) (List.map_congr_left fun n _ => ?_)
  rw [Function.comp_apply]
  split <;> rfl

theorem filter_waitingCall_append {ns : List Nat} (hnew : call ∉ ns) (request : Option Message) :
    (ns.map waitingCall ++ [({ number := call, request } : Call)]).filter (·.number ≠ call) =
      ns.map waitingCall := by
  rw [List.filter_append, filter_waitingCall, List.filter_eq_self.mpr, List.filter_eq_nil_iff.mpr,
    List.append_nil]
  · simp
  · intro n hn
    exact decide_eq_true fun heq : n = call => hnew (heq ▸ hn)

theorem answer_new (hnew : l.calls ∉ l.waiting) (a : ServicesAnswer) :
    MainLink.answer { l with calls := l.calls + 1, waiting := l.waiting ++ [l.calls] } l.calls a =
      { l with calls := l.calls + 1, answers := l.answers ++ [(l.calls, a)] } := by
  have hgone : (l.waiting ++ [l.calls]).filter (· ≠ l.calls) = l.waiting := by
    rw [List.filter_append, List.filter_eq_self.mpr, List.filter_eq_nil_iff.mpr, List.append_nil]
    · simp
    · intro n hn
      exact decide_eq_true fun heq : n = l.calls => hnew (heq ▸ hn)
  unfold MainLink.answer
  rw [if_pos (List.mem_append_right _ List.mem_cons_self), hgone]

theorem Shows.request (h : l.Shows t ms) (hs : t.Sound) : Reached t l.request.2 ms := by
  have hnew := h.calls_not_mem hs
  refine .step (e := .called) trivial ?_
  -- The call is refused, its request is written, or that fails at once.
  cases hrequest : l.state.request l.calls with
  | error e =>
    have hcalled : t.next .called =
        { t with made := l.calls + 1, answers := t.answers ++ [(l.calls, .error e)] } := by
      simp only [MainTasks.next, h.state, h.made, hrequest]
    have hl : l.request.2 =
        { l with calls := l.calls + 1, answers := l.answers ++ [(l.calls, .error e)] } := by
      simp only [MainLink.request, hrequest]
      exact answer_new hnew _
    rw [hcalled, hl]
    exact Shows.reached { h with
      made := rfl
      answers := suffix_append_right h.answers _ }
  | ok r =>
    obtain ⟨state, m⟩ := r
    obtain ⟨hended, hcollecting⟩ := request_ok hrequest
    have hcalled : t.next .called =
        { t with
          state
          made := l.calls + 1
          calls := l.waiting.map waitingCall ++ [{ number := l.calls, request := some m }] } := by
      simp only [MainTasks.next, h.state, h.made, h.calls, hrequest]
    have hreplies : state.ended = false → t.replies = ms := fun hreads =>
      h.replies (by rw [h.state, ← hended, hreads])
    rw [hcalled]
    cases hsend : l.pipe.send m with
    | ok pipe =>
      have hl : l.request.2 =
          { l with state, pipe, calls := l.calls + 1, waiting := l.waiting ++ [l.calls] } := by
        simp only [MainLink.request, hrequest, hsend]
      rw [hl]
      refine .step (e := .asked l.calls m) ?_ (Shows.reached ?_)
      · exact ⟨_, List.mem_append_right _ List.mem_cons_self, rfl, rfl⟩
      · exact { h with
          state := rfl
          made := rfl
          calls := map_request_none _ _ _
          replies := hreplies
          ended := ⟨h.ended.1.trans hended.symm, h.ended.2⟩
          sent := h.sent_append hsend }
    | error e =>
      have hl : l.request.2 = { l with
          state := state.requestFailed
          calls := l.calls + 1
          answers := l.answers ++ [(l.calls, .error e)] } := by
        simp only [MainLink.request, hrequest, hsend]
        exact answer_new (l := { l with state := state.requestFailed }) hnew _
      rw [hl]
      refine .step (e := .askFailed l.calls e) ?_ (Shows.reached ?_)
      · exact ⟨_, List.mem_append_right _ List.mem_cons_self, rfl, Option.some_ne_none m⟩
      · rw [MainTasks.next, MainTasks.abandon_of_collecting hcollecting]
        exact { h with
          state := rfl
          made := rfl
          calls := (filter_fill _ _ _).trans (filter_waitingCall_append hnew _)
          answers := suffix_append_right h.answers _
          replies := hreplies
          ended := ⟨h.ended.1.trans hended.symm, h.ended.2⟩ }

theorem Shows.cancel (h : l.Shows t ms) (hs : t.Sound) : Reached t l.cancel.2 ms := by
  have hdistinct : l.waiting.Nodup := by
    have hnumbers := (List.nodup_append.mp hs.distinct).1
    rw [h.calls, List.map_map] at hnumbers
    exact hnumbers.of_map
  clear hs
  generalize hw : l.waiting = ns at hdistinct
  induction ns generalizing l t with
  | nil => exact Shows.reached { h with calls := by rw [h.calls, hw]; rfl }
  | cons n ns ih =>
    obtain ⟨hnot, hrest⟩ := List.nodup_cons.mp hdistinct
    have hleft : (t.leave n).calls = ns.map waitingCall := by
      have hkept : ns.filter (· ≠ n) = ns :=
        List.filter_eq_self.mpr fun k hk => decide_eq_true fun heq : k = n => hnot (heq ▸ hk)
      rw [MainTasks.leave, h.calls, filter_waitingCall, hw,
        List.filter_cons_of_neg (by simp), hkept]
    refine .step (e := .gaveUp n) ?_ (ih (l := { l with waiting := ns }) ?_ rfl hrest)
    · exact ⟨waitingCall n, by rw [h.calls, hw]; exact List.mem_cons_self, rfl⟩
    · exact { h with calls := hleft }

theorem Shows.close (h : l.Shows t []) (hs : t.Sound) : Reached t l.close [] := by
  refine (h.cancel hs).trans fun u hu => ?_
  refine .step (e := .closed) hu.calls (.step (e := .hushed) rfl ?_)
  have hquiet : Shows { l.cancel.2 with heartbeat := none, pipe := l.pipe.shutDown }
      ((u.next .closed).next .hushed) [] :=
    { hu with
      reference := rfl
      beating := rfl }
  unfold MainLink.close
  by_cases hover : l.fate.ended = true
  · exact (if_pos hover).symm ▸ hquiet.reached
  · have hreads : u.state.ended = false := hu.reads hover
    exact (if_neg hover).symm ▸
      .step (e := .stopped none) ⟨hreads, hu.replies hreads⟩ (hquiet.finish none)

/-! ## Histories -/

/-- What may happen on a connection. -/
inductive Move where
  /-- The peer does something with its end of the stream. -/
  | peer (act : Pipe.Act)
  /-- The clock moves. -/
  | advance (milliseconds : Nat)
  | request
  | cancel
  | close
  | takeError
  | pollError
  | collect

def move (l : MainLink) : Move → MainLink
  | .peer act => l.peer act
  | .advance milliseconds => l.advance milliseconds
  | .request => l.request.2
  | .cancel => l.cancel.2
  | .close => l.close
  | .takeError => l.takeError.2
  | .pollError => l.pollError.2
  | .collect => l.collect.2

/-- Whoever asks for the error that ended reading changes nothing else. -/
theorem Shows.asked (h : l.Shows t ms) {fate : Fate} (hended : fate.ended = l.fate.ended)
    (hcause : fate.cause = none ∨ fate.cause = l.fate.cause) : Shows { l with fate } t ms := by
  refine { h with ended := ⟨hended.trans h.ended.1, h.ended.2.trans hended.symm⟩, cause := ?_ }
  rcases hcause with hnone | hsame
  · exact .inl hnone
  · exact h.cause.imp hsame.trans hsame.trans

theorem poll_fate (f : Fate) :
    f.poll.2.ended = f.ended ∧ (f.poll.2.cause = none ∨ f.poll.2.cause = f.cause) := by
  unfold Fate.poll
  split
  · exact ⟨rfl, .inr rfl⟩
  · split
    · exact ⟨rfl, .inl rfl⟩
    · exact ⟨rfl, .inr rfl⟩

/-- **Whatever happens on a connection, the tasks can have come to what it shows.** -/
theorem Shows.move (h : l.Shows t []) (hs : t.Sound) (m : Move) : Reached t (l.move m) [] := by
  cases m with
  | peer act => exact h.peer act
  | advance milliseconds => exact h.advance milliseconds
  | request => exact h.request hs
  | cancel => exact h.cancel hs
  | close => exact h.close hs
  | takeError =>
    rw [MainLink.move, MainLink.takeError]
    split
    · have htaken : Shows { l with fate := l.fate.take.2 } t [] := h.asked rfl (.inr rfl)
      exact htaken.reached
    · exact h.reached
  | pollError =>
    obtain ⟨hended, hcause⟩ := poll_fate l.fate
    exact (h.asked hended hcause).reached
  | collect =>
    exact Shows.reached { h with
      answers := List.nil_suffix
      sent := List.nil_suffix }

theorem sendAll_outbound {ms : List Message} {p q : Pipe} (h : p.sendAll ms = .ok q) :
    q.outbound = p.outbound ++ Message.stream ms := by
  induction ms generalizing p with
  | nil =>
    cases h
    exact (List.append_nil _).symm
  | cons m ms ih =>
    rw [Pipe.sendAll] at h
    split at h
    · cases h
    · next hsend =>
      rw [ih h, send_outbound hsend, List.append_assoc, ← Message.stream_append,
        List.singleton_append]

theorem shows_start {token target : Token} {offered : List Service} {heartbeat : Nat}
    (h : MainLink.start token target offered heartbeat = .ok l) :
    l.Shows (MainTasks.start token target offered (0 < heartbeat)) [] := by
  simp only [MainLink.start] at h
  split at h
  · cases h
  · next hsend =>
    cases h
    exact {
      state := rfl
      made := rfl
      calls := rfl
      answers := List.nil_suffix
      replies := fun _ => rfl
      reference := rfl
      beating := by
        unfold Ticker.every?
        split
        · next hpos => exact decide_eq_true hpos
        · next hpos => exact decide_eq_false hpos
      ended := ⟨rfl, rfl⟩
      cause := .inl rfl
      sent := by rw [sendAll_outbound hsend]; exact List.suffix_rfl }

/-- **What a connection shows after any history its tasks can have come to.** -/
theorem shows_moves {token target : Token} {offered : List Service} {heartbeat : Nat}
    (h : MainLink.start token target offered heartbeat = .ok l) (moves : List Move) :
    ∃ es, MainTasks.machine.Possible
        (MainTasks.start token target offered (0 < heartbeat)) es ∧
      (moves.foldl move l).Shows
        (MainTasks.machine.after (MainTasks.start token target offered (0 < heartbeat)) es) [] := by
  induction moves using List.reverseRecOn with
  | nil => exact ⟨[], trivial, shows_start h⟩
  | append_singleton moves m ih =>
    obtain ⟨es, hes, hshows⟩ := ih
    have hs := (MainTasks.sound_start token target offered (0 < heartbeat)).after hes
    obtain ⟨fs, hfs, hshows'⟩ := hshows.move hs m
    refine ⟨es ++ fs, Machine.possible_append.mpr ⟨hes, hfs⟩, ?_⟩
    rw [List.foldl_append, Machine.after_append]
    exact hshows'

/-- **A call waits only while it collects, and none waits once reading has ended.** -/
theorem waiting_moves {token target : Token} {offered : List Service} {heartbeat : Nat}
    (h : MainLink.start token target offered heartbeat = .ok l) (moves : List Move) :
    (∀ n ∈ (moves.foldl move l).waiting,
      ∃ found, (moves.foldl move l).state.progress = .collecting n found) ∧
    ((moves.foldl move l).fate.ended = true → (moves.foldl move l).waiting = []) := by
  obtain ⟨es, hes, hshows⟩ := shows_moves h moves
  have hs := (MainTasks.sound_start token target offered (0 < heartbeat)).after hes
  have hcollects : ∀ n ∈ (moves.foldl move l).waiting,
      ∃ found, (moves.foldl move l).state.progress = .collecting n found := by
    intro n hn
    rw [← hshows.state]
    exact hs.waiting (waitingCall n) (hshows.calls ▸ List.mem_map_of_mem hn) rfl
  refine ⟨hcollects, fun hended => List.eq_nil_iff_forall_not_mem.mpr fun n hn => ?_⟩
  obtain ⟨found, hp⟩ := hcollects n hn
  rw [hshows.ended.1, ← hshows.state] at hended
  exact hs.not_collecting hended n found (hshows.state ▸ hp)

end MainLink

end BoothLink
