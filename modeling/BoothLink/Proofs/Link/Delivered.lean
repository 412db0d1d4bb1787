import BoothLink.Proofs.Link.FeedTask

/-!
# Items are delivered as they come

As long as the receiving end is kept and the task has not found that it should stop, the items that the
receiving end has given, those in the queue and the one in the task's hand are those of the messages
decoded so far, each once and in the order of the stream. The queue never holds more than it has room
for. Once the task has left its loop nothing is in its hand, and what is in the queue can still be
received before the queue shows its end.

* `FeedKind.brought`, `State.emitted?`, `BeatSample.emitted?`: the items that messages bring.
* `FeedTask.Carries`: between any two turns, where the items of the messages decoded so far are.
* `FeedTask.Drains`: what holds of the items once the loop has been left.
* **`FeedTask.items_delivered`**: for every history of a connection.
-/

namespace BoothLink

/-- The items that messages bring. -/
def FeedKind.brought {α : Type} (kind : FeedKind α) (ms : List Message) : List α :=
  ms.filterMap fun m => (kind.item m).toOption.join

/-- The state that a message holds, if its text is JSON. -/
def State.emitted? : Message → Option State
  | .stateEmit path json => (Json.parse json).toOption.map fun value => ⟨path, value⟩
  | _ => none

/-- The sample that a message holds. -/
def BeatSample.emitted? : Message → Option BeatSample
  | .beatEmit sample => some sample
  | _ => none

theorem stateFeed_brought (ms : List Message) :
    stateFeed.brought ms = ms.filterMap State.emitted? := by
  refine List.filterMap_congr fun m _ => ?_
  cases m with
  | stateEmit path json =>
    show (State.ofMessage (.stateEmit path json)).toOption.join = _
    rw [State.ofMessage, State.emitted?]
    cases Json.parse json <;> rfl
  | _ => rfl

theorem beatFeed_brought (ms : List Message) :
    beatFeed.brought ms = ms.filterMap BeatSample.emitted? := by
  refine List.filterMap_congr fun m _ => ?_
  cases m <;> rfl

/-- Writing and all else that leaves alone what is to be read leaves alone what has been. -/
theorem Inbox.Keeps.of_pipe {catalog : Catalog} {w p p' : Pipe} {given : List Message} {r : Inbox}
    (h : Keeps catalog w given r p) (hinbound : p'.inbound = p.inbound)
    (hended : p'.ended = p.ended) : Keeps catalog w given r p' := by
  obtain ⟨hcat, hend, hyields⟩ := h
  refine ⟨hcat, hended.trans hend, ?_⟩
  rw [front, hinbound]
  exact hyields

/-- Writing leaves alone what is to be read, and whether there will be more of it. -/
theorem Pipe.send_keeps {p q : Pipe} {m : Message} (h : p.send m = .ok q) :
    q.inbound = p.inbound ∧ q.ended = p.ended := by
  rw [Pipe.send] at h
  split at h
  · cases h
  · split at h
    · cases h
      exact ⟨rfl, rfl⟩
    · cases h

namespace FeedTask

variable {α : Type} {t : FeedTask α} {e : Event} {kind : FeedKind α} {n : Nat} {w : Pipe}

/-- Between any two turns: the items of the messages decoded so far have been received, are in the queue,
which is no longer than it may be, or are in hand. -/
structure Carries (kind : FeedKind α) (n : Nat) (w : Pipe) (t : FeedTask α) : Prop where
  kind_eq : t.feed.kind = kind
  capacity_eq : t.feed.capacity = n
  room : t.feed.queue.length ≤ n
  kept : t.feed.dropped = false
  items : ∃ given, Inbox.Keeps kind.catalog w given t.feed.inbox t.feed.pipe ∧
    t.received ++ t.feed.queue ++ t.feed.inHand.toList = kind.brought given

theorem written_append (es : List Event) (e : Event) :
    written (es ++ [e]) = (e.act?.map (written es).peer).getD (written es) := by
  rw [written, List.filterMap_append, List.foldl_append]
  cases e <;> rfl

theorem brought_append (kind : FeedKind α) (ms ns : List Message) :
    kind.brought (ms ++ ns) = kind.brought ms ++ kind.brought ns := List.filterMap_append

theorem brought_of_ok {m : Message} {x : Option α} (h : kind.item m = .ok x) :
    kind.brought [m] = x.toList := by
  rw [FeedKind.brought, List.filterMap_cons, h]
  cases x <;> rfl

theorem brought_of_error {m : Message} {err : WireError} (h : kind.item m = .error err) :
    kind.brought [m] = [] := by
  rw [FeedKind.brought, List.filterMap_cons, h]
  rfl

/-- A turn of the loop moves an item on, or takes the item of one more message to hand. -/
theorem Carries.turned (h : t.Carries kind n w) {t' : FeedTask α} (ht : t.Turned t') :
    t'.Carries kind n w := by
  obtain ⟨given, hkeeps, hitems⟩ := h.items
  have hpoll := hkeeps.poll
  cases ht with
  | @put x hx _ hroom =>
    -- No item is new: the one in hand is now the last of the queue.
    refine ⟨h.kind_eq, h.capacity_eq, ?_, h.kept, given, hkeeps, ?_⟩
    · rw [List.length_append]
      rw [h.capacity_eq] at hroom
      exact hroom
    · rw [hx, List.append_assoc] at hitems
      rw [← hitems]
      exact List.append_nil _
  | unwanted _ hdropped =>
    rw [h.kept] at hdropped
    cases hdropped
  | @brought m x inbox pipe hidle hfound hitem =>
    -- One message more has been decoded, and its item, if there is one, is in hand.
    rw [hfound] at hpoll
    rw [hidle, Option.toList_none, List.append_nil] at hitems
    rw [h.kind_eq] at hitem
    refine ⟨h.kind_eq, h.capacity_eq, h.room, h.kept, _, hpoll, ?_⟩
    rw [brought_append, ← hitems]
    exact congrArg (t.received ++ t.feed.queue ++ ·) (brought_of_ok hitem).symm
  | @refused m err inbox pipe hidle hfound hitem =>
    rw [hfound] at hpoll
    rw [hidle, Option.toList_none, List.append_nil] at hitems
    rw [h.kind_eq] at hitem
    refine ⟨h.kind_eq, h.capacity_eq, h.room, h.kept, _, hpoll, ?_⟩
    rw [brought_append, ← hitems]
    exact congrArg (t.received ++ t.feed.queue ++ ·) (brought_of_error hitem).symm
  | @stopped found cause inbox pipe hidle hfound hstop =>
    have hnone : found.message? = none := by
      cases found with
      | message m => cases hstop
      | _ => rfl
    rw [hfound, hnone, Option.toList_none, List.append_nil] at hpoll
    rw [hidle] at hitems
    exact ⟨h.kind_eq, h.capacity_eq, h.room, h.kept, given, hpoll, hitems⟩
  | @absorbed inbox pipe hidle hfound _ =>
    rw [hfound] at hpoll
    exact ⟨h.kind_eq, h.capacity_eq, h.room, h.kept, given, List.append_nil given ▸ hpoll, hitems⟩

theorem Carries.next (h : t.Carries kind n w) (he : t.Enabled e) (hdropped : e ≠ .dropped)
    (htold : e ≠ .told) : (t.next e).Carries kind n ((e.act?.map w.peer).getD w) := by
  obtain ⟨given, hkeeps, hitems⟩ := h.items
  cases e with
  | peer act => exact ⟨h.kind_eq, h.capacity_eq, h.room, h.kept, given, hkeeps.peer act, hitems⟩
  | step => exact h.turned (turned_step he)
  | readFailed cause =>
    obtain ⟨-, hidle, -⟩ := he
    rw [hidle] at hitems
    exact ⟨h.kind_eq, h.capacity_eq, h.room, h.kept, given, hkeeps, hitems⟩
  | told => exact absurd rfl htold
  | dropped => exact absurd rfl hdropped
  | posted =>
    obtain ⟨cause, hstage⟩ := he
    rw [FeedTask.next, hstage]
    exact ⟨h.kind_eq, h.capacity_eq, h.room, h.kept, given, hkeeps, hitems⟩
  | finished =>
    obtain ⟨cause, hstage⟩ := he
    rw [FeedTask.next, hstage]
    exact ⟨h.kind_eq, h.capacity_eq, h.room, h.kept, given, hkeeps, hitems⟩
  | received =>
    cases hqueue : t.feed.queue with
    | nil => exact absurd hqueue he.2.2
    | cons x queue =>
      have hroom := h.room
      rw [hqueue] at hitems hroom
      simp only [FeedTask.next, hqueue]
      refine ⟨h.kind_eq, h.capacity_eq, Nat.le_of_succ_le hroom, h.kept, given, hkeeps, ?_⟩
      rw [← hitems]
      simp
  | sent m =>
    rw [FeedTask.next, Feed.send]
    split
    · next pipe hsend =>
      obtain ⟨hinbound, hended⟩ := Pipe.send_keeps hsend
      exact ⟨h.kind_eq, h.capacity_eq, h.room, h.kept, given, hkeeps.of_pipe hinbound hended, hitems⟩
    · exact h
  | closed | collected =>
    exact ⟨h.kind_eq, h.capacity_eq, h.room, h.kept, given, hkeeps.of_pipe rfl rfl, hitems⟩
  | taken | errorTaken | errorAsked =>
    exact ⟨h.kind_eq, h.capacity_eq, h.room, h.kept, given, hkeeps, hitems⟩

theorem carries_start {token : Token} {port : UInt16} {capacity : Nat} {f : Feed α}
    (h : Feed.start kind token port capacity = .ok f) :
    Carries kind (max capacity 1) {} { feed := f } := by
  obtain ⟨pipe, hsend, rfl⟩ := start_inv h
  obtain ⟨hinbound, hended⟩ := Pipe.send_keeps hsend
  exact ⟨rfl, rfl, Nat.zero_le _, rfl, [],
    (Inbox.keeps_start kind.catalog).of_pipe hinbound hended, rfl⟩

theorem Carries.after (h : t.Carries kind n {}) {es : List Event}
    (hes : (machine α).Possible t es) (hkept : .dropped ∉ es) (htold : .told ∉ es) :
    ((machine α).after t es).Carries kind n (written es) := by
  revert hkept htold
  refine hes.induction ?_ ?_
  · intro _ _
    exact h
  · intro es e _ he ih hkept htold
    rw [List.mem_append, not_or, List.mem_singleton] at hkept htold
    rw [Machine.after_append, written_append]
    exact (ih hkept.1 htold.1).next he (Ne.symm hkept.2) (Ne.symm htold.2)

/-- **The task can only find that it should stop once the connection has been closed.** -/
theorem closed_of_told {es : List Event} (hopen : t.closing = false)
    (hes : (machine α).Possible t es) (hclosed : .closed ∉ es) :
    .told ∉ es ∧ ((machine α).after t es).closing = false := by
  revert hclosed
  refine hes.induction ?_ ?_
  · intro _
    exact ⟨List.not_mem_nil, hopen⟩
  · intro es e _ he ih hclosed
    rw [List.mem_append, not_or, List.mem_singleton] at hclosed
    obtain ⟨htold, hstill⟩ := ih hclosed.1
    constructor
    · rw [List.mem_append, not_or, List.mem_singleton]
      refine ⟨htold, ?_⟩
      rintro rfl
      rw [he.2] at hstill
      cases hstill
    · rw [Machine.after_append]
      exact (closing_next _ e).trans (by rw [hstill, decide_eq_false (Ne.symm hclosed.2)]; rfl)

/-! ## After the loop -/

/-- The loop has been left, and these items have been received or are in the queue. -/
structure Left (items : List α) (t : FeedTask α) : Prop where
  left : t.stage ≠ .reads
  kept : t.feed.dropped = false
  items_eq : t.received ++ t.feed.queue = items

variable {items : List α}

theorem Left.next (h : t.Left items) (he : t.Enabled e) (hdropped : e ≠ .dropped) :
    (t.next e).Left items := by
  have hover := over_next h.left he
  cases e with
  | step | readFailed | told => exact absurd he.1 h.left
  | dropped => exact absurd rfl hdropped
  | posted | finished =>
    obtain ⟨cause, hstage⟩ := he
    rw [FeedTask.next, hstage] at hover ⊢
    exact ⟨hover, h.kept, h.items_eq⟩
  | received =>
    cases hqueue : t.feed.queue with
    | nil => exact absurd hqueue he.2.2
    | cons x queue =>
      have hitems := h.items_eq
      rw [hqueue] at hitems
      simp only [FeedTask.next, hqueue] at hover ⊢
      refine ⟨hover, h.kept, ?_⟩
      rw [← hitems, List.append_assoc, List.singleton_append]
  | sent m =>
    rw [FeedTask.next, Feed.send] at hover ⊢
    split <;> exact ⟨h.left, h.kept, h.items_eq⟩
  | peer | taken | errorTaken | errorAsked | closed | collected =>
    exact ⟨hover, h.kept, h.items_eq⟩

theorem Left.after (h : t.Left items) {es : List Event} (hes : (machine α).Possible t es)
    (hkept : .dropped ∉ es) : ((machine α).after t es).Left items := by
  revert hkept
  refine hes.induction ?_ ?_
  · intro _
    exact h
  · intro es e _ he ih hkept
    rw [List.mem_append, not_or, List.mem_singleton] at hkept
    rw [Machine.after_append]
    exact (ih hkept.1).next he (Ne.symm hkept.2)

/-- **All items have been received when the queue shows its end.** -/
theorem Left.received_eq (h : t.Left items) (hend : t.glimpse = .closed) : t.received = items := by
  rw [← h.items_eq, (closed_of_glimpse hend).1, List.append_nil]

/-- A task that has left its loop can post its error and give up the queue. -/
theorem exists_gone (h : t.stage ≠ .reads) : ∃ es, (machine α).Possible t es ∧ .dropped ∉ es ∧
    ∃ cause, ((machine α).after t es).stage = .gone cause := by
  cases hstage : t.stage with
  | reads => exact absurd hstage h
  | gone cause => exact ⟨[], trivial, List.not_mem_nil, cause, hstage⟩
  | posted cause =>
    have hnext : (t.next .finished).stage = .gone cause := by rw [next, hstage]
    exact ⟨[.finished], ⟨⟨cause, hstage⟩, trivial⟩, by decide, cause, hnext⟩
  | leaves cause =>
    have hnext : (t.next .posted).stage = .posted cause := by rw [next, hstage]
    have hgone : ((t.next .posted).next .finished).stage = .gone cause := by
      rw [next.eq_def (t.next .posted), hnext]
    exact ⟨[.posted, .finished], ⟨⟨cause, hstage⟩, ⟨cause, hnext⟩, trivial⟩, by decide, cause, hgone⟩

/-- What is in the queue can be received while the end is kept. -/
theorem exists_received (htaken : t.feed.taken = true) (hkept : t.feed.dropped = false)
    {cause : Option LinkError} (hgone : t.stage = .gone cause) :
    ∃ es, (machine α).Possible t es ∧ .dropped ∉ es ∧
      ((machine α).after t es).glimpse = .closed := by
  induction hqueue : t.feed.queue generalizing t with
  | nil =>
    refine ⟨[], trivial, List.not_mem_nil, ?_⟩
    show t.glimpse = .closed
    simp only [glimpse, htaken, hkept, hqueue, hgone]
    rfl
  | cons x queue ih =>
    have hnext : t.next .received =
        { t with feed := { t.feed with queue }, received := t.received ++ [x] } := by
      rw [next, hqueue]
    obtain ⟨es, hes, hnot, hend⟩ := ih (t := t.next .received) (by rw [hnext]; exact htaken)
      (by rw [hnext]; exact hkept) (by rw [hnext]; exact hgone) (by rw [hnext])
    refine ⟨.received :: es, ⟨⟨htaken, hkept, ?_⟩, hes⟩, ?_, hend⟩
    · rw [hqueue]
      exact List.cons_ne_nil _ _
    · exact List.not_mem_cons_of_ne_of_not_mem (by decide) hnot

/-- **All items can still be received before the queue shows its end.** -/
theorem Left.exists_end (h : t.Left items) : ∃ es, (machine α).Possible t es ∧ .dropped ∉ es ∧
    ((machine α).after t es).glimpse = .closed ∧ ((machine α).after t es).received = items := by
  obtain ⟨es, hes, hnot, cause, hgone⟩ := exists_gone h.left
  have hleft := h.after hes hnot
  generalize hu : (machine α).after t es = u at hleft hgone
  obtain ⟨fs, hfs, hnot', hend⟩ := exists_received (t := u.next .taken) rfl hleft.kept hgone
  have hall : (machine α).after t (es ++ .taken :: fs) = (machine α).after (u.next .taken) fs := by
    rw [Machine.after_append, hu, Machine.after_cons]
    rfl
  have hpossible : (machine α).Possible t (es ++ .taken :: fs) := by
    rw [Machine.possible_append, hu]
    exact ⟨hes, trivial, hfs⟩
  have hkept : Event.dropped ∉ es ++ .taken :: fs := by
    rw [List.mem_append, not_or]
    exact ⟨hnot, List.not_mem_cons_of_ne_of_not_mem (by decide) hnot'⟩
  refine ⟨es ++ .taken :: fs, hpossible, hkept, ?_, ?_⟩
  · rw [hall]
    exact hend
  · refine (h.after hpossible hkept).received_eq ?_
    rw [hall]
    exact hend

/-! ## The whole history -/

/-- What holds once the loop has been left: no item is lost any more. -/
structure Drains (items : List α) (t : FeedTask α) : Prop where
  items_eq : t.received ++ t.feed.queue = items
  received_eq : t.glimpse = .closed → t.received = items
  exists_end : ∃ es, (machine α).Possible t es ∧ .dropped ∉ es ∧
    ((machine α).after t es).glimpse = .closed ∧ ((machine α).after t es).received = items

/-- The items of the messages decoded so far are delivered. -/
structure Delivers (kind : FeedKind α) (capacity : Nat) (es : List Event) (t : FeedTask α) :
    Prop where
  items_eq : t.received ++ t.feed.queue ++ t.feed.inHand.toList =
    kind.brought ((kind.catalog.messages (written es).inbound).take t.feed.inbox.received)
  capacity_eq : t.feed.capacity = max capacity 1
  room : t.feed.queue.length ≤ t.feed.capacity
  /-- A message that brings nothing is read, and that is all. -/
  passed_over : ∀ m inbox pipe, t.stage = .reads → t.feed.inHand = none →
    t.feed.inbox.poll t.feed.pipe = (.message m, inbox, pipe) → kind.item m = .ok none →
      t.Enabled .step ∧ t.next .step = { t with feed := { t.feed with inbox, pipe } }
  drains : t.stage ≠ .reads → ∀ fs, (machine α).Possible t fs → .dropped ∉ fs →
    ((machine α).after t fs).Drains
      (kind.brought ((kind.catalog.messages (written es).inbound).take t.feed.inbox.received))

theorem Left.drains (h : t.Left items) : t.Drains items := ⟨h.items_eq, h.received_eq, h.exists_end⟩

theorem next_of_passed_over (hopen : t.feed.fate.ended = false) {m : Message} {inbox : Inbox}
    {pipe : Pipe} (hreads : t.stage = .reads) (hidle : t.feed.inHand = none)
    (hpoll : t.feed.inbox.poll t.feed.pipe = (.message m, inbox, pipe))
    (hitem : t.feed.kind.item m = .ok none) :
    t.Enabled .step ∧ t.next .step = { t with feed := { t.feed with inbox, pipe } } := by
  have hstep : t.feed.step? = some { t.feed with inbox, pipe, inHand := none } := by
    unfold Feed.step?
    rw [if_neg (by rw [hopen]; decide), hidle, hpoll]
    simp only [Feed.accept, hitem]
  have hnext : t.next .step = { t with feed := { t.feed with inbox, pipe, inHand := none } } := by
    simp only [next, hstep]
    exact turn_of_reads hopen
  refine ⟨⟨hreads, by rw [hstep]; rfl⟩, ?_⟩
  simp only [hnext, hidle]

/-- **Items are delivered without loss, twice or out of order**, at every moment before the task finds
that it should stop. -/
theorem items_delivered {kind : FeedKind α} {token : Token} {port : UInt16} {capacity : Nat}
    {f : Feed α} {es : List Event} (hstart : Feed.start kind token port capacity = .ok f)
    (hes : (machine α).Possible { feed := f } es) (hkept : .dropped ∉ es)
    (hopen : .closed ∉ es ∨ .told ∉ es) :
    Delivers kind capacity es ((machine α).after { feed := f } es) ∧
      (∀ ms, stateFeed.brought ms = ms.filterMap State.emitted?) ∧
        ∀ ms, beatFeed.brought ms = ms.filterMap BeatSample.emitted? := by
  have htold : .told ∉ es := hopen.elim (fun hclosed => (closed_of_told rfl hes hclosed).1) id
  have hcarries := (carries_start hstart).after hes hkept htold
  have hsound := (sound_start hstart).after hes
  generalize (machine α).after { feed := f } es = t at hcarries hsound
  obtain ⟨given, hkeeps, hitems⟩ := hcarries.items
  have hgiven : given = (kind.catalog.messages (written es).inbound).take t.feed.inbox.received := by
    rw [hkeeps.accounts.given_eq, Catalog.messages, List.map_take]
  rw [hgiven] at hitems
  refine ⟨⟨hitems, hcarries.capacity_eq, ?_, ?_, ?_⟩, stateFeed_brought, beatFeed_brought⟩
  · rw [hcarries.capacity_eq]
    exact hcarries.room
  · intro m inbox pipe hreads hidle hpoll hitem
    have hopen : t.feed.fate.ended = false := by
      rw [hsound.ended_eq, hreads]
      rfl
    exact next_of_passed_over hopen hreads hidle hpoll (hcarries.kind_eq ▸ hitem)
  · intro hleft fs hfs hkept
    rw [hsound.idle hleft, Option.toList_none, List.append_nil] at hitems
    have hall : t.Left _ := ⟨hleft, hcarries.kept, hitems⟩
    exact (hall.after hfs hkept).drains

/-- A sample without decks, as it is sent. -/
def bareSample (clock : UInt8) : Octets :=
  [0, 0, 0, 16, 0, 0, 0, 2, 0, 0, 0, 0, 0, 0, 0, clock, 0, 0, 0, 0]

/-- Two samples with a request between them arrive on a queue with room for one, and nobody receives. -/
def pressed : List Event :=
  [.taken, .peer (.write (bareSample 1 ++ [0, 0, 0, 4, 0, 0, 0, 0])), .step, .step, .step,
    .peer (.write (bareSample 2)), .step]

/-- One sample is in the queue then, and the next waits in the task's hand for room. -/
theorem items_delivered_pressed : ∃ f, Feed.start beatFeed .zero 40002 0 = .ok f ∧
    (machine BeatSample).Possible { feed := f } pressed ∧
      ((machine BeatSample).after { feed := f } pressed).feed.queue = [⟨1, [], []⟩] ∧
      ((machine BeatSample).after { feed := f } pressed).feed.inHand = some ⟨2, [], []⟩ ∧
      Delivers beatFeed 0 pressed ((machine BeatSample).after { feed := f } pressed) := by
  obtain ⟨f, hf⟩ : ∃ f, Feed.start beatFeed .zero 40002 0 = .ok f := ⟨_, rfl⟩
  have hes : (machine BeatSample).Possible { feed := f } pressed := by
    cases hf
    exact ⟨trivial, trivial, ⟨rfl, rfl⟩, ⟨rfl, rfl⟩, ⟨rfl, rfl⟩, trivial, ⟨rfl, rfl⟩, trivial⟩
  refine ⟨f, hf, hes, ?_, ?_, (items_delivered hf hes (by decide) (.inl (by decide))).1⟩
  · cases hf
    rfl
  · cases hf
    rfl

end FeedTask

end BoothLink
