import BoothLink.Proofs.Link.FeedTask
import BoothLink.Proofs.Link.MainReading

/-!
# The error that ends the reading

Reading ends in one of few ways, and the first of them decides whether there is an error, and which. This
error is given once to whoever asks for it, and on a connection of data it is there to be asked for before
the queue shows its end. Nothing that the peer does afterwards makes a difference.

* `FeedTask.Ends`, `MainReading.Ends`: the events that end the reading, each with its error.
* `FeedTask.left?_iff`, `MainReading.left_iff`: the reading has ended at one of them.
* `FeedTask.quiet`, `MainReading.quiet`: what the peer does afterwards can be left out.
* **`error_reported_once`**: for every history of a connection.
-/

namespace BoothLink

/-! ## Connections of data -/

namespace FeedTask

variable {α : Type} {s t : FeedTask α} {e : Event} {es : List Event} {cause : Option LinkError}

/-- The task leaves its loop at an event, for an error or for none. -/
inductive Ends (t : FeedTask α) : Event → Option LinkError → Prop where
  /-- There is nothing more to read. -/
  | stops {cause : Option LinkError} : t.feed.inHand = none → t.feed.inbox.Stops t.feed.pipe cause →
      Ends t .step cause
  /-- A message has been read that should bring an item and does not. -/
  | invalid {m : Message} {err : WireError} {inbox : Inbox} {pipe : Pipe} : t.feed.inHand = none →
      t.feed.inbox.poll t.feed.pipe = (.message m, inbox, pipe) → t.feed.kind.item m = .error err →
      Ends t .step (some (.protocol err))
  /-- Nobody wants the item in hand any more. -/
  | unwanted {x : α} : t.feed.inHand = some x → t.feed.dropped = true → Ends t .step none
  /-- The system below refuses to read. -/
  | unreadable (kind : IoKind) : Ends t (.readFailed kind) (some (.io kind))
  /-- The connection has been closed. -/
  | told : Ends t .told none

/-- With nothing in hand, a turn of the loop ends it for what the read gives. -/
theorem ends_step_iff (hidle : t.feed.inHand = none) {found : Inbox.Poll} {inbox : Inbox}
    {pipe : Pipe} (hpoll : t.feed.inbox.poll t.feed.pipe = (found, inbox, pipe)) :
    t.Ends .step cause ↔ found.stop? = some cause ∨
      ∃ m err, found = .message m ∧ t.feed.kind.item m = .error err ∧
        cause = some (.protocol err) := by
  have hstops : found.stop? = some cause ↔ t.feed.inbox.Stops t.feed.pipe cause := by
    rw [← Inbox.poll_stop?_iff, hpoll]
  constructor
  · intro h
    cases h with
    | stops _ h => exact .inl (hstops.mpr h)
    | invalid _ hpoll' hitem =>
      rw [hpoll] at hpoll'
      cases hpoll'
      exact .inr ⟨_, _, rfl, hitem, rfl⟩
    | unwanted hx _ =>
      rw [hidle] at hx
      cases hx
  · rintro (hstop | ⟨m, err, rfl, hitem, rfl⟩)
    · exact .stops hidle (hstops.mp hstop)
    · exact .invalid hidle hpoll hitem

/-- With an item in hand, a turn of the loop ends it if nobody wants the item any more. -/
theorem ends_step_of_inHand {x : α} (hx : t.feed.inHand = some x) :
    t.Ends .step cause ↔ t.feed.dropped = true ∧ cause = none := by
  constructor
  · intro h
    cases h with
    | stops hidle _ | invalid hidle _ _ =>
      rw [hx] at hidle
      cases hidle
    | unwanted _ hdropped => exact ⟨hdropped, rfl⟩
  · rintro ⟨hdropped, rfl⟩
    exact .unwanted hx hdropped

theorem left?_leave {c : Option LinkError} :
    (t.leave c).stage.left? = some cause ↔ cause = c := by
  show some c = some cause ↔ _
  rw [Option.some.injEq, eq_comm]

/-- **A turn of the loop ends it in these ways and no others.** -/
theorem left?_turned (hreads : t.stage = .reads) {t' : FeedTask α} (ht : t.Turned t') :
    t'.stage.left? = some cause ↔ t.Ends .step cause := by
  cases ht with
  | put hx hkept _ =>
    rw [ends_step_of_inHand hx, hkept]
    exact iff_of_false (left?_of_reads hreads) nofun
  | unwanted hx hdropped =>
    rw [ends_step_of_inHand hx, left?_leave, hdropped, and_iff_right rfl]
  | brought hidle hpoll hitem =>
    rw [ends_step_iff hidle hpoll]
    refine iff_of_false (left?_of_reads hreads) ?_
    rintro (hstop | ⟨m, err, hm, hitem', -⟩)
    · cases hstop
    · cases hm
      rw [hitem] at hitem'
      cases hitem'
  | @refused m err _ _ hidle hpoll hitem =>
    rw [ends_step_iff hidle hpoll, left?_leave]
    constructor
    · rintro rfl
      exact .inr ⟨m, err, rfl, hitem, rfl⟩
    · rintro (hstop | ⟨m', err', hm, hitem', hcause⟩)
      · cases hstop
      · cases hm
        rw [hitem] at hitem'
        cases hitem'
        exact hcause
  | @stopped found c _ _ hidle hpoll hstop =>
    rw [ends_step_iff hidle hpoll, left?_leave, hstop, Option.some.injEq, eq_comm]
    refine ⟨.inl, fun h => h.elim id ?_⟩
    rintro ⟨m, err, rfl, -⟩
    cases hstop
  | absorbed hidle hpoll _ =>
    rw [ends_step_iff hidle hpoll]
    refine iff_of_false (left?_of_reads hreads) ?_
    rintro (hstop | ⟨m, err, hm, -⟩)
    · cases hstop
    · cases hm

/-- **An event at which the task leaves its loop is one that ends it.** -/
theorem left?_next_iff (hreads : t.stage = .reads) (he : t.Enabled e) :
    (t.next e).stage.left? = some cause ↔ t.Ends e cause := by
  have hnot : ∀ {e : Event}, ¬ t.Ends e cause → (t.next e).stage = t.stage →
      ((t.next e).stage.left? = some cause ↔ t.Ends e cause) := by
    intro e hends hsame
    rw [hsame]
    exact iff_of_false (left?_of_reads hreads) hends
  cases e with
  | step => exact left?_turned hreads (turned_step he)
  | readFailed kind =>
    refine left?_leave.trans ⟨?_, ?_⟩
    · rintro rfl
      exact .unreadable kind
    · intro h
      cases h
      rfl
  | told =>
    refine left?_leave.trans ⟨?_, ?_⟩
    · rintro rfl
      exact .told
    · intro h
      cases h
      rfl
  | posted =>
    obtain ⟨c, hstage⟩ := he
    rw [hreads] at hstage
    cases hstage
  | finished =>
    obtain ⟨c, hstage⟩ := he
    rw [hreads] at hstage
    cases hstage
  | received =>
    refine hnot (by intro h; cases h) ?_
    rw [next]
    split <;> rfl
  | peer | taken | dropped | errorTaken | errorAsked | closed | sent | collected =>
    exact hnot (by intro h; cases h) rfl

/-- **A loop that has been left was left at one event**, and for what this event ends it. -/
theorem left?_iff (hreads : s.stage = .reads) (hes : (machine α).Possible s es)
    (cause : Option LinkError) :
    ((machine α).after s es).stage.left? = some cause ↔ ∃ before e later, es = before ++ e :: later ∧
      ((machine α).after s before).stage.left? = none ∧
        ((machine α).after s before).Ends e cause :=
  hes.first_iff (fun t => t.stage.left?) (left?_eq_none.mpr hreads)
    (fun _ he hnone => left?_next_iff (left?_eq_none.mp hnone) he)
    (fun _ he hleft => left?_next hleft he)

/-! ### Afterwards -/

/-- The connection with another stream. -/
def withPipe (t : FeedTask α) (pipe : Pipe) : FeedTask α := { t with feed := { t.feed with pipe } }

theorem next_sent (t : FeedTask α) (m : Message) :
    t.next (.sent m) = t.withPipe (t.feed.send m).2.pipe := by
  rw [next, withPipe, Feed.send]
  split <;> rfl

/-- **Once the loop has been left nothing looks at the stream any more.** -/
theorem next_withPipe (hleft : t.stage ≠ .reads) (he : t.Enabled e) (pipe : Pipe) :
    (t.withPipe pipe).Enabled e ∧ ∃ q, (t.withPipe pipe).next e = (t.next e).withPipe q := by
  cases e with
  | step | readFailed | told => exact absurd he.1 hleft
  | posted | finished =>
    refine ⟨he, pipe, ?_⟩
    obtain ⟨cause, hstage⟩ := he
    obtain ⟨feed, stage, closing, received, errors⟩ := t
    cases hstage
    rfl
  | received =>
    refine ⟨he, pipe, ?_⟩
    obtain ⟨⟨kind, inbox, pipe', fate, capacity, queue, inHand, taken, dropped⟩, stage, closing,
      received, errors⟩ := t
    cases queue <;> rfl
  | sent m =>
    refine ⟨trivial, ((t.withPipe pipe).feed.send m).2.pipe, ?_⟩
    rw [next_sent, next_sent]
    rfl
  | peer act => exact ⟨trivial, pipe.peer act, rfl⟩
  | closed => exact ⟨trivial, pipe.shutDown, rfl⟩
  | collected => exact ⟨trivial, pipe.collect.2, rfl⟩
  | taken | dropped | errorTaken | errorAsked => exact ⟨trivial, pipe, rfl⟩

/-- **What the peer does after the loop has been left can be left out.** Nothing differs then but the
stream itself. -/
theorem quiet (hleft : t.stage ≠ .reads) {fs : List Event} (hfs : (machine α).Possible t fs) :
    (machine α).Possible t (fs.filter (·.act?.isNone)) ∧
      ∃ pipe, (machine α).after t (fs.filter (·.act?.isNone)) =
        ((machine α).after t fs).withPipe pipe := by
  -- The two runs stay the same but for the stream, which nobody reads any more.
  have h := hfs.filter (fun u v => v.stage ≠ .reads ∧ ∃ pipe, u = v.withPipe pipe)
    (·.act?.isNone) (s := t) ⟨hleft, t.feed.pipe, rfl⟩ ?_ ?_
  · exact ⟨h.1, h.2.2⟩
  · rintro u v e ⟨hover, pipe, rfl⟩ he hpeer
    refine ⟨over_next hover he, ?_⟩
    cases e with
    | peer act => exact ⟨pipe, rfl⟩
    | _ => cases hpeer
  · rintro u v e ⟨hover, pipe, rfl⟩ he -
    obtain ⟨he', hnext⟩ := next_withPipe hover he pipe
    exact ⟨he', over_next hover he, hnext⟩

end FeedTask

/-! ## Main connections -/

namespace MainReading

variable {s t : MainReading} {e : Event} {es : List Event} {cause : Option LinkError}

/-- The reading ends at an event, for an error or for none. -/
inductive Ends (t : MainReading) : Event → Option LinkError → Prop where
  /-- There is nothing more to read. -/
  | stops {cause : Option LinkError} : t.inbox.Stops t.pipe cause → Ends t .read cause
  /-- The system below refuses to read. -/
  | unreadable (kind : IoKind) : Ends t (.readFailed kind) (some (.io kind))
  /-- A reply cannot be written. -/
  | unanswered (err : LinkError) : Ends t (.turn (.replyFailed err)) (some err)
  /-- The connection has been closed. -/
  | told : Ends t .told none

theorem ends_read_iff : t.Ends .read cause ↔ (t.inbox.poll t.pipe).1.stop? = some cause := by
  rw [Inbox.poll_stop?_iff]
  constructor
  · intro h
    cases h with
    | stops h => exact h
  · exact .stops

theorem left_of_none (h : t.left = none) : ¬ t.left = some cause := by
  rw [h]
  exact nofun

theorem left_stop {c : Option LinkError} : (t.stop c).left = some cause ↔ cause = c := by
  show some c = some cause ↔ _
  rw [Option.some.injEq, eq_comm]

/-- **An event at which the reading ends is one that ends it.** -/
theorem left_next_iff (hnone : t.left = none) (he : t.Enabled e) :
    (t.next e).left = some cause ↔ t.Ends e cause := by
  cases e with
  | read =>
    rw [ends_read_iff, next]
    generalize t.inbox.poll t.pipe = found
    obtain ⟨found, inbox, pipe⟩ := found
    cases found with
    | message | pending => exact iff_of_false (left_of_none hnone) (by intro h; cases h)
    | finished | failed =>
      refine left_stop.trans ?_
      rw [Inbox.Poll.stop?, Option.some.injEq, eq_comm]
  | readFailed kind =>
    refine left_stop.trans ⟨?_, ?_⟩
    · rintro rfl
      exact .unreadable kind
    · intro h
      cases h
      rfl
  | told =>
    refine left_stop.trans ⟨?_, ?_⟩
    · rintro rfl
      exact .told
    · intro h
      cases h
      rfl
  | turn e =>
    cases e with
    | replyFailed err =>
      constructor
      · intro h
        cases h
        exact .unanswered err
      · intro h
        cases h
        rfl
    | _ => exact iff_of_false (left_of_none hnone) (by intro h; cases h)
  | peer | errorTaken | errorAsked =>
    exact iff_of_false (left_of_none hnone) (by intro h; cases h)

/-! ### Afterwards -/

/-- **Once the reading has ended no task looks at the stream any more.** -/
theorem next_of_ended (hended : t.tasks.state.ended = true) (he : t.Enabled e) (pipe : Pipe) :
    Enabled { t with pipe } e ∧ (t.next e).tasks.state.ended = true ∧
      (t.next e).left = t.left ∧ ∃ q, next { t with pipe } e = { t.next e with pipe := q } := by
  have hopen : ¬ t.tasks.state.ended = false := by
    rw [hended]
    decide
  cases e with
  | read | readFailed | told => exact absurd he.1 hopen
  | turn e =>
    have hstill : ∀ e : MainTasks.Event, (t.tasks.next e).state.ended = true := by
      intro e
      rw [MainTasks.ended_next, hended]
      rfl
    cases e with
    | replyFailed err => exact absurd he.1.1 hopen
    | heard | stopped => cases he.2
    | _ => exact ⟨he, hstill _, rfl, pipe, rfl⟩
  | peer act => exact ⟨trivial, hended, rfl, pipe.peer act, rfl⟩
  | errorTaken | errorAsked => exact ⟨trivial, hended, rfl, pipe, rfl⟩

/-- **What the peer does after the reading has ended can be left out.** Nothing differs then but the
stream itself: not the peer's count, nor how far the last request is. -/
theorem quiet (hended : t.tasks.state.ended = true) {fs : List Event} (hfs : machine.Possible t fs) :
    machine.Possible t (fs.filter (·.act?.isNone)) ∧
      ∃ pipe, machine.after t (fs.filter (·.act?.isNone)) = { machine.after t fs with pipe } := by
  have h := hfs.filter (fun u v => v.tasks.state.ended = true ∧ ∃ pipe, u = { v with pipe })
    (·.act?.isNone) (s := t) ⟨hended, t.pipe, rfl⟩ ?_ ?_
  · exact ⟨h.1, h.2.2⟩
  · rintro u v e ⟨hover, pipe, rfl⟩ he hpeer
    cases e with
    | peer act => exact ⟨hover, pipe, rfl⟩
    | _ => cases hpeer
  · rintro u v e ⟨hover, pipe, rfl⟩ he -
    obtain ⟨he', hstill, -, hnext⟩ := next_of_ended hover he pipe
    exact ⟨he', hstill, hnext⟩

/-- **A reading that has ended has ended at one event**, and for what this event ends it. -/
theorem left_iff (hs : s.Sound) (hnone : s.left = none) (hes : machine.Possible s es)
    (cause : Option LinkError) :
    (machine.after s es).left = some cause ↔ ∃ before e later, es = before ++ e :: later ∧
      (machine.after s before).left = none ∧ (machine.after s before).Ends e cause := by
  refine hes.first_iff left hnone (fun _ he hnone => left_next_iff hnone he) ?_
  intro es e c hes he hleft
  have hended : (machine.after s es).tasks.state.ended = true := by
    rw [(hs.after hes).state_eq, hleft]
    rfl
  exact (next_of_ended hended he (machine.after s es).pipe).2.2.1.trans hleft

end MainReading

/-! ## Every history -/

/-- What is known of the error of a connection of data after some events: when there is one and which,
that it is given once and in time, and that nothing comes after the end. -/
structure FeedTask.Reports {α : Type} (s : FeedTask α) (es : List FeedTask.Event) (t : FeedTask α) :
    Prop where
  /-- The loop has been left exactly if one of the events has ended it, for what this event ends it. -/
  left_iff : ∀ cause, t.stage.left? = some cause ↔ ∃ before e later, es = before ++ e :: later ∧
    ((machine α).after s before).stage.left? = none ∧ ((machine α).after s before).Ends e cause
  once : t.errors.length ≤ 1
  /-- Nothing is reported before the task has posted, and then the error with which it left the loop. -/
  reported_eq : t.reported = t.stage.posted?.join.toList
  /-- A task that has left its loop has posted, or it can. -/
  posts : ∀ cause, t.stage.left? = some cause →
    t.stage.posted? = some cause ∨ t.Enabled .posted ∧ (t.next .posted).stage.posted? = some cause
  /-- When the queue shows its end, the error is there. -/
  in_time : t.glimpse = .closed → ∃ cause, t.stage.left? = some cause ∧ t.reported = cause.toList
  quiet : t.stage.left? ≠ none → ∀ fs, (machine α).Possible t fs →
    (machine α).Possible t (fs.filter (·.act?.isNone)) ∧
      ∃ pipe, (machine α).after t (fs.filter (·.act?.isNone)) =
        ((machine α).after t fs).withPipe pipe

/-- What is known of the error of a main connection after some events. -/
structure MainReading.Reports (s : MainReading) (es : List MainReading.Event) (t : MainReading) :
    Prop where
  /-- The reading has ended exactly if one of the events has ended it, for what this event ends it. -/
  left_iff : ∀ cause, t.left = some cause ↔ ∃ before e later, es = before ++ e :: later ∧
    (machine.after s before).left = none ∧ (machine.after s before).Ends e cause
  once : t.errors.length ≤ 1
  reported_eq : t.reported = t.left.join.toList
  quiet : t.left ≠ none → ∀ fs, machine.Possible t fs →
    machine.Possible t (fs.filter (·.act?.isNone)) ∧
      ∃ pipe, machine.after t (fs.filter (·.act?.isNone)) = { machine.after t fs with pipe }

theorem length_le_one {given : List LinkError} {cause : Option LinkError} {more : List LinkError}
    (h : given ++ more = cause.toList) : given.length ≤ 1 := by
  have hlen := congrArg List.length h
  rw [List.length_append] at hlen
  have := cause.length_toList_le
  omega

theorem FeedTask.Sound.reports {α : Type} {s : FeedTask α} (h : s.Sound) (hreads : s.stage = .reads)
    {es : List FeedTask.Event} (hes : (machine α).Possible s es) :
    s.Reports es ((machine α).after s es) := by
  have hsound := h.after hes
  have hleft := left?_iff hreads hes
  generalize (machine α).after s es = t at hsound hleft
  have hreported : t.reported = t.stage.posted?.join.toList := (reported_eq t).trans hsound.given_eq
  refine ⟨hleft, length_le_one hsound.given_eq, hreported, ?_, ?_, ?_⟩
  · intro cause hcause
    cases hstage : t.stage with
    | reads => exact absurd hcause (left?_of_reads hstage)
    | leaves c =>
      rw [hstage] at hcause
      refine .inr ⟨⟨c, hstage⟩, ?_⟩
      rw [FeedTask.next, hstage]
      exact hcause
    | posted c | gone c =>
      rw [hstage] at hcause
      exact .inl hcause
  · intro hend
    obtain ⟨-, cause, hstage⟩ := closed_of_glimpse hend
    rw [hreported, hstage]
    exact ⟨cause, rfl, rfl⟩
  · intro hover fs hfs
    exact FeedTask.quiet (fun hreads => hover (left?_eq_none.mpr hreads)) hfs

theorem MainReading.Sound.reports {s : MainReading} (h : s.Sound) (hnone : s.left = none)
    {es : List MainReading.Event} (hes : machine.Possible s es) :
    s.Reports es (machine.after s es) := by
  have hsound := h.after hes
  have hleft := MainReading.left_iff h hnone hes
  generalize machine.after s es = t at hsound hleft
  refine ⟨hleft, length_le_one hsound.given_eq, (reported_eq t).trans hsound.given_eq, ?_⟩
  intro hover fs hfs
  have hended : t.tasks.state.ended = true := by
    rw [hsound.state_eq]
    exact Option.isSome_iff_ne_none.mpr hover
  exact MainReading.quiet hended hfs

/-- **The error with which the reading of a connection ends is reported once**: if there is one, the
receiver gives this one and no other, and on a connection of data before the queue shows its end. What
the peer does afterwards changes nothing. -/
theorem error_reported_once {α : Type} {kind : FeedKind α} {token : Token} {port : UInt16}
    {capacity : Nat} {f : Feed α} (hstart : Feed.start kind token port capacity = .ok f)
    {es : List FeedTask.Event} (hes : (FeedTask.machine α).Possible { feed := f } es)
    {own target : Token} {offered : List Service} {beating : Bool} {fs : List MainReading.Event}
    (hfs : MainReading.machine.Possible (.start own target offered beating) fs) :
    FeedTask.Reports { feed := f } es ((FeedTask.machine α).after { feed := f } es) ∧
      MainReading.Reports (.start own target offered beating) fs
        (MainReading.machine.after (.start own target offered beating) fs) :=
  ⟨(FeedTask.sound_start hstart).reports rfl hes,
    (MainReading.sound_start own target offered beating).reports rfl hfs⟩

/-- The peer of a state connection ends its writing inside a message, and the error is asked for. -/
def cutShort : List FeedTask.Event :=
  [.taken, .errorTaken, .peer (.write [0, 0, 0, 12]), .step, .peer .hangUp, .step, .posted, .finished,
    .errorAsked, .errorAsked]

/-- The peer of a main connection sends what is no message, and a reference behind it. -/
def outOfKind : List MainReading.Event :=
  [.errorTaken, .peer (.write [0, 0, 0, 9]), .read, .errorAsked, .peer (.write [0, 0, 0, 1])]

theorem error_reported_once_cut : ∃ f, Feed.start stateFeed .zero 40001 0 = .ok f ∧
    (FeedTask.machine State).Possible { feed := f } cutShort ∧
      MainReading.machine.Possible (.start .zero .zero [] true) outOfKind ∧
      ((FeedTask.machine State).after { feed := f } cutShort).errors = [.closed] ∧
      (MainReading.machine.after (.start .zero .zero [] true) outOfKind).errors =
        [.protocol (.unknownMessage [0, 0, 0, 9])] ∧
      FeedTask.Reports { feed := f } cutShort ((FeedTask.machine State).after { feed := f } cutShort) ∧
      MainReading.Reports (.start .zero .zero [] true) outOfKind
        (MainReading.machine.after (.start .zero .zero [] true) outOfKind) := by
  obtain ⟨f, hf⟩ : ∃ f, Feed.start stateFeed .zero 40001 0 = .ok f := ⟨_, rfl⟩
  have hes : (FeedTask.machine State).Possible { feed := f } cutShort := by
    cases hf
    exact ⟨trivial, trivial, trivial, ⟨rfl, rfl⟩, trivial, ⟨rfl, rfl⟩, ⟨_, rfl⟩, ⟨_, rfl⟩, trivial,
      trivial, trivial⟩
  have hfs : MainReading.machine.Possible (.start .zero .zero [] true) outOfKind :=
    ⟨trivial, trivial, ⟨rfl, rfl⟩, trivial, trivial, trivial⟩
  refine ⟨f, hf, hes, hfs, ?_, rfl, error_reported_once hf hes hfs⟩
  cases hf
  rfl

end BoothLink
