import BoothLink.Proofs.Link.Arrived
import BoothLink.Proofs.Link.FeedTask

/-!
# A connection of data and its task

A connection of data that reads whatever it can as soon as it can goes through some of the histories of
its task. After anything that may happen on it, the task can have taken turns, while the peer did the
same, so that it has come to the same connection, the same items and errors have been given, and it waits
or is gone. What holds of every history of the task so holds of every connection.

* `Feed.Move`, `Feed.Log`: what may happen on a connection, and what has been given in its course.
* `Feed.Log.Shows`, `Feed.Log.Reached`: the task can come to what a connection shows.
* `Feed.Log.Shows.settle`: reading whatever can be read.
* **`Feed.Log.shows_moves`**: every history of a connection is one of its task.
* `Feed.Log.errors_moves`: a connection gives one error at most.
-/

namespace BoothLink

namespace Feed

variable {α : Type} {f g : Feed α}

/-- What may happen on a connection. -/
inductive Move where
  /-- The peer does something with its end of the stream. -/
  | peer (act : Pipe.Act)
  | take
  | receive
  | dropReceiver
  | takeError
  | pollError
  | close
  | send (m : Message)
  | collect

/-- What the peer does in a move. -/
def Move.act? : Move → Option Pipe.Act
  | peer act => some act
  | _ => none

/-- The item that the receiving end gave. -/
def Received.item? : Received α → Option α
  | item x => some x
  | _ => none

/-- A connection with the items and the errors that have been received on it. -/
structure Log (α : Type) where
  feed : Feed α
  items : List α := []
  errors : List LinkError := []

/-! ## One step of the reading -/

/-- What a step of a connection leaves alone, and the end that it may bring to the reading. -/
structure Steps (f g : Feed α) : Prop where
  open_before : f.fate.ended = false
  taken_eq : g.taken = f.taken
  dropped_eq : g.dropped = f.dropped
  fate_eq : g.fate.ended = true → g.fate = f.fate.finish g.fate.cause

theorem steps_of_same (hopen : f.fate.ended = false) (htaken : g.taken = f.taken)
    (hdropped : g.dropped = f.dropped) (hfate : g.fate = f.fate) : Steps f g := by
  refine ⟨hopen, htaken, hdropped, ?_⟩
  intro hend
  rw [hfate, hopen] at hend
  cases hend

theorem steps_of_finish (hopen : f.fate.ended = false) (htaken : g.taken = f.taken)
    (hdropped : g.dropped = f.dropped) (hfate : g.fate = f.fate) (cause : Option LinkError) :
    Steps f (g.finish cause) := by
  have hend : (g.finish cause).fate = f.fate.finish cause := congrArg (Fate.finish · cause) hfate
  have hcause : (g.finish cause).fate.cause = cause := by
    rw [hend, Fate.finish_of_open hopen]
  exact ⟨hopen, htaken, hdropped, fun _ => hend.trans (by rw [hcause])⟩

theorem steps_of_step? (h : f.step? = some g) : Steps f g := by
  obtain ⟨hopen, hstep⟩ := stepped_of_step? h
  cases hstep with
  | put | brought | absorbed => exact steps_of_same hopen rfl rfl rfl
  | unwanted | refused | finished | failed => exact steps_of_finish hopen (by rfl) (by rfl) (by rfl) _

namespace Log

/-! ## What is shown -/

/-- What comes of a move. -/
def move (l : Log α) : Move → Log α
  | .peer act => { l with feed := l.feed.peer act }
  | .take => { l with feed := l.feed.take.2 }
  | .receive => { l with feed := l.feed.receive.2, items := l.items ++ l.feed.receive.1.item?.toList }
  | .dropReceiver => { l with feed := l.feed.dropReceiver }
  | .takeError => { l with feed := l.feed.takeError.2 }
  | .pollError =>
    { l with feed := l.feed.pollError.2, errors := l.errors ++ l.feed.pollError.1.error?.toList }
  | .close => { l with feed := l.feed.close }
  | .send m => { l with feed := (l.feed.send m).2 }
  | .collect => { l with feed := l.feed.collect.2 }

/-- What a connection shows of its task while it waits or is gone. -/
structure Shows (l : Log α) (t : FeedTask α) : Prop where
  feed_eq : t.feed = l.feed
  items_eq : t.received = l.items
  errors_eq : t.errors = l.errors
  taken : l.feed.dropped = true → l.feed.taken = true
  reads : l.feed.fate.ended = false → t.stage = .reads
  gone : l.feed.fate.ended = true → ∃ cause, t.stage = .gone cause

/-- The task may go on, while the peer does this, so that a connection shows it. -/
def Reached (t : FeedTask α) (acts : List Pipe.Act) (l : Log α) : Prop :=
  ∃ es, (FeedTask.machine α).Possible t es ∧ es.filterMap FeedTask.Event.act? = acts ∧
    l.Shows ((FeedTask.machine α).after t es)

variable {l : Log α} {t : FeedTask α} {items : List α} {errors : List LinkError}

theorem Shows.reached (h : l.Shows t) : Reached t [] l := ⟨[], trivial, rfl, h⟩

theorem Reached.step {e : FeedTask.Event} {acts : List Pipe.Act} (he : t.Enabled e)
    (h : Reached (t.next e) acts l) : Reached t (e.act?.toList ++ acts) l := by
  obtain ⟨es, hes, hacts, hshows⟩ := h
  refine ⟨e :: es, ⟨he, hes⟩, ?_, hshows⟩
  rw [← hacts]
  cases e <;> rfl

/-! ## Reading -/

/-- A task that has left its loop posts its error and gives up the queue. -/
theorem reached_of_leaves {cause : Option LinkError} (hstage : t.stage = .leaves cause)
    (hfeed : { t.feed with fate := t.feed.fate.finish cause } = f) (hitems : t.received = items)
    (herrors : t.errors = errors) (htaken : f.dropped = true → f.taken = true) :
    Reached t [] ⟨f, items, errors⟩ := by
  have hposted : t.next .posted =
      { t with
        feed := { t.feed with fate := t.feed.fate.finish cause }
        stage := .posted cause } := by
    rw [FeedTask.next, hstage]
  have hgone : (t.next .posted).next .finished =
      { t with
        feed := { t.feed with fate := t.feed.fate.finish cause }
        stage := .gone cause } := by
    rw [hposted]
    rfl
  have hended : f.fate.ended = true := by
    rw [← hfeed]
    exact ended_finish _ _
  refine .step (e := .posted) ⟨cause, hstage⟩ (.step (e := .finished) ⟨cause, ?_⟩ (Shows.reached ?_))
  · rw [hposted]
  · rw [hgone]
    refine ⟨hfeed, hitems, herrors, htaken, ?_, fun _ => ⟨cause, rfl⟩⟩
    intro hopen
    rw [hended] at hopen
    cases hopen

/-- **Whatever can be read is read in turns of the task.** -/
theorem Shows.settle (h : Shows ⟨f, items, errors⟩ t) : Reached t [] ⟨f.settle, items, errors⟩ := by
  -- Along the steps of the reading: before each of them the task is in its loop, and takes the same one.
  induction f using Feed.settle.induct generalizing t with
  | case1 f g hg ih =>
    have hsteps := steps_of_step? hg
    have hfeed : t.feed = f := h.feed_eq
    have hreads : t.stage = .reads := h.reads hsteps.open_before
    have htaken : g.dropped = true → g.taken = true := by
      rw [hsteps.taken_eq, hsteps.dropped_eq]
      exact h.taken
    have hnext : t.next .step = t.turn g := by
      rw [FeedTask.next, hfeed, hg]
    rw [settle_of_step? hg]
    refine .step (e := .step) ⟨hreads, by rw [hfeed, hg]; rfl⟩ ?_
    rw [hnext]
    cases hend : g.fate.ended with
    | false =>
      rw [FeedTask.turn_of_reads hend]
      refine ih ⟨rfl, h.items_eq, h.errors_eq, htaken, fun _ => hreads, fun hended => ?_⟩
      rw [hend] at hended
      cases hended
    | true =>
      -- The connection ends its reading at once; the task has yet to post and to give up the queue.
      have hover : g.step? = none := by
        unfold step?
        exact if_pos hend
      have hsame : { g with fate := t.feed.fate.finish g.fate.cause } = g := by
        rw [hfeed, ← hsteps.fate_eq hend]
      rw [settle_of_rest hover, FeedTask.turn, if_pos hend]
      exact reached_of_leaves rfl hsame h.items_eq h.errors_eq htaken
  | case2 f hrest =>
    rw [settle_of_rest hrest]
    exact h.reached

/-! ## Histories -/

/-- A turn of a holder or of the peer that is followed by reading. -/
theorem Shows.read_on (h : Shows ⟨f, items, errors⟩ t) {e : FeedTask.Event} (he : t.Enabled e)
    {items' : List α} (hfeed : (t.next e).feed = g) (hfate : g.fate = f.fate)
    (hstage : (t.next e).stage = t.stage) (hitems : (t.next e).received = items')
    (herrors : (t.next e).errors = t.errors) (htaken : g.dropped = true → g.taken = true) :
    Reached t (e.act?.toList ++ []) ⟨g.settle, items', errors⟩ := by
  refine .step he (Shows.settle ⟨hfeed, hitems, herrors.trans h.errors_eq, htaken, ?_, ?_⟩)
  · intro hopen
    exact hstage.trans (h.reads (hfate ▸ hopen))
  · intro hended
    rw [hstage]
    exact h.gone (hfate ▸ hended)

theorem Shows.close (h : Shows ⟨f, items, errors⟩ t) : Reached t [] ⟨f.close, items, errors⟩ := by
  have hfeed : t.feed = f := h.feed_eq
  refine .step (e := .closed) trivial ?_
  rw [Feed.close]
  split
  · next hended =>
    have hopen : ¬ f.fate.ended = false := by
      rw [hended]
      decide
    exact Shows.reached ⟨by rw [← hfeed]; rfl, h.items_eq, h.errors_eq, h.taken,
      fun hnot => absurd hnot hopen, h.gone⟩
  · next hnot =>
    have hreads : t.stage = .reads := h.reads (by simpa using hnot)
    refine .step (e := .told) ⟨hreads, rfl⟩ (reached_of_leaves rfl ?_ h.items_eq h.errors_eq h.taken)
    rw [← hfeed]
    rfl

theorem Shows.receive (h : Shows ⟨f, items, errors⟩ t) :
    Reached t [] (Log.move ⟨f, items, errors⟩ .receive) := by
  have hfeed : t.feed = f := h.feed_eq
  rw [Log.move, Feed.receive]
  split
  · show Reached t [] ⟨f, items ++ [], errors⟩
    rw [List.append_nil]
    exact h.reached
  · next hheld =>
    have hheld : f.taken = true ∧ f.dropped = false := by simpa using hheld
    cases hqueue : f.queue with
    | nil =>
      have hnone : (if f.fate.ended then (.closed : Received α) else .empty).item? = none := by
        split <;> rfl
      show Reached t []
        ⟨f, items ++ (if f.fate.ended then (.closed : Received α) else .empty).item?.toList, errors⟩
      rw [hnone, Option.toList_none, List.append_nil]
      exact h.reached
    | cons x queue =>
      have hnext : t.next .received =
          { t with feed := { t.feed with queue }, received := t.received ++ [x] } := by
        rw [FeedTask.next, hfeed, hqueue]
      refine h.read_on (e := .received) ?_ ?_ rfl ?_ ?_ ?_ h.taken
      · rw [FeedTask.Enabled, hfeed, hqueue]
        exact ⟨hheld.1, hheld.2, List.cons_ne_nil _ _⟩
      · rw [hnext, hfeed]
      · rw [hnext]
      · rw [hnext, h.items_eq]
        rfl
      · rw [hnext]

theorem Shows.dropReceiver (h : Shows ⟨f, items, errors⟩ t) :
    Reached t [] ⟨f.dropReceiver, items, errors⟩ := by
  have hfeed : t.feed = f := h.feed_eq
  by_cases htaken : f.taken = true
  · have hdropped : { f with dropped := f.taken } = { f with dropped := true } := by rw [htaken]
    rw [Feed.dropReceiver, hdropped]
    exact h.read_on (e := .dropped) trivial (by rw [← hfeed]; rfl) rfl rfl h.items_eq rfl
      fun _ => htaken
  · have hkept : f.taken = f.dropped := by
      cases hdropped : f.dropped with
      | false => exact Bool.eq_false_of_not_eq_true htaken
      | true => exact absurd (h.taken hdropped) htaken
    have hsame : { f with dropped := f.taken } = f := congrArg (fun d => { f with dropped := d }) hkept
    rw [Feed.dropReceiver, hsame]
    exact h.settle

/-- **Whatever happens on a connection, the task can have come to what it shows.** -/
theorem Shows.move (h : l.Shows t) (m : Move) : Reached t m.act?.toList (l.move m) := by
  obtain ⟨f, items, errors⟩ := l
  have hfeed : t.feed = f := h.feed_eq
  cases m with
  | peer act =>
    have hpeer : f.peer act = { f with pipe := f.pipe.peer act }.settle := by cases act <;> rfl
    rw [Log.move, hpeer]
    exact h.read_on (e := .peer act) trivial (by rw [← hfeed]; rfl) rfl rfl h.items_eq rfl h.taken
  | receive => exact h.receive
  | dropReceiver => exact h.dropReceiver
  | close => exact h.close
  | take =>
    exact Reached.step (e := .taken) trivial (Shows.reached
      ⟨by rw [← hfeed]; rfl, h.items_eq, h.errors_eq, fun _ => rfl, h.reads, h.gone⟩)
  | takeError =>
    exact .step (e := .errorTaken) trivial (Shows.reached
      ⟨by rw [← hfeed]; rfl, h.items_eq, h.errors_eq, h.taken, h.reads, h.gone⟩)
  | pollError =>
    have hended := f.fate.ended_poll
    refine .step (e := .errorAsked) trivial (Shows.reached
      ⟨by rw [← hfeed]; rfl, h.items_eq, ?_, h.taken, ?_, ?_⟩)
    · have herrors : t.errors = errors := h.errors_eq
      rw [← hfeed, ← herrors]
      rfl
    · exact fun hopen => h.reads (hended.symm.trans hopen)
    · exact fun hend => h.gone (hended.symm.trans hend)
  | send m =>
    have hkept : (f.send m).2.taken = f.taken ∧ (f.send m).2.dropped = f.dropped ∧
        (f.send m).2.fate = f.fate := by
      rw [Feed.send]
      split <;> exact ⟨rfl, rfl, rfl⟩
    refine .step (e := .sent m) trivial (Shows.reached
      ⟨by rw [← hfeed]; rfl, h.items_eq, h.errors_eq, ?_, ?_, ?_⟩)
    · show (f.send m).2.dropped = true → (f.send m).2.taken = true
      rw [hkept.1, hkept.2.1]
      exact h.taken
    · exact fun hopen => h.reads ((congrArg Fate.ended hkept.2.2).symm.trans hopen)
    · exact fun hend => h.gone ((congrArg Fate.ended hkept.2.2).symm.trans hend)
  | collect =>
    exact .step (e := .collected) trivial (Shows.reached
      ⟨by rw [← hfeed]; rfl, h.items_eq, h.errors_eq, h.taken, h.reads, h.gone⟩)

theorem shows_start {kind : FeedKind α} {token : Token} {port : UInt16} {capacity : Nat}
    (hstart : Feed.start kind token port capacity = .ok f) :
    (⟨f, [], []⟩ : Log α).Shows { feed := f } := by
  obtain ⟨pipe, -, rfl⟩ := FeedTask.start_inv hstart
  exact ⟨rfl, rfl, rfl, nofun, fun _ => rfl, nofun⟩

/-- **What a connection shows after any history its task can have come to**, with the peer doing the
same. -/
theorem shows_moves {kind : FeedKind α} {token : Token} {port : UInt16} {capacity : Nat}
    (hstart : Feed.start kind token port capacity = .ok f) (moves : List Move) :
    Reached { feed := f } (moves.filterMap Move.act?) (moves.foldl move ⟨f, [], []⟩) := by
  induction moves using List.reverseRecOn with
  | nil => exact (shows_start hstart).reached
  | append_singleton moves m ih =>
    obtain ⟨es, hes, hacts, hshows⟩ := ih
    obtain ⟨fs, hfs, hact, hshows'⟩ := hshows.move m
    refine ⟨es ++ fs, Machine.possible_append.mpr ⟨hes, hfs⟩, ?_, ?_⟩
    · rw [List.filterMap_append, List.filterMap_append, hacts, hact]
      cases m <;> rfl
    · rw [List.foldl_append, Machine.after_append]
      exact hshows'

/-- **A connection gives one error at most**, counting the one that is still to be given. -/
theorem errors_moves {kind : FeedKind α} {token : Token} {port : UInt16} {capacity : Nat}
    (hstart : Feed.start kind token port capacity = .ok f) (moves : List Move) :
    ((moves.foldl move ⟨f, [], []⟩).errors ++
      (moves.foldl move ⟨f, [], []⟩).feed.fate.cause.toList).length ≤ 1 := by
  obtain ⟨es, hes, -, hshows⟩ := shows_moves hstart moves
  have hgiven := ((FeedTask.sound_start hstart).after hes).given_eq
  rw [hshows.errors_eq, hshows.feed_eq] at hgiven
  rw [hgiven]
  exact Option.length_toList_le

end Log

end Feed

end BoothLink
