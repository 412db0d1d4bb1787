import BoothLink.Link.Inbox
import BoothLink.Proofs.Catalog.Growing

/-!
# Streams that arrive in pieces

A stream reaches an inbox in pieces of any size, and messages are asked for at any time in between. What
the reads give depends on the stream alone: its messages in order, then how it stops. Only the octets
that an unknown message shows are those that had arrived when it was met.

* `Inbox.Act`, `Inbox.run`: pieces that arrive and reads, in any order.
* `Inbox.written`: the stream as the peer has written it.
* `Inbox.drain`, `Inbox.reading`: reads until one gives no message, and what all reads come to.
* `Inbox.Keeps`, `Inbox.Accounts`: between any two acts, the messages given stand at the front of the
  stream, and behind them is what is at hand and on the way.
* **`Inbox.reading_eq`**: what all reads come to, from the stream alone.
* **`Inbox.reading_independent_of_pieces`**: two ways to bring a stream give the same.
-/

namespace BoothLink

namespace Inbox

/-- The message that a read gave. -/
def Poll.message? : Poll → Option Message
  | message m => some m
  | _ => none

/-- What a read gave, without the octets that an unknown message shows. -/
def Poll.bare : Poll → Poll
  | failed (.protocol e) => failed (.protocol e.bare)
  | found => found

/-- What the last read gives when the messages of a stream stop, with octets left behind them. -/
def Poll.ofStop (ended : Bool) (left : Octets) : Catalog.Stop → Poll
  | .failed e => failed (.protocol e)
  | .needMore =>
    if !ended then pending
    else if left.isEmpty then finished
    else failed .closed

/-- What happens around an inbox. -/
inductive Act where
  /-- The peer does something with the stream, such as writing a piece of it. -/
  | peer (a : Pipe.Act)
  /-- A message is asked for. -/
  | read

/-- What the reads among some acts give, and the inbox and the stream afterwards. -/
def run : List Act → Inbox → Pipe → List Poll × Inbox × Pipe
  | [], r, p => ([], r, p)
  | .peer a :: acts, r, p => run acts r (p.peer a)
  | .read :: acts, r, p =>
    let (found, r, p) := r.poll p
    let (more, r, p) := run acts r p
    (found :: more, r, p)

/-- A stream on which the peer acts and from which nobody reads. -/
def writtenOnto : List Act → Pipe → Pipe
  | [], w => w
  | .peer a :: acts, w => writtenOnto acts (w.peer a)
  | .read :: acts, w => writtenOnto acts w

/-- All that the peer has written. -/
def written (acts : List Act) : Pipe := writtenOnto acts {}

/-- Reads until a read gives no message. -/
def drain (r : Inbox) (p : Pipe) : List Message × Poll × Inbox × Pipe :=
  match _h : r.poll p with
  | (.message m, r', p') =>
    let (ms, rest) := drain r' p'
    (m :: ms, rest)
  | (found, r', p') => ([], found, r', p')
termination_by r.outstanding p
decreasing_by exact poll_message_outstanding _h

/-- What reading a stream comes to. -/
structure Reading where
  messages : List Message
  /-- The inbox's own count of them. -/
  received : Nat
  /-- What the read after the last message gave. -/
  outcome : Poll

/-- What the reads among some acts come to, with those that follow until one gives no message. -/
def reading (catalog : Catalog) (acts : List Act) : Reading :=
  let (polls, r, p) := run acts { catalog } {}
  let (more, outcome, r, _) := r.drain p
  ⟨polls.filterMap Poll.message? ++ more, r.received, outcome⟩

/-! ## One read -/

/-- The octets at hand, with those on the way behind them. -/
def front (r : Inbox) (p : Pipe) : Octets := r.buffered ++ p.inbound

theorem attempt_message {q q' : Inbox} {m : Message} (h : q.attempt = .message m q') :
    ∃ n, q.catalog.decode q.buffered = .ok (some (m, n)) ∧
      q' = { q with buffered := q.buffered.drop n, received := q.received + 1 } := by
  unfold attempt at h
  split at h
  · cases h
  · cases h
  · next n hd =>
    cases h
    exact ⟨n, hd, rfl⟩

theorem attempt_needMore {q : Inbox} (h : q.attempt = .needMore) :
    q.catalog.decode q.buffered = .ok none := by
  unfold attempt at h
  split at h
  · cases h
  · next hd => exact hd
  · cases h

theorem attempt_failed {q : Inbox} {e : WireError} (h : q.attempt = .failed e) :
    q.catalog.decode q.buffered = .error e := by
  unfold attempt at h
  split at h
  · next hd =>
    cases h
    exact hd
  · cases h
  · cases h

/-- What one read does to an inbox and a stream: the message in front is taken off, or nothing is and
the read says why. -/
inductive Taken (r : Inbox) (p : Pipe) : Poll → Inbox → Pipe → Prop where
  | message {m : Message} {n : Nat} {r' : Inbox} {p' : Pipe} :
      r.catalog.decode (r.front p) = .ok (some (m, n)) → r'.front p' = (r.front p).drop n →
        r'.received = r.received + 1 → Taken r p (.message m) r' p'
  | stopped {found : Poll} {stop : Catalog.Stop} {r' : Inbox} {p' : Pipe} :
      found.message? = none → r.catalog.decodeAll (r.front p) = ([], stop, r.front p) →
        found.bare = (Poll.ofStop p.ended (r.front p) stop).bare → r'.front p' = r.front p →
          r'.received = r.received → Taken r p found r' p'

theorem attempt_catalog {q q' : Inbox} {m : Message} (h : q.attempt = .message m q') :
    q'.catalog = q.catalog := by
  obtain ⟨n, -, rfl⟩ := attempt_message h
  rfl

theorem settle_catalog (q : Inbox) (ended : Bool) : (q.settle ended).2.catalog = q.catalog := by
  unfold settle
  split
  · next h => exact attempt_catalog h
  · rfl
  · rfl

theorem poll_keeps (r : Inbox) (p : Pipe) :
    (r.poll p).2.1.catalog = r.catalog ∧ (r.poll p).2.2.ended = p.ended := by
  unfold poll
  split
  · next h => exact ⟨attempt_catalog h, rfl⟩
  · exact ⟨rfl, rfl⟩
  · exact ⟨settle_catalog _ _, rfl⟩

theorem ofStop_message? (ended : Bool) (left : Octets) (stop : Catalog.Stop) :
    (Poll.ofStop ended left stop).message? = none := by
  unfold Poll.ofStop
  split
  · rfl
  · split
    · rfl
    · split <;> rfl

/-- **What one read does.** -/
theorem poll_taken (r : Inbox) (p : Pipe) :
    Taken r p (r.poll p).1 (r.poll p).2.1 (r.poll p).2.2 := by
  unfold poll
  split
  · next m rest h =>
    obtain ⟨n, hd, rfl⟩ := attempt_message h
    have hn := (Catalog.decode_consumes hd).2
    refine .message (Catalog.decode_append_ok hd p.inbound) ?_ rfl
    exact (List.drop_append_of_le_length hn).symm
  · next e h =>
    obtain ⟨e', he', hbare⟩ := Catalog.decode_append_error (attempt_failed h) p.inbound
    refine .stopped rfl (Catalog.decodeAll_of_error he') ?_ rfl rfl
    show Poll.failed (.protocol e.bare) = .failed (.protocol e'.bare)
    rw [hbare]
  · -- What has arrived since is at hand now, and nothing is on the way.
    show Taken r p ((r.absorb p.inbound).settle p.ended).1 ((r.absorb p.inbound).settle p.ended).2
      { p with inbound := [] }
    unfold settle
    split
    · next m rest h =>
      obtain ⟨n, hd, rfl⟩ := attempt_message h
      exact .message hd (List.append_nil _) rfl
    · next e h =>
      exact .stopped rfl (Catalog.decodeAll_of_error (attempt_failed h)) rfl (List.append_nil _) rfl
    · next h =>
      have hnone := ofStop_message? p.ended (r.front p) .needMore
      exact .stopped hnone (Catalog.decodeAll_of_none (attempt_needMore h)) rfl
        (List.append_nil _) rfl

/-! ## Any acts -/

/-- Between two acts: the messages given so far stand at the front of what the peer has written, and
behind them come the octets at hand and those on the way. -/
structure Keeps (catalog : Catalog) (w : Pipe) (given : List Message) (r : Inbox) (p : Pipe) :
    Prop where
  catalog_eq : r.catalog = catalog
  ended_eq : p.ended = w.ended
  yields : ∃ taken, catalog.Yields w.inbound taken (r.front p) ∧ taken.map (·.1) = given ∧
    r.received = taken.length

theorem keeps_start (catalog : Catalog) : Keeps catalog {} [] { catalog } {} :=
  ⟨rfl, rfl, [], .done _, rfl, rfl⟩

variable {catalog : Catalog} {w p p' : Pipe} {given : List Message} {r r' : Inbox}

/-- What the peer writes comes behind all that is there. -/
theorem Keeps.peer (h : Keeps catalog w given r p) (a : Pipe.Act) :
    Keeps catalog (w.peer a) given r (p.peer a) := by
  obtain ⟨hcat, hend, taken, hy, hgiven, hcount⟩ := h
  cases a with
  | write b =>
    by_cases he : w.ended = true
    · have hp : p.ended = true := by rw [hend, he]
      have hw : w.deliver b = w := if_pos he
      have hpd : p.deliver b = p := if_pos hp
      refine ⟨hcat, ?_, taken, ?_, hgiven, hcount⟩
      · rw [Pipe.peer, Pipe.peer, hw, hpd, hend]
      · rw [Pipe.peer, Pipe.peer, hw, hpd]
        exact hy
    · have hp : ¬ p.ended = true := by rwa [hend]
      have hw : w.deliver b = { w with inbound := w.inbound ++ b } := if_neg he
      have hpd : p.deliver b = { p with inbound := p.inbound ++ b } := if_neg hp
      refine ⟨hcat, ?_, taken, ?_, hgiven, hcount⟩
      · rw [Pipe.peer, Pipe.peer, hw, hpd, hend]
      · have hy' := hy.append b
        rw [front, List.append_assoc] at hy'
        rw [Pipe.peer, Pipe.peer, hw, hpd]
        exact hy'
  | hangUp => exact ⟨hcat, rfl, taken, hy, hgiven, hcount⟩
  | vanish => exact ⟨hcat, rfl, taken, hy, hgiven, hcount⟩

/-- A read moves the message that it gives from what is left to what was given. -/
theorem Keeps.poll (h : Keeps catalog w given r p) :
    Keeps catalog w (given ++ (r.poll p).1.message?.toList) (r.poll p).2.1 (r.poll p).2.2 := by
  obtain ⟨hcat, hend, taken, hy, hgiven, hcount⟩ := h
  obtain ⟨hcat', hend'⟩ := poll_keeps r p
  have ht := poll_taken r p
  generalize r.poll p = found at *
  obtain ⟨found, r', p'⟩ := found
  refine ⟨hcat'.trans hcat, hend'.trans hend, ?_⟩
  cases ht with
  | @message m n _ _ hd hfront hreceived =>
    rw [hcat] at hd
    refine ⟨taken ++ [(m, n)], hy.trans (.step hd ?_), ?_, ?_⟩
    · rw [← hfront]
      exact .done _
    · rw [List.map_append, hgiven]
      rfl
    · rw [hreceived, hcount, List.length_append]
      rfl
  | stopped hnone _ _ hfront hreceived =>
    refine ⟨taken, ?_, ?_, hreceived.trans hcount⟩
    · rwa [hfront]
    · rw [hnone, Option.toList_none, List.append_nil, hgiven]

/-- **Between any acts, messages given and octets left make up the stream.** -/
theorem Keeps.run (h : Keeps catalog w given r p) (acts : List Act) :
    Keeps catalog (writtenOnto acts w) (given ++ (run acts r p).1.filterMap Poll.message?)
      (run acts r p).2.1 (run acts r p).2.2 := by
  induction acts generalizing w given r p with
  | nil => simpa [Inbox.run, writtenOnto] using h
  | cons act acts ih =>
    cases act with
    | peer a => exact ih (h.peer a)
    | read =>
      have hrest := ih h.poll
      rw [List.append_assoc] at hrest
      have hgive : ∀ (found : Poll) (more : List Poll), found.message?.toList ++
          more.filterMap Poll.message? = (found :: more).filterMap Poll.message? := by
        intro found more
        rw [List.filterMap_cons]
        cases found.message? <;> rfl
      rw [hgive] at hrest
      exact hrest

/-! ## Reading to the end -/

/-- Reads came to all that the peer has written, and the last of them to why its messages stop. -/
structure Exhausts (catalog : Catalog) (w : Pipe) (given : List Message) (received : Nat)
    (outcome : Poll) : Prop where
  messages_eq : given = catalog.messages w.inbound
  received_eq : received = given.length
  outcome_eq : outcome.bare = (Poll.ofStop w.ended (catalog.decodeAll w.inbound).2.2
    (catalog.decodeAll w.inbound).2.1).bare

/-- **Reading until a read gives no message finds all messages of the stream.** -/
theorem Keeps.drain (h : Keeps catalog w given r p) :
    Exhausts catalog w (given ++ (r.drain p).1) (r.drain p).2.2.1.received (r.drain p).2.1 := by
  fun_induction Inbox.drain r p generalizing given with
  | case1 r p m r' p' hpoll ms rest hrest ih =>
    have hnext := h.poll
    rw [hpoll] at hnext
    have hall := ih hnext
    rw [hrest] at hall
    rw [List.append_assoc] at hall
    exact hall
  | case2 r p found r' p' hnot hpoll =>
    obtain ⟨hcat, hend, taken, hy, hgiven, hcount⟩ := h
    have ht := poll_taken r p
    rw [hpoll] at ht
    cases ht with
    | message => exact absurd rfl (hnot _)
    | stopped hnone hall hbare hfront hreceived =>
      rw [hcat] at hall
      have hdec := hy.decodeAll_eq
      rw [hall, List.append_nil] at hdec
      refine ⟨?_, ?_, ?_⟩
      · rw [List.append_nil, Catalog.messages, hdec, hgiven]
      · rw [List.append_nil, ← hgiven, List.length_map]
        exact hreceived.trans hcount
      · rw [hdec, ← hend]
        exact hbare

/-- **What all reads come to is told by the stream alone.** -/
theorem reading_eq (catalog : Catalog) (acts : List Act) :
    Exhausts catalog (written acts) (reading catalog acts).messages
      (reading catalog acts).received (reading catalog acts).outcome :=
  ((keeps_start catalog).run acts).drain

/-- Two readings are alike if only the octets differ that an unknown message shows. -/
structure Reading.Alike (x y : Reading) : Prop where
  messages_eq : x.messages = y.messages
  received_eq : x.received = y.received
  outcome_eq : x.outcome.bare = y.outcome.bare

theorem Reading.Alike.of_stream {acts acts' : List Act}
    (hin : (written acts).inbound = (written acts').inbound)
    (hend : (written acts).ended = (written acts').ended) :
    (reading catalog acts).Alike (reading catalog acts') := by
  have h := reading_eq catalog acts
  have h' := reading_eq catalog acts'
  have hms : (reading catalog acts).messages = (reading catalog acts').messages := by
    rw [h.messages_eq, h'.messages_eq, hin]
  refine ⟨hms, ?_, ?_⟩
  · rw [h.received_eq, h'.received_eq, hms]
  · rw [h.outcome_eq, h'.outcome_eq, hin, hend]

/-- The messages given so far are the first of the stream, and the octets that they take, with those at
hand and those on the way, are all that the peer has written. -/
structure Accounts (catalog : Catalog) (w : Pipe) (given : List Message) (r : Inbox) (p : Pipe) :
    Prop where
  given_eq : given = ((catalog.decodeAll w.inbound).1.take r.received).map (·.1)
  taken_le : (((catalog.decodeAll w.inbound).1.take r.received).map (·.2)).sum ≤ w.inbound.length
  left_eq : r.buffered ++ p.inbound =
    w.inbound.drop (((catalog.decodeAll w.inbound).1.take r.received).map (·.2)).sum

theorem Keeps.accounts (h : Keeps catalog w given r p) : Accounts catalog w given r p := by
  obtain ⟨hcat, hend, taken, hy, hgiven, hcount⟩ := h
  have htaken : (catalog.decodeAll w.inbound).1.take r.received = taken := by
    rw [hy.decodeAll_eq, hcount]
    exact List.take_left
  obtain ⟨hle, hdrop⟩ := hy.eq_drop
  refine ⟨?_, ?_, ?_⟩
  · rw [htaken, hgiven]
  · rwa [htaken]
  · rwa [htaken]

/-- **However a stream arrives, it is read as the same messages with the same end.** For this it takes
that what was decoded from a beginning is decoded from every longer one, that each message takes an
octet at least, and that no octet is lost or read twice. -/
theorem reading_independent_of_pieces (catalog : Catalog) (acts acts' : List Act)
    (hin : (written acts).inbound = (written acts').inbound)
    (hend : (written acts).ended = (written acts').ended) :
    (reading catalog acts).Alike (reading catalog acts') ∧
      Exhausts catalog (written acts) (reading catalog acts).messages
        (reading catalog acts).received (reading catalog acts).outcome ∧
      (∀ b more, catalog.decode b ≠ .ok none →
        (catalog.decode (b ++ more)).mapError WireError.bare =
          (catalog.decode b).mapError WireError.bare) ∧
      (∀ b m n, catalog.decode b = .ok (some (m, n)) → 0 < n ∧ n ≤ b.length) ∧
      Accounts catalog (written acts) ((run acts { catalog } {}).1.filterMap Poll.message?)
        (run acts { catalog } {}).2.1 (run acts { catalog } {}).2.2 := by
  refine ⟨.of_stream hin hend, reading_eq catalog acts, ?_, ?_, ?_⟩
  · intro b more h
    exact Catalog.decode_append h more
  · intro b m n h
    have := Catalog.decode_consumes h
    omega
  · exact ((keeps_start catalog).run acts).accounts

/-- A request for services, cut inside its number and inside its token, and the end of the stream. -/
def requestInPieces : List Act :=
  [.peer (.write [0, 0]), .read, .peer (.write [0, 2, 7, 7, 7]), .read, .read,
    .peer (.write (List.replicate 13 7)), .peer .hangUp]

/-- The same request in one piece. -/
def requestAtOnce : List Act :=
  [.peer (.write ([0, 0, 0, 2] ++ List.replicate 16 7)), .peer .hangUp, .read]

theorem reading_request :
    (written requestInPieces).inbound = (written requestAtOnce).inbound ∧
      (written requestInPieces).ended = (written requestAtOnce).ended ∧
      (reading .mainLink requestInPieces).Alike (reading .mainLink requestAtOnce) :=
  ⟨rfl, rfl, (reading_independent_of_pieces .mainLink requestInPieces requestAtOnce rfl rfl).1⟩

end Inbox

end BoothLink
