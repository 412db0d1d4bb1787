import BoothLink.Proofs.Link.Scheduled
import BoothLink.Proofs.Message.Written

/-!
# What a peer gets of the messages written to it

Messages are written to a stream one call after the other. A call either hands the whole message to the
stream or fails and hands over nothing, so what the peer gets are the messages whose calls succeeded, one
behind the other, and it finds each of them where the one before it ends.

* `Turn`, `Writing`: what happens at a stream that works, and what has been written and taken there.
* `Pipe.send_eq`: a call writes what it has put into a buffer of its own.
* `Writing.Sound`, `Writing.Sound.next`: what every turn keeps.
* **`Writing.received_written`**: the peer gets the messages of the calls that succeeded, whole.
-/

namespace BoothLink

/-- What happens at a stream that works: a message is written to it, the peer takes what is there, or it
writes itself, or ends its own writing. -/
inductive Turn where
  | write (m : Message)
  | take
  | hear (b : Octets)
  | hangUp

/-- The message that a turn writes. -/
def Turn.message? : Turn → Option Message
  | write m => some m
  | take | hear _ | hangUp => none

/-- A stream to which messages are written, the calls that wrote them with their answers, and what the
peer has taken. -/
structure Writing where
  pipe : Pipe
  calls : List (Message × Except LinkError Unit) := []
  taken : Octets := []

/-- A call writes what it has put into a buffer of its own. -/
theorem Pipe.send_eq (p : Pipe) (m : Message) :
    p.send m =
      match m.append.run #[] with
      | (.error e, _) => .error (.protocol e)
      | (.ok (), buffer) =>
        if p.writable then .ok { p with outbound := p.outbound ++ buffer.toList }
        else .error (.io .brokenPipe) := by
  rw [Message.append_run, send]
  cases m.encode with
  | error e => rfl
  | ok b => simp

namespace Writing

def next (w : Writing) : Turn → Writing
  | .write m =>
    match w.pipe.send m with
    | .ok pipe => { w with pipe, calls := w.calls ++ [(m, .ok ())] }
    | .error e => { w with calls := w.calls ++ [(m, .error e)] }
  | .take => { w with pipe := w.pipe.collect.2, taken := w.taken ++ w.pipe.collect.1 }
  | .hear b => { w with pipe := w.pipe.deliver b }
  | .hangUp => { w with pipe := w.pipe.hangUp }

def after (w : Writing) (turns : List Turn) : Writing := turns.foldl next w

/-- The messages of the calls that succeeded. -/
def succeeded (w : Writing) : List Message :=
  (w.calls.filter fun call => call.2.isOk).map (·.1)

/-- The answer to a call on a stream that works. -/
def answer (m : Message) : Except LinkError Unit :=
  match m.encode with
  | .ok _ => .ok ()
  | .error e => .error (.protocol e)

/-- The stream works, each of the messages written has got its answer, and what was taken and what is
still to be taken are the messages of the calls that succeeded. -/
structure Sound (p : Pipe) (ms : List Message) (w : Writing) : Prop where
  works : w.pipe.writable = true
  calls : w.calls = ms.map fun m => (m, answer m)
  received : w.taken ++ w.pipe.outbound = p.outbound ++ Message.stream w.succeeded

variable {p : Pipe} {w : Writing} {ms : List Message} {m : Message}

theorem sound_start (hp : p.writable = true) : Sound p [] { pipe := p } :=
  ⟨hp, rfl, by simp [succeeded, Message.stream]⟩

theorem next_write_ok {b : Octets} (hworks : w.pipe.writable = true) (he : m.encode = .ok b) :
    w.next (.write m) =
      { w with pipe.outbound := w.pipe.outbound ++ b, calls := w.calls ++ [(m, .ok ())] } := by
  simp [next, Pipe.send_eq, Message.append_run, he, hworks]

theorem next_write_error {e : WireError} (he : m.encode = .error e) :
    w.next (.write m) = { w with calls := w.calls ++ [(m, .error (.protocol e))] } := by
  simp [next, Pipe.send_eq, Message.append_run, he]

/-- **A call hands over the whole message or nothing**, and says which. -/
theorem Sound.write (h : w.Sound p ms) (m : Message) : (w.next (.write m)).Sound p (ms ++ [m]) := by
  have hcalls := h.calls
  cases he : m.encode with
  | ok b =>
    rw [next_write_ok h.works he]
    have hstream : Message.stream (w.succeeded ++ [m]) = Message.stream w.succeeded ++ b := by
      rw [Message.stream_append, Message.stream_singleton he]
    refine ⟨h.works, by simp [hcalls, answer, he], ?_⟩
    have hsucceeded : succeeded { w with calls := w.calls ++ [(m, .ok ())] } = w.succeeded ++ [m] := by
      simp [succeeded, Except.isOk, Except.toBool]
    calc w.taken ++ (w.pipe.outbound ++ b)
        = p.outbound ++ Message.stream w.succeeded ++ b := by rw [← List.append_assoc, h.received]
      _ = p.outbound ++ Message.stream (w.succeeded ++ [m]) := by rw [hstream, List.append_assoc]
      _ = _ := by rw [← hsucceeded]; rfl
  | error e =>
    rw [next_write_error he]
    refine ⟨h.works, by simp [hcalls, answer, he], ?_⟩
    simpa [succeeded, Except.isOk, Except.toBool] using h.received

/-- **Every turn leaves the stream and the calls in order.** -/
theorem Sound.next (h : w.Sound p ms) (turn : Turn) :
    (w.next turn).Sound p (ms ++ turn.message?.toList) := by
  cases turn with
  | write m => exact h.write m
  | take =>
    refine ⟨h.works, by simpa [Writing.next, Turn.message?] using h.calls, ?_⟩
    simpa [Writing.next, Pipe.collect, succeeded] using h.received
  | hear b =>
    have hsame : (w.pipe.deliver b).writable = w.pipe.writable ∧
        (w.pipe.deliver b).outbound = w.pipe.outbound := by
      unfold Pipe.deliver
      split_ifs <;> simp [Pipe.writable]
    refine ⟨hsame.1.trans h.works, by simpa [Writing.next, Turn.message?] using h.calls, ?_⟩
    simpa [Writing.next, hsame.2, succeeded] using h.received
  | hangUp => exact ⟨h.works, by simpa [Writing.next, Turn.message?] using h.calls, h.received⟩

theorem Sound.after (h : w.Sound p ms) (turns : List Turn) :
    (w.after turns).Sound p (ms ++ turns.filterMap Turn.message?) := by
  induction turns generalizing w ms with
  | nil => simpa [Writing.after] using h
  | cons turn turns ih =>
    have hrest := ih (h.next turn)
    rw [List.append_assoc] at hrest
    cases hm : turn.message? <;> simpa [hm, Writing.after] using hrest

/-- **Messages are written whole or not at all.** What a message adds to a buffer does not depend on
what the buffer holds; it fails exactly if something is in its way, and leaves the buffer alone then. Of
the messages that are written to a stream that works, call by call, the peer gets those whose calls
succeeded, one behind the other and nothing else. -/
theorem received_written {p : Pipe} (hp : p.writable = true) (turns : List Turn) :
    (∀ (m : Message) (buffer : Buffer), m.append.run buffer =
        match m.encode with
        | .error e => (.error e, buffer)
        | .ok b => (.ok (), buffer ++ b)) ∧
      (∀ (m : Message) (e : WireError), m.encode = .error e ↔ m.Refused e) ∧
      (after { pipe := p } turns).calls =
        (turns.filterMap Turn.message?).map (fun m => (m, answer m)) ∧
      (after { pipe := p } turns).taken ++ (after { pipe := p } turns).pipe.outbound =
        p.outbound ++ Message.stream (after { pipe := p } turns).succeeded := by
  have h := (sound_start hp).after turns
  rw [List.nil_append] at h
  exact ⟨Message.append_run, Message.encode_error_iff, h.calls, h.received⟩

/-- Beats are asked for, a sample without its timeline is refused, and no more beats are asked for. -/
theorem received_written_beats :
    ({} : Pipe).writable = true ∧
      (let w := after { pipe := {} } [.write .beatStartStream, .write (.beatEmit ⟨0, [], [⟨0⟩]⟩), .take,
        .write .beatStopStream]
      w.taken ++ w.pipe.outbound = [0, 0, 0, 4, 0, 0, 0, 0, 0, 0, 0, 4, 0, 0, 0, 1]) := by
  refine ⟨rfl, ?_⟩
  have h := (received_written (p := {}) rfl [.write .beatStartStream,
    .write (.beatEmit ⟨0, [], [⟨0⟩]⟩), .take, .write .beatStopStream]).2.2.2
  exact h.trans rfl

end Writing

end BoothLink
