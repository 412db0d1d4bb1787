import BoothLink.Link.Fate
import BoothLink.Proofs.Link.Pieces

/-!
# How reading ends

A read ends the reading of a stream if what is at hand, or what has arrived behind it, is no message, or
if the peer has ended its writing and no message can be made of what is left. Only when nothing is left
is that no error. The error that is posted then is given once to whoever asks for it.

* `Inbox.Poll.stop?`: with what a read ended the reading.
* **`Inbox.Stops`**, **`Inbox.poll_stop?_iff`**: when it does, and with what.
* `Fate.given_finish`, `Fate.given_poll`: the errors given so far, with the one still to be given.
-/

namespace BoothLink

namespace Inbox

/-- With what a read ended the reading, if it did: an error, or none. -/
def Poll.stop? : Poll → Option (Option LinkError)
  | message _ | pending => none
  | finished => some none
  | failed e => some (some e)

/-- A read finds that there is nothing more to read, for an error or for none. -/
inductive Stops (r : Inbox) (p : Pipe) : Option LinkError → Prop where
  /-- What is at hand is no message. -/
  | malformed {e : WireError} : r.catalog.decode r.buffered = .error e →
      Stops r p (some (.protocol e))
  /-- What is at hand is none with what has arrived. -/
  | malformedBehind {e : WireError} : r.catalog.decode r.buffered = .ok none →
      r.catalog.decode (r.front p) = .error e → Stops r p (some (.protocol e))
  /-- The stream ends inside a message. -/
  | cut : r.catalog.decode (r.front p) = .ok none → p.ended = true → r.front p ≠ [] →
      Stops r p (some .closed)
  /-- The stream ends behind the last message. -/
  | clean : r.catalog.decode (r.front p) = .ok none → p.ended = true → r.front p = [] → Stops r p none

variable {r : Inbox} {p : Pipe} {cause : Option LinkError}

/-- What is not told from more octets is not told from fewer. -/
theorem buffered_none (h : r.catalog.decode (r.front p) = .ok none) :
    r.catalog.decode r.buffered = .ok none := by
  by_contra hsome
  have hsame := Catalog.decode_append hsome p.inbound
  rw [front] at h
  rw [h] at hsame
  cases hd : r.catalog.decode r.buffered with
  | error e =>
    rw [hd] at hsame
    cases hsame
  | ok found =>
    rw [hd] at hsame
    cases hsame
    exact hsome hd

/-- What a read gives when no message can be made of what is at hand alone. -/
theorem poll_of_buffered_none (h : r.catalog.decode r.buffered = .ok none) :
    (r.poll p).1 =
      match r.catalog.decode (r.front p) with
      | .error e => .failed (.protocol e)
      | .ok none => (r.absorb p.inbound).atEnd p.ended
      | .ok (some (m, _)) => .message m := by
  have hmore : r.attempt = .needMore := by rw [attempt, h]
  have hall : (r.absorb p.inbound).catalog.decode (r.absorb p.inbound).buffered =
      r.catalog.decode (r.front p) := rfl
  rw [poll, hmore]
  simp only [settle, attempt, hall]
  cases r.catalog.decode (r.front p) with
  | error e => rfl
  | ok found => cases found <;> rfl

/-- What the end of the stream comes to once everything is at hand. -/
theorem stop?_atEnd (r : Inbox) (p : Pipe) : ((r.absorb p.inbound).atEnd p.ended).stop? =
    if p.ended then some (if r.front p = [] then none else some .closed) else none := by
  have hall : (r.absorb p.inbound).buffered = r.front p := rfl
  rw [atEnd, hall]
  cases p.ended with
  | false => rfl
  | true =>
    by_cases hnil : r.front p = []
    · rw [if_pos hnil, hnil]
      rfl
    · rw [if_neg hnil, if_neg (by decide), if_neg (by simpa using hnil)]
      rfl

/-- **When a read ends the reading**, and with what. -/
theorem poll_stop?_iff : (r.poll p).1.stop? = some cause ↔ r.Stops p cause := by
  constructor
  · intro h
    cases hd : r.catalog.decode r.buffered with
    | error e =>
      simp only [poll, attempt, hd] at h
      cases h
      exact .malformed hd
    | ok found =>
      cases found with
      | some found =>
        simp only [poll, attempt, hd] at h
        cases h
      | none =>
        rw [poll_of_buffered_none hd] at h
        cases hf : r.catalog.decode (r.front p) with
        | error e =>
          rw [hf] at h
          cases h
          exact .malformedBehind hd hf
        | ok found =>
          rw [hf] at h
          cases found with
          | some found => cases h
          | none =>
            rw [stop?_atEnd] at h
            split at h
            · next hend =>
              cases h
              split
              · next hnil => exact .clean hf hend hnil
              · next hne => exact .cut hf hend hne
            · cases h
  · intro h
    cases h with
    | malformed hd => simp only [poll, attempt, hd, Poll.stop?]
    | malformedBehind hd hf => rw [poll_of_buffered_none hd, hf, Poll.stop?]
    | cut hf hend hne =>
      simp only [poll_of_buffered_none (buffered_none hf), hf, stop?_atEnd, if_pos hend, if_neg hne]
    | clean hf hend hnil =>
      simp only [poll_of_buffered_none (buffered_none hf), hf, stop?_atEnd, if_pos hend, if_pos hnil]

end Inbox

/-! ## The error -/

/-- The error that the receiver gave. -/
def Fate.Poll.error? : Fate.Poll → Option LinkError
  | error e => some e
  | _ => none

namespace Fate

variable {f : Fate} {given : List LinkError}

theorem finish_of_open (h : f.ended = false) (cause : Option LinkError) :
    f.finish cause = { f with ended := true, cause } := if_neg (by rw [h]; decide)

/-- The first end of the reading posts its error. -/
theorem given_finish (h : f.ended = false) (hgiven : given ++ f.cause.toList = [])
    (cause : Option LinkError) : given ++ (f.finish cause).cause.toList = cause.toList := by
  rw [finish_of_open h, (List.append_eq_nil_iff.mp hgiven).1, List.nil_append]

/-- What the receiver gives it has no more. -/
theorem given_poll (f : Fate) (given : List LinkError) :
    given ++ f.poll.1.error?.toList ++ f.poll.2.cause.toList = given ++ f.cause.toList := by
  obtain ⟨ended, cause, taken⟩ := f
  cases taken with
  | false => exact congrArg (· ++ cause.toList) (List.append_nil given)
  | true =>
    cases cause with
    | none => cases ended <;> exact congrArg (· ++ []) (List.append_nil given)
    | some e => exact List.append_nil _

theorem error?_poll_take (f : Fate) : f.take.2.poll.1.error? = f.cause := by
  obtain ⟨ended, cause, taken⟩ := f
  cases cause with
  | none => cases ended <;> rfl
  | some e => rfl

theorem ended_poll (f : Fate) : f.poll.2.ended = f.ended := by
  unfold poll
  split
  · rfl
  · split <;> rfl

end Fate

end BoothLink
