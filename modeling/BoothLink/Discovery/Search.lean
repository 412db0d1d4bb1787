import BoothLink.Discovery.Scan

/-!
# Searching

Datagrams arrive at certain times. To wait for a sighting is to read them in order, passing over our own
announcements, until a deadline; to search for a device is to wait again and again, until the first that
is present and has the name asked for. The deadline stays where it was, whatever else arrives.

* `Arrival`: a datagram and its time.
* `Profile.hear`: the first sighting, or what is no announcement.
* `Profile.search`: the first device that is searched for, and when the search ended.
-/

namespace BoothLink

/-- A datagram and when it arrives, in milliseconds. -/
structure Arrival where
  time : Nat
  datagram : Datagram
  deriving DecidableEq

namespace Profile

/-- What came of waiting. -/
structure Heard where
  /-- What was heard; nothing if the time is over. -/
  result : Option (Except DiscoveryError Sighting)
  /-- When the waiting ended. -/
  now : Nat
  /-- The arrivals that have not been read. -/
  rest : List Arrival

/-- Reads arrivals up to the first that is not our own announcement. One that is there already is read
even if no time is left; any other has to arrive before the deadline. -/
def hear (p : Profile) (deadline now : Nat) : List Arrival → Heard
  | [] => ⟨none, max now deadline, []⟩
  | a :: rest =>
    if a.time ≤ now ∨ a.time < deadline then
      match p.sight a.datagram with
      | .ok none => hear p deadline (max now a.time) rest
      | .ok (some found) => ⟨some (.ok found), max now a.time, rest⟩
      | .error e => ⟨some (.error e), max now a.time, rest⟩
    else ⟨none, max now deadline, a :: rest⟩

/-- A wait reads what it answers for, or lasts until the deadline. -/
theorem hear_progress (p : Profile) {deadline now : Nat} (hnow : now < deadline) (as : List Arrival) :
    (p.hear deadline now as).rest.length + (deadline - (p.hear deadline now as).now) <
      as.length + (deadline - now) := by
  induction as generalizing now with
  | nil =>
    simp only [hear, List.length_nil]
    omega
  | cons a rest ih =>
    rw [hear, List.length_cons]
    split
    · next htime =>
      have hrest := @ih (max now a.time) (by omega)
      split
      · omega
      · simp only
        omega
      · simp only
        omega
    · simp only [List.length_cons]
      omega

/-- Whether a sighting is what is searched for: a device that is present, with this name if one is
given. -/
def matching (wanted : Option String) (found : Sighting) : Bool :=
  found.2 = .present && wanted.all (· = found.1.identity.name)

/-- What came of a search. -/
structure Searched where
  /-- The device; nothing if the time is over. -/
  result : Except DiscoveryError (Option Device)
  /-- When the search ended. -/
  now : Nat
  /-- The arrivals that have not been read. -/
  rest : List Arrival

/-- Searches for a device before a deadline: waits for as long as is left, again and again. What is no
announcement is passed over, unless nothing more can be received. -/
def search (p : Profile) (wanted : Option String) (deadline now : Nat) (as : List Arrival) : Searched :=
  if _h : now < deadline then
    let heard := p.hear (now + (deadline - now)) now as
    match heard.result with
    | none => search p wanted deadline heard.now heard.rest
    | some (.ok found) =>
      if matching wanted found then ⟨.ok (some found.1), heard.now, heard.rest⟩
      else search p wanted deadline heard.now heard.rest
    | some (.error e) =>
      if e.isClosed then ⟨.error e, heard.now, heard.rest⟩
      else search p wanted deadline heard.now heard.rest
  else ⟨.ok none, now, as⟩
termination_by as.length + (deadline - now)
decreasing_by
  all_goals
    have hleft : now < deadline := by assumption
    have hsame : now + (deadline - now) = deadline := Nat.add_sub_of_le (Nat.le_of_lt hleft)
    simp only [hsame]
    exact hear_progress p hleft as

end Profile

end BoothLink
