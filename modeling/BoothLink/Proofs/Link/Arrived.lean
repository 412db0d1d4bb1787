import BoothLink.Link.BeatFeed
import BoothLink.Link.StateFeed
import BoothLink.Proofs.Catalog.Framed
import BoothLink.Proofs.Link.Pieces

/-!
# What a connection does with a frame that has arrived whole

A connection of frames takes a whole frame off or ends with the error that it holds, unless the content
of the frame ends inside a field. Such a frame passes for one that has not arrived: the connection waits
for more octets, and however many come, it keeps them all and reads nothing further.

* `Feed.Awaits`: a connection that waits for octets, with those it has not yet made a message of.
* `Feed.Settles`, `Feed.Stalls`: what it comes to.
* **`Feed.arrived_frame_settled_iff`**: a connection stalls exactly at content that ends early.
-/

namespace BoothLink

/-- A read that cannot make a message of what is there takes everything that has arrived. -/
theorem Inbox.poll_of_none {r : Inbox} {p : Pipe} (hopen : p.ended = false)
    (h : r.catalog.decode (r.front p) = .ok none) :
    r.poll p = (.pending, r.absorb p.inbound, { p with inbound := [] }) := by
  have hmore : r.attempt = .needMore := by
    cases ha : r.attempt with
    | needMore => rfl
    | message m q =>
      obtain ⟨n, hd, -⟩ := attempt_message ha
      have hd' := Catalog.decode_append_ok hd p.inbound
      rw [front] at h
      rw [h] at hd'
      cases hd'
    | failed e =>
      obtain ⟨e', hd, -⟩ := Catalog.decode_append_error (attempt_failed ha) p.inbound
      rw [front] at h
      rw [h] at hd
      cases hd
  have hmore' : (r.absorb p.inbound).attempt = .needMore := by
    have h' : (r.absorb p.inbound).catalog.decode (r.absorb p.inbound).buffered = .ok none := h
    rw [attempt, h']
  simp only [poll, hmore, settle, hmore', atEnd, hopen]
  rfl

namespace Feed

variable {α : Type} {f : Feed α} {catalog : Catalog} {b : Octets}

/-- The octets that no message has been made of, at hand and on the way. -/
def front (f : Feed α) : Octets := f.inbox.front f.pipe

/-- A connection that reads on, with nothing in hand and these octets before it. -/
structure Awaits (f : Feed α) (catalog : Catalog) (b : Octets) : Prop where
  catalog_eq : f.inbox.catalog = catalog
  reading : f.fate.ended = false
  idle : f.inHand = none
  lasting : f.pipe.ended = false
  front_eq : f.front = b

/-- The next step takes the message in front off, or ends reading with the error in front. -/
structure Settles (f : Feed α) (catalog : Catalog) (b : Octets) (n : Nat) : Prop where
  found : catalog.decode b ≠ .ok none
  message : ∀ m k, catalog.decode b = .ok (some (m, k)) → k = n ∧
    ∃ g, f.step? = some g ∧ g.front = b.drop n
  error : ∀ e, catalog.decode b = .error e → ∃ g e', f.step? = some g ∧ g.fate.ended = true ∧
    g.fate.cause = some (.protocol e') ∧ e'.bare = e.bare

/-- Whatever arrives, it is kept, and nothing is made of it. -/
def Stalls (f : Feed α) : Prop := ∀ pieces : List Octets,
  (pieces.foldl deliver f).fate = f.fate ∧ (pieces.foldl deliver f).queue = f.queue ∧
    (pieces.foldl deliver f).inHand = f.inHand ∧
      (pieces.foldl deliver f).front = f.front ++ pieces.flatten

/-! ## One step -/

theorem Awaits.step?_eq (h : f.Awaits catalog b) : f.step? =
    match f.inbox.poll f.pipe with
    | (.message m, inbox, pipe) => some (accept { f with inbox, pipe } m)
    | (.finished, inbox, pipe) => some (finish { f with inbox, pipe } none)
    | (.failed e, inbox, pipe) => some (finish { f with inbox, pipe } (some e))
    | (.pending, inbox, pipe) =>
      if f.pipe.inbound.isEmpty then none else some { f with inbox, pipe } := by
  unfold step?
  split
  · next hend =>
    rw [h.reading] at hend
    cases hend
  · split
    · next x hx =>
      rw [h.idle] at hx
      cases hx
    · rfl

theorem accept_front (f : Feed α) (m : Message) : (f.accept m).front = f.front := by
  unfold accept
  split
  · rfl
  · rfl

theorem Awaits.step?_message (h : f.Awaits catalog b) {m : Message} {n : Nat}
    (hd : catalog.decode b = .ok (some (m, n))) :
    ∃ g, f.step? = some g ∧ g.front = b.drop n := by
  have ht := Inbox.poll_taken f.inbox f.pipe
  have hfront : f.inbox.front f.pipe = b := h.front_eq
  rw [h.step?_eq]
  generalize f.inbox.poll f.pipe = found at *
  obtain ⟨found, inbox, pipe⟩ := found
  cases ht with
  | message hd' hleft _ =>
    rw [h.catalog_eq, hfront, hd] at hd'
    cases hd'
    rw [hfront] at hleft
    refine ⟨_, rfl, ?_⟩
    rw [accept_front]
    exact hleft
  | stopped _ hall _ _ _ =>
    rw [h.catalog_eq, hfront, Catalog.decodeAll_of_some hd] at hall
    cases hall

theorem Awaits.step?_error (h : f.Awaits catalog b) {e : WireError}
    (hd : catalog.decode b = .error e) : ∃ g e', f.step? = some g ∧ g.fate.ended = true ∧
      g.fate.cause = some (.protocol e') ∧ e'.bare = e.bare := by
  have ht := Inbox.poll_taken f.inbox f.pipe
  have hfront : f.inbox.front f.pipe = b := h.front_eq
  have hopen : ¬ f.fate.ended = true := by
    rw [h.reading]
    decide
  rw [h.step?_eq]
  generalize f.inbox.poll f.pipe = found at *
  obtain ⟨found, inbox, pipe⟩ := found
  cases ht with
  | message hd' _ _ =>
    rw [h.catalog_eq, hfront, hd] at hd'
    cases hd'
  | stopped _ hall hbare _ _ =>
    rw [h.catalog_eq, hfront, Catalog.decodeAll_of_error hd] at hall
    cases hall
    have hsame : found.bare = .failed (.protocol e.bare) := hbare
    -- Of all that a read gives, only an error of the wire is bare like this one.
    cases found with
    | failed cause =>
      cases cause with
      | protocol e' =>
        injection hsame with hcause
        injection hcause with hbare'
        refine ⟨_, e', rfl, ?_, ?_, hbare'⟩
        · exact ended_finish _ _
        · simp only [finish, Fate.finish, if_neg hopen]
      | _ => cases hsame
    | _ => cases hsame

/-! ## Waiting -/

theorem settle_of_step? {f g : Feed α} (h : f.step? = some g) : f.settle = g.settle := by
  rw [settle]
  split
  · next g' h' =>
    rw [h] at h'
    cases h'
    rfl
  · next h' =>
    rw [h] at h'
    cases h'

theorem settle_of_rest {f : Feed α} (h : f.step? = none) : f.settle = f := by
  rw [settle]
  split
  · next g h' =>
    rw [h] at h'
    cases h'
  · rfl

/-- The connection with all that has arrived taken to hand. -/
def absorbed (f : Feed α) : Feed α :=
  { f with inbox := f.inbox.absorb f.pipe.inbound, pipe := { f.pipe with inbound := [] } }

theorem Awaits.absorbed (h : f.Awaits catalog b) : f.absorbed.Awaits catalog b := by
  refine ⟨h.catalog_eq, h.reading, h.idle, h.lasting, ?_⟩
  rw [← h.front_eq]
  exact List.append_nil _

/-- With no message and no error in front, what has arrived is taken to hand, and that is all. -/
theorem Awaits.step?_of_none (h : f.Awaits catalog b) (hd : catalog.decode b = .ok none) :
    f.step? = if f.pipe.inbound.isEmpty then none else some f.absorbed := by
  have hnone : f.inbox.catalog.decode (f.inbox.front f.pipe) = .ok none := by
    have hfront : f.inbox.front f.pipe = b := h.front_eq
    rw [h.catalog_eq, hfront, hd]
  rw [h.step?_eq, Inbox.poll_of_none h.lasting hnone]
  rfl

theorem Awaits.settle_of_none (h : f.Awaits catalog b) (hd : catalog.decode b = .ok none) :
    f.settle.Awaits catalog b ∧ f.settle.fate = f.fate ∧ f.settle.queue = f.queue := by
  have hstep := h.step?_of_none hd
  by_cases hempty : f.pipe.inbound.isEmpty = true
  · rw [if_pos hempty] at hstep
    rw [settle_of_rest hstep]
    exact ⟨h, rfl, rfl⟩
  · rw [if_neg hempty] at hstep
    have hrest : f.absorbed.step? = none := h.absorbed.step?_of_none hd
    rw [settle_of_step? hstep, settle_of_rest hrest]
    exact ⟨h.absorbed, rfl, rfl⟩

theorem Awaits.deliver (h : f.Awaits catalog b) (more : Octets)
    (hd : catalog.decode (b ++ more) = .ok none) :
    (f.deliver more).Awaits catalog (b ++ more) ∧ (f.deliver more).fate = f.fate ∧
      (f.deliver more).queue = f.queue := by
  have hopen : ¬ f.pipe.ended = true := by
    rw [h.lasting]
    decide
  have hpipe : f.pipe.deliver more = { f.pipe with inbound := f.pipe.inbound ++ more } :=
    if_neg hopen
  have hnext : Feed.Awaits { f with pipe := f.pipe.deliver more } catalog (b ++ more) := by
    rw [hpipe]
    refine ⟨h.catalog_eq, h.reading, h.idle, h.lasting, ?_⟩
    rw [← h.front_eq]
    exact (List.append_assoc _ _ _).symm
  exact hnext.settle_of_none hd

/-- **A connection before octets that stay no message and no error reads nothing any more.** -/
theorem Awaits.stalls (h : f.Awaits catalog b)
    (hd : ∀ more, catalog.decode (b ++ more) = .ok none) : f.Stalls := by
  have hrun : ∀ pieces : List Octets,
      (pieces.foldl Feed.deliver f).Awaits catalog (b ++ pieces.flatten) ∧
        (pieces.foldl Feed.deliver f).fate = f.fate ∧
          (pieces.foldl Feed.deliver f).queue = f.queue := by
    intro pieces
    induction pieces generalizing f b with
    | nil =>
      rw [List.flatten_nil, List.append_nil]
      exact ⟨h, rfl, rfl⟩
    | cons piece pieces ih =>
      obtain ⟨hnext, hfate, hqueue⟩ := h.deliver piece (hd piece)
      have hrest := ih hnext (by
        intro more
        rw [List.append_assoc]
        exact hd _)
      rw [List.append_assoc, hfate, hqueue] at hrest
      exact hrest
  intro pieces
  obtain ⟨hend, hfate, hqueue⟩ := hrun pieces
  refine ⟨hfate, hqueue, ?_, ?_⟩
  · rw [hend.idle, h.idle]
  · rw [hend.front_eq, h.front_eq]

/-! ## Whole frames -/

/-- **A frame that has arrived whole is settled exactly if its content does not end early**, and a
connection that finds one which does waits for ever and reads nothing that comes behind it. -/
theorem arrived_frame_settled_iff {α : Type} {catalog : Catalog} (hcat : catalog ∈ Catalog.framed)
    {k : MessageKind} (hk : k ∈ catalog.kinds) {b : Octets} (hpeek : k.peek b = .matched)
    (harrived : FrameArrived b) :
    (catalog.decode b ≠ .ok none ↔ ¬ k.EndsEarly (frameContent b)) ∧
      (∀ f : Feed α, f.Awaits catalog b → ¬ k.EndsEarly (frameContent b) →
        f.Settles catalog b (4 + frameSize b)) ∧
      ∀ f : Feed α, f.Awaits catalog b → k.EndsEarly (frameContent b) → f.Stalls := by
  have hiff := Catalog.decode_frame_none_iff hcat hk hpeek harrived
  refine ⟨not_congr hiff, ?_, ?_⟩
  · intro f hf hnot
    refine ⟨fun hnone => hnot (hiff.mp hnone), ?_, ?_⟩
    · intro m n hd
      have hn := Catalog.decode_frame_length hcat hk hpeek harrived hd
      refine ⟨hn, ?_⟩
      rw [← hn]
      exact hf.step?_message hd
    · intro e hd
      exact hf.step?_error hd
  · intro f hf hearly
    exact hf.stalls (Catalog.decode_frame_append_none hcat hk hpeek harrived hearly)

/-- A state frame of twelve octets, whose path should take a hundred. -/
def cutPath : Octets := [0, 0, 0, 12, 0x73, 0x6D, 0x61, 0x61, 0, 0, 0, 0, 0, 0, 0, 100]

/-- The frame of a request for beats. -/
def startBeats : Octets := [0, 0, 0, 4, 0, 0, 0, 0]

/-- A state connection that has read the frame with the cut path stalls; a beat connection that has
read a request for beats goes on. -/
theorem cutPath_stalls_startBeats_settles :
    Stalls { kind := stateFeed, inbox := ⟨.stateMap, cutPath, 0⟩, pipe := {}, capacity := 1 } ∧
      Settles { kind := beatFeed, inbox := ⟨.beatInfo, startBeats, 0⟩, pipe := {}, capacity := 1 }
        .beatInfo startBeats 8 := by
  have hcut : FrameArrived cutPath := ⟨by decide, by decide⟩
  have hstart : FrameArrived startBeats := ⟨by decide, by decide⟩
  have hstates := arrived_frame_settled_iff (α := State)
    (show Catalog.stateMap ∈ Catalog.framed by decide)
    (show .stateEmit ∈ Catalog.stateMap.kinds by decide) (by decide) hcut
  have hbeats := arrived_frame_settled_iff (α := BeatSample)
    (show Catalog.beatInfo ∈ Catalog.framed by decide)
    (show .beatStartStream ∈ Catalog.beatInfo.kinds by decide) (by decide) hstart
  have hearly : (MessageKind.stateEmit).EndsEarly (frameContent cutPath) := .inr (.inl (by decide))
  refine ⟨hstates.2.2 _ ⟨rfl, rfl, rfl, rfl, rfl⟩ hearly, ?_⟩
  exact hbeats.2.1 _ ⟨rfl, rfl, rfl, rfl, rfl⟩ id

/-- **Not every frame that has arrived whole is settled.** -/
theorem not_every_arrived_frame_settled : ¬ ∀ catalog ∈ Catalog.framed, ∀ k ∈ catalog.kinds,
    ∀ b, k.peek b = .matched → FrameArrived b → catalog.decode b ≠ .ok none := by
  intro h
  exact h .stateMap (by decide) .stateEmit (by decide) cutPath (by decide) ⟨by decide, by decide⟩ rfl

end Feed

end BoothLink
