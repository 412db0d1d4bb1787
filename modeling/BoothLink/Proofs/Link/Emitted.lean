import BoothLink.Proofs.Json.RoundTrip
import BoothLink.Proofs.Link.Arrived
import BoothLink.Proofs.Message.Limits

/-!
# A state that is emitted is received

What one state connection emits, another one reads as the same state, in whatever pieces it arrives: until
the last octet nothing is made of it, then the state is at hand, and before the connection stands what came
behind. Only the order of the fields of its objects may differ, in which they have to be written anyway.

* `Catalog.decode_prefix_none`: less than what is waited for is waited for.
* `Feed.Rests`: a connection that has read all it can; `Feed.Rests.deliver`, `Feed.Rests.receiveAll`.
* `Feed.Ready`, `Feed.Brings`: a connection before a message, and the same behind it.
* **`Feed.Ready.brings`**, **`Feed.Ready.rests`**: a message that arrives in pieces.
* **`StateFeed.emitted_received`**: for every state that can be emitted.
-/

namespace BoothLink

namespace Catalog

variable {catalog : Catalog}

/-- What is waited for has been waited for from its beginning on. -/
theorem decode_prefix_none {t more : Octets} (h : catalog.decode (t ++ more) = .ok none) :
    catalog.decode t = .ok none := by
  by_contra hfound
  have hsame := decode_append hfound more
  rw [h] at hsame
  cases hd : catalog.decode t with
  | error e =>
    rw [hd] at hsame
    cases hsame
  | ok found =>
    rw [hd] at hsame hfound
    cases hsame
    exact hfound rfl

end Catalog

namespace Feed

variable {α : Type} {f g : Feed α} {kind : FeedKind α} {b : Octets} {items : List α}

/-! ## A connection at rest -/

/-- A connection that reads on and whose receiving end is kept, with these octets before it and these items
in its queue and in its hand. -/
structure Holds (f : Feed α) (catalog : Catalog) (b : Octets) (items : List α) : Prop where
  catalog_eq : f.inbox.catalog = catalog
  reading : f.fate.ended = false
  lasting : f.pipe.ended = false
  kept : f.dropped = false
  room : 0 < f.capacity
  front_eq : f.front = b
  items_eq : f.queue ++ f.inHand.toList = items

/-- A connection that has read all it can: an item is in its hand only if the queue is full. -/
structure Rests (f : Feed α) (catalog : Catalog) (b : Octets) (items : List α) : Prop
    extends f.Holds catalog b items where
  pressed : f.inHand.isSome = true → f.capacity ≤ f.queue.length

/-- A connection goes on as another one without reading a message. -/
structure Waits (f g : Feed α) : Prop where
  kind_eq : g.kind = f.kind
  fate_eq : g.fate = f.fate
  taken_eq : g.taken = f.taken
  received_eq : g.inbox.received = f.inbox.received
  idle : f.inHand = none → g.inHand = none

theorem Waits.refl (f : Feed α) : Waits f f := ⟨rfl, rfl, rfl, rfl, id⟩

theorem Waits.trans {f' : Feed α} (h : Waits f f') (h' : Waits f' g) : Waits f g :=
  ⟨h'.kind_eq.trans h.kind_eq, h'.fate_eq.trans h.fate_eq, h'.taken_eq.trans h.taken_eq,
    h'.received_eq.trans h.received_eq, h'.idle ∘ h.idle⟩

variable {catalog : Catalog}

theorem Holds.queue_eq (h : f.Holds catalog b items) (hidle : f.inHand = none) : f.queue = items := by
  rw [← h.items_eq, hidle, Option.toList_none, List.append_nil]

theorem Holds.awaits (h : f.Holds catalog b items) (hidle : f.inHand = none) : f.Awaits catalog b :=
  ⟨h.catalog_eq, h.reading, hidle, h.lasting, h.front_eq⟩

/-- With nothing in hand, and no whole message before it, a connection takes to hand what has arrived. -/
theorem Holds.settle_of_idle (h : f.Holds catalog b items) (hidle : f.inHand = none)
    (hd : catalog.decode b = .ok none) :
    f.settle.Rests catalog b items ∧ Waits f f.settle := by
  have hawaits := h.awaits hidle
  have hstep := hawaits.step?_of_none hd
  have hfree : f.inHand.isSome = true → f.capacity ≤ f.queue.length := by
    rw [hidle]
    exact nofun
  by_cases hempty : f.pipe.inbound.isEmpty = true
  · rw [if_pos hempty] at hstep
    rw [settle_of_rest hstep]
    exact ⟨⟨h, hfree⟩, .refl f⟩
  · rw [if_neg hempty] at hstep
    have hnext := hawaits.absorbed
    rw [settle_of_step? hstep, settle_of_rest (hnext.step?_of_none hd)]
    exact ⟨⟨⟨h.catalog_eq, h.reading, h.lasting, h.kept, h.room, hnext.front_eq, h.items_eq⟩, hfree⟩,
      ⟨rfl, rfl, rfl, rfl, id⟩⟩

/-- **Before octets that are no whole message a connection comes to rest**, and its items stay as they
are. -/
theorem Holds.settle (h : f.Holds catalog b items) (hd : catalog.decode b = .ok none) :
    f.settle.Rests catalog b items ∧ Waits f f.settle := by
  cases hx : f.inHand with
  | none => exact h.settle_of_idle hx hd
  | some x =>
    have hstep : f.step? = if f.queue.length < f.capacity then
        some { f with queue := f.queue ++ [x], inHand := none } else none := by
      unfold step?
      rw [h.reading, hx, h.kept]
      rfl
    by_cases hroom : f.queue.length < f.capacity
    · have hitems : f.queue ++ [x] = items := by
        rw [← h.items_eq, hx]
        rfl
      have hnext : Feed.Holds { f with queue := f.queue ++ [x], inHand := none } catalog b items :=
        ⟨h.catalog_eq, h.reading, h.lasting, h.kept, h.room, h.front_eq,
          (List.append_nil _).trans hitems⟩
      rw [if_pos hroom] at hstep
      rw [settle_of_step? hstep]
      obtain ⟨hrests, hwaits⟩ := hnext.settle_of_idle rfl hd
      exact ⟨hrests, hwaits.kind_eq, hwaits.fate_eq, hwaits.taken_eq, hwaits.received_eq,
        fun _ => hwaits.idle rfl⟩
    · rw [if_neg hroom] at hstep
      rw [settle_of_rest hstep]
      exact ⟨⟨h, fun _ => Nat.not_lt.mp hroom⟩, .refl f⟩

/-- What arrives comes behind what stands before the connection. -/
theorem Holds.arrives (h : f.Holds catalog b items) (more : Octets) :
    Feed.Holds { f with pipe := f.pipe.deliver more } catalog (b ++ more) items := by
  have hopen : ¬ f.pipe.ended = true := by
    rw [h.lasting]
    decide
  have hpipe : f.pipe.deliver more = { f.pipe with inbound := f.pipe.inbound ++ more } :=
    if_neg hopen
  rw [hpipe]
  refine ⟨h.catalog_eq, h.reading, h.lasting, h.kept, h.room, ?_, h.items_eq⟩
  rw [← h.front_eq]
  exact (List.append_assoc _ _ _).symm

/-- **A connection at rest stays so while what arrives makes no whole message.** -/
theorem Rests.foldl_deliver (h : f.Rests catalog b items) (pieces : List Octets)
    (hd : catalog.decode (b ++ pieces.flatten) = .ok none) :
    (pieces.foldl deliver f).Rests catalog (b ++ pieces.flatten) items ∧
      Waits f (pieces.foldl deliver f) := by
  induction pieces generalizing f b with
  | nil =>
    rw [List.flatten_nil, List.append_nil]
    exact ⟨h, .refl f⟩
  | cons piece pieces ih =>
    rw [List.flatten_cons, ← List.append_assoc] at hd ⊢
    obtain ⟨hnext, hwaits⟩ := (h.arrives piece).settle (Catalog.decode_prefix_none hd)
    obtain ⟨hrests, hrest⟩ := ih hnext hd
    have hone : Waits f (f.deliver piece) :=
      ⟨hwaits.kind_eq, hwaits.fate_eq, hwaits.taken_eq, hwaits.received_eq, hwaits.idle⟩
    exact ⟨hrests, hone.trans hrest⟩

/-- **What a connection at rest holds is received in order**, and nothing else. -/
theorem Rests.receiveUpTo (h : f.Rests catalog b items) (hd : catalog.decode b = .ok none)
    (htaken : f.taken = true) {n : Nat} (hn : items.length ≤ n) : (f.receiveUpTo n).1 = items := by
  induction n generalizing f items with
  | zero => exact (List.length_eq_zero_iff.mp (Nat.le_zero.mp hn)).symm
  | succ n ih =>
    have hitems := h.items_eq
    have hwanted : (!f.taken || f.dropped) = false := by
      rw [htaken, h.kept]
      rfl
    cases hqueue : f.queue with
    | nil =>
      have hidle : f.inHand = none := by
        cases hx : f.inHand with
        | none => rfl
        | some x =>
          have hfull := h.pressed (by rw [hx]; rfl)
          have hroom := h.room
          rw [hqueue, List.length_nil] at hfull
          omega
      rw [hqueue, hidle] at hitems
      have hreceive : f.receive = (.empty, f) := by
        simp only [receive, hwanted, hqueue, h.reading]
        rfl
      simp only [Feed.receiveUpTo, hreceive]
      exact hitems
    | cons x queue =>
      have hreceive : f.receive = (.item x, { f with queue }.settle) := by
        simp only [receive, hwanted, hqueue]
        rfl
      rw [hqueue, List.cons_append] at hitems
      have hnext : Feed.Holds { f with queue } catalog b (queue ++ f.inHand.toList) :=
        ⟨h.catalog_eq, h.reading, h.lasting, h.kept, h.room, h.front_eq, rfl⟩
      obtain ⟨hrests, hwaits⟩ := hnext.settle hd
      rw [← hitems, List.length_cons] at hn
      have hmore := ih hrests (hwaits.taken_eq.trans htaken) (Nat.le_of_succ_le_succ hn)
      simp only [Feed.receiveUpTo, hreceive, hmore]
      exact hitems

/-- Whoever receives gets all that a connection at rest holds. -/
theorem Rests.receiveAll (h : f.Rests catalog b items) (hd : catalog.decode b = .ok none)
    (htaken : f.taken = true) : f.receiveAll.1 = items := by
  refine h.receiveUpTo hd htaken ?_
  have hhand : f.inHand.toList.length ≤ 1 := by cases f.inHand <;> simp
  rw [← h.items_eq, List.length_append]
  omega

/-! ## One message -/

/-- A connection that holds these items, with none in hand and these octets before it. -/
structure Ready (f : Feed α) (catalog : Catalog) (b : Octets) (items : List α) : Prop
    extends f.Holds catalog b items where
  idle : f.inHand = none

/-- What becomes of a connection when it reads a message that brings an item. -/
structure Brings (f g : Feed α) (catalog : Catalog) (more : Octets) (x : α) (items : List α) : Prop
    extends g.Holds catalog more (items ++ [x]) where
  inHand_eq : g.inHand = some x
  queue_eq : g.queue = f.queue
  fate_eq : g.fate = f.fate
  taken_eq : g.taken = f.taken
  received_eq : g.inbox.received = f.inbox.received + 1

/-- **The message in front is read**, and nothing that stands behind it. -/
theorem Ready.step?_message {m : Message} {x : α} {n : Nat}
    (h : f.Ready catalog b items) (hd : catalog.decode b = .ok (some (m, n)))
    (hx : f.kind.item m = .ok (some x)) :
    ∃ g, f.step? = some g ∧ Brings f g catalog (b.drop n) x items := by
  have ht := Inbox.poll_taken f.inbox f.pipe
  obtain ⟨hcat, hlast⟩ := Inbox.poll_keeps f.inbox f.pipe
  have hfront : f.inbox.front f.pipe = b := h.front_eq
  rw [(h.awaits h.idle).step?_eq]
  generalize f.inbox.poll f.pipe = found at *
  obtain ⟨found, inbox, pipe⟩ := found
  cases ht with
  | message hd' hleft hreceived =>
    rw [h.catalog_eq, hfront, hd] at hd'
    cases hd'
    rw [hfront] at hleft
    have haccept : accept { f with inbox, pipe } m = { f with inbox, pipe, inHand := some x } := by
      simp only [accept, hx]
    simp only [haccept]
    refine ⟨_, rfl, ⟨⟨hcat.trans h.catalog_eq, h.reading, hlast.trans h.lasting, h.kept, h.room, hleft,
      ?_⟩, rfl, rfl, rfl, rfl, hreceived⟩⟩
    rw [← h.queue_eq h.idle]
    rfl
  | stopped _ hall _ _ _ =>
    rw [h.catalog_eq, hfront, Catalog.decodeAll_of_some hd] at hall
    cases hall

/-- A stream in pieces, up to the piece that makes a beginning of it complete. -/
theorem exists_completing {pieces : List Octets} {more : Octets} (hne : b ≠ [])
    (h : pieces.flatten = b ++ more) : ∃ before p after rest, pieces = before ++ p :: after ∧
      before.flatten <+: b ∧ before.flatten ≠ b ∧ before.flatten ++ p = b ++ rest ∧
        rest ++ after.flatten = more := by
  induction pieces generalizing b with
  | nil => exact absurd (List.append_eq_nil_iff.mp h.symm).1 hne
  | cons q qs ih =>
    rw [List.flatten_cons, List.append_eq_append_iff] at h
    obtain ⟨b', rfl, hqs⟩ | ⟨rest, rfl, hmore⟩ := h
    · by_cases hb' : b' = []
      · subst hb'
        rw [List.append_nil] at hne ⊢
        exact ⟨[], q, qs, [], rfl, List.nil_prefix, hne.symm, (List.append_nil q).symm, hqs⟩
      · obtain ⟨before, p, after, rest, rfl, hbefore, hpart, hwhole, hrest⟩ := ih hb' hqs
        refine ⟨q :: before, p, after, rest, rfl, ?_, ?_, ?_, hrest⟩
        · rw [List.flatten_cons]
          exact (List.prefix_append_right_inj q).mpr hbefore
        · rw [List.flatten_cons]
          exact fun hsame => hpart (List.append_cancel_left hsame)
        · rw [List.flatten_cons, List.append_assoc, hwhole, List.append_assoc]
    · exact ⟨[], _, qs, rest, rfl, List.nil_prefix, hne.symm, rfl, hmore.symm⟩

/-- **A message that arrives in pieces is read with the piece that completes it**, and not before. -/
theorem Ready.brings {m : Message} {x : α} {more : Octets} (h : f.Ready catalog [] items)
    (hclear : catalog.Clear) (hm : catalog.Carries m) (hb : m.encode = .ok b)
    (hx : f.kind.item m = .ok (some x)) {pieces : List Octets} (hpieces : pieces.flatten = b ++ more) :
    ∃ before p after rest g, pieces = before ++ p :: after ∧ rest ++ after.flatten = more ∧
      Waits f (before.foldl deliver f) ∧ (before.foldl deliver f).Rests catalog before.flatten items ∧
      (before.foldl deliver f).deliver p = g.settle ∧ Brings f g catalog rest x items := by
  have hdecode : ∀ rest, catalog.decode (b ++ rest) = .ok (some (m, b.length)) :=
    Catalog.decode_encode hclear hm hb
  have hne : b ≠ [] := by
    rintro rfl
    exact absurd (Catalog.decode_consumes (hdecode [])).1 (by decide)
  obtain ⟨before, p, after, rest, rfl, hbefore, hpart, hwhole, hrest⟩ := exists_completing hne hpieces
  have hnone : catalog.decode ([] ++ before.flatten) = .ok none :=
    Catalog.decode_beginning hclear hm hb hbefore hpart
  have hstart : f.Rests catalog [] items := ⟨h.toHolds, by rw [h.idle]; exact nofun⟩
  obtain ⟨hrests, hwaits⟩ := hstart.foldl_deliver before hnone
  have hready : Ready { before.foldl deliver f with
      pipe := (before.foldl deliver f).pipe.deliver p } catalog (b ++ rest) items := by
    have harrives := hrests.arrives p
    rw [List.nil_append, hwhole] at harrives
    exact ⟨harrives, hwaits.idle h.idle⟩
  obtain ⟨g, hstep, hbrings⟩ := hready.step?_message (hdecode rest) (hwaits.kind_eq ▸ hx)
  refine ⟨before, p, after, rest, g, rfl, hrest, hwaits, hrests, settle_of_step? hstep, ?_⟩
  rw [List.drop_left] at hbrings
  have hqueue : (before.foldl deliver f).queue = f.queue := by
    rw [hrests.queue_eq (hwaits.idle h.idle), h.queue_eq h.idle]
  exact ⟨hbrings.toHolds, hbrings.inHand_eq, hbrings.queue_eq.trans hqueue,
    hbrings.fate_eq.trans hwaits.fate_eq, hbrings.taken_eq.trans hwaits.taken_eq,
    hbrings.received_eq.trans (congrArg (· + 1) hwaits.received_eq)⟩

/-- Behind the message the connection comes to rest, if what came behind is no whole message. -/
theorem Brings.rests {x : α} {rest : Octets} (h : Brings f g catalog rest x items)
    {after : List Octets} (hd : catalog.decode (rest ++ after.flatten) = .ok none) :
    (after.foldl deliver g.settle).Rests catalog (rest ++ after.flatten) (items ++ [x]) ∧
      Waits g (after.foldl deliver g.settle) := by
  obtain ⟨hrests, hwaits⟩ := h.toHolds.settle (Catalog.decode_prefix_none hd)
  obtain ⟨hend, hmore⟩ := hrests.foldl_deliver after hd
  exact ⟨hend, hwaits.trans hmore⟩

end Feed

namespace StateFeed

variable {w : StateFeed} {s : State}

/-- What is emitted is one message. -/
theorem emit_inv (h : (w.emit s).1 = .ok ()) :
    ∃ b, s.message.encode = .ok b ∧ (w.emit s).2.pipe.outbound = w.pipe.outbound ++ b := by
  rw [emit, Feed.send] at h ⊢
  rw [Pipe.send] at h ⊢
  cases hb : s.message.encode with
  | error e =>
    rw [hb] at h
    cases h
  | ok b =>
    rw [hb] at h
    cases hwritable : w.pipe.writable with
    | true => exact ⟨b, rfl, rfl⟩
    | false =>
      rw [hwritable] at h
      cases h

/-- The message that emits a state brings it, with its fields in order. -/
theorem item_message (hplain : s.value.Plain Json.Reader.depthLimit) :
    stateFeed.item s.message = .ok (some ⟨s.name, s.value.tidy⟩) := by
  show State.ofMessage (.stateEmit s.name s.value.print) = _
  rw [State.ofMessage, hplain.parse_print]

/-- **A state that is emitted is received**, in whatever pieces it arrives and whatever stands behind it:
with the piece that completes it, and not before, it is in the hand of the connection, which reads on with
the octet behind it. If these octets make no message, the connection comes to rest before them, without an
error, and whoever receives gets the state once. -/
theorem emitted_received (hemit : (w.emit s).1 = .ok ())
    (hplain : s.value.Plain Json.Reader.depthLimit) :
    let received : State := ⟨s.name, s.value.tidy⟩
    (s.value.Ordered → received = s) ∧
      ∃ b, (w.emit s).2.pipe.outbound = w.pipe.outbound ++ b ∧
        ∀ (r : StateFeed) (items : List State), r.kind = stateFeed → r.Ready Catalog.stateMap [] items →
          ∀ (pieces : List Octets) (more : Octets), pieces.flatten = b ++ more →
            let g := pieces.foldl Feed.deliver r
            (∃ before p after rest read, pieces = before ++ p :: after ∧ rest ++ after.flatten = more ∧
              (before.foldl Feed.deliver r).Rests .stateMap before.flatten items ∧
              (before.foldl Feed.deliver r).deliver p = read.settle ∧
              r.Brings read .stateMap rest received items) ∧
            (Catalog.stateMap.decode more = .ok none →
              g.Rests .stateMap more (items ++ [received]) ∧ g.fate = r.fate ∧
              g.inbox.received = r.inbox.received + 1 ∧
              (r.taken = true → g.receiveAll.1 = items ++ [received])) := by
  intro received
  obtain ⟨b, hb, hwritten⟩ := emit_inv hemit
  have hfits : s.message.TextsFit := (Message.textsFit_of_isFrame rfl hb).1
  have hcarries : Catalog.stateMap.Carries s.message := ⟨List.mem_cons_self, ⟨b, hb⟩, hfits⟩
  have hclear : Catalog.stateMap.Clear := Catalog.framed_clear _ (by decide)
  refine ⟨?_, b, hwritten, ?_⟩
  · intro hordered
    show State.mk s.name s.value.tidy = s
    rw [hordered.tidy_eq]
  intro r items hkind hready pieces more hpieces g
  have hitem : r.kind.item s.message = .ok (some received) := by
    rw [hkind]
    exact item_message hplain
  obtain ⟨before, p, after, rest, read, hsplit, hrest, -, hrests, hstep, hbrings⟩ :=
    hready.brings hclear hcarries hb hitem hpieces
  refine ⟨⟨before, p, after, rest, read, hsplit, hrest, hrests, hstep, hbrings⟩, fun hnone => ?_⟩
  have hg : g = after.foldl Feed.deliver read.settle := by
    show pieces.foldl Feed.deliver r = _
    rw [hsplit, List.foldl_append, List.foldl_cons, hstep]
  obtain ⟨hend, hwaits⟩ := hbrings.rests (hrest ▸ hnone)
  rw [hrest, ← hg] at hend
  rw [← hg] at hwaits
  refine ⟨hend, hwaits.fate_eq.trans hbrings.fate_eq, hwaits.received_eq.trans hbrings.received_eq,
    fun htaken => hend.receiveAll hnone ?_⟩
  rw [hwaits.taken_eq, hbrings.taken_eq, htaken]

/-- A connection from which nothing has been read yet. -/
def idle : StateFeed :=
  { kind := stateFeed, inbox := { catalog := .stateMap }, pipe := {}, capacity := 1, taken := true }

/-- A state with objects and arrays in each other, a quote, a control and characters outside the first
plane. -/
def nested : State :=
  ⟨"/𝄞", .obj [("a\"", .arr [.int (-7), .obj []]), ("b", .str "\x01\\𝄞")]⟩

/-- It arrives in two pieces, the second one with the beginning of what comes next. -/
theorem emitted_received_nested : (idle.emit nested).1 = .ok () ∧
    nested.value.Plain Json.Reader.depthLimit ∧ ∃ b, (idle.emit nested).2.pipe.outbound = b ∧
      let g := [b.take 9, b.drop 9 ++ [0, 0]].foldl Feed.deliver idle
      g.front = [0, 0] ∧ g.fate = {} ∧ g.receiveAll.1 = [nested] := by
  have hemit : (idle.emit nested).1 = .ok () := rfl
  have hplain : nested.value.Plain Json.Reader.depthLimit := by
    refine .obj (List.forall_mem_cons.mpr ⟨.arr ?_, List.forall_mem_cons.mpr ⟨.str _, nofun⟩⟩)
    exact List.forall_mem_cons.mpr ⟨.int (by decide) (by decide),
      List.forall_mem_cons.mpr ⟨.obj nofun, nofun⟩⟩
  have hordered : nested.value.Ordered := by
    refine .obj (by decide) (List.forall_mem_cons.mpr ⟨.arr ?_, List.forall_mem_cons.mpr ⟨.str _, nofun⟩⟩)
    exact List.forall_mem_cons.mpr ⟨.int _, List.forall_mem_cons.mpr ⟨.obj .nil nofun, nofun⟩⟩
  obtain ⟨hsame, b, hwritten, hreceived⟩ := emitted_received hemit hplain
  have hready : idle.Ready Catalog.stateMap [] [] := ⟨⟨rfl, rfl, rfl, rfl, by decide, rfl, rfl⟩, rfl⟩
  have hpieces : [b.take 9, b.drop 9 ++ [0, 0]].flatten = b ++ [0, 0] := by
    simp [← List.append_assoc]
  obtain ⟨-, hend⟩ := hreceived idle [] rfl hready _ [0, 0] hpieces
  obtain ⟨hrests, hfate, -, hall⟩ := hend rfl
  rw [hsame hordered] at hall
  exact ⟨hemit, hplain, b, hwritten, hrests.front_eq, hfate, hall rfl⟩

end StateFeed

end BoothLink
