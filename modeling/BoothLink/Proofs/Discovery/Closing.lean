import BoothLink.Proofs.Discovery.AnnounceState

/-!
# Closing a listener

Closing tells the network that we leave if announcements recur, and says nothing otherwise: whoever has
announced us by single calls has to take that back first. A listener that is closed still does so when it
is told to, and it still announces us: only what begins something that goes on is refused.

* `Listener.calls`: the single calls for our arrival and departure.
* `Listener.closed_after`, `Listener.recurs_after`, `Listener.idle_after`: a listener by what has happened
  to it.
* `Listener.Shut.told_after`: what is told after closing.
* **`Listener.close_leaves_iff`**: when closing leaves the network, and what comes after.
* **`Listener.not_always_leaves`**: it may not leave.
-/

namespace BoothLink

namespace Listener

variable {s l : Listener} {m : Move} {ms : List Move} {options : ListenerOptions} {fresh : Token}

/-- What a single call tells the network. -/
def Move.call? : Move → Option Action
  | announce => some .howdy
  | unannounce => some .exit
  | _ => none

/-- The single calls for our arrival and departure. -/
def calls (ms : List Move) : List Action := ms.filterMap Move.call?

theorem calls_snoc (ms : List Move) (m : Move) : calls (ms ++ [m]) = calls ms ++ m.call?.toList := by
  rw [calls, List.filterMap_append]
  cases m <;> rfl

theorem closed_after (l : Listener) (ms : List Move) :
    (l.after ms).closed = (decide (.close ∈ ms) || l.closed) := by
  induction ms using List.reverseRecOn with
  | nil => rfl
  | append_singleton ms m ih =>
    rw [after_snoc, (state_move _ m).2.1, ih, ← Bool.or_assoc]
    congr 1
    by_cases hm : m = .close <;> simp [hm, eq_comm]

theorem open_after (hclose : .close ∉ ms) : ((bind options fresh).after ms).closed = false := by
  rw [closed_after, decide_eq_false hclose]
  rfl

theorem recurs_after (hclose : .close ∉ ms) :
    ((bind options fresh).after ms).announcer.isSome = true ↔
      ∃ interval, 0 < interval ∧ .announceEvery interval ∈ ms := by
  induction ms using List.reverseRecOn with
  | nil => simp [after, bind]
  | append_singleton ms m ih =>
    have hbefore : Move.close ∉ ms := fun h => hclose (List.mem_append_left _ h)
    have hopen : ((bind options fresh).after ms).closed = false := open_after hbefore
    have hlater : ∀ interval, Move.announceEvery interval ∈ ms ++ [m] ↔
        .announceEvery interval ∈ ms ∨ m = .announceEvery interval := by
      intro interval
      rw [List.mem_append, List.mem_singleton, eq_comm]
    rw [after_snoc, announcer_move]
    simp only [hlater]
    cases m with
    | announceEvery interval =>
      cases hrecurs : ((bind options fresh).after ms).announcer.isSome with
      | true =>
        obtain ⟨interval', hpos, hmem⟩ := (ih hbefore).mp hrecurs
        rw [Bool.or_true]
        exact iff_of_true rfl ⟨interval', hpos, .inl hmem⟩
      | false =>
        have hnone : ∀ i, 0 < i → Move.announceEvery i ∉ ms := by
          intro i hpos hmem
          rw [(ih hbefore).mpr ⟨i, hpos, hmem⟩] at hrecurs
          cases hrecurs
        simp only [joins, hopen, hrecurs, Bool.or_false]
        constructor
        · intro hpos
          exact ⟨interval, by simpa using hpos, .inr rfl⟩
        · rintro ⟨i, hpos, hmem | hsame⟩
          · exact absurd hmem (hnone i hpos)
          · cases hsame
            simpa using hpos
    | close => exact absurd (List.mem_append_right ms (List.mem_singleton_self _)) hclose
    | _ => simpa using ih hbefore

/-- Without recurring announcements a listener is idle unless the last single call was for our arrival. -/
theorem idle_after (hrecurs : ∀ interval, 0 < interval → .announceEvery interval ∉ ms)
    (hclose : .close ∉ ms) :
    ((bind options fresh).after ms).announceState = .idle ↔ (calls ms).getLast? ≠ some .howdy := by
  induction ms using List.reverseRecOn with
  | nil => exact iff_of_true rfl nofun
  | append_singleton ms m ih =>
    obtain ⟨hbefore, hlast⟩ := not_or.mp (mt List.mem_append.mpr hclose)
    have hstill : ∀ interval, 0 < interval → Move.announceEvery interval ∉ ms :=
      fun i hpos hmem => hrecurs i hpos (List.mem_append_left _ hmem)
    rw [after_snoc, (state_move _ m).1, calls_snoc]
    cases m with
    | announce => simp [joins, Move.call?]
    | unannounce => simp [joins, leaves, Move.call?]
    | announceEvery interval =>
      have hzero : ¬ 0 < interval :=
        fun hpos => hrecurs interval hpos (List.mem_append_right _ (List.mem_singleton_self _))
      simpa [joins, leaves, Move.call?, hzero] using ih hstill hbefore
    | close => exact absurd (List.mem_singleton_self _) hlast
    | _ => simpa [joins, leaves, Move.call?] using ih hstill hbefore

/-! ## After closing -/

/-- A listener that is closed, and on which nothing recurs. -/
structure Shut (l : Listener) : Prop where
  closed : l.closed = true
  silent : l.announcer.isSome = false

theorem Shut.move (h : l.Shut) (m : Move) : (l.move m).Shut := by
  refine ⟨?_, ?_⟩
  · rw [(state_move l m).2.1, h.closed, Bool.or_true]
  · rw [announcer_move]
    cases m <;> simp [joins, h.closed, h.silent]

/-- On such a listener only the single calls tell the network anything. -/
theorem Shut.told_move (h : l.Shut) (hreaches : l.Reaches) (m : Move) :
    (l.move m).told = l.told ++ m.call?.toList.flatMap (List.replicate l.reach) := by
  obtain ⟨hjoined, hleft, hgone⟩ := hreaches.told_move m
  cases hjoins : l.joins m with
  | true =>
    have hm : m = .announce := by
      cases m with
      | announce => rfl
      | announceEvery interval => simp [joins, h.closed] at hjoins
      | _ => cases hjoins
    subst hm
    exact (hjoined hjoins).trans (congrArg _ (List.append_nil _).symm)
  | false =>
    cases hleaves : l.leaves m with
    | true =>
      have hm : m = .unannounce := by
        cases m with
        | unannounce => rfl
        | close => simp [leaves, h.closed] at hleaves
        | _ => cases hleaves
      subst hm
      exact (hleft hleaves).trans (congrArg _ (List.append_nil _).symm)
    | false =>
      have hcall : m.call? = none := by
        cases m with
        | announce => cases hjoins
        | unannounce => cases hleaves
        | _ => rfl
      obtain ⟨k, htold, hnone⟩ := hgone hjoins hleaves
      have hsilent : l.announcer = none :=
        Option.not_isSome_iff_eq_none.mp (by rw [h.silent]; exact Bool.false_ne_true)
      rw [htold, hnone hsilent, hcall]
      rfl

theorem Shut.told_after (h : l.Shut) (hreaches : l.Reaches) (more : List Move) :
    (l.after more).told = l.told ++ (calls more).flatMap (List.replicate l.reach) := by
  induction more generalizing l with
  | nil => exact (List.append_nil _).symm
  | cons m more ih =>
    obtain ⟨hreached, hreach⟩ := hreaches.move m
    have hcalls : calls (m :: more) = m.call?.toList ++ calls more := by cases m <;> rfl
    have hlater := ih (h.move m) hreached
    rw [h.told_move hreaches, hreach, List.append_assoc, ← List.flatMap_append, ← hcalls] at hlater
    exact hlater

/-- A listener is closed once, and then nothing recurs on it. -/
theorem shut_close (h : l.Tells) : l.close.2.Shut := by
  have hclosed : l.close.2.closed = true := (state_move l .close).2.1
  exact ⟨hclosed, h.closed_move .close hclosed⟩

theorem close_ok_iff (l : Listener) : l.close.1 = .ok () ↔ l.closed = false := by
  cases hclosed : l.closed with
  | true =>
    rw [close_refused hclosed]
    exact iff_of_false (by intro h; cases h) (by intro h; cases h)
  | false =>
    rw [close, if_neg (by rw [hclosed]; exact Bool.false_ne_true)]
    exact iff_of_true rfl rfl

/-! ## Leaving -/

/-- The network takes us to have left: the listener is idle, and if the network was ever told that we are
here, it was last told that we leave. -/
def Left (l : Listener) : Prop :=
  l.announceState = .idle ∧ (.howdy ∈ l.told → l.told.getLast? = some .exit)

theorem Tells.close_left_iff (h : l.Tells) (hreaches : l.Reaches) (hopen : l.closed = false) :
    l.close.2.Left ↔ l.announcer.isSome = true ∨ l.announceState = .idle := by
  cases hrecurs : l.announcer.isSome with
  | true =>
    have hleaves : l.leaves .close = true := by rw [leaves, hopen, hrecurs]; rfl
    have htold : l.close.2.told = _ := (hreaches.told_move .close).2.1 hleaves
    refine iff_of_true ⟨?_, fun _ => ?_⟩ (.inl rfl)
    · rw [close_recurring hopen hrecurs]
    · rw [htold]
      exact getLast?_append_replicate _ _ hreaches.pos
  | false =>
    have hsame : l.close.2.announceState = l.announceState ∧ l.close.2.told = l.told := by
      rw [close_silent hopen hrecurs]
      exact ⟨rfl, rfl⟩
    rw [Left, hsame.1, hsame.2]
    constructor
    · exact fun hleft => .inr hleft.1
    · rintro (hsome | hidle)
      · cases hsome
      · refine ⟨hidle, fun hmem => ?_⟩
        have hnot : l.told.getLast? ≠ some .howdy := by
          intro hlast
          rw [h.idle hidle hlast] at hrecurs
          cases hrecurs
        obtain hnone | hexit := last_of_not_howdy hnot
        · rw [hnone] at hmem
          cases hmem
        · exact hexit

/-- **Closing succeeds once. It leaves the network if announcements recur, and otherwise only if the last
single call was not for our arrival. After it the network is told what single calls tell, our arrival
included, and nothing else.** -/
theorem close_leaves_iff {options : ListenerOptions} {fresh : Token}
    (hreaches : (bind options fresh).Reaches) (ms more : List Move) :
    let l := (bind options fresh).after ms
    let c := l.close.2
    (l.close.1 = .ok () ↔ .close ∉ ms) ∧
      (l.close.1 = .ok () → (c.Left ↔ (∃ interval, 0 < interval ∧ .announceEvery interval ∈ ms) ∨
        (calls ms).getLast? ≠ some .howdy)) ∧
      ∃ said, (c.after more).told = c.told ++ said ∧
        said = (calls more).flatMap (List.replicate c.reach) ∧ (.howdy ∈ said ↔ .announce ∈ more) := by
  intro l c
  have htells : l.Tells := (tells_bind options fresh).after hreaches ms
  obtain ⟨hreached, -⟩ := hreaches.after ms
  have hok : l.close.1 = .ok () ↔ .close ∉ ms := by
    rw [close_ok_iff, closed_after]
    simp [bind]
  refine ⟨hok, fun hclose => ?_, (calls more).flatMap (List.replicate c.reach), ?_, rfl, ?_⟩
  · have hnot : Move.close ∉ ms := hok.mp hclose
    rw [htells.close_left_iff hreached ((close_ok_iff l).mp hclose), recurs_after hnot]
    by_cases hrecurs : ∃ interval, 0 < interval ∧ Move.announceEvery interval ∈ ms
    · exact iff_of_true (.inl hrecurs) (.inl hrecurs)
    · rw [or_iff_right hrecurs, or_iff_right hrecurs]
      exact idle_after (fun i hpos hmem => hrecurs ⟨i, hpos, hmem⟩) hnot
  · exact (shut_close htells).told_after (hreached.move .close).1 more
  · have hpos : 0 < c.reach := (hreached.move .close).1.pos
    rw [List.mem_flatMap]
    constructor
    · rintro ⟨action, haction, hmem⟩
      obtain ⟨-, rfl⟩ := List.mem_replicate.mp hmem
      obtain ⟨m, hm, hcall⟩ := List.mem_filterMap.mp haction
      cases m with
      | announce => exact hm
      | _ => cases hcall
    · intro hmem
      refine ⟨.howdy, List.mem_filterMap.mpr ⟨.announce, hmem, rfl⟩, ?_⟩
      exact List.mem_replicate.mpr ⟨Nat.ne_of_gt hpos, rfl⟩

/-- Closing takes back what recurs, but not a single call. -/
theorem close_leaves_iff_booth : (bind booth .zero).Reaches ∧
    ((bind booth .zero).after [.announceEvery 20]).close.2.Left ∧
      ¬ ((bind booth .zero).after [.announce]).close.2.Left := by
  obtain ⟨-, hrecurring, -⟩ := close_leaves_iff reaches_booth [.announceEvery 20] []
  obtain ⟨-, hsingle, -⟩ := close_leaves_iff reaches_booth [.announce] []
  refine ⟨reaches_booth, (hrecurring rfl).mpr (.inl ⟨20, by decide, by decide⟩), fun hleft => ?_⟩
  rcases (hsingle rfl).mp hleft with ⟨interval, -, hmem⟩ | hlast
  · cases List.mem_singleton.mp hmem
  · exact hlast rfl

/-- **A listener may close without leaving the network.** -/
theorem not_always_leaves : ¬ ∀ (options : ListenerOptions) (fresh : Token),
    (bind options fresh).Reaches → ∀ ms : List Move,
      let c := ((bind options fresh).after ms).close
      c.1 = .ok () → c.2.Left ∧
        ∀ more : List Move, ∃ said, (c.2.after more).told = c.2.told ++ said ∧ .howdy ∉ said := by
  intro hall
  obtain ⟨hidle, -⟩ := (hall booth .zero reaches_booth [.announce] rfl).1
  have hpresent : ((bind booth .zero).after [.announce]).close.2.announceState =
      .announcing .present := rfl
  rw [hpresent] at hidle
  cases hidle

end Listener

end BoothLink
