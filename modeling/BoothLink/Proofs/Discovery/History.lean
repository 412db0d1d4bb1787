import BoothLink.Proofs.Discovery.ScanEvents
import Mathlib.Data.List.DropRight
import Mathlib.Data.List.Dedup
import Mathlib.Data.List.Perm.Basic

/-!
# What a registry says of its history

A registry that has seen sightings of many devices holds, for each identity that was present when it was last
seen, the device of the first sighting since it was away, and nothing else. Where later sightings came from
makes no difference, neither to what is held nor to what is told.

* `Registry.lastly`, `Registry.standing`, `Registry.lastEvent`: what a history says of one identity.
* `Registry.held_after`: what is held after a history; `Registry.standing_iff_lastEvent`: the arrival that was
  told last is of the device that is held.
* **`Registry.after_history`**: what is held, counted and told after any history.
-/

namespace BoothLink

namespace Registry

/-- The sightings of an identity, the oldest first. -/
def sightings (ss : List Sighting) (id : Identity) : List Sighting := ss.filter (·.1.identity = id)

/-- What was said of an identity last. -/
def lastly (ss : List Sighting) (id : Identity) : Option Presence := (sightings ss id).getLast?.map (·.2)

/-- The device of the first sighting of an identity since it was away. -/
def standing (ss : List Sighting) (id : Identity) : Option Device :=
  ((sightings ss id).rtakeWhile (·.2 = .present)).head?.map (·.1)

/-- The event about an identity that came last. -/
def lastEvent (ss : List Sighting) (id : Identity) : Option DiscoveryEvent :=
  ((changes {} ss).filter (·.isAbout id)).getLast?

/-- What a sighting says, wherever it came from. -/
def told (s : Sighting) : Identity × Presence := (s.1.identity, s.2)

variable {r : Registry} {d e : Device} {p : Presence} {id : Identity} {ss ts : List Sighting}

/-! ## One sighting more -/

theorem sightings_snoc (s : Sighting) :
    sightings (ss ++ [s]) id = sightings ss id ++ if s.1.identity = id then [s] else [] := by
  simp only [sightings, List.filter_append, List.filter_singleton, Bool.cond_decide]

theorem lastly_snoc (d : Device) (p : Presence) : lastly (ss ++ [(d, p)]) id =
    if d.identity ≠ id then lastly ss id else some p := by
  rw [lastly, sightings_snoc]
  by_cases hid : d.identity = id <;> simp [hid, lastly]

theorem standing_snoc (d : Device) (p : Presence) : standing (ss ++ [(d, p)]) id =
    if d.identity ≠ id then standing ss id
    else if p = .leaving then none else (standing ss id).or (some d) := by
  rw [standing, sightings_snoc]
  by_cases hid : d.identity = id
  · subst hid
    cases p with
    | leaving => simp
    | present =>
      have hrun := List.rtakeWhile_concat_pos (fun s : Sighting => s.2 = .present)
        (sightings ss d.identity) (d, .present) rfl
      rw [if_pos rfl, hrun, List.head?_append, Option.map_or, if_neg (not_not.mpr rfl), if_neg nofun]
      rfl
  · simp [hid, standing]

theorem after_snoc (s : Sighting) : after {} (ss ++ [s]) = ((after {} ss).observe s.1 s.2).2 :=
  after_append

theorem lastEvent_snoc (s : Sighting) : lastEvent (ss ++ [s]) id =
    (((after {} ss).observe s.1 s.2).1.toList.filter (·.isAbout id)).getLast?.or (lastEvent ss id) := by
  rw [lastEvent, changes_snoc, List.filter_append, List.getLast?_append, lastEvent]

/-! ## Histories -/

/-- **What is held of an identity after a history** is the device of the first sighting since it was away. -/
theorem held_after (ss : List Sighting) (id : Identity) :
    (after {} ss).held id = (standing ss id).toList := by
  induction ss using List.reverseRecOn with
  | nil => rfl
  | append_singleton ss s ih =>
    rw [after_snoc, held_observe, standing_snoc s.1 s.2, ih]
    cases standing ss id <;> split_ifs <;> simp_all

theorem find?_after (ss : List Sighting) (id : Identity) : (after {} ss).find? id = standing ss id := by
  rw [find?_eq_head?, held_after]
  cases standing ss id <;> rfl

/-- A device is held as long as its identity was present when it was last seen. -/
theorem standing_isSome (ss : List Sighting) (id : Identity) :
    (standing ss id).isSome = true ↔ lastly ss id = some .present := by
  induction ss using List.reverseRecOn with
  | nil => simp [standing, lastly, sightings]
  | append_singleton ss s ih =>
    rw [standing_snoc s.1 s.2, lastly_snoc s.1 s.2]
    cases s.2 <;> split_ifs <;> simp_all

/-- **The arrival that was told last is of the device that is held**, if nothing was told after it. -/
theorem standing_iff_lastEvent (ss : List Sighting) (id : Identity) (e : Device) :
    standing ss id = some e ↔ lastEvent ss id = some (.found e) := by
  induction ss using List.reverseRecOn with
  | nil => simp [standing, lastEvent, sightings, changes, Machine.along]
  | append_singleton ss s ih =>
    obtain ⟨d, p⟩ := s
    rw [lastEvent_snoc, standing_snoc]
    by_cases hid : d.identity = id
    · subst hid
      have hfind := find?_after ss d.identity
      cases hstand : standing ss d.identity with
      | none =>
        rw [hstand] at hfind ih
        cases p with
        | present => simp [observe, hfind, DiscoveryEvent.isAbout, DiscoveryEvent.device]
        | leaving => simpa [observe, hfind] using ih
      | some held =>
        rw [hstand] at hfind ih
        have hheld : held.identity = d.identity := identity_of_find? hfind
        cases p with
        | present => simpa [observe, hfind] using ih
        | leaving => simp [observe, hfind, DiscoveryEvent.isAbout, DiscoveryEvent.device, hheld]
    · rw [if_pos hid, observe_other _ _ hid, List.getLast?_nil, Option.none_or]
      exact ih

/-! ## What is told, and how many are held -/

theorem observe_found_iff (ss : List Sighting) (d : Device) (p : Presence) (e : Device) :
    ((after {} ss).observe d p).1 = some (.found e) ↔
      p = .present ∧ lastly ss d.identity ≠ some .present ∧ e = d := by
  rw [ne_eq, ← standing_isSome, ← find?_after]
  cases hfound : (after {} ss).find? d.identity <;> cases p <;> simp [observe, hfound, eq_comm]

theorem observe_lost_iff (ss : List Sighting) (d : Device) (p : Presence) (e : Device) :
    ((after {} ss).observe d p).1 = some (.lost e) ↔
      p = .leaving ∧ lastEvent ss d.identity = some (.found e) := by
  rw [← standing_iff_lastEvent, ← find?_after]
  cases hfound : (after {} ss).find? d.identity <;> cases p <;> simp [observe, hfound]

theorem contains_after (ss : List Sighting) (d : Device) :
    (after {} ss).contains d = decide (lastly ss d.identity = some .present) := by
  rw [contains, find?_after, Bool.eq_iff_iff, standing_isSome, decide_eq_true_iff]

theorem observe_none_iff (ss : List Sighting) (d : Device) (p : Presence) :
    ((after {} ss).observe d p).1 = none ↔ (p = .present ↔ lastly ss d.identity = some .present) := by
  rw [← standing_isSome, ← find?_after]
  cases hfound : (after {} ss).find? d.identity <;> cases p <;> simp [observe, hfound]

theorem exists_of_lastly (h : lastly ss id = some p) : ∃ s ∈ ss, s.1.identity = id := by
  obtain ⟨s, hlast, -⟩ := Option.map_eq_some_iff.mp h
  obtain ⟨hmem, hid⟩ := List.mem_filter.mp (List.mem_of_getLast? hlast)
  exact ⟨s, hmem, of_decide_eq_true hid⟩

/-- **The identities that are held, each once**, are those that were present when they were last seen. -/
theorem identities_after (ss : List Sighting) : ((after {} ss).devices.map (·.identity)).Perm
    ((ss.map (·.1.identity)).dedup.filter (lastly ss · = some .present)) := by
  have hcount : ∀ id, ((after {} ss).devices.map (·.identity)).count id = (standing ss id).toList.length := by
    intro id
    rw [← held_after, held, ← List.countP_eq_length_filter, List.count, List.countP_map]
    rfl
  have hnodup : ((after {} ss).devices.map (·.identity)).Nodup := by
    rw [List.nodup_iff_count_le_one]
    intro id
    rw [hcount]
    cases standing ss id <;> simp
  refine (List.perm_ext_iff_of_nodup hnodup ((List.nodup_dedup _).filter _)).mpr fun id => ?_
  have hheld : id ∈ (after {} ss).devices.map (·.identity) ↔ lastly ss id = some .present := by
    rw [← List.count_pos_iff, hcount, ← standing_isSome]
    cases standing ss id <;> simp
  rw [hheld, List.mem_filter, List.mem_dedup, List.mem_map, decide_eq_true_iff]
  exact ⟨fun h => ⟨exists_of_lastly h, h⟩, And.right⟩

theorem size_after (ss : List Sighting) : (after {} ss).size =
    ((ss.map (·.1.identity)).dedup.filter (lastly ss · = some .present)).length := by
  rw [← (identities_after ss).length_eq, List.length_map, size]

/-! ## Where sightings come from -/

theorem lastly_eq_told (ss : List Sighting) (id : Identity) :
    lastly ss id = ((ss.map told).filter (·.1 = id)).getLast?.map (·.2) := by
  rw [List.filter_map, List.getLast?_map, Option.map_map]
  rfl

/-- What was said last of each identity does not tell where from. -/
theorem lastly_congr (h : ts.map told = ss.map told) : lastly ts = lastly ss := by
  funext id
  rw [lastly_eq_told, lastly_eq_told, h]

theorem size_congr (h : ts.map told = ss.map told) : (after {} ts).size = (after {} ss).size := by
  have hids : ts.map (·.1.identity) = ss.map (·.1.identity) := by
    have hfst := congrArg (List.map Prod.fst) h
    rwa [List.map_map, List.map_map] at hfst
  rw [size_after, size_after, hids, lastly_congr h]

theorem contains_congr (h : ts.map told = ss.map told) {d d' : Device} (hid : d'.identity = d.identity) :
    (after {} ts).contains d' = (after {} ss).contains d := by
  rw [contains_after, contains_after, hid, lastly_congr h]

/-! ## Any history -/

/-- **A registry after any history** holds one device of each identity that was present when it was last seen,
and none of any other: that of the first sighting since it was away. The next sighting tells of an arrival if
its device is present and was away, of a departure if it leaves and was held, with the device of the arrival
that was told last, and of nothing otherwise. What is there, and how many, is the same wherever the devices
were seen. -/
theorem after_history (ss : List Sighting) :
    let r := after {} ss
    (∀ id, r.held id = (standing ss id).toList ∧
      ((standing ss id).isSome = true ↔ lastly ss id = some .present)) ∧
    (∀ d p,
      (∀ e, (r.observe d p).1 = some (.found e) ↔
        p = .present ∧ lastly ss d.identity ≠ some .present ∧ e = d) ∧
      (∀ e, (r.observe d p).1 = some (.lost e) ↔
        p = .leaving ∧ lastEvent ss d.identity = some (.found e)) ∧
      ((r.observe d p).1 = none ↔ (p = .present ↔ lastly ss d.identity = some .present))) ∧
    (∀ id e, lastEvent ss id = some (.found e) ↔ standing ss id = some e) ∧
    (∀ d, r.contains d = decide (lastly ss d.identity = some .present)) ∧
    r.size = ((ss.map (·.1.identity)).dedup.filter (lastly ss · = some .present)).length ∧
    ∀ ts, ts.map told = ss.map told → (after {} ts).size = r.size ∧
      ∀ d d', d'.identity = d.identity → (after {} ts).contains d' = r.contains d := by
  refine ⟨fun id => ⟨held_after ss id, standing_isSome ss id⟩, fun d p => ⟨observe_found_iff ss d p,
    observe_lost_iff ss d p, observe_none_iff ss d p⟩, fun id e => (standing_iff_lastEvent ss id e).symm,
    contains_after ss, size_after ss, fun ts h => ⟨size_congr h, fun d d' hid => contains_congr h hid⟩⟩

/-- A laptop, seen at some port. -/
def laptopAt (port : UInt16) : Device := ⟨.loopback, port, Profile.laptop.identity⟩

/-- A laptop that has moved and leaves is told to have left as it came, and is there wherever one asks. -/
theorem after_history_moved :
    let ss := [(laptopAt 1, .present), (laptopAt 2, .present)]
    let ts := [(laptopAt 3, .present), (laptopAt 3, .present)]
    ts.map told = ss.map told ∧
      ((after {} ss).observe (laptopAt 2) .leaving).1 = some (.lost (laptopAt 1)) ∧
      (after {} ts).size = (after {} ss).size ∧ (after {} ts).contains (laptopAt 4) = true := by
  intro ss ts
  have htold : ts.map told = ss.map told := rfl
  obtain ⟨-, hbrings, hlast, hcontains, -, hwhere⟩ := after_history ss
  have hfound : lastEvent ss Profile.laptop.identity = some (.found (laptopAt 1)) := (hlast _ _).mpr rfl
  obtain ⟨hsize, hsame⟩ := hwhere ts htold
  refine ⟨htold, ((hbrings _ _).2.1 _).mpr ⟨rfl, hfound⟩, hsize, ?_⟩
  rw [hsame (laptopAt 1) (laptopAt 4) rfl, hcontains]
  rfl

end Registry

end BoothLink
