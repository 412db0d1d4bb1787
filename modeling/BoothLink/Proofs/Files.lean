import Mathlib.Data.List.Infix
import BoothLink.Files
import BoothLink.Proofs.Text.Utf8

/-!
# Files after writing

What has been written to a path is read from it. A path goes through folders only, and may go up again; it
cannot go through the file that is written, as that is no folder, and all other folders stay folders.

* `Node.find?_put_apart`: what writing does to the rest of a tree.
* `Files.Keeps`: all folders stay folders.
* **`Files.find_write`**, **`Files.readText_writeText`**: reading after writing.
-/

namespace BoothLink

/-! ## Trees -/

namespace Node

theorem find?_put_same (n new : Node) (name : String) (way other : List String) :
    (n.put (name :: way) new).find? (name :: other) =
      (((n.entries.lookup name).getD (folder [])).put way new).find? other := by
  simp [put, find?, entries]

theorem lookup_filter_ne {α : Type} (l : List (String × α)) {name other : String} (h : other ≠ name) :
    (l.filter (·.1 ≠ name)).lookup other = l.lookup other := by
  induction l with
  | nil => rfl
  | cons entry l ih =>
    by_cases hk : entry.1 = name
    · rw [List.filter_cons_of_neg (by simpa using hk), ih, List.lookup_cons, hk, beq_false_of_ne h]
    · rw [List.filter_cons_of_pos (by simpa using hk), List.lookup_cons, List.lookup_cons, ih]

theorem find?_put_ne (n new : Node) {name name' : String} (h : name' ≠ name) (way other : List String) :
    (n.put (name :: way) new).find? (name' :: other) = n.find? (name' :: other) := by
  rw [put, find?, find?, entries, List.lookup_cons, beq_false_of_ne h]
  simp only [lookup_filter_ne n.entries h]

/-- At the end of a way through something else, there is nothing new, or a folder on the way to what is new. -/
theorem find?_put_apart (n new : Node) {way other : List String} (h : ¬ way <+: other) :
    (∃ entries, (n.put way new).find? other = some (.folder entries)) ∨
      (n.put way new).find? other = n.find? other := by
  induction way generalizing n other with
  | nil => exact absurd List.nil_prefix h
  | cons name way ih =>
    cases other with
    | nil => exact .inl ⟨_, rfl⟩
    | cons name' other =>
      by_cases hname : name' = name
      · subst hname
        have hother : ¬ way <+: other := fun hway => h (List.cons_prefix_cons.mpr ⟨rfl, hway⟩)
        rw [find?_put_same]
        obtain hfolder | hsame := ih ((n.entries.lookup name').getD (folder [])) hother
        · exact .inl hfolder
        · rw [hsame, find?]
          cases n.entries.lookup name' with
          | some inside => exact .inr rfl
          | none =>
            -- What is missing counts as an empty folder.
            cases other with
            | nil => exact .inl ⟨[], rfl⟩
            | cons => exact .inr rfl
      · exact .inr (find?_put_ne n new hname way other)

/-- What is at the end of a longer way is in a folder. -/
theorem find?_of_prefix {n found : Node} {way other : List String} (hway : way <+: other)
    (hne : way ≠ other) (h : n.find? other = some found) :
    ∃ entries, n.find? way = some (.folder entries) := by
  induction way generalizing n other with
  | nil =>
    cases other with
    | nil => exact absurd rfl hne
    | cons name other =>
      cases n with
      | plain content => cases h
      | folder entries => exact ⟨entries, rfl⟩
  | cons name way ih =>
    cases other with
    | nil => exact absurd hway (by simp)
    | cons name' other =>
      obtain ⟨rfl, hinner⟩ := List.cons_prefix_cons.mp hway
      obtain ⟨inside, hinside, h⟩ := Option.bind_eq_some_iff.mp h
      obtain ⟨entries, hentries⟩ := ih hinner (by simpa using hne) h
      exact ⟨entries, Option.bind_eq_some_iff.mpr ⟨inside, hinside, hentries⟩⟩

end Node

namespace Files

variable {f f' : Files} {path : String}

/-! ## Folders that stay -/

/-- All folders stay folders. -/
def Keeps (f f' : Files) : Prop :=
  ∀ w entries, f.entry? w = some (.folder entries) → ∃ entries', f'.entry? w = some (.folder entries')

theorem Keeps.enter (h : Keeps f f') {w w' : Way} {name : String} (hw : f.enter w name = .ok w') :
    f'.enter w name = .ok w' := by
  unfold Files.enter at hw ⊢
  split at hw
  · cases hw
  next hname =>
    rw [if_neg hname]
    split at hw
    next hentry =>
      obtain ⟨entries', hentry'⟩ := h _ _ hentry
      rw [hentry']
      exact hw
    · cases hw
    · cases hw

/-- A path leads to the same place. -/
theorem Keeps.locate (h : Keeps f f') {found : Way × String} (hlocate : f.locate path = .ok found) :
    f'.locate path = .ok found := by
  have hwalk : ∀ (names : List String) (w w' : Way), names.foldlM f.enter w = .ok w' →
      names.foldlM f'.enter w = .ok w' := by
    intro names
    induction names with
    | nil => exact fun _ _ hw => hw
    | cons name names ih =>
      intro w w' hw
      rw [List.foldlM_cons] at hw ⊢
      cases hmid : f.enter w name with
      | error e => rw [hmid] at hw; cases hw
      | ok mid =>
        rw [hmid] at hw
        rw [h.enter hmid]
        exact ih mid w' hw
  unfold Files.locate at hlocate ⊢
  cases hcheck : checkPath path with
  | error e =>
    rw [hcheck] at hlocate
    cases hlocate
  | ok =>
    rw [hcheck] at hlocate
    cases hend : (Way.split path).dropLast.foldlM f.enter (Way.start path) with
    | error e =>
      simp only [bind, Except.bind, hend] at hlocate
      cases hlocate
    | ok w =>
      simp only [bind, Except.bind, hend, hwalk _ _ _ hend] at hlocate ⊢
      exact hlocate

/-- What is found at the end of a way is what is in the tree there, or a folder around us. -/
theorem entry?_of_find? {w : Way} {n : Node} (h : f.tree.find? w.names = some n) : f.entry? w = some n := by
  unfold Files.entry?
  split
  · rw [h, Option.getD_some]
  · exact h

/-- Writing where there is no folder leaves all folders in place. -/
theorem keeps_put {w : Way} {name : String} (hname : name ≠ Way.upName)
    (hfree : ∀ entries, f.entry? ⟨w.names ++ [name]⟩ ≠ some (.folder entries)) (content : Octets) :
    Keeps f (f.put ⟨w.names ++ [name]⟩ (.plain content)) := by
  intro v entries hv
  -- What is behind the new file would have been in a folder in its place.
  have hapart : ¬ w.names ++ [name] <+: v.names := by
    intro hway
    by_cases hsame : w.names ++ [name] = v.names
    · rw [hsame] at hfree
      exact hfree entries hv
    · have hspecial : ¬ (v.isAbove || v = .root) = true := by
        intro hspecial
        rw [Bool.or_eq_true, decide_eq_true_eq] at hspecial
        obtain habove | hroot := hspecial
        · have hmem : name ∈ v.names := hway.subset (List.mem_append_right _ List.mem_cons_self)
          have hall := List.all_eq_true.mp habove name hmem
          exact hname (by simpa using hall)
        · have hlength := hway.length_le
          rw [hroot] at hlength hsame hway
          exact hsame (hway.eq_of_length_le (by simp [Way.root]))
      rw [Files.entry?, if_neg hspecial] at hv
      obtain ⟨inside, hinside⟩ := Node.find?_of_prefix hway hsame hv
      exact hfree inside (entry?_of_find? hinside)
  obtain ⟨inside, hinside⟩ | hsame :=
    Node.find?_put_apart f.tree (.plain content) hapart
  · exact ⟨inside, entry?_of_find? hinside⟩
  · refine ⟨entries, ?_⟩
    rw [← hv, Files.entry?, Files.entry?, Files.put, hsame]

/-! ## Reading after writing -/

/-- **What has been written is found.** -/
theorem find_write {content : Octets} (h : f.write path content = .ok f') :
    f'.find path = .ok (.plain content) := by
  unfold Files.write at h
  cases hlocate : f.locate path with
  | error e =>
    rw [hlocate] at h
    cases h
  | ok found =>
    obtain ⟨w, name⟩ := found
    simp only [bind, Except.bind, hlocate] at h
    split at h
    · cases h
    next hplace =>
      split at h
      · cases h
      next hlong =>
        split at h
        · cases h
        next hfree =>
          simp only [Bool.or_eq_true, decide_eq_true_eq, not_or] at hplace
          obtain ⟨⟨hdot, hup⟩, hslash⟩ := hplace
          have honward : w.onward name = ⟨w.names ++ [name]⟩ := by
            rw [Way.onward, if_neg hdot, if_neg hup]
          rw [honward] at h hfree
          cases h
          have hkeeps := keeps_put hup hfree content
          have hentry := entry?_of_find? (f := f.put ⟨w.names ++ [name]⟩ (.plain content))
            (w := ⟨w.names ++ [name]⟩) (Node.find?_put f.tree _ (.plain content))
          unfold Files.find
          simp only [bind, Except.bind, hkeeps.locate hlocate, if_neg hlong, honward, hentry, hslash]
          rfl

/-- **A text that has been written is read again.** -/
theorem readText_writeText {s : String} (h : f.writeText path s = .ok f') :
    f'.contains path = true ∧ f'.readText path = .ok s := by
  have hfind := find_write h
  refine ⟨by rw [Files.contains, hfind]; rfl, ?_⟩
  simp only [Files.readText, Files.read, hfind, Utf8.decode_encode, String.ofList_toList]

end Files

end BoothLink
