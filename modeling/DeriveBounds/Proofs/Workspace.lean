import DeriveBounds.Written

/-!
Writing and then reading. A write puts a file where there is no directory, so whatever leads along
directories still leads to the same place, and what was saved under a path is read under it.
-/
namespace DeriveBounds.Workspace

variable {workspace changed : Workspace} {location other : Location} {entry : Entry} {path : Path}
  {text : String} {written : Written}

theorem lookup_filter_ne {entries : List (Location × Entry)} (differs : other ≠ location) :
    (entries.filter fun entry => entry.1 ≠ location).lookup other = entries.lookup other := by
  induction entries with
  | nil => rfl
  | cons first rest ih =>
    rw [List.filter_cons, List.lookup_cons]
    split
    · rw [List.lookup_cons, ih]
    · rename_i dropped
      have same : first.1 = location := by simpa using dropped
      have passed : (other == first.1) = false := by simpa [same] using differs
      simp only [passed, ih]

theorem entryAt?_put_ne (differs : other ≠ location) :
    (workspace.put location entry).entryAt? other = workspace.entryAt? other := by
  have passed : (other == location) = false := by simpa using differs
  simp only [entryAt?, put, List.lookup_cons, passed, lookup_filter_ne differs]

/-- What is put outside of `home` is found again. -/
theorem entryAt?_put_self (outside : location.isPrefixOf workspace.home = false) :
    (workspace.put location entry).entryAt? location = some entry := by
  simp [entryAt?, put, outside]

/-- Where all directories of one workspace are directories, paths lead where they led. -/
theorem follow_mono (kept : ∀ location, workspace.entryAt? location = some .directory →
      changed.entryAt? location = some .directory) {parts : List String} {start : Location}
    (found : workspace.follow start parts = .ok location) :
    changed.follow start parts = .ok location := by
  induction parts generalizing start with
  | nil => exact found
  | cons part rest ih =>
    rw [follow] at found ⊢
    split at found
    · cases found
    · cases found
    · rename_i directory
      rw [kept start directory]
      split at found
      · cases found
      · rename_i short
        simp only [short, ↓reduceIte]
        exact ih found

theorem locate_mono (kept : ∀ location, workspace.entryAt? location = some .directory →
      changed.entryAt? location = some .directory)
    (found : workspace.locate path = .ok location) (home : changed.home = workspace.home) :
    changed.locate path = .ok location := by
  unfold locate at found ⊢
  rw [home]
  split at found
  · cases found
  · split at found
    · cases found
    · rename_i clean short
      simp only [clean, short, Bool.false_eq_true, ↓reduceIte]
      exact follow_mono kept found

/-- A text that was written to a path is read from it. -/
theorem read_of_write (wrote : workspace.write path text = .ok (changed, location)) :
    changed.read path = .ok text := by
  unfold write at wrote
  split at wrote
  · cases wrote
  · rename_i target found
    split at wrote
    · cases wrote
    · rename_i free
      cases wrote
      have kept : ∀ other, workspace.entryAt? other = some .directory →
          (workspace.put location (.file text)).entryAt? other = some .directory := by
        intro other directory
        have differs : other ≠ location := fun same => free (same ▸ directory)
        rw [entryAt?_put_ne differs, directory]
      have outside : location.isPrefixOf workspace.home = false := by
        rw [← Bool.not_eq_true]
        exact fun above => free (if_pos above)
      have leads : (workspace.put location (.file text)).locate path = .ok location :=
        locate_mono kept found rfl
      rw [read, leads]
      simp only [entryAt?_put_self outside]

/-- Without parts a path leads to the root or to `home`, and neither is a file. -/
theorem parts_ne_nil_of_read (read : workspace.read path = .ok text) : path.parts ≠ [] := by
  intro empty
  have directory : ∀ location, workspace.locate path = .ok location →
      workspace.entryAt? location = some .directory := by
    intro location found
    unfold locate at found
    rw [empty] at found
    split at found
    · cases found
    · split at found
      · cases found
      · cases found
        unfold entryAt?
        split <;> simp
  unfold Workspace.read at read
  split at read
  · cases read
  · rename_i location found
    rw [directory location found] at read
    cases read

/-- What was saved under a path is read from it, and its bytes are counted. -/
theorem read_of_save (saved : workspace.save path text = (changed, .ok written)) :
    changed.read path = .ok text ∧ written.byteCount = text.utf8ByteSize := by
  unfold save at saved
  split at saved
  · cases saved
  · split at saved
    · cases saved
    · rename_i wrote
      cases saved
      exact ⟨read_of_write wrote, rfl⟩

end DeriveBounds.Workspace
