import Workforce.FileTree
import Workforce.Proofs.Named

/-!
# Files only grow

Opening a file for appending and writing to it keep whatever is in a tree: directories stay,
and files hold what they held before, with what was written behind it.  `FileTree.Grows`
says so of any number of such changes that write to one place at most.

* `FileTree.grows_openAppend`: opening a file adds an empty one at most;
* `FileTree.grows_append`: writing a chunk adds it to the end of one file;
* `FileTree.Grows.trans`: such changes can be made one after the other.
-/

namespace Workforce

namespace FileTree

variable {chunk : Type} {tree first second third before after : FileTree chunk}
  {place : Location}

/-! ## Looking up -/

/-- An entry that is put at a place is found there, and nowhere else. -/
theorem entry?_put (tree : FileTree chunk) (hplace : place ≠ []) (entry : FileEntry chunk)
    (other : Location) :
    FileTree.entry? (tree.put place entry) other =
      if other = place then some entry else tree.entry? other := by
  by_cases hroot : other = []
  · subst hroot
    simp [ entry?, Ne.symm hplace]
  · simp only [ entry?, put, List.isEmpty_iff, hroot, ↓reduceIte, List.lookup_append,
      lookup_filter_ne, List.lookup_cons, List.lookup_nil]
    by_cases hother : other = place
    · simp [hother]
    · have hdifferent : (other == place) = false := by simpa using hother
      simp [hother, hdifferent]

/-- The root is not a file. -/
theorem place_ne_of_file {content : List chunk}
    (h : tree.entry? place = some (.file content)) : place ≠ [] := by
  rintro rfl
  cases h

/-! ## Growth -/

/-- What a place gets of what is written. -/
def share (outlet : Option Location) (written : List chunk) (place : Location) : List chunk :=
  if outlet = some place then written else []

theorem share_append (outlet : Option Location) (written more : List chunk) (place : Location) :
    share outlet (written ++ more) place =
      share outlet written place ++ share outlet more place := by
  unfold share
  split <;> rfl

@[simp] theorem share_nil (outlet : Option Location) (place : Location) :
    share outlet ([] : List chunk) place = [] := by
  unfold share
  split <;> rfl

/-- Nothing that was in a tree has changed, except that a file got something more at its
end; files that are new hold no more than that. -/
structure Grows (before after : FileTree chunk) (outlet : Option Location)
    (written : List chunk) : Prop where
  directories : ∀ place, before.entry? place = some .directory →
    after.entry? place = some .directory
  files : ∀ place content, before.entry? place = some (.file content) →
    after.entry? place = some (.file (content ++ share outlet written place))
  created : ∀ place, before.entry? place = none →
    after.entry? place = none ∧ share outlet written place = [] ∨
      after.entry? place = some (.file (share outlet written place))

namespace Grows

variable {outlet : Option Location} {written more : List chunk}

theorem refl (tree : FileTree chunk) (outlet : Option Location) : Grows tree tree outlet [] where
  directories _ h := h
  files place content h := by rw [share_nil, List.append_nil, h]
  created place h := Or.inl ⟨h, share_nil outlet place⟩

/-- What is written to no file at all changes nothing. -/
theorem of_no_outlet (tree : FileTree chunk) (written : List chunk) :
    Grows tree tree none written where
  directories _ h := h
  files place content h := by simpa [share] using h
  created place h := Or.inl ⟨h, rfl⟩

theorem trans (hfirst : Grows first second outlet written)
    (hsecond : Grows second third outlet more) : Grows first third outlet (written ++ more) where
  directories place h := hsecond.directories place (hfirst.directories place h)
  files place content h := by
    rw [share_append, ← List.append_assoc]
    exact hsecond.files place _ (hfirst.files place content h)
  created place h := by
    rw [share_append]
    rcases hfirst.created place h with ⟨hnone, hshare⟩ | hfile
    · rw [hshare, List.nil_append]
      exact hsecond.created place hnone
    · exact Or.inr (hsecond.files place _ hfile)

end Grows

/-! ## Opening and writing -/

/-- A file that is opened is there, or is made. -/
theorem eq_of_openAppend {path : String} (h : tree.openAppend path = .ok (place, after)) :
    place ≠ [] ∧ ((∃ content, tree.entry? place = some (.file content)) ∧ after = tree ∨
      tree.entry? place = none ∧ after = tree.put place (.file [])) := by
  unfold openAppend at h
  cases hlocate : tree.locate path with
  | error error =>
    rw [hlocate] at h
    cases h
  | ok located =>
    obtain ⟨directory, name⟩ := located
    rw [hlocate] at h
    cases name with
    | none => cases h
    | some name =>
      have hplace : directory ++ [name] ≠ [] := by simp
      simp only at h
      cases hentry : tree.entry? (directory ++ [name]) with
      | none =>
        rw [hentry] at h
        obtain ⟨rfl, rfl⟩ := Prod.mk.inj (Except.ok.inj h)
        exact ⟨hplace, Or.inr ⟨hentry, rfl⟩⟩
      | some entry =>
        rw [hentry] at h
        cases entry with
        | directory => cases h
        | file content =>
          obtain ⟨rfl, rfl⟩ := Prod.mk.inj (Except.ok.inj h)
          exact ⟨hplace, Or.inl ⟨⟨content, hentry⟩, rfl⟩⟩

/-- A file that is opened is there afterwards. -/
theorem file_of_openAppend {path : String} (h : tree.openAppend path = .ok (place, after)) :
    ∃ content, after.entry? place = some (.file content) := by
  obtain ⟨hplace, ⟨hfile, rfl⟩ | ⟨hnone, rfl⟩⟩ := eq_of_openAppend h
  · exact hfile
  · exact ⟨[], by rw [tree.entry?_put hplace, if_pos rfl]⟩

/-- Opening a file writes nothing. -/
theorem grows_openAppend {path : String} (h : tree.openAppend path = .ok (place, after))
    (outlet : Option Location) : Grows tree after outlet [] := by
  obtain ⟨hplace, ⟨-, rfl⟩ | ⟨hnone, rfl⟩⟩ := eq_of_openAppend h
  · exact .refl after outlet
  · have hkept : ∀ other, tree.entry? other ≠ none →
        FileTree.entry? (tree.put place (.file [])) other = tree.entry? other := by
      intro other hother
      rw [tree.entry?_put hplace, if_neg]
      rintro rfl
      exact hother hnone
    refine ⟨fun other hother => ?_, fun other content hother => ?_, fun other hother => ?_⟩
    · rw [hkept other (by simp [hother]), hother]
    · rw [hkept other (by simp [hother]), hother, share_nil, List.append_nil]
    · rw [tree.entry?_put hplace, share_nil]
      split
      · exact Or.inr rfl
      · exact Or.inl ⟨hother, rfl⟩

/-- Writing to a file adds to its end. -/
theorem grows_append {content : List chunk} (hfile : tree.entry? place = some (.file content))
    (written : chunk) : Grows tree (tree.append place written) (some place) [written] := by
  have hentry : ∀ other, FileTree.entry? (tree.append place written) other =
      if other = place then some (.file (content ++ [written])) else tree.entry? other := by
    intro other
    rw [append, hfile]
    exact tree.entry?_put (place_ne_of_file hfile) _ other
  refine ⟨fun other hother => ?_, fun other kept hother => ?_, fun other hother => ?_⟩
  · rw [hentry, if_neg, hother]
    rintro rfl
    rw [hfile] at hother
    cases hother
  · rw [hentry, share]
    by_cases hplace : other = place
    · subst hplace
      rw [hfile] at hother
      obtain rfl : content = kept := FileEntry.file.inj (Option.some.inj hother)
      rw [if_pos rfl, if_pos rfl]
    · rw [if_neg hplace, if_neg (by simpa using Ne.symm hplace), List.append_nil, hother]
  · have hplace : other ≠ place := by
      rintro rfl
      rw [hfile] at hother
      cases hother
    rw [hentry, share, if_neg hplace, if_neg (by simpa using hplace.symm)]
    exact Or.inl ⟨hother, rfl⟩

end FileTree

end Workforce
