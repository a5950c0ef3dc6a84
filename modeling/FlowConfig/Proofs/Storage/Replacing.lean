import FlowConfig.Proofs.Storage.FileSystem

/-!
# Replacing a file

A temporary file stands where nothing was.  Discarding it brings back what was
before, and moving it to a path changes the one item that the path means.
-/

namespace FlowConfig
namespace Storage
namespace FileSystem

/-!
# Temporary files
-/

/-- A temporary file was added, where nothing had been before. -/
structure HoldsTemporary (before : FileSystem) (t : Temporary) (content : Bytes)
    (now : FileSystem) : Prop where
  fresh : before.item? (temporaryLocation t) = none
  item?_eq : forall l, now.item? l =
    if l = temporaryLocation t then some (.file content) else before.item? l

theorem temporaryLocation_ne_nil (t : Temporary) : temporaryLocation t ≠ [] :=
  List.append_ne_nil_of_right_ne_nil _ (List.cons_ne_nil _ _)

theorem holdsTemporary_makeTemporary {fs now : FileSystem} {directory : Path} {t : Temporary}
    (h : fs.makeTemporary directory = (now, .ok t)) : HoldsTemporary fs t [] now := by
  rw [makeTemporary] at h
  split at h
  · cases h
  · next l _ =>
      cases h
      exact ⟨fs.item?_freshName l, item?_put fs
        (temporaryLocation_ne_nil ⟨Path.ofNames directory.fromRoot l, fs.freshName l⟩) _⟩

theorem eq_of_makeTemporary_error {fs now : FileSystem} {directory : Path} {fault : SystemFault}
    (h : fs.makeTemporary directory = (now, .error fault)) : now = fs := by
  rw [makeTemporary] at h
  split at h
  · cases h
    rfl
  · cases h

section

variable {before now : FileSystem} {t : Temporary} {content : Bytes}

theorem holdsTemporary_fillTemporary (h : HoldsTemporary before t content now) (new : Bytes) :
    HoldsTemporary before t new (now.fillTemporary t new) := by
  refine ⟨h.fresh, ?_⟩
  intro l
  rw [fillTemporary, item?_put now (temporaryLocation_ne_nil t), h.item?_eq]
  split
  · rfl
  · rfl

theorem item?_discard (h : HoldsTemporary before t content now) (l : Location) :
    (now.discard t).item? l = before.item? l := by
  rw [FileSystem.discard, item?_erase now (temporaryLocation_ne_nil t), h.item?_eq]
  split
  · next heq => rw [heq, h.fresh]
  · rfl

theorem isDirectory_of_holdsTemporary (h : HoldsTemporary before t content now) (l : Location) :
    now.isDirectory l = before.isDirectory l := by
  rw [isDirectory, isDirectory, h.item?_eq]
  split
  · next heq =>
      rw [heq, h.fresh]
      rfl
  · rfl

end

/-!
# Files by their paths
-/

/-- The place of the regular file that a path means. -/
def denotes? (fs : FileSystem) (p : Path) : Option Location :=
  if p.isEmpty || p.wantsDirectory then none
  else
    match fs.locate p.names with
    | .error _ => none
    | .ok l => if (fs.file? l).isSome then some l else none

theorem denotes?_eq_some_iff {fs : FileSystem} {p : Path} {l : Location} :
    fs.denotes? p = some l <-> p.isEmpty = false ∧ p.wantsDirectory = false ∧
      fs.locate p.names = .ok l ∧ exists content, fs.file? l = some content := by
  rw [denotes?]
  cases p.isEmpty with
  | true => simp
  | false =>
      cases p.wantsDirectory with
      | true => simp
      | false =>
          cases fs.locate p.names with
          | error fault => simp
          | ok other =>
              simp only [Bool.or_false, Bool.false_eq_true, if_false, true_and,
                Option.ite_none_right_eq_some, Option.isSome_iff_exists, Option.some.injEq,
                Except.ok.injEq]
              constructor
              · rintro ⟨hfile, rfl⟩
                exact ⟨rfl, hfile⟩
              · rintro ⟨rfl, hfile⟩
                exact ⟨hfile, rfl⟩

theorem fetch_of_denotes? {fs : FileSystem} {p : Path} {l : Location} {content : Bytes}
    (h : fs.denotes? p = some l) (hfile : fs.file? l = some content) :
    fs.fetch p = .ok content := by
  rcases denotes?_eq_some_iff.mp h with ⟨hempty, hwants, hlocate, _⟩
  rw [fetch, hempty, hlocate]
  simp only [Bool.false_eq_true, if_false, file?_eq_some_iff.mp hfile, hwants]

/-- A regular file stands at a place, and everything else is as before. -/
def PutsFile (before : FileSystem) (l : Location) (content : Bytes) (after : FileSystem) : Prop :=
  forall other, after.item? other = if other = l then some (.file content) else before.item? other

theorem PutsFile.keepsDirectories {before after : FileSystem} {l : Location} {content : Bytes}
    (h : PutsFile before l content after) (hfree : before.isDirectory l = false) :
    KeepsDirectories before after := by
  intro place hplace
  have hne : place ≠ l := by
    intro heq
    rw [heq, hfree] at hplace
    cases hplace
  rw [isDirectory, h, if_neg hne]
  exact hplace

theorem PutsFile.file?_eq {before after : FileSystem} {l : Location} {content : Bytes}
    (h : PutsFile before l content after) (other : Location) :
    after.file? other = if other = l then some content else before.file? other := by
  by_cases heq : other = l
  · rw [if_pos heq, file?_eq_some_iff, h, if_pos heq]
  · rw [if_neg heq]
    apply file?_congr
    rw [h, if_neg heq]

theorem free_of_target_eq_ok {fs : FileSystem} {p : Path} {l : Location}
    (h : fs.target p = .ok l) : p.isEmpty = false ∧ p.wantsDirectory = false ∧
      fs.locate p.names = .ok l ∧ fs.isDirectory l = false := by
  rw [target] at h
  split at h
  · cases h
  · next hempty =>
      split at h
      · cases h
      · split at h
        · cases h
        · next other hlocate =>
            split at h
            · cases h
            · next hwants =>
                split at h
                · cases h
                · next hdirectory =>
                    cases h
                    exact ⟨Bool.not_eq_true _ ▸ hempty, Bool.not_eq_true _ ▸ hwants, hlocate,
                      Bool.not_eq_true _ ▸ hdirectory⟩

theorem ne_nil_of_not_isDirectory {fs : FileSystem} {l : Location}
    (h : fs.isDirectory l = false) : l ≠ [] := by
  intro heq
  rw [heq, isDirectory, item?_nil] at h
  cases h

/-- Moving a temporary file to a path puts it at a place that was no directory, and
the path means this place afterwards. -/
theorem exists_putsFile_of_persist {before now after : FileSystem} {t : Temporary}
    {content : Bytes} {p : Path} (h : HoldsTemporary before t content now)
    (hpersist : now.persist t p = (after, .ok ())) :
    exists l, after.denotes? p = some l ∧ before.isDirectory l = false ∧
      PutsFile before l content after := by
  rw [persist] at hpersist
  split at hpersist
  · cases hpersist
  · next l htarget =>
      have hheld : now.item? (temporaryLocation t) = some (.file content) := by
        rw [h.item?_eq, if_pos rfl]
      rw [hheld] at hpersist
      cases hpersist
      rcases free_of_target_eq_ok htarget with ⟨hempty, hwants, hlocate, hfree⟩
      have hputs : PutsFile before l content
          ((now.erase (temporaryLocation t)).put l (.file content)) := by
        intro other
        rw [item?_put _ (ne_nil_of_not_isDirectory hfree)]
        split
        · rfl
        · exact item?_discard h other
      rw [isDirectory_of_holdsTemporary h] at hfree
      have hkeeps : KeepsDirectories now
          ((now.erase (temporaryLocation t)).put l (.file content)) := by
        intro place hplace
        rw [isDirectory_of_holdsTemporary h] at hplace
        exact hputs.keepsDirectories hfree place hplace
      refine ⟨l, denotes?_eq_some_iff.mpr ⟨hempty, hwants, ?_, content, ?_⟩, hfree, hputs⟩
      · exact locate_of_keepsDirectories hkeeps hlocate
      · rw [hputs.file?_eq, if_pos rfl]

theorem eq_of_persist_error {now after : FileSystem} {t : Temporary} {p : Path}
    {fault : SystemFault} (h : now.persist t p = (after, .error fault)) : after = now := by
  rw [persist] at h
  split at h
  · cases h
    rfl
  · split at h
    · cases h
      rfl
    · cases h

end FileSystem
end Storage
end FlowConfig
