import FlowConfig.Storage.FileSystem

/-!
# What operations leave in place

An item is what a lookup finds, so an operation is described by the lookups after
it.  Making directories adds directories and changes no file.  A temporary file
gets a name that nothing has, so as long as it is only filled, moved or removed,
everything else stays what it was.  Finding a place only asks for directories on
the way, so it still leads to the same place when directories were added.
-/

namespace FlowConfig
namespace Storage
namespace FileSystem

/-!
# Items
-/

theorem item?_nil (fs : FileSystem) : fs.item? [] = some .directory :=
  if_pos rfl

theorem item?_eq_lookup (fs : FileSystem) {l : Location} (h : l ≠ []) :
    fs.item? l = fs.items.lookup l :=
  if_neg h

theorem lookup_filter_ne {items : List (Location × Item)} {removed l : Location}
    (h : l ≠ removed) :
    (items.filter fun entry => entry.1 ≠ removed).lookup l = items.lookup l := by
  induction items with
  | nil => rfl
  | cons entry rest ih =>
      obtain ⟨place, item⟩ := entry
      rw [List.filter_cons, List.lookup_cons]
      by_cases hplace : place = removed
      · have hother : (l == place) = false := by
          rw [hplace]
          exact beq_eq_false_iff_ne.mpr h
        rw [if_neg (by simp [hplace]), hother, ih]
      · rw [if_pos (by simp [hplace]), List.lookup_cons, ih]

theorem lookup_filter_self (items : List (Location × Item)) (l : Location) :
    (items.filter fun entry => entry.1 ≠ l).lookup l = none := by
  rw [List.lookup_eq_none_iff]
  rintro ⟨place, item⟩ hmem
  have hne := of_decide_eq_true (List.mem_filter.mp hmem).right
  exact bne_iff_ne.mpr fun heq => hne heq.symm

theorem item?_erase (fs : FileSystem) {removed : Location} (h : removed ≠ []) (l : Location) :
    (fs.erase removed).item? l = if l = removed then none else fs.item? l := by
  by_cases hnil : l = []
  · rw [hnil, item?_nil, item?_nil, if_neg h.symm]
  · rw [item?_eq_lookup _ hnil, item?_eq_lookup _ hnil, erase]
    by_cases heq : l = removed
    · rw [if_pos heq, heq, lookup_filter_self]
    · rw [if_neg heq, lookup_filter_ne heq]

theorem item?_put (fs : FileSystem) {place : Location} (h : place ≠ []) (item : Item)
    (l : Location) : (fs.put place item).item? l = if l = place then some item else fs.item? l := by
  by_cases hnil : l = []
  · rw [hnil, item?_nil, item?_nil, if_neg h.symm]
  · have herase := item?_erase fs h l
    rw [item?_eq_lookup _ hnil] at herase
    rw [item?_eq_lookup _ hnil, put, List.lookup_cons, herase]
    by_cases heq : l = place
    · simp [heq]
    · have hother : (l == place) = false := beq_eq_false_iff_ne.mpr heq
      simp [heq, hother]

theorem item?_eq_none_of_not_mem_names {fs : FileSystem} {l : Location} {name : String}
    (h : name ∉ fs.names l) : fs.item? (l ++ [name]) = none := by
  have hnonempty : l ++ [name] ≠ [] := List.append_ne_nil_of_right_ne_nil l (List.cons_ne_nil _ _)
  rw [item?_eq_lookup fs hnonempty, List.lookup_eq_none_iff]
  intro entry hentry
  rw [bne_iff_ne]
  intro heq
  apply h
  rw [names, List.mem_map]
  refine ⟨entry, List.mem_filter.mpr ⟨hentry, ?_⟩, ?_⟩
  · rw [← heq]
    simp
  · rw [← heq]
    simp

theorem le_foldl_max (ns : List Nat) (start : Nat) :
    start ≤ ns.foldl max start ∧ forall n, n ∈ ns -> n ≤ ns.foldl max start := by
  induction ns generalizing start with
  | nil => exact ⟨Nat.le_refl start, nofun⟩
  | cons n ns ih =>
      rcases ih (max start n) with ⟨hstart, hrest⟩
      rw [List.foldl_cons]
      refine ⟨Nat.le_trans (Nat.le_max_left start n) hstart, ?_⟩
      rw [List.forall_mem_cons]
      exact ⟨Nat.le_trans (Nat.le_max_right start n) hstart, hrest⟩

theorem freshName_not_mem_names (fs : FileSystem) (l : Location) :
    fs.freshName l ∉ fs.names l := by
  intro hmem
  have hle := (le_foldl_max ((fs.names l).map String.length) 0).right _
    (List.mem_map_of_mem hmem)
  have hlength : (fs.freshName l).length =
      ((fs.names l).map String.length).foldl max 0 + 1 := by
    rw [freshName, String.length_ofList, List.length_cons, List.length_replicate]
  omega

theorem item?_freshName (fs : FileSystem) (l : Location) :
    fs.item? (l ++ [fs.freshName l]) = none :=
  item?_eq_none_of_not_mem_names (fs.freshName_not_mem_names l)

/-!
# Files and directories
-/

theorem file?_eq_some_iff {fs : FileSystem} {l : Location} {content : Bytes} :
    fs.file? l = some content <-> fs.item? l = some (.file content) := by
  rw [file?]
  split
  · next other hitem =>
      rw [hitem, Option.some.injEq, Option.some.injEq, Item.file.injEq]
  · next hother =>
      constructor
      · intro h
        cases h
      · intro h
        exact (hother content h).elim

theorem isDirectory_iff {fs : FileSystem} {l : Location} :
    fs.isDirectory l = true <-> fs.item? l = some .directory :=
  beq_iff_eq

theorem file?_congr {fs gs : FileSystem} {l : Location} (h : gs.item? l = fs.item? l) :
    gs.file? l = fs.file? l := by
  rw [file?, file?, h]

/-- All directories are still there. -/
def KeepsDirectories (before after : FileSystem) : Prop :=
  forall l, before.isDirectory l = true -> after.isDirectory l = true

/-- Directories may have been added, and nothing else was changed. -/
structure OnlyAddsDirectories (before after : FileSystem) : Prop where
  keeps : KeepsDirectories before after
  file?_eq : forall l, after.file? l = before.file? l

theorem onlyAddsDirectories_refl (fs : FileSystem) : OnlyAddsDirectories fs fs :=
  ⟨fun _ h => h, fun _ => rfl⟩

theorem OnlyAddsDirectories.trans {fs gs hs : FileSystem} (h : OnlyAddsDirectories fs gs)
    (h' : OnlyAddsDirectories gs hs) : OnlyAddsDirectories fs hs :=
  ⟨fun l hl => h'.keeps l (h.keeps l hl), fun l => (h'.file?_eq l).trans (h.file?_eq l)⟩

/-!
# Finding places
-/

theorem enterAll_of_keepsDirectories {before after : FileSystem}
    (hkeeps : KeepsDirectories before after) {l found : Location} {names : List String}
    (h : before.enterAll l names = .ok found) : after.enterAll l names = .ok found := by
  induction names generalizing l with
  | nil => exact h
  | cons name names ih =>
      rw [enterAll] at h ⊢
      cases henter : before.enter l name with
      | error fault =>
          rw [henter] at h
          cases h
      | ok next =>
          rw [henter] at h
          have hafter : after.enter l name = .ok next := by
            rw [enter] at henter ⊢
            by_cases hup : name = upName
            · rw [if_pos hup] at henter ⊢
              exact henter
            · rw [if_neg hup] at henter ⊢
              cases hitem : before.item? (l ++ [name]) with
              | none =>
                  rw [hitem] at henter
                  cases henter
              | some item =>
                  rw [hitem] at henter
                  cases item with
                  | file content => cases henter
                  | directory =>
                      have hstill := hkeeps _ (isDirectory_iff.mpr hitem)
                      rw [isDirectory_iff.mp hstill]
                      exact henter
          rw [hafter]
          exact ih h

theorem locate_of_keepsDirectories {before after : FileSystem}
    (hkeeps : KeepsDirectories before after) {names : List String} {l : Location}
    (h : before.locate names = .ok l) : after.locate names = .ok l := by
  rw [locate] at h ⊢
  cases hlast : names.getLast? with
  | none =>
      rw [hlast] at h
      exact h
  | some name =>
      rw [hlast] at h
      simp only at h ⊢
      cases henter : before.enterAll [] names.dropLast with
      | error fault =>
          rw [henter] at h
          cases h
      | ok directory =>
          rw [henter] at h
          rw [enterAll_of_keepsDirectories hkeeps henter]
          exact h

/-!
# Making directories
-/

theorem onlyAddsDirectories_put {fs : FileSystem} {l : Location} (h : fs.item? l = none) :
    OnlyAddsDirectories fs (fs.put l .directory) := by
  have hnonempty : l ≠ [] := by
    intro heq
    rw [heq, item?_nil] at h
    cases h
  constructor
  · intro other hother
    rw [isDirectory_iff] at hother ⊢
    rw [item?_put fs hnonempty, hother]
    exact ite_self _
  · intro other
    rw [file?, item?_put fs hnonempty]
    by_cases heq : other = l
    · rw [if_pos heq, file?, heq, h]
    · rw [if_neg heq, file?]

theorem onlyAddsDirectories_makeDirectory {fs gs : FileSystem} {names : List String}
    (h : fs.makeDirectory names = .ok gs) : OnlyAddsDirectories fs gs := by
  rw [makeDirectory] at h
  split at h
  · cases h
  · next l hl =>
      split at h
      · cases h
      · next hitem =>
          cases h
          exact onlyAddsDirectories_put hitem

theorem onlyAddsDirectories_makeDirectories (fs : FileSystem) (names : List String) :
    OnlyAddsDirectories fs (fs.makeDirectories names).1 := by
  fun_induction makeDirectories fs names with
  | case1 => exact onlyAddsDirectories_refl fs
  | case2 names hnonempty made hmade => exact onlyAddsDirectories_makeDirectory hmade
  | case3 names hnonempty hmissing made fault habove ih =>
      rw [habove] at ih
      exact ih
  | case4 names hnonempty hmissing above habove made hmade ih =>
      rw [habove] at ih
      exact ih.trans (onlyAddsDirectories_makeDirectory hmade)
  | case5 names hnonempty hmissing above habove fault hfault ih =>
      rw [habove] at ih
      exact ih
  | case6 names hnonempty fault hfault hother => exact onlyAddsDirectories_refl fs

end FileSystem
end Storage
end FlowConfig
