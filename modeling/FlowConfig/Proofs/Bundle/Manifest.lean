import FlowConfig.Bundle.Manifest
import FlowConfig.Proofs.Json.Shape

/-!
# Written manifests

A manifest may be written in many ways: the members of an object stand in any order, among
others that mean nothing, and types that there are none of may be left out.  From every
such text the listed bundles are read, in the order of the text.
-/

namespace FlowConfig
namespace Manifest

open Json

variable {A : Type}

/-- A bundle as a manifest lists it, with its types in any order and any number of times. -/
structure Listing where
  coordinate : Coordinate
  types : List String
deriving DecidableEq, Repr

def Listing.bundle (l : Listing) : Bundle :=
  (Bundle.new l.coordinate).withTypes l.types

/-!
# Texts of a manifest
-/

inductive Value (A : Type) where
  | text (s : String)
  | list (items : List A)
deriving DecidableEq, Repr

abbrev Member (A : Type) := String × Value A

inductive WrittenValue (item : A -> Bytes -> Prop) : Value A -> Bytes -> Prop where
  | text {s : String} {text : Bytes} : WrittenText s text -> WrittenValue item (.text s) text
  | list {items : List A} {text : Bytes} : WrittenList item items text ->
      WrittenValue item (.list items) text

def Unknown (known : List String) (members : List (Member A)) : Prop :=
  forall m, m ∈ members -> m.1 ∉ known ∧ exists s, m.2 = .text s

def coordinateMembers (c : Coordinate) : List (Member String) :=
  [("group", .text c.group), ("artifact", .text c.artifact), ("version", .text c.version)]

/-- Types may be left out where there are none. -/
inductive TypesGiven (types : List String) : List (Member String) -> Prop where
  | given : TypesGiven types [("types", .list types)]
  | omitted : types = [] -> TypesGiven types []

/-- The members that a listed bundle may be written with, in any order. -/
def Listing.HasMembers (l : Listing) (members : List (Member String)) : Prop :=
  exists types others, TypesGiven l.types types ∧
    Unknown ["group", "artifact", "version", "types"] others ∧
    members.Perm (coordinateMembers l.coordinate ++ types ++ others)

def WrittenListing (l : Listing) (text : Bytes) : Prop :=
  exists members, l.HasMembers members ∧ WrittenObject (WrittenValue WrittenText) members text

/-- The text is a manifest that lists these bundles in this order. -/
def WrittenManifest (listings : List Listing) (text : Bytes) : Prop :=
  exists members others, Unknown ["bundles"] others ∧
    members.Perm (("bundles", .list listings) :: others) ∧
    Padded (WrittenObject (WrittenValue WrittenListing)) members text

/-!
# Lists and texts among members
-/

def listOf? (m : Member A) : Option (List A) :=
  match m.2 with
  | .list items => some items
  | .text _ => none

def textOf? (m : Member A) : Option (String × Option String) :=
  match m.2 with
  | .list _ => none
  | .text s => some (m.1, some s)

/-- Just the members with the key hold lists. -/
def ListsAt (key : String) (members : List (Member A)) : Prop :=
  forall m, m ∈ members -> (m.1 = key <-> exists items, m.2 = .list items)

section

variable {key : String} {known : List String} {members others : List (Member A)}

theorem listsAt_of_texts
    (h : forall m, m ∈ members -> m.1 ≠ key ∧ exists s, m.2 = .text s) :
    ListsAt key members := by
  intro m hm
  rcases h m hm with ⟨hne, s, hs⟩
  apply iff_of_false hne
  intro hlist
  rcases hlist with ⟨items, hitems⟩
  cases hs.symm.trans hitems

theorem listsAt_of_unknown (h : Unknown known others) (hkey : key ∈ known) :
    ListsAt key others := by
  apply listsAt_of_texts
  intro m hm
  exact ⟨fun heq => (h m hm).left (heq ▸ hkey), (h m hm).right⟩

theorem unknown_nil : Unknown known ([] : List (Member A)) := by
  intro m hm
  cases hm

theorem lists_of_unknown (h : Unknown known others) : others.filterMap listOf? = [] := by
  rw [List.filterMap_eq_nil_iff]
  intro m hm
  rcases h m hm with ⟨_, s, hs⟩
  rw [listOf?, hs]

theorem texts_of_unknown (h : Unknown known others) (hkey : key ∈ known) :
    (others.filterMap textOf?).filter (fun m => m.1 == key) = [] := by
  rw [List.filter_eq_nil_iff]
  intro m hm heq
  rcases List.mem_filterMap.mp hm with ⟨other, hother, htext⟩
  rcases h other hother with ⟨hknown, s, hs⟩
  rw [textOf?, hs] at htext
  cases htext
  rw [eq_of_beq heq] at hknown
  exact hknown hkey

end

/-!
# Reading a listed bundle
-/

namespace BundleDraft

/-- The draft after a member, if the member is one that it admits. -/
def next (d : BundleDraft) : Member String -> Option BundleDraft
  | (key, .list items) =>
      if key = "types" ∧ d.types = none then some { d with types := some items } else none
  | (key, .text s) =>
      if key = "types" then none else some { d with others := (key, some s) :: d.others }

theorem membersTaken : MembersTaken bundleMember (WrittenValue WrittenText) next := by
  intro d key v final text hnext hvalue
  cases hvalue with
  | @list items text hlist =>
      rcases Option.ite_none_right_eq_some.mp hnext with ⟨⟨hkey, hnone⟩, heq⟩
      cases heq
      refine ⟨_, ?_, takes_map (fun types => { d with types := some types }) (takes_texts hlist)⟩
      rw [bundleMember, if_pos hkey, hnone, once]
  | @text s text htext =>
      rcases Option.ite_none_left_eq_some.mp hnext with ⟨hkey, heq⟩
      cases heq
      exact ⟨_, if_neg hkey, takes_map _ (takes_any memberRoom htext)⟩

theorem foldlM_next {members : List (Member String)} (hlists : ListsAt "types" members)
    {d : BundleDraft}
    (hsole : (d.types.toList ++ members.filterMap listOf?).length ≤ 1) :
    members.foldlM next d =
      some ⟨(d.types.toList ++ members.filterMap listOf?).head?,
        (members.filterMap textOf?).reverse ++ d.others⟩ := by
  -- The types that were given and those that are to come are at most one list, in each
  -- draft on the way.
  induction members generalizing d with
  | nil =>
      cases d with
      | mk types others =>
          cases types with
          | none => rfl
          | some types => rfl
  | cons m rest ih =>
      have hrest : ListsAt "types" rest := fun m hm => hlists m (List.mem_cons_of_mem _ hm)
      have hm := hlists m List.mem_cons_self
      rcases m with ⟨key, v⟩
      cases v with
      | text s =>
          have hkey : key ≠ "types" := by
            intro heq
            rcases hm.mp heq with ⟨items, hitems⟩
            cases hitems
          have htexts : ((key, Value.text s) :: rest).filterMap textOf? =
              (key, some s) :: rest.filterMap textOf? := rfl
          rw [List.foldlM_cons, next, if_neg hkey, htexts, List.reverse_cons, List.append_assoc]
          exact ih hrest hsole
      | list items =>
          have hcons : ((key, Value.list items) :: rest).filterMap listOf? =
              items :: rest.filterMap listOf? := rfl
          have hnone : d.types = none := by
            cases htypes : d.types with
            | none => rfl
            | some types =>
                rw [hcons, htypes, List.length_append, List.length_cons, Option.toList_some,
                  List.length_singleton] at hsole
                omega
          have hadmitted : key = "types" ∧ d.types = none := ⟨hm.mpr ⟨items, rfl⟩, hnone⟩
          rw [hcons, hnone, Option.toList_none, List.nil_append] at hsole ⊢
          rw [List.foldlM_cons, next, if_pos hadmitted]
          exact ih hrest hsole

end BundleDraft

/-!
# The members of a listed bundle
-/

section

variable {l : Listing} {types members : List (Member String)}

theorem listsAt_of_typesGiven {names : List String} (h : TypesGiven names types) :
    ListsAt "types" types := by
  intro m hm
  cases h with
  | given =>
      rw [List.mem_singleton.mp hm]
      exact iff_of_true rfl ⟨names, rfl⟩
  | omitted _ => cases hm

theorem listsAt_coordinateMembers (c : Coordinate) : ListsAt "types" (coordinateMembers c) := by
  apply listsAt_of_texts
  intro m hm
  simp only [coordinateMembers, List.mem_cons, List.not_mem_nil, or_false] at hm
  rcases hm with rfl | rfl | rfl
  · exact ⟨by simp, _, rfl⟩
  · exact ⟨by simp, _, rfl⟩
  · exact ⟨by simp, _, rfl⟩

theorem Listing.HasMembers.listsAt (h : l.HasMembers members) : ListsAt "types" members := by
  rcases h with ⟨types, others, htypes, hothers, hperm⟩
  intro m hm
  rcases List.mem_append.mp (hperm.mem_iff.mp hm) with hm | hm
  · rcases List.mem_append.mp hm with hm | hm
    · exact listsAt_coordinateMembers l.coordinate m hm
    · exact listsAt_of_typesGiven htypes m hm
  · exact listsAt_of_unknown hothers (by decide) m hm

theorem Listing.HasMembers.lists (h : l.HasMembers members) :
    (members.filterMap listOf?).length ≤ 1 ∧
      (members.filterMap listOf?).head?.getD [] = l.types := by
  rcases h with ⟨types, others, htypes, hothers, hperm⟩
  have hlists := hperm.filterMap listOf?
  rw [List.filterMap_append, lists_of_unknown hothers, List.append_nil] at hlists
  cases htypes with
  | given =>
      have heq : members.filterMap listOf? = [l.types] := hlists.eq_singleton
      rw [heq]
      exact ⟨Nat.le_refl 1, rfl⟩
  | omitted hnil =>
      have heq : members.filterMap listOf? = [] := hlists.eq_nil
      rw [heq, hnil]
      exact ⟨Nat.zero_le 1, rfl⟩

theorem Listing.HasMembers.sole? (h : l.HasMembers members) {key value : String}
    (hkey : key ∈ ["group", "artifact", "version", "types"])
    (hvalue : ((coordinateMembers l.coordinate).filterMap textOf?).filter (fun m => m.1 == key) =
      [(key, some value)]) (names : Option (List String)) :
    BundleDraft.sole? ⟨names, (members.filterMap textOf?).reverse⟩ key = some value := by
  rcases h with ⟨types, others, htypes, hothers, hperm⟩
  have htexts : types.filterMap textOf? = [] := by
    cases htypes with
    | given => rfl
    | omitted _ => rfl
  have hall := ((List.reverse_perm _).trans (hperm.filterMap textOf?)).filter (fun m => m.1 == key)
  rw [List.filterMap_append, List.filterMap_append, htexts, List.append_nil, List.filter_append,
    texts_of_unknown hothers hkey, List.append_nil, hvalue] at hall
  rw [BundleDraft.sole?, hall.eq_singleton]

theorem Listing.HasMembers.finish? (h : l.HasMembers members) :
    BundleDraft.finish? ⟨(members.filterMap listOf?).head?, (members.filterMap textOf?).reverse⟩ =
      some l.bundle := by
  rw [BundleDraft.finish?, h.sole? (by decide) rfl, h.sole? (by decide) rfl,
    h.sole? (by decide) rfl]
  exact congrArg (fun types => some ((Bundle.new l.coordinate).withTypes types)) h.lists.right

theorem takes_listing {text : Bytes} (h : WrittenListing l text) : bundle.Takes text l.bundle := by
  rcases h with ⟨members, hmembers, hwritten⟩
  have hrun := BundleDraft.foldlM_next hmembers.listsAt (d := BundleDraft.empty)
    hmembers.lists.left
  rw [BundleDraft.empty, List.append_nil] at hrun
  exact takes_filterMap (takes_object BundleDraft.membersTaken hwritten hrun) hmembers.finish?

end

/-!
# Reading a manifest
-/

def next (given : Option (List Bundle)) : Member Listing -> Option (Option (List Bundle))
  | (key, .list listings) =>
      if key = "bundles" ∧ given = none then some (some (listings.map Listing.bundle)) else none
  | (key, .text _) => if key = "bundles" then none else some given

theorem begins_of_writtenListing {closing : UInt8} (hclosing : Ascii.openBrace ≠ closing)
    {l : Listing} {text : Bytes} (h : WrittenListing l text) : Begins closing text := by
  rcases h with ⟨members, _, hwritten⟩
  exact begins_of_writtenObject hclosing hwritten

theorem takes_bundles {listings : List Listing} {text : Bytes}
    (h : WrittenList WrittenListing listings text) :
    bundles.Takes text (some (listings.map Listing.bundle)) := by
  apply takes_map some
  exact takes_list (f := Listing.bundle) (fun _ _ => begins_of_writtenListing (by decide))
    (fun _ _ => takes_listing) h

theorem membersTaken : MembersTaken member (WrittenValue WrittenListing) next := by
  intro given key v final text hnext hvalue
  cases hvalue with
  | @list listings text hlist =>
      rcases Option.ite_none_right_eq_some.mp hnext with ⟨⟨hkey, hnone⟩, heq⟩
      cases heq
      refine ⟨_, ?_, takes_bundles hlist⟩
      rw [member, if_pos hkey, hnone, once]
  | @text s text htext =>
      rcases Option.ite_none_left_eq_some.mp hnext with ⟨hkey, heq⟩
      cases heq
      exact ⟨_, if_neg hkey, takes_skipped given htext⟩

theorem foldlM_next_of_unknown {others : List (Member Listing)} (h : Unknown ["bundles"] others)
    (given : Option (List Bundle)) : others.foldlM next given = some given := by
  induction others with
  | nil => rfl
  | cons m rest ih =>
      have hrest : Unknown ["bundles"] rest := fun m hm => h m (List.mem_cons_of_mem _ hm)
      rcases h m List.mem_cons_self with ⟨hknown, s, hs⟩
      rcases m with ⟨key, v⟩
      cases hs
      have hkey : key ≠ "bundles" := fun heq => hknown (List.mem_singleton.mpr heq)
      rw [List.foldlM_cons, next, if_neg hkey]
      exact ih hrest

theorem foldlM_next {listings : List Listing} {members others : List (Member Listing)}
    (hothers : Unknown ["bundles"] others)
    (hperm : members.Perm (("bundles", .list listings) :: others)) :
    members.foldlM next none = some (some (listings.map Listing.bundle)) := by
  have hmem : ("bundles", Value.list listings) ∈ members :=
    hperm.mem_iff.mpr List.mem_cons_self
  rcases List.append_of_mem hmem with ⟨before, after, rfl⟩
  have hrest : (before ++ after).Perm others :=
    (List.perm_middle.symm.trans hperm).cons_inv
  have hbefore : Unknown ["bundles"] before := fun m hm =>
    hothers m (hrest.mem_iff.mp (List.mem_append_left after hm))
  have hafter : Unknown ["bundles"] after := fun m hm =>
    hothers m (hrest.mem_iff.mp (List.mem_append_right before hm))
  rw [List.foldlM_append, foldlM_next_of_unknown hbefore, Option.bind_eq_bind, Option.bind_some,
    List.foldlM_cons, next, if_pos ⟨rfl, rfl⟩, Option.bind_eq_bind, Option.bind_some,
    foldlM_next_of_unknown hafter]

/-- A written manifest is read as the bundles that it lists, in its order. -/
theorem parse_of_written {listings : List Listing} {text : Bytes}
    (h : WrittenManifest listings text) : parse text = .ok (listings.map Listing.bundle) := by
  rcases h with ⟨members, others, hothers, hperm, hpadded⟩
  cases hpadded with
  | @spaces before inner after hbefore hinner hafter =>
      have hrecord := takes_record membersTaken hinner (foldlM_next hothers hperm)
        [fun _ => bundles]
      exact readAll_of_takes (takes_map (fun given => given.getD []) hrecord) hbefore hafter

end Manifest
end FlowConfig
