import FlowConfig.Proofs.Bundle.Manifest
import FlowConfig.Proofs.Bundle.Registration
import FlowConfig.Proofs.CommandLine.Reading
import Mathlib.Data.List.Induction
import Mathlib.Data.String.Basic

/-!
# Loading a registry

A registry is loaded from any text of a manifest in which no coordinate is listed twice.
It then has the listed bundles in their order, each with the set of its types.  Otherwise
the first bundle whose coordinate was listed before it is told.
-/

namespace FlowConfig

/-!
# Types of a bundle
-/

namespace Bundle

variable {b : Bundle} {t u : String} {types : List String}

theorem insertType_pairwise (h : types.Pairwise (· < ·)) :
    (insertType t types).Pairwise (· < ·) := by
  induction types with
  | nil => exact List.pairwise_singleton _ t
  | cons v rest ih =>
      rcases List.pairwise_cons.mp h with ⟨hfirst, hrest⟩
      rw [insertType]
      split
      · next hlt =>
          have htv : t < v := compare_lt_iff_lt.mp hlt
          apply List.pairwise_cons.mpr
          refine ⟨?_, h⟩
          intro u hu
          rcases List.mem_cons.mp hu with rfl | hu
          · exact htv
          · exact lt_trans htv (hfirst u hu)
      · exact h
      · next hgt =>
          have hvt : v < t := compare_gt_iff_gt.mp hgt
          apply List.pairwise_cons.mpr
          refine ⟨?_, ih hrest⟩
          intro u hu
          rcases mem_insertType.mp hu with rfl | hu
          · exact hvt
          · exact hfirst u hu

theorem pairwise_types_withTypes (h : b.types.Pairwise (· < ·)) (ts : List String) :
    (b.withTypes ts).types.Pairwise (· < ·) := by
  induction ts generalizing b with
  | nil => exact h
  | cons t rest ih => exact ih (b := b.withType t) (insertType_pairwise h)

theorem mem_types_withTypes (ts : List String) :
    u ∈ (b.withTypes ts).types <-> u ∈ ts ∨ u ∈ b.types := by
  induction ts generalizing b with
  | nil => simp [withTypes]
  | cons t rest ih =>
      have hstep : b.withTypes (t :: rest) = (b.withType t).withTypes rest := rfl
      rw [hstep, ih, mem_types_withType, List.mem_cons, or_left_comm, or_assoc]

theorem coordinate_withTypes (ts : List String) : (b.withTypes ts).coordinate = b.coordinate := by
  induction ts generalizing b with
  | nil => rfl
  | cons t rest ih => exact ih (b := b.withType t)

end Bundle

namespace Manifest
namespace Listing

/-- The bundle has the listed coordinate and just the listed types, in ascending order. -/
structure Describes (l : Listing) (b : Bundle) : Prop where
  coordinate : b.coordinate = l.coordinate
  ascending : b.types.Pairwise (· < ·)
  mem_types : forall t, t ∈ b.types <-> t ∈ l.types

theorem coordinate_bundle (l : Listing) : l.bundle.coordinate = l.coordinate :=
  Bundle.coordinate_withTypes l.types

theorem describes_bundle (l : Listing) : l.Describes l.bundle := by
  refine ⟨l.coordinate_bundle, ?_, ?_⟩
  · exact Bundle.pairwise_types_withTypes List.Pairwise.nil l.types
  · intro t
    exact (Bundle.mem_types_withTypes l.types).trans (or_iff_left List.not_mem_nil)

theorem map_coordinate_bundle (listings : List Listing) :
    (listings.map bundle).map Bundle.coordinate = listings.map coordinate := by
  rw [List.map_map]
  exact List.map_congr_left fun l _ => l.coordinate_bundle

end Listing
end Manifest

/-!
# Registering in a row
-/

namespace Registry

variable {r s : Registry} {bundles before after : List Bundle}

theorem registerAll_append (h : r.registerAll before = .ok s) :
    r.registerAll (before ++ after) = s.registerAll after := by
  induction before generalizing r with
  | nil =>
      cases h
      rfl
  | cons b rest ih =>
      rw [registerAll] at h
      rw [List.cons_append, registerAll]
      cases hregister : r.register b with
      | error fault =>
          rw [hregister] at h
          cases h
      | ok next =>
          rw [hregister] at h
          exact ih h

theorem registerAll_of_nodup (h : (r.list ++ bundles.map Bundle.coordinate).Nodup) :
    r.registerAll bundles = .ok ⟨r.bundles ++ bundles⟩ := by
  induction bundles generalizing r with
  | nil => rw [registerAll, List.append_nil]
  | cons b rest ih =>
      have hnew : b.coordinate ∉ r.list := by
        intro hmem
        exact (List.nodup_append.mp h).right.right _ hmem _ List.mem_cons_self rfl
      have hrest : (list ⟨r.bundles ++ [b]⟩ ++ rest.map Bundle.coordinate).Nodup := by
        rw [list, List.map_append, List.append_assoc]
        exact h
      rw [registerAll, register_of_not_mem hnew]
      simp only [ih hrest, List.append_assoc, List.singleton_append]

theorem ofBundles_of_nodup (h : (bundles.map Bundle.coordinate).Nodup) :
    ofBundles bundles = .ok ⟨bundles⟩ :=
  registerAll_of_nodup (r := empty) h

theorem ofBundles_of_repeated {b : Bundle} (hnodup : (before.map Bundle.coordinate).Nodup)
    (hmem : b.coordinate ∈ before.map Bundle.coordinate) :
    ofBundles (before ++ b :: after) = .error (.alreadyRegistered b.coordinate) := by
  have hbefore : empty.registerAll before = .ok ⟨before⟩ := ofBundles_of_nodup hnodup
  rw [ofBundles, registerAll_append hbefore, registerAll, register_of_mem hmem]

end Registry

/-- Where a key comes again, there is a first item whose key came before. -/
theorem exists_first_repeated {A B : Type} {key : A -> B} {as : List A}
    (h : ¬ (as.map key).Nodup) :
    exists before a after, as = before ++ a :: after ∧ (before.map key).Nodup ∧
      key a ∈ before.map key := by
  -- From the end: the last item is the first repeated one unless one before it is.
  induction as using List.reverseRecOn with
  | nil => exact (h List.nodup_nil).elim
  | append_singleton as a ih =>
      by_cases hnodup : (as.map key).Nodup
      · refine ⟨as, a, [], rfl, hnodup, ?_⟩
        by_contra hnew
        apply h
        rw [List.map_append, List.nodup_append]
        refine ⟨hnodup, List.nodup_singleton _, ?_⟩
        intro b hb c hc heq
        rw [List.mem_singleton.mp hc] at heq
        exact hnew (heq ▸ hb)
      · rcases ih hnodup with ⟨before, b, after, rfl, hbefore, hmem⟩
        refine ⟨before, b, after ++ [a], ?_, hbefore, hmem⟩
        rw [List.append_assoc, List.cons_append]

namespace Storage

open Json
open Manifest (Listing Value WrittenManifest WrittenListing WrittenValue)

section

variable {listings : List Listing} {content : Bytes} (path : String)

theorem registryOfManifest_of_nodup (h : WrittenManifest listings content)
    (hnodup : (listings.map Listing.coordinate).Nodup) :
    registryOfManifest path content = .ok ⟨listings.map Listing.bundle⟩ := by
  rw [← Listing.map_coordinate_bundle] at hnodup
  rw [registryOfManifest, Manifest.parse_of_written h]
  simp only [Registry.ofBundles_of_nodup hnodup]

theorem registryOfManifest_of_repeated {before after : List Listing} {l : Listing}
    (h : WrittenManifest (before ++ l :: after) content)
    (hnodup : (before.map Listing.coordinate).Nodup)
    (hmem : l.coordinate ∈ before.map Listing.coordinate) :
    registryOfManifest path content = .error (.repeated (.alreadyRegistered l.coordinate)) := by
  rw [← Listing.map_coordinate_bundle] at hnodup hmem
  rw [← l.coordinate_bundle] at hmem ⊢
  rw [registryOfManifest, Manifest.parse_of_written h, List.map_append, List.map_cons]
  simp only [Registry.ofBundles_of_repeated hnodup hmem]

end

/-- From a file with any text of a manifest a registry is loaded just if the listed
coordinates are all different.  It lists them in the order of the text, and each bundle
has the set of its listed types.  Otherwise the fault tells the coordinate of the first
listed bundle whose coordinate was listed before. -/
theorem loadRegistry_of_written {fs : FileSystem} {path : Path} {content : Bytes}
    {listings : List Listing} (hfetch : fs.fetch path = .ok content)
    (hwritten : WrittenManifest listings content) :
    let coordinates := listings.map Listing.coordinate
    let answer := (loadRegistry FileSystem.disk path fs).1
    ((exists r, answer = .ok r) <-> coordinates.Nodup) ∧
    (forall r, answer = .ok r ->
      r.list = coordinates ∧ List.Forall₂ Listing.Describes listings r.bundles) ∧
    (¬ coordinates.Nodup -> exists before l after, listings = before ++ l :: after ∧
      (before.map Listing.coordinate).Nodup ∧
      l.coordinate ∈ before.map Listing.coordinate ∧
      answer = .error (.repeated (.alreadyRegistered l.coordinate))) ∧
    (loadRegistry FileSystem.disk path fs).2 = fs := by
  intro coordinates answer
  have hanswer : answer = registryOfManifest path.text content := by
    show (loadRegistry FileSystem.disk path fs).1 = _
    rw [loadRegistry_eq_registry, FileSystem.registry, hfetch]
  have hok (hnodup : coordinates.Nodup) : answer = .ok ⟨listings.map Listing.bundle⟩ :=
    hanswer.trans (registryOfManifest_of_nodup path.text hwritten hnodup)
  have hrepeated (h : ¬ coordinates.Nodup) : exists before l after,
      listings = before ++ l :: after ∧ (before.map Listing.coordinate).Nodup ∧
      l.coordinate ∈ before.map Listing.coordinate ∧
      answer = .error (.repeated (.alreadyRegistered l.coordinate)) := by
    rcases exists_first_repeated h with ⟨before, l, after, heq, hnodup, hmem⟩
    rw [heq] at hwritten
    exact ⟨before, l, after, heq, hnodup, hmem,
      hanswer.trans (registryOfManifest_of_repeated path.text hwritten hnodup hmem)⟩
  have hiff : (exists r, answer = .ok r) <-> coordinates.Nodup := by
    constructor
    · intro h
      rcases h with ⟨r, hr⟩
      by_contra hnot
      rcases hrepeated hnot with ⟨before, l, after, _, _, _, herror⟩
      cases hr.symm.trans herror
    · exact fun hnodup => ⟨_, hok hnodup⟩
  refine ⟨hiff, ?_, hrepeated, ?_⟩
  · intro r hr
    cases hr.symm.trans (hok (hiff.mp ⟨r, hr⟩))
    refine ⟨Listing.map_coordinate_bundle listings, ?_⟩
    rw [List.forall₂_map_right_iff]
    exact List.forall₂_same.mpr fun l _ => l.describes_bundle
  · rw [loadRegistry_eq_registry]

def twiceListed : List Listing :=
  [⟨⟨"g", "a", "1"⟩, ["U", "T", "U"]⟩, ⟨⟨"g", "a", "1"⟩, []⟩]

def twiceListedText : Bytes :=
  Utf8.encode
    ("\x7b \"bundles\" :[\x7b\"types\":[\"U\", \"T\",\"U\"],\"group\":\"\\u0067\",\n".toList ++
      "\"version\":\"1\",\"artifact\":\"a\"\x7d,\x7b\"artifact\":\"a\",\"note\":\"\",".toList ++
      "\"group\":\"g\",\"version\":\"1\"\x7d]\x7d\n".toList)

theorem written_twiceListedText : WrittenManifest twiceListed twiceListedText := by
  have htext (s : String) (h : s.toList.all needsNoEscape = true) := writtenText_encode h
  have hspace : Blank [Ascii.space] := fun b hb => by rw [List.mem_singleton.mp hb]; rfl
  have hline : Blank [Ascii.lineFeed] := fun b hb => by rw [List.mem_singleton.mp hb]; rfl
  have hmember {A : Type} {item : A -> Bytes -> Prop} {v : Value A} {text : Bytes} (key : String)
      (hkey : key.toList.all needsNoEscape = true) (hv : WrittenValue item v text) :=
    WrittenMember.colon (htext key hkey) blank_nil blank_nil hv
  have hescaped : WrittenText "g" _ :=
    .quoted (.cons (.number (.digits (.numeral (n := 0) (by decide)) (.numeral (n := 0) (by decide))
      (.numeral (n := 6) (by decide)) (.numeral (n := 7) (by decide)))) .nil)
  have htypes : WrittenList WrittenText ["U", "T", "U"] _ :=
    .items (.comma (.spaces blank_nil (htext "U" rfl) blank_nil)
      (.comma (.spaces hspace (htext "T" rfl) blank_nil)
        (.last (.spaces blank_nil (htext "U" rfl) blank_nil))))
  have hfirst : WrittenListing ⟨⟨"g", "a", "1"⟩, ["U", "T", "U"]⟩ _ :=
    ⟨_, ⟨_, [], .given, Manifest.unknown_nil, by decide⟩,
      .items (.comma (.spaces blank_nil (hmember "types" rfl (.list htypes)) blank_nil)
        (.comma (.spaces blank_nil (hmember "group" rfl (.text hescaped)) blank_nil)
          (.comma (.spaces hline
              (hmember "version" rfl (.text (htext "1" rfl))) blank_nil)
            (.last (.spaces blank_nil
              (hmember "artifact" rfl (.text (htext "a" rfl))) blank_nil)))))⟩
  have hsecond : WrittenListing ⟨⟨"g", "a", "1"⟩, []⟩ _ :=
    ⟨_, ⟨_, [("note", .text "")], .omitted rfl, by
        intro m hm
        rw [List.mem_singleton.mp hm]
        exact ⟨by decide, "", rfl⟩, by decide⟩,
      .items (.comma (.spaces blank_nil
          (hmember "artifact" rfl (.text (htext "a" rfl))) blank_nil)
        (.comma (.spaces blank_nil
            (hmember "note" rfl (.text (htext "" rfl))) blank_nil)
          (.comma (.spaces blank_nil
              (hmember "group" rfl (.text (htext "g" rfl))) blank_nil)
            (.last (.spaces blank_nil
              (hmember "version" rfl (.text (htext "1" rfl))) blank_nil)))))⟩
  have hlistings : WrittenList WrittenListing twiceListed _ :=
    .items (.comma (.spaces blank_nil hfirst blank_nil)
      (.last (.spaces blank_nil hsecond blank_nil)))
  have hmanifest : Padded (WrittenObject (WrittenValue WrittenListing))
      [("bundles", .list twiceListed)] _ :=
    .spaces blank_nil (.items (.last (.spaces hspace (.colon (htext "bundles" rfl) hspace
      blank_nil (.list hlistings)) blank_nil))) hline
  have hwritten (text : Bytes) (h : twiceListedText = text)
      (hpadded : Padded (WrittenObject (WrittenValue WrittenListing))
        [("bundles", .list twiceListed)] text) : WrittenManifest twiceListed twiceListedText :=
    ⟨_, [], Manifest.unknown_nil, List.Perm.refl _, h ▸ hpadded⟩
  exact hwritten _ (by decide +kernel) hmanifest

theorem loadRegistry_twiceListed :
    let fs := FileSystem.empty.put ["manifest"] (.file twiceListedText)
    fs.fetch (Path.ofString "manifest") = .ok twiceListedText ∧
    WrittenManifest twiceListed twiceListedText ∧
    (loadRegistry FileSystem.disk (Path.ofString "manifest") fs).1 =
      .error (.repeated (.alreadyRegistered ⟨"g", "a", "1"⟩)) := by
  intro fs
  have hfetch : fs.fetch (Path.ofString "manifest") = .ok twiceListedText := rfl
  refine ⟨hfetch, written_twiceListedText, ?_⟩
  rcases (loadRegistry_of_written hfetch written_twiceListedText).right.right.left (by decide)
    with ⟨before, l, after, heq, _, _, hanswer⟩
  have hl : l ∈ twiceListed := heq ▸ List.mem_append_right before List.mem_cons_self
  have hall : forall l, l ∈ twiceListed -> l.coordinate = ⟨"g", "a", "1"⟩ := by decide
  rw [hall l hl] at hanswer
  exact hanswer

end Storage
end FlowConfig
