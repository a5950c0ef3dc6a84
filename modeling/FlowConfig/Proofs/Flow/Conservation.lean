import FlowConfig.Proofs.Document.Table
import FlowConfig.Proofs.Flow.Counting

/-!
# The summary counts the live components

Of a valid document the summary counts every component that is not inside open
content, and nothing else.  Both sides are counted group by group: what stands
directly in a group is counted on its own, the groups inside are counted by the
induction, and the schema leaves nothing to count anywhere else.
-/

namespace FlowConfig

namespace Element

/-- No element around is one with open content. -/
def isLiveUnder (above : List Element) : Bool :=
  above.all fun a => !FlowSchema.openNames.contains a.name

theorem isLiveUnder_iff {above : List Element} :
    isLiveUnder above = true <-> forall a, a ∈ above -> a.name ∉ FlowSchema.openNames := by
  simp [isLiveUnder]

end Element

namespace ComponentKind

def isLive (k : ComponentKind) (lineage : Element × List Element) : Bool :=
  Element.isLiveUnder lineage.2 &&
    (lineage.1.name == k.elementName && k.standsIn (lineage.2.head?.map Element.name))

theorem isLive_eq_false_of_isPart (k : ComponentKind) {x p : Element} {rest : List Element}
    (h : FlowSchema.isPart p.name x.name = true) : k.isLive (x, p :: rest) = false := by
  have hnone := FlowSchema.not_component_of_isPart h k
  show (_ && (x.name == k.elementName && k.standsIn (some p.name))) = false
  rw [hnone, Bool.and_false]

end ComponentKind

/-!
# Groups

The lineages of some elements are counted child by child.  If only children of
one name have anything to count inside, what is inside is counted by the groups
decoded from these.
-/

namespace ProcessGroup

theorem countP_flatMap_lineages {f : Element × List Element -> Bool} {above : List Element}
    {name : String} {decode : Element -> ProcessGroup} {k : ComponentKind} {es : List Element}
    (h : forall c, c ∈ es ->
      (c.children.flatMap (Element.lineages (c :: above))).countP f =
        if c.name = name then (Tally.ofAll (decode c)).count k else 0) :
    (es.flatMap (Element.lineages above)).countP f =
      es.countP (fun c => f (c, above)) +
        (Tally.ofAllIn ((es.filter fun c => c.name == name).map decode)).count k := by
  induction es with
  | nil =>
      show 0 = 0 + (Tally.ofAllIn []).count k
      rw [Tally.count_ofAllIn_nil]
  | cons c rest ih =>
      have hrest := ih fun other hmem => h other (List.mem_cons_of_mem c hmem)
      rw [List.flatMap_cons, List.countP_append, hrest, Element.lineages_eq, List.countP_cons,
        h c List.mem_cons_self, List.countP_cons, List.filter_cons]
      by_cases hname : c.name = name
      · rw [if_pos hname, if_pos (beq_iff_eq.mpr hname), List.map_cons,
          Tally.count_ofAllIn_cons]
        omega
      · have hother : ¬ (c.name == name) = true := by simpa using hname
        rw [if_neg hname, if_neg hother]
        omega

def groupNames : List String :=
  ["rootGroup", "processGroup"]

theorem standsIn_group {name : String} (h : name ∈ groupNames) (k : ComponentKind) :
    k.standsIn (some name) = true := by
  have hall : forall name, name ∈ groupNames -> forall k, k ∈ ComponentKind.all ->
      k.standsIn (some name) = true := by
    decide
  exact hall name h k k.mem_all

theorem not_open_of_group :
    forall name, name ∈ groupNames -> name ∉ FlowSchema.openNames := by
  decide

theorem isLive_child {e : Element} {above : List Element} (hname : e.name ∈ groupNames)
    (hlive : Element.isLiveUnder (e :: above) = true) (k : ComponentKind) (c : Element) :
    k.isLive (c, e :: above) = (c.name == k.elementName) := by
  show (Element.isLiveUnder (e :: above) &&
    (c.name == k.elementName && k.standsIn (some e.name))) = _
  rw [hlive, standsIn_group hname, Bool.and_true, Bool.true_and]

/-- Inside what a group holds directly, other groups apart, no component is
live. -/
theorem countP_isLive_part {e c : Element} {typeName : String} {above : List Element}
    (h : flowSchema.Conforms e typeName) (htype : typeName ∈ FlowSchema.groupTypeNames)
    (hc : c ∈ e.children) (hname : c.name ≠ "processGroup") (k : ComponentKind) :
    (c.children.flatMap (Element.lineages (c :: above))).countP k.isLive = 0 := by
  rw [List.countP_eq_zero]
  rintro ⟨x, up⟩ hmem hcounted
  have hboth := hcounted
  rw [ComponentKind.isLive, Bool.and_eq_true, Element.isLiveUnder_iff] at hboth
  rcases FlowSchema.isPart_of_mem_part h htype hc hname hmem hboth.left with
    ⟨p, rest, rfl, hpart⟩
  rw [ComponentKind.isLive_eq_false_of_isPart k hpart] at hcounted
  cases hcounted

/-- The components inside a live group element are those of the decoded group and
of all groups inside it. -/
theorem countP_isLive_inside {layout : Layout} {k : ComponentKind} (hhas : layout.has k = true)
    {e : Element} {typeName : String} {above : List Element}
    (h : flowSchema.Conforms e typeName) (htype : typeName ∈ FlowSchema.groupTypeNames)
    (hname : e.name ∈ groupNames) (hlive : Element.isLiveUnder (e :: above) = true) :
    (e.children.flatMap (Element.lineages (e :: above))).countP k.isLive =
      (Tally.ofAll (decodeTree layout e)).count k := by
  induction e using Element.treeInduction generalizing typeName above with
  | step e ih =>
      have hinside : forall c, c ∈ e.children ->
          (c.children.flatMap (Element.lineages (c :: e :: above))).countP k.isLive =
            if c.name = "processGroup" then (Tally.ofAll (decodeTree layout c)).count k
            else 0 := by
        intro c hc
        by_cases hgroup : c.name = "processGroup"
        · rcases FlowSchema.exists_conforms_of_nested h htype hc hgroup with
            ⟨childType, hchild, hconforms⟩
          have hchildName : c.name ∈ groupNames := by
            rw [hgroup]
            decide
          have hchildLive : Element.isLiveUnder (c :: e :: above) = true := by
            rw [Element.isLiveUnder_iff] at hlive ⊢
            exact List.forall_mem_cons.mpr ⟨not_open_of_group c.name hchildName, hlive⟩
          rw [if_pos hgroup]
          exact ih c hc hconforms hchild hchildName hchildLive
        · rw [if_neg hgroup]
          exact countP_isLive_part h htype hc hgroup k
      have hdirect : e.children.countP (fun c => k.isLive (c, e :: above)) =
          (e.childrenNamed k.elementName).length := by
        rw [Element.childrenNamed, ← List.countP_eq_length_filter]
        exact List.countP_congr fun c _ => by rw [isLive_child hname hlive]
      rw [countP_flatMap_lineages hinside, hdirect, count_ofAll_decodeTree, if_pos hhas]
      rfl

theorem count_eq_zero_of_not_has {layout : Layout} {k : ComponentKind}
    (hhas : layout.has k = false) (e : Element) :
    (Tally.ofAll (decodeTree layout e)).count k = 0 := by
  induction e using Element.treeInduction with
  | step e ih =>
      have hnested :
          (Tally.ofAllIn ((nestedElements e).map (decodeTree layout))).count k = 0 := by
        apply Tally.count_ofAllIn_eq_zero
        rw [List.forall_mem_map]
        intro c hc
        exact ih c (List.mem_filter.mp hc).left
      rw [count_ofAll_decodeTree, hhas, hnested]
      rfl

/-!
# The controller
-/

theorem rootGroup_ne_elementName (k : ComponentKind) :
    ("rootGroup" == k.elementName) = false ∧ ("flowController" == k.elementName) = false := by
  cases k <;> decide

theorem isLive_section {root c x : Element} {up : List Element}
    (h : flowSchema.Admits root) (hc : c ∈ root.children) (hname : c.name ≠ "rootGroup")
    (hmem : (x, up) ∈ c.lineages [root]) (k : ComponentKind) : k.isLive (x, up) = false := by
  rcases FlowSchema.isPart_of_mem_section h hc hname hmem with ⟨p, rest, rfl, hpart⟩
  exact ComponentKind.isLive_eq_false_of_isPart k hpart

theorem isLive_root {root : Element} (h : flowSchema.Admits root) (k : ComponentKind) :
    k.isLive (root, []) = false := by
  rw [ComponentKind.isLive, FlowSchema.name_eq_of_admits h, (rootGroup_ne_elementName k).right,
    Bool.false_and, Bool.and_false]

theorem isLive_child_root {root c : Element} (h : flowSchema.Admits root)
    (hc : c ∈ root.children) (k : ComponentKind) : k.isLive (c, [root]) = false := by
  by_cases hname : c.name = "rootGroup"
  · rw [ComponentKind.isLive, hname, (rootGroup_ne_elementName k).left, Bool.false_and,
      Bool.and_false]
  · exact isLive_section h hc hname (Element.mem_lineages_self [root] c) k

theorem countP_isLive_child_root {layout : Layout} {k : ComponentKind}
    (hhas : layout.has k = true) {root g c : Element} (h : flowSchema.Admits root)
    (hg : root.childrenNamed "rootGroup" = [g])
    (hconforms : flowSchema.Conforms g "RootProcessGroupType") (hc : c ∈ root.children) :
    (c.children.flatMap (Element.lineages [c, root])).countP k.isLive =
      if c.name = "rootGroup" then (Tally.ofAll (decodeTree layout c)).count k else 0 := by
  by_cases hname : c.name = "rootGroup"
  · have hmem : c ∈ root.childrenNamed "rootGroup" :=
      List.mem_filter.mpr ⟨hc, beq_iff_eq.mpr hname⟩
    rw [hg] at hmem
    cases List.mem_singleton.mp hmem
    rw [if_pos hname]
    apply countP_isLive_inside hhas hconforms
    · decide
    · rw [hname]
      decide
    · rw [Element.isLiveUnder_iff, List.forall_mem_cons, List.forall_mem_singleton, hname,
        FlowSchema.name_eq_of_admits h]
      decide
  · rw [if_neg hname, List.countP_eq_zero]
    rintro ⟨x, up⟩ hmem
    have hlineage : (x, up) ∈ c.lineages [root] := by
      rw [Element.lineages_eq]
      exact List.mem_cons_of_mem _ hmem
    rw [isLive_section h hc hname hlineage k]
    exact Bool.false_ne_true

/-- The live components of a valid flow are those of its decoded root group and of
all groups inside it. -/
theorem countP_isLive_root {layout : Layout} {k : ComponentKind} (hhas : layout.has k = true)
    {root g : Element} (h : flowSchema.Admits root)
    (hg : root.childrenNamed "rootGroup" = [g])
    (hconforms : flowSchema.Conforms g "RootProcessGroupType") :
    (root.lineages []).countP k.isLive = (Tally.ofAll (decodeTree layout g)).count k := by
  have hfilter : (root.children.filter fun c => c.name == "rootGroup") = [g] := hg
  have hdirect : root.children.countP (fun c => k.isLive (c, [root])) = 0 := by
    rw [List.countP_eq_zero]
    intro c hc
    rw [isLive_child_root h hc k]
    exact Bool.false_ne_true
  rw [Element.lineages_eq, List.countP_cons, isLive_root h k,
    countP_flatMap_lineages fun c hc => countP_isLive_child_root hhas h hg hconforms hc,
    hdirect, hfilter, List.map_singleton, Tally.count_ofAllIn_cons, Tally.count_ofAllIn_nil]
  simp

end ProcessGroup

/-!
# The document
-/

namespace Document

variable (d : Document)

def parentName? (place : Nat) : Option String :=
  ((d.parent? place).bind d.element?).map Element.name

/-- No proper ancestor of the element at a place has open content. -/
def isLive (place : Nat) : Bool :=
  (d.ancestors place).all fun a => !FlowSchema.openNames.any fun name => d.hasName name a

def liveNamed (name : String) : List Nat :=
  (d.placesNamed name).filter d.isLive

theorem isLive_eq (place : Nat) : d.isLive place = Element.isLiveUnder (d.around place) := by
  rw [isLive, Element.isLiveUnder, around]
  induction d.ancestors place with
  | nil => rfl
  | cons a rest ih =>
      rw [List.all_cons, List.filterMap_cons, ih]
      cases helement : d.element? a with
      | none => simp [hasName, helement]
      | some e =>
          have hnames : (fun name => d.hasName name a) = fun name => e.name == name := by
            funext name
            rw [hasName, helement]
          rw [hnames, List.all_cons, List.contains_eq_any_beq]

theorem parentName?_eq {place : Nat} {e : Element} {above : List Element}
    (h : d.lineage? place = some (e, above)) :
    d.parentName? place = above.head?.map Element.name := by
  cases above with
  | nil =>
      cases hparent : d.parent? place with
      | none =>
          rw [parentName?, hparent]
          rfl
      | some p =>
          rcases d.exists_lineage?_of_parent? hparent with ⟨_, _, _, hother, _⟩
          rw [h] at hother
          cases hother
  | cons outer upper =>
      rcases d.exists_parent_of_lineage? h with ⟨p, hparent, hp⟩
      rw [parentName?, hparent]
      show (d.element? p).map Element.name = some outer.name
      rw [d.element?_of_lineage? hp]
      rfl

theorem length_liveNamed (k : ComponentKind) :
    ((d.liveNamed k.elementName).filter fun place =>
        k.standsIn (d.parentName? place)).length =
      (d.root.lineages []).countP k.isLive := by
  rw [← length_filter_places, liveNamed, placesNamed, List.filter_filter, List.filter_filter]
  congr 1
  apply List.filter_congr
  intro place _
  cases hlineage : d.lineage? place with
  | none =>
      have hnone : d.element? place = none := Option.map_eq_none_iff.mp hlineage
      rw [hasName, hnone]
      simp
  | some lineage =>
      rcases lineage with ⟨e, above⟩
      rcases d.exists_entry_of_lineage? hlineage with ⟨_, _, haround⟩
      rw [hasName, d.element?_of_lineage? hlineage, isLive_eq, haround,
        d.parentName?_eq hlineage, Option.any_some, ComponentKind.isLive]
      ac_rfl

theorem tally_summary {g : Element} (hfirst : d.root.descendant? "rootGroup" = some g) :
    (Model.ofDocument d).summary.tally =
      Tally.ofAll (ProcessGroup.decodeTree (Model.ofDocument d).layout g) := by
  show Tally.countFrom Tally.zero (Model.ofDocument d).rootGroup.toList = _
  rw [Model.rootGroup_eq_decodeTree hfirst, Tally.countFrom_eq, Tally.zero_add]
  exact Tally.add_zero _

/-- Of each kind the summary counts the live components, if the layout has the
kind. -/
theorem count_summary (h : flowSchema.Admits d.root) (k : ComponentKind) :
    (Model.ofDocument d).summary.tally.count k =
      if (Model.ofDocument d).layout.has k then
        ((d.liveNamed k.elementName).filter fun place =>
          k.standsIn (d.parentName? place)).length
      else 0 := by
  rcases FlowSchema.exists_rootGroup h with ⟨g, hg, hfirst, hconforms⟩
  rw [d.tally_summary hfirst, d.length_liveNamed k]
  cases hhas : (Model.ofDocument d).layout.has k with
  | true => exact (ProcessGroup.countP_isLive_root hhas h hg hconforms).symm
  | false => exact ProcessGroup.count_eq_zero_of_not_has hhas g

/-- The summary of a valid document counts exactly its live components.  Ports
of remote groups and services outside of groups do not belong to a group, and the
oldest layout has no services in groups. -/
theorem summary_counts_live_elements (d : Document)
    (h : flowSchema.validate d.root = .ok ()) :
    (Model.ofDocument d).summary.tally = {
      processors := (d.liveNamed "processor").length
      connections := (d.liveNamed "connection").length
      funnels := (d.liveNamed "funnel").length
      labels := (d.liveNamed "label").length
      inputPorts := ((d.liveNamed "inputPort").filter fun place =>
        d.parentName? place != some "remoteProcessGroup").length
      outputPorts := ((d.liveNamed "outputPort").filter fun place =>
        d.parentName? place != some "remoteProcessGroup").length
      processGroups := (d.liveNamed "processGroup").length
      remoteProcessGroups := (d.liveNamed "remoteProcessGroup").length
      controllerServices :=
        match (Model.ofDocument d).layout with
        | .legacy => 0
        | .v1 | .v1Variables =>
            ((d.liveNamed "controllerService").filter fun place =>
              d.parentName? place == some "rootGroup" ||
                d.parentName? place == some "processGroup").length } := by
  have hcount := d.count_summary (Schema.validate_eq_ok_iff.mp h)
  have hall : forall places : List Nat, (places.filter fun _ => true).length = places.length :=
    fun places => congrArg List.length (List.filter_eq_self.mpr fun _ _ => rfl)
  apply Tally.eq_of_count_eq
  intro k
  rw [hcount k]
  cases k with
  | processor => exact hall _
  | connection => exact hall _
  | funnel => exact hall _
  | label => exact hall _
  | inputPort => rfl
  | outputPort => rfl
  | processGroup => exact hall _
  | remoteProcessGroup => exact hall _
  | controllerService =>
      cases (Model.ofDocument d).layout with
      | legacy => rfl
      | v1 => rfl
      | v1Variables => rfl

def sampleElement (name : String) (children : List Element) : Element :=
  ⟨⟨name, none, [], "", ⟨0, 0⟩⟩, children⟩

def sampleComponent (name : String) (children : List Element) : Element :=
  sampleElement name (sampleElement "id" [] :: sampleElement "name" [] :: children)

def sampleService : Element :=
  sampleComponent "controllerService" [sampleElement "class" []]

/-- Ports and services inside and outside of groups, and a processor in a
template. -/
def sampleFlow : Document :=
  let rootGroup := sampleComponent "rootGroup"
    [sampleService,
     sampleComponent "processGroup" [sampleComponent "inputPort" []],
     sampleComponent "remoteProcessGroup" [sampleComponent "inputPort" []],
     sampleElement "template" [sampleComponent "processor" []]]
  let versioned : Element :=
    ⟨{ rootGroup.node with attributes := [(Version.attributeName, "1.0")] }, rootGroup.children⟩
  .ofRoot (sampleElement "flowController"
    [sampleElement "controllerServices" [sampleService], versioned])

theorem summary_counts_live_elements_sampleFlow :
    flowSchema.validate sampleFlow.root = .ok () ∧
      (Model.ofDocument sampleFlow).summary.tally = ⟨0, 0, 0, 0, 1, 0, 1, 1, 1⟩ := by
  have hvalid : flowSchema.validate sampleFlow.root = .ok () :=
    Schema.validate_eq_ok_of_isOk (by decide +kernel)
  refine ⟨hvalid, ?_⟩
  rw [summary_counts_live_elements sampleFlow hvalid]
  decide +kernel

end Document
end FlowConfig
