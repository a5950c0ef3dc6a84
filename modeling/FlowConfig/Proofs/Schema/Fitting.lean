import FlowConfig.Proofs.Element.Tree
import FlowConfig.Schema.Validation

/-!
# Elements that fit their type

What a type asks of an element alone: of its attributes, its text and its
direct children, said without any order of checking.  The checks of a single
element accept exactly the elements that fit.
-/

namespace FlowConfig

def ChildDeclaration.Allows (d : ChildDeclaration) (count : Nat) : Prop :=
  d.min ≤ count ∧ forall max, d.max = some max -> count ≤ max

namespace Element

/-!
# Attributes
-/

/-- Every attribute has a value of the kind that the first declaration of its
name asks for, and the required ones are there. -/
structure AttributesFit (e : Element) (declarations : List AttributeDeclaration) : Prop where
  declared : forall name value, (name, value) ∈ e.attributes ->
    exists d, declarations.find? (fun d => d.name == name) = some d ∧
      d.kind.accepts value = true
  required : forall d, d ∈ declarations -> d.required = true ->
    exists value, (d.name, value) ∈ e.attributes

theorem checkDeclared_eq_ok_iff (e : Element) (declarations : List AttributeDeclaration)
    (attributes : List (String × String)) :
    e.checkDeclared declarations attributes = .ok () <->
      forall name value, (name, value) ∈ attributes ->
        exists d, declarations.find? (fun d => d.name == name) = some d ∧
          d.kind.accepts value = true := by
  induction attributes with
  | nil => simp [checkDeclared]
  | cons entry rest ih =>
      obtain ⟨name, value⟩ := entry
      rw [checkDeclared]
      constructor
      · intro h
        split at h
        · cases h
        · next d hfind =>
            split at h
            · next haccepts =>
                intro other text hmem
                rcases List.mem_cons.mp hmem with heq | hrest
                · cases heq
                  exact ⟨d, hfind, haccepts⟩
                · exact ih.mp h other text hrest
            · cases h
      · intro h
        rcases h name value List.mem_cons_self with ⟨d, hfind, haccepts⟩
        simp only [hfind, haccepts, if_true]
        exact ih.mpr fun other text hmem => h other text (List.mem_cons_of_mem _ hmem)

theorem isSome_attribute?_iff (e : Element) (name : String) :
    (e.attribute? name).isSome = true <-> exists value, (name, value) ∈ e.attributes := by
  rw [attribute?, List.lookup_isSome_iff]
  constructor
  · rintro ⟨⟨other, value⟩, hmem, heq⟩
    have hname : name = other := by simpa using heq
    exact ⟨value, hname ▸ hmem⟩
  · rintro ⟨value, hmem⟩
    exact ⟨(name, value), hmem, by simp⟩

theorem checkRequired_eq_ok_iff (e : Element) (declarations : List AttributeDeclaration) :
    e.checkRequired declarations = .ok () <->
      forall d, d ∈ declarations -> d.required = true ->
        exists value, (d.name, value) ∈ e.attributes := by
  induction declarations with
  | nil => simp [checkRequired]
  | cons d rest ih =>
      rw [checkRequired]
      split
      · next hmissing =>
          constructor
          · intro h
            cases h
          · intro h
            have hboth : d.required = true ∧ (e.attribute? d.name).isNone = true := by
              simpa using hmissing
            have hsome := (e.isSome_attribute?_iff d.name).mpr
              (h d List.mem_cons_self hboth.left)
            rw [Option.isNone_iff_eq_none.mp hboth.right] at hsome
            cases hsome
      · next hpresent =>
          rw [ih]
          constructor
          · intro h other hmem hrequired
            rcases List.mem_cons.mp hmem with heq | hrest
            · subst heq
              rw [← isSome_attribute?_iff]
              cases hlookup : e.attribute? other.name with
              | none => simp [hrequired, hlookup] at hpresent
              | some value => rfl
            · exact h other hrest hrequired
          · intro h other hmem
            exact h other (List.mem_cons_of_mem d hmem)

theorem checkAttributes_eq_ok_iff (e : Element) (declarations : List AttributeDeclaration) :
    e.checkAttributes declarations = .ok () <-> e.AttributesFit declarations := by
  rw [checkAttributes]
  constructor
  · intro h
    split at h
    · next hdeclared =>
        exact ⟨(e.checkDeclared_eq_ok_iff declarations _).mp hdeclared,
          (e.checkRequired_eq_ok_iff declarations).mp h⟩
    · cases h
  · intro h
    rw [(e.checkDeclared_eq_ok_iff declarations _).mpr h.declared]
    exact (e.checkRequired_eq_ok_iff declarations).mpr h.required

/-!
# Children

A child belongs to the first declaration of its name.  Declarations are told
apart by their index, since a schema may declare a name twice.
-/

def BelongsTo (declarations : List ChildDeclaration) (i : Nat) (c : Element) : Prop :=
  c.uri = none ∧
    (exists d, declarations[i]? = some d ∧ d.name = c.name) ∧
      forall j d, j < i -> declarations[j]? = some d -> d.name ≠ c.name

theorem declarationIndex?_eq_some_iff (declarations : List ChildDeclaration) (i : Nat)
    (c : Element) :
    declarationIndex? declarations c = some i <-> BelongsTo declarations i c := by
  rw [declarationIndex?, BelongsTo]
  cases c.uri with
  | some uri => simp
  | none =>
      simp only [true_and]
      rw [List.findIdx?_eq_some_iff_getElem]
      constructor
      · rintro ⟨hlt, hname, hbefore⟩
        refine ⟨⟨declarations[i], List.getElem?_eq_getElem hlt, by simpa using hname⟩, ?_⟩
        intro j d hj hd
        have hjlt : j < declarations.length := Nat.lt_trans hj hlt
        rw [List.getElem?_eq_getElem hjlt] at hd
        cases hd
        simpa using hbefore j hj
      · rintro ⟨⟨d, hd, hname⟩, hbefore⟩
        rcases List.getElem?_eq_some_iff.mp hd with ⟨hlt, hget⟩
        refine ⟨hlt, by simpa [hget] using hname, ?_⟩
        intro j hj
        simpa using hbefore j declarations[j] hj (List.getElem?_eq_getElem _)

instance (declarations : List ChildDeclaration) (i : Nat) (c : Element) :
    Decidable (BelongsTo declarations i c) :=
  decidable_of_iff _ (declarationIndex?_eq_some_iff declarations i c)

theorem belongsTo_unique {declarations : List ChildDeclaration} {i j : Nat} {c : Element}
    (hi : BelongsTo declarations i c) (hj : BelongsTo declarations j c) : i = j := by
  rw [← declarationIndex?_eq_some_iff] at hi hj
  rw [hi] at hj
  exact Option.some.inj hj

theorem exists_getElem?_of_belongsTo {declarations : List ChildDeclaration} {i : Nat}
    {c : Element} (h : BelongsTo declarations i c) :
    exists d, declarations[i]? = some d ∧ d.name = c.name :=
  h.right.left

/-- How many of the children belong to the declaration at an index. -/
def useCount (declarations : List ChildDeclaration) (i : Nat) (children : List Element) : Nat :=
  children.countP fun c => decide (BelongsTo declarations i c)

/-- The children with the names of the types that their declarations give
them. -/
def typedBy (declarations : List ChildDeclaration) (children : List Element) :
    List (Element × String) :=
  children.filterMap fun c =>
    ((declarationIndex? declarations c).bind fun i => declarations[i]?).map fun d =>
      (c, d.typeName)

theorem typedBy_cons_of_belongsTo {declarations : List ChildDeclaration} {i : Nat}
    {c : Element} {d : ChildDeclaration} (rest : List Element)
    (hc : BelongsTo declarations i c) (hd : declarations[i]? = some d) :
    typedBy declarations (c :: rest) = (c, d.typeName) :: typedBy declarations rest := by
  have hindex := (declarationIndex?_eq_some_iff declarations i c).mpr hc
  simp [typedBy, hindex, hd]

theorem mem_typedBy_iff {declarations : List ChildDeclaration} {children : List Element}
    {c : Element} {typeName : String} :
    (c, typeName) ∈ typedBy declarations children <->
      c ∈ children ∧ exists i d, BelongsTo declarations i c ∧ declarations[i]? = some d ∧
        d.typeName = typeName := by
  simp only [typedBy, List.mem_filterMap, Option.map_eq_some_iff, Option.bind_eq_some_iff,
    declarationIndex?_eq_some_iff]
  constructor
  · rintro ⟨child, hmem, d, ⟨i, hi, hd⟩, heq⟩
    cases heq
    exact ⟨hmem, i, d, hi, hd, rfl⟩
  · rintro ⟨hmem, i, d, hi, hd, rfl⟩
    exact ⟨c, hmem, d, ⟨i, hi, hd⟩, rfl⟩

/-!
# Counting children

Children are counted one by one and the bound is looked at after each of them.
A count only grows, so it is enough that the last one is within its bound.
-/

theorem useCount_cons_of_belongsTo {declarations : List ChildDeclaration} {i : Nat}
    {c : Element} (j : Nat) (rest : List Element) (hc : BelongsTo declarations i c) :
    useCount declarations j (c :: rest) =
      useCount declarations j rest + if j = i then 1 else 0 := by
  have hiff : BelongsTo declarations j c <-> j = i := by
    constructor
    · intro hj
      exact belongsTo_unique hj hc
    · intro heq
      rw [heq]
      exact hc
  rw [useCount, List.countP_cons, useCount]
  simp only [hiff, decide_eq_true_eq]

def countsWith (declarations : List ChildDeclaration) (counts : List Nat)
    (children : List Element) : List Nat :=
  counts.mapIdx fun i count => count + useCount declarations i children

theorem getElem?_countsWith (declarations : List ChildDeclaration) (counts : List Nat)
    (children : List Element) (i : Nat) :
    (countsWith declarations counts children)[i]? =
      counts[i]?.map fun count => count + useCount declarations i children := by
  rw [countsWith, List.getElem?_mapIdx]

theorem countsWith_nil (declarations : List ChildDeclaration) (counts : List Nat) :
    countsWith declarations counts [] = counts := by
  apply List.ext_getElem?
  intro i
  rw [getElem?_countsWith]
  simp [useCount]

theorem countsWith_cons {declarations : List ChildDeclaration} {counts : List Nat} {i : Nat}
    {c : Element} (rest : List Element) (hc : BelongsTo declarations i c)
    (hlt : i < counts.length) :
    countsWith declarations (counts.set i (counts[i]?.getD 0 + 1)) rest =
      countsWith declarations counts (c :: rest) := by
  apply List.ext_getElem?
  intro j
  rw [getElem?_countsWith, getElem?_countsWith, useCount_cons_of_belongsTo j rest hc]
  by_cases hj : j = i
  · subst hj
    have hset : (counts.set j (counts[j]?.getD 0 + 1))[j]? = some (counts[j] + 1) := by
      simp [hlt]
    rw [hset, List.getElem?_eq_getElem hlt, if_pos rfl, Option.map_some, Option.map_some,
      Nat.add_assoc, Nat.add_comm 1]
  · rw [List.getElem?_set_ne (Ne.symm hj)]
    simp [hj]

theorem exceeds_eq_false_iff (count : Nat) (max : Option Nat) :
    exceeds count max = false <-> forall bound, max = some bound -> count ≤ bound := by
  cases max with
  | none => simp [exceeds]
  | some bound => simp [exceeds]

/-- No declaration that further children use is used more often than it
allows. -/
def StaysWithin (declarations : List ChildDeclaration) (counts : List Nat)
    (children : List Element) : Prop :=
  forall i d, declarations[i]? = some d -> useCount declarations i children ≠ 0 ->
    exceeds (counts[i]?.getD 0 + useCount declarations i children) d.max = false

theorem exceeds_of_le {count larger : Nat} {max : Option Nat} (hle : count ≤ larger)
    (h : exceeds larger max = false) : exceeds count max = false := by
  rw [exceeds_eq_false_iff] at h ⊢
  intro bound hbound
  exact Nat.le_trans hle (h bound hbound)

theorem staysWithin_cons_iff {declarations : List ChildDeclaration} {counts : List Nat}
    {i : Nat} {c : Element} {d : ChildDeclaration} (rest : List Element)
    (hc : BelongsTo declarations i c) (hd : declarations[i]? = some d)
    (hlt : i < counts.length) :
    StaysWithin declarations counts (c :: rest) <->
      exceeds (counts[i]?.getD 0 + 1) d.max = false ∧
        StaysWithin declarations (counts.set i (counts[i]?.getD 0 + 1)) rest := by
  have hset : (counts.set i (counts[i]?.getD 0 + 1))[i]?.getD 0 = counts[i]?.getD 0 + 1 := by
    simp [hlt]
  constructor
  · intro h
    constructor
    · have hall := h i d hd
      rw [useCount_cons_of_belongsTo i rest hc, if_pos rfl] at hall
      exact exceeds_of_le (by omega) (hall (by omega))
    · intro j other hother hused
      have hall := h j other hother
      rw [useCount_cons_of_belongsTo j rest hc] at hall
      by_cases hj : j = i
      · subst hj
        rw [if_pos rfl] at hall
        rw [hset]
        exact exceeds_of_le (by omega) (hall (by omega))
      · rw [if_neg hj] at hall
        rw [List.getElem?_set_ne (Ne.symm hj)]
        exact hall hused
  · rintro ⟨hfirst, hrest⟩ j other hother hused
    rw [useCount_cons_of_belongsTo j rest hc] at hused ⊢
    by_cases hj : j = i
    · subst hj
      rw [hd] at hother
      cases hother
      rw [if_pos rfl]
      by_cases hzero : useCount declarations j rest = 0
      · rw [hzero]
        exact hfirst
      · have hmore := hrest j d hd hzero
        rw [hset] at hmore
        exact exceeds_of_le (by omega) hmore
    · have hmore := hrest j other hother
      rw [List.getElem?_set_ne (Ne.symm hj)] at hmore
      rw [if_neg hj] at hused ⊢
      exact hmore hused

theorem assignFrom_eq_ok_iff (e : Element) {declarations : List ChildDeclaration}
    (typed : List (Element × String)) {counts : List Nat} (children : List Element)
    (assignment : Assignment) (hlen : counts.length = declarations.length) :
    e.assignFrom declarations typed counts children = .ok assignment <->
      (forall c, c ∈ children -> exists i, BelongsTo declarations i c) ∧
        StaysWithin declarations counts children ∧
          assignment = ⟨typed.reverse ++ typedBy declarations children,
            countsWith declarations counts children⟩ := by
  induction children generalizing typed counts with
  | nil =>
      rw [assignFrom, countsWith_nil, Except.ok.injEq, eq_comm]
      simp [typedBy, StaysWithin, useCount]
  | cons c rest ih =>
      rw [assignFrom]
      cases hindex : declarationIndex? declarations c with
      | none =>
          constructor
          · intro h
            cases h
          · rintro ⟨hall, _⟩
            rcases hall c List.mem_cons_self with ⟨i, hi⟩
            rw [(declarationIndex?_eq_some_iff declarations i c).mpr hi] at hindex
            cases hindex
      | some i =>
          have hc := (declarationIndex?_eq_some_iff declarations i c).mp hindex
          rcases exists_getElem?_of_belongsTo hc with ⟨d, hd, _⟩
          have hlt : i < counts.length := by
            rw [hlen]
            exact (List.getElem?_eq_some_iff.mp hd).choose
          simp only [hd]
          rw [staysWithin_cons_iff rest hc hd hlt, typedBy_cons_of_belongsTo rest hc hd,
            ← countsWith_cons rest hc hlt]
          split
          · next hexceeds =>
              constructor
              · intro h
                cases h
              · rintro ⟨_, ⟨hwithin, _⟩, _⟩
                rw [hwithin] at hexceeds
                cases hexceeds
          · next hwithin =>
              rw [ih _ (by rw [List.length_set, hlen])]
              constructor
              · rintro ⟨hall, hstays, heq⟩
                refine ⟨?_, ⟨by simpa using hwithin, hstays⟩, by simpa using heq⟩
                intro other hmem
                rcases List.mem_cons.mp hmem with heq | hrest
                · exact ⟨i, heq ▸ hc⟩
                · exact hall other hrest
              · rintro ⟨hall, ⟨_, hstays⟩, heq⟩
                exact ⟨fun other hmem => hall other (List.mem_cons_of_mem c hmem), hstays,
                  by simpa using heq⟩

theorem checkCounts_eq_ok_iff (e : Element) (used : List (ChildDeclaration × Nat)) :
    e.checkCounts used = .ok () <-> forall d count, (d, count) ∈ used -> d.min ≤ count := by
  induction used with
  | nil => simp [checkCounts]
  | cons entry rest ih =>
      obtain ⟨d, count⟩ := entry
      rw [checkCounts]
      split
      · next hfew =>
          constructor
          · intro h
            cases h
          · intro h
            exact absurd (h d count List.mem_cons_self) (Nat.not_le_of_lt hfew)
      · next hmany =>
          rw [ih]
          constructor
          · intro h other n hmem
            rcases List.mem_cons.mp hmem with heq | hrest
            · cases heq
              exact Nat.le_of_not_lt hmany
            · exact h other n hrest
          · intro h other n hmem
            exact h other n (List.mem_cons_of_mem _ hmem)

structure ChildrenFit (e : Element) (declarations : List ChildDeclaration) : Prop where
  declared : forall c, c ∈ e.children -> exists i, BelongsTo declarations i c
  counted : forall (i : Nat) (d : ChildDeclaration), declarations[i]? = some d ->
    d.Allows (useCount declarations i e.children)

theorem mem_zip_iff_getElem? {A B : Type} {as : List A} {bs : List B} {a : A} {b : B} :
    (a, b) ∈ as.zip bs <-> exists i : Nat, as[i]? = some a ∧ bs[i]? = some b := by
  rw [List.mem_iff_getElem?]
  simp only [List.getElem?_zip_eq_some]

theorem allows_iff_within_and_enough (declarations : List ChildDeclaration)
    (children : List Element) :
    (forall (i : Nat) (d : ChildDeclaration), declarations[i]? = some d ->
        d.Allows (useCount declarations i children)) <->
      StaysWithin declarations (declarations.map fun _ => 0) children ∧
        forall d count, (d, count) ∈ declarations.zip
            (countsWith declarations (declarations.map fun _ => 0) children) ->
          d.min ≤ count := by
  have hstart : forall (i : Nat) (d : ChildDeclaration), declarations[i]? = some d ->
      (declarations.map fun _ => 0)[i]? = some 0 := by
    intro i d hd
    rw [List.getElem?_map, hd]
    rfl
  have hend : forall (i : Nat) (d : ChildDeclaration), declarations[i]? = some d ->
      (countsWith declarations (declarations.map fun _ => 0) children)[i]? =
        some (useCount declarations i children) := by
    intro i d hd
    rw [getElem?_countsWith, hstart i d hd, Option.map_some, Nat.zero_add]
  constructor
  · intro h
    constructor
    · intro i d hd _
      rw [hstart i d hd, Option.getD_some, Nat.zero_add, exceeds_eq_false_iff]
      exact (h i d hd).right
    · intro d count hmem
      rcases mem_zip_iff_getElem?.mp hmem with ⟨i, hd, hcount⟩
      rw [hend i d hd] at hcount
      cases hcount
      exact (h i d hd).left
  · rintro ⟨hwithin, henough⟩ i d hd
    constructor
    · exact henough d _ (mem_zip_iff_getElem?.mpr ⟨i, hd, hend i d hd⟩)
    · intro max hmax
      by_cases hzero : useCount declarations i children = 0
      · rw [hzero]
        exact Nat.zero_le max
      · have hbound := hwithin i d hd hzero
        rw [hstart i d hd, Option.getD_some, Nat.zero_add, exceeds_eq_false_iff] at hbound
        exact hbound max hmax

theorem checkChildren_eq_ok_iff {e : Element} {declarations : List ChildDeclaration}
    {typed : List (Element × String)} :
    e.checkChildren declarations = .ok typed <->
      e.ChildrenFit declarations ∧ typed = typedBy declarations e.children := by
  have hlen : (declarations.map fun _ => 0).length = declarations.length := by
    rw [List.length_map]
  have hassign := fun assignment => e.assignFrom_eq_ok_iff [] e.children assignment hlen
  have hallows := allows_iff_within_and_enough declarations e.children
  rw [checkChildren]
  constructor
  · intro h
    split at h
    · cases h
    · next assignment heq =>
        rcases (hassign assignment).mp heq with ⟨hdeclared, hwithin, rfl⟩
        split at h
        · next hcounts =>
            cases h
            have henough := (e.checkCounts_eq_ok_iff _).mp hcounts
            exact ⟨⟨hdeclared, hallows.mpr ⟨hwithin, henough⟩⟩, rfl⟩
        · cases h
  · rintro ⟨⟨hdeclared, hcounted⟩, rfl⟩
    rcases hallows.mp hcounted with ⟨hwithin, henough⟩
    rw [(hassign _).mpr ⟨hdeclared, hwithin, rfl⟩]
    simp only
    rw [(e.checkCounts_eq_ok_iff _).mpr henough]
    rfl

/-!
# The element and its type
-/

/-- The element alone is as its type asks.  Nothing is asked of an element with
open content. -/
def Fits (e : Element) (t : ElementType) : Prop :=
  match t.content with
  | .any => True
  | .empty => e.AttributesFit t.attributes ∧ e.children = [] ∧ e.hasBlankText = true
  | .text kind =>
      e.AttributesFit t.attributes ∧ e.children = [] ∧ kind.accepts e.text = true
  | .elements declarations =>
      e.AttributesFit t.attributes ∧ e.hasBlankText = true ∧ e.ChildrenFit declarations

/-- The children that a type governs, with the names of their types.  It governs
none in open content. -/
def governedChildren (e : Element) (t : ElementType) : List (Element × String) :=
  match t.content with
  | .elements declarations => typedBy declarations e.children
  | _ => []

theorem checkNoChildren_eq_ok_iff (e : Element) :
    e.checkNoChildren = .ok () <-> e.children = [] := by
  rw [checkNoChildren]
  cases e.children with
  | nil => simp
  | cons c rest => simp

theorem checkContent_eq_ok_iff {e : Element} {t : ElementType}
    {typed : List (Element × String)} (hclosed : t.content ≠ .any)
    (hattributes : e.AttributesFit t.attributes) :
    e.checkContent t.content = .ok typed <-> e.Fits t ∧ typed = e.governedChildren t := by
  rw [Fits, governedChildren]
  cases hcontent : t.content with
  | any => exact absurd hcontent hclosed
  | empty =>
      simp only [checkContent, hattributes, true_and]
      rw [← checkNoChildren_eq_ok_iff]
      cases e.checkNoChildren with
      | error v => simp
      | ok _ => cases e.hasBlankText <;> simp [eq_comm]
  | text kind =>
      simp only [checkContent, hattributes, true_and]
      rw [← checkNoChildren_eq_ok_iff]
      cases e.checkNoChildren with
      | error v => simp
      | ok _ => cases kind.accepts e.text <;> simp [eq_comm]
  | elements declarations =>
      simp only [checkContent, hattributes, true_and]
      rw [and_assoc, ← checkChildren_eq_ok_iff]
      cases e.hasBlankText <;> simp

theorem attributesFit_of_fits {e : Element} {t : ElementType} (h : e.Fits t)
    (hclosed : t.content ≠ .any) : e.AttributesFit t.attributes := by
  rw [Fits] at h
  split at h
  · next hopen => exact absurd hopen hclosed
  · exact h.left
  · exact h.left
  · exact h.left

theorem check_eq_ok_iff {e : Element} {t : ElementType} {typed : List (Element × String)} :
    e.check t = .ok typed <-> e.Fits t ∧ typed = e.governedChildren t := by
  rw [check]
  split
  · next hopen => simp [Fits, governedChildren, hopen, eq_comm]
  · next hclosed =>
      constructor
      · intro h
        split at h
        · next hattributes =>
            exact (checkContent_eq_ok_iff hclosed
              ((e.checkAttributes_eq_ok_iff _).mp hattributes)).mp h
        · cases h
      · intro h
        have hattributes := attributesFit_of_fits h.left hclosed
        rw [(e.checkAttributes_eq_ok_iff _).mpr hattributes]
        exact (checkContent_eq_ok_iff hclosed hattributes).mpr h

theorem not_fits_of_check_eq_error {e : Element} {t : ElementType} {v : Violation}
    (h : e.check t = .error v) : ¬ e.Fits t := by
  intro hfits
  rw [check_eq_ok_iff.mpr ⟨hfits, rfl⟩] at h
  cases h

theorem mem_children_of_mem_governedChildren {e c : Element} {t : ElementType}
    {typeName : String} (h : (c, typeName) ∈ e.governedChildren t) : c ∈ e.children := by
  rw [governedChildren] at h
  split at h
  · exact (mem_typedBy_iff.mp h).left
  · cases h

end Element
end FlowConfig
