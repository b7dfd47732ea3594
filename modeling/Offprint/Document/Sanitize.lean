import Offprint.Document.Page
import Offprint.Document.Policy

/-!
# Sanitizing a page

The pass collects the nodes of a page first and then visits them in that order.  An element the
policy forbids is taken out of its parent, and every other element loses the attributes the
policy forbids.  The descendants of an element that was taken out are still visited, but what
happens to them no longer shows.
-/

namespace Offprint.Document

open Data List Offprint.Data.Traversal

variable {attrs : List Attribute}

section Policy

def isContentSecurityPolicy (name : QualName) (attrs : List Attribute) : Bool :=
  name == ⟨.html, "meta"⟩ &&
    (attributeValue attrs "http-equiv").any (Css.eqIgnoreAsciiCase · "content-security-policy")

def shouldRemoveElement : NodeData → Bool
  | .element name attrs _ =>
    if isScriptElement name then name.ns == .svg || !isStructuredMetadataScript attrs
    else if isBaseElement name then true
    else if isMetaRefresh name attrs then true
    else if isContentSecurityPolicy name attrs then true
    else isRequestTriggeringLink name attrs
  | _ => false

/-- The elements that run programs, move the base of a page, or make a browser act on its own. -/
def ForbidsElement (name : QualName) (attrs : List Attribute) : Prop :=
  (isScriptElement name = true ∧ (name.ns = .svg ∨ isStructuredMetadataScript attrs = false)) ∨
    isBaseElement name = true ∨ isMetaRefresh name attrs = true ∨
      isContentSecurityPolicy name attrs = true ∨ isRequestTriggeringLink name attrs = true

def ForbidsAttribute (attr : Attribute) : Prop :=
  isEventAttribute attr = true ∨ isJavascriptUrlAttribute attr = true

instance : DecidablePred ForbidsAttribute :=
  fun attr => inferInstanceAs (Decidable (isEventAttribute attr = true ∨ _))

theorem shouldRemoveElement_iff {name : QualName} {templateContents : Option NodeId} :
    shouldRemoveElement (.element name attrs templateContents) = true ↔
      ForbidsElement name attrs := by
  unfold shouldRemoveElement ForbidsElement
  by_cases script : isScriptElement name = true
  · -- no other rule is about an element of this name
    have named : name.localName = "script" := by
      simp only [isScriptElement, Bool.and_eq_true, beq_iff_eq] at script
      exact script.2
    have others : ∀ other, other ≠ "script" → (name == ⟨.html, other⟩) = false := by
      intro other differs
      rw [beq_eq_false_iff_ne]
      rintro rfl
      exact differs named
    simp [script, isBaseElement, isMetaRefresh, isContentSecurityPolicy,
      isRequestTriggeringLink, others]
  · simp only [script, if_false, Bool.false_eq_true]
    by_cases base : isBaseElement name = true
    · simp [base]
    by_cases refresh : isMetaRefresh name attrs = true
    · simp [refresh]
    by_cases policy : isContentSecurityPolicy name attrs = true
    · simp [policy]
    simp [base, refresh, policy]

end Policy

structure SanitizationReport where
  removedElements : Nat := 0
  removedEventAttributes : Nat := 0
  removedJavascriptUrls : Nat := 0
  deriving Repr, DecidableEq

section Attributes

def sanitizeAttributes :
    List Attribute → SanitizationReport → List Attribute × SanitizationReport
  | [], report => ([], report)
  | attr :: rest, report =>
    if isEventAttribute attr then
      sanitizeAttributes rest
        { report with removedEventAttributes := report.removedEventAttributes + 1 }
    else if isJavascriptUrlAttribute attr then
      sanitizeAttributes rest
        { report with removedJavascriptUrls := report.removedJavascriptUrls + 1 }
    else
      let (kept, report) := sanitizeAttributes rest report
      (attr :: kept, report)

def permittedAttributes (attrs : List Attribute) : List Attribute :=
  attrs.filter fun attr => ¬ForbidsAttribute attr

theorem fst_sanitizeAttributes (attrs : List Attribute) (report : SanitizationReport) :
    (sanitizeAttributes attrs report).1 = permittedAttributes attrs := by
  induction attrs generalizing report with
  | nil => rfl
  | cons attr rest ih =>
    unfold permittedAttributes at ih ⊢
    by_cases event : isEventAttribute attr = true
    · simp [sanitizeAttributes, event, ForbidsAttribute, ih]
    by_cases javascript : isJavascriptUrlAttribute attr = true
    · simp [sanitizeAttributes, event, javascript, ForbidsAttribute, ih]
    simp [sanitizeAttributes, event, javascript, ForbidsAttribute, ih]

theorem sanitizeAttributes_of_permitted (permitted : ∀ attr ∈ attrs, ¬ForbidsAttribute attr)
    (report : SanitizationReport) : sanitizeAttributes attrs report = (attrs, report) := by
  induction attrs with
  | nil => rfl
  | cons attr rest ih =>
    have head := permitted attr mem_cons_self
    simp only [ForbidsAttribute, not_or, Bool.not_eq_true] at head
    have tail := ih fun other member =>
      permitted other (mem_cons_of_mem _ member)
    simp [sanitizeAttributes, head.1, head.2, tail]

theorem not_forbidsAttribute {name : String} (event : isEventAttribute ⟨⟨.none, name⟩, []⟩ = false)
    (url : isUrlAttribute ⟨⟨.none, name⟩, []⟩ = false) (value : List Char) :
    ¬ForbidsAttribute ⟨⟨.none, name⟩, value⟩ := by
  rintro (isEvent | isUrl)
  · exact Bool.false_ne_true (event.symm.trans isEvent)
  · exact Bool.false_ne_true (url.symm.trans (Bool.and_eq_true_iff.mp isUrl).1)

section

variable (attrs : List Attribute)

theorem attributeValue_permittedAttributes {name : String}
    (plain : ∀ value, ¬ForbidsAttribute ⟨⟨.none, name⟩, value⟩) :
    attributeValue (permittedAttributes attrs) name = attributeValue attrs name := by
  unfold attributeValue permittedAttributes
  rw [find?_filter]
  congr 2
  funext attr
  by_cases named : attr.name = ⟨.none, name⟩
  · obtain ⟨attrName, value⟩ := attr
    subst named
    simp [plain value]
  · simp [named]

theorem isStructuredMetadataScript_permittedAttributes :
    isStructuredMetadataScript (permittedAttributes attrs) = isStructuredMetadataScript attrs := by
  unfold isStructuredMetadataScript
  rw [attributeValue_permittedAttributes attrs (not_forbidsAttribute (by decide) (by decide))]

theorem attributeValue_httpEquiv_permittedAttributes :
    attributeValue (permittedAttributes attrs) "http-equiv" =
      attributeValue attrs "http-equiv" :=
  attributeValue_permittedAttributes attrs (not_forbidsAttribute (by decide) (by decide))

theorem linkRel_permittedAttributes : linkRel (permittedAttributes attrs) = linkRel attrs := by
  unfold linkRel
  rw [attributeValue_permittedAttributes attrs (not_forbidsAttribute (by decide) (by decide))]

end

/-- An element without the attributes the policy forbids. -/
def withPermittedAttributes : NodeData → NodeData
  | .element name attrs templateContents =>
    .element name (permittedAttributes attrs) templateContents
  | data => data

@[simp]
theorem template_withPermittedAttributes (data : NodeData) :
    (withPermittedAttributes data).template = data.template := by
  cases data <;> rfl

theorem template_ite_withPermittedAttributes (visited : Prop) [Decidable visited]
    (data : NodeData) :
    (if visited then withPermittedAttributes data else data).template = data.template := by
  split <;> simp

@[simp]
theorem shouldRemoveElement_withPermittedAttributes (data : NodeData) :
    shouldRemoveElement (withPermittedAttributes data) = shouldRemoveElement data := by
  cases data with
  | element name attrs templateContents =>
    rw [Bool.eq_iff_iff, withPermittedAttributes, shouldRemoveElement_iff, shouldRemoveElement_iff]
    simp only [ForbidsElement, isMetaRefresh, isContentSecurityPolicy,
      isRequestTriggeringLink, isStructuredMetadataScript_permittedAttributes,
      attributeValue_httpEquiv_permittedAttributes, linkRel_permittedAttributes]
  | _ => rfl

end Attributes

section Pass

def removes (nodes : List Node) (id : NodeId) : Bool :=
  nodes[id]?.any fun node => shouldRemoveElement node.data

def sanitizeNode (state : List Node × SanitizationReport) (id : NodeId) :
    List Node × SanitizationReport :=
  let (nodes, report) := state
  if removes nodes id then
    (detach nodes id, { report with removedElements := report.removedElements + 1 })
  else
    match nodes[id]?.map Node.data with
    | some (.element name attrs templateContents) =>
      let (attrs, report) := sanitizeAttributes attrs report
      (nodes.modify id fun node => { node with data := .element name attrs templateContents },
        report)
    | _ => (nodes, report)

theorem fewer_sanitizeNode (state : List Node × SanitizationReport) (id : NodeId) :
    Fewer state.1 (sanitizeNode state id).1 := by
  obtain ⟨nodes, report⟩ := state
  unfold sanitizeNode
  dsimp only
  split
  · exact fewer_detach nodes id
  · split
    next name attrs templateContents element =>
      constructor
      · exact length_modify ..
      · intro index
        unfold below
        rw [getElem?_modify]
        cases found : nodes[index]? with
        | none => exact .refl _
        | some node =>
          by_cases same : id = index
          · subst same
            have data : node.data = .element name attrs templateContents := by
              simpa [found] using element
            simp [Node.below, NodeData.template, data]
          · simp [same]
    next => exact .refl nodes

theorem fewer_foldl_sanitizeNode (ids : List NodeId) (state : List Node × SanitizationReport) :
    Fewer state.1 (ids.foldl sanitizeNode state).1 := by
  induction ids generalizing state with
  | nil => exact .refl _
  | cons id rest ih =>
    exact (fewer_sanitizeNode state id).trans (ih (sanitizeNode state id))

def sanitizeSafeStatic (document : Document) : Document × SanitizationReport :=
  let result := document.walk.foldl sanitizeNode (document.nodes, {})
  (document.cut result.1 (fewer_foldl_sanitizeNode document.walk (document.nodes, {})), result.2)

end Pass

section Result

variable {nodes : List Node} {root : NodeId} {done : List NodeId} {id : NodeId} {node : Node}

/-- The arena after some of its nodes were visited. -/
def cleared (nodes : List Node) (done : List NodeId) : List Node :=
  nodes.mapIdx fun id node =>
    { parent := if id ∈ done ∧ shouldRemoveElement node.data then none else node.parent
      children := node.children.filter fun child => ¬(child ∈ done ∧ removes nodes child)
      data := if id ∈ done ∧ ¬shouldRemoveElement node.data then withPermittedAttributes node.data
        else node.data }

theorem getElem?_cleared : (cleared nodes done)[id]? = nodes[id]?.map fun node =>
      { parent := if id ∈ done ∧ shouldRemoveElement node.data then none else node.parent
        children := node.children.filter fun child => ¬(child ∈ done ∧ removes nodes child)
        data := if id ∈ done ∧ ¬shouldRemoveElement node.data then withPermittedAttributes node.data
          else node.data } :=
  getElem?_mapIdx

@[simp]
theorem cleared_nil (nodes : List Node) : cleared nodes [] = nodes := by
  apply ext_getElem?
  intro id
  rw [getElem?_cleared]
  cases nodes[id]? <;> simp

theorem removes_eq (found : nodes[id]? = some node) :
    removes nodes id = shouldRemoveElement node.data := by
  simp [removes, found]

theorem filter_append_of_not_removes (stays : removes nodes id = false) (children : List NodeId) :
    (children.filter fun child => ¬(child ∈ done ++ [id] ∧ removes nodes child)) =
      children.filter fun child => ¬(child ∈ done ∧ removes nodes child) := by
  apply filter_congr
  intro child _
  by_cases same : child = id
  · subst same
    simp [stays]
  · simp [same]

theorem getElem?_cleared_of_notMem (found : nodes[id]? = some node) (notDone : id ∉ done) :
    (cleared nodes done)[id]? = some { node with
      children := node.children.filter fun child => ¬(child ∈ done ∧ removes nodes child) } := by
  simp [getElem?_cleared, found, notDone]

theorem removes_cleared : removes (cleared nodes done) id = removes nodes id := by
  unfold removes
  rw [getElem?_cleared]
  cases nodes[id]? with
  | none => rfl
  | some node =>
    simp only [Option.map_some, Option.any_some]
    split
    · exact shouldRemoveElement_withPermittedAttributes node.data
    · rfl

theorem removes_eq_false_iff (document : Document) (id : NodeId) :
    removes document.nodes id = false ↔
      ∀ name attrs, document.element? id = some (name, attrs) → ¬ForbidsElement name attrs := by
  unfold removes Document.element? Document.node
  cases document.nodes[id]? with
  | none => simp
  | some node =>
    obtain ⟨parent, children, data⟩ := node
    cases data with
    | element name attrs templateContents =>
      rw [Option.any_some, ← Bool.not_eq_true, shouldRemoveElement_iff]
      simp
    | _ => simp [shouldRemoveElement]

theorem detach_cleared (linked : Linked nodes root) (found : nodes[id]? = some node)
    (notDone : id ∉ done) (removed : shouldRemoveElement node.data = true) :
    detach (cleared nodes done) id = cleared nodes (done ++ [id]) := by
  apply ext_getElem?
  intro index
  rw [getElem?_detach, getElem?_cleared_of_notMem found notDone, getElem?_cleared, getElem?_cleared]
  cases foundIndex : nodes[index]? with
  | none => rfl
  | some other =>
    simp only [Option.map_some, Option.bind_some, Option.some.injEq, Node.mk.injEq]
    refine ⟨?_, ?_, ?_⟩
    · by_cases same : id = index
      · subst same
        obtain rfl := Option.some.inj (found.symm.trans foundIndex)
        simp [removed]
      · simp [same, Ne.symm same]
    · split
      next isParent =>
        rw [filter_filter]
        apply filter_congr
        intro child _
        by_cases same : child = id
        · subst same
          simp [removes_eq found, removed]
        · simp [same]
      next notParent =>
        apply filter_congr
        intro child member
        by_cases same : child = id
        · subst same
          obtain ⟨child, foundChild, parent⟩ := linked.parents foundIndex member
          obtain rfl := Option.some.inj (found.symm.trans foundChild)
          exact absurd parent notParent
        · simp [same]
    · by_cases same : index = id
      · subst same
        obtain rfl := Option.some.inj (found.symm.trans foundIndex)
        simp [removed]
      · simp [same]

theorem modify_cleared (found : nodes[id]? = some node)
    (stays : shouldRemoveElement node.data = false) : ((cleared nodes done).modify id fun other =>
      { other with data := withPermittedAttributes node.data }) = cleared nodes (done ++ [id]) := by
  have staysAt : removes nodes id = false := by rw [removes_eq found, stays]
  apply ext_getElem?
  intro index
  rw [getElem?_modify, getElem?_cleared, getElem?_cleared]
  cases foundIndex : nodes[index]? with
  | none => rfl
  | some other =>
    simp only [Option.map_eq_map, Option.map_some, filter_append_of_not_removes staysAt]
    by_cases same : id = index
    · subst same
      obtain rfl := Option.some.inj (found.symm.trans foundIndex)
      simp [stays]
    · simp [same, Ne.symm same]

theorem cleared_append_of_not_element (stays : removes nodes id = false)
    (plain : ∀ node, nodes[id]? = some node → withPermittedAttributes node.data = node.data) :
    cleared nodes (done ++ [id]) = cleared nodes done := by
  apply ext_getElem?
  intro index
  rw [getElem?_cleared, getElem?_cleared]
  cases foundIndex : nodes[index]? with
  | none => rfl
  | some other =>
    simp only [Option.map_some, filter_append_of_not_removes stays]
    by_cases same : index = id
    · subst same
      have kept : shouldRemoveElement other.data = false := by
        rw [← removes_eq foundIndex, stays]
      simp [kept, plain other foundIndex]
    · simp [same]

theorem fst_sanitizeNode_cleared (linked : Linked nodes root) (notDone : id ∉ done)
    (report : SanitizationReport) :
    (sanitizeNode (cleared nodes done, report) id).1 = cleared nodes (done ++ [id]) := by
  unfold sanitizeNode
  dsimp only
  rw [removes_cleared]
  cases found : nodes[id]? with
  | none =>
    have absent : (cleared nodes done)[id]? = none := by simp [getElem?_cleared, found]
    have stays : removes nodes id = false := by simp [removes, found]
    rw [absent, stays]
    exact (cleared_append_of_not_element stays (by simp [found])).symm
  | some node =>
    rw [getElem?_cleared_of_notMem found notDone]
    by_cases removed : removes nodes id = true
    · rw [if_pos removed]
      exact detach_cleared linked found notDone (by rwa [removes_eq found] at removed)
    · rw [if_neg removed]
      rw [Bool.not_eq_true] at removed
      have stays : shouldRemoveElement node.data = false := by
        rwa [removes_eq found] at removed
      cases data : node.data with
      | element name attrs templateContents =>
        simp only [Option.map_some]
        rw [← modify_cleared found stays, data, withPermittedAttributes, fst_sanitizeAttributes]
      | _ =>
        refine (cleared_append_of_not_element removed fun other foundOther => ?_).symm
        obtain rfl := Option.some.inj (found.symm.trans foundOther)
        rw [data]
        rfl

theorem fst_foldl_sanitizeNode (linked : Linked nodes root) (done ids : List NodeId)
    (distinct : (done ++ ids).Nodup) (report : SanitizationReport) :
    (ids.foldl sanitizeNode (cleared nodes done, report)).1 = cleared nodes (done ++ ids) := by
  induction ids generalizing done report with
  | nil => simp
  | cons id rest ih =>
    have notDone : id ∉ done := fun member =>
      disjoint_of_nodup_append distinct member mem_cons_self
    have step := fst_sanitizeNode_cleared linked notDone report
    rw [foldl_cons]
    generalize sanitizeNode (cleared nodes done, report) id = state at step ⊢
    obtain ⟨nodes', report'⟩ := state
    obtain rfl : nodes' = cleared nodes (done ++ [id]) := step
    rw [ih (done ++ [id]) (by simpa using distinct), append_assoc]
    rfl

end Result

variable {id : NodeId}

section Page

variable (page : Page)

abbrev Page.sanitized : Document :=
  (sanitizeSafeStatic page.toDocument).1

theorem Page.nodes_sanitized : page.sanitized.nodes = cleared page.nodes page.walk := by
  have folded := fst_foldl_sanitizeNode page.linked [] page.walk page.nodup_walk {}
  rwa [cleared_nil] at folded

theorem Page.below_sanitized (member : id ∈ page.walk) :
    below page.sanitized.nodes id =
      (below page.nodes id).filter fun lower => removes page.nodes lower = false := by
  obtain ⟨node, found⟩ := page.exists_of_mem_walk member
  have inside : ∀ child ∈ node.children, child ∈ page.walk := by
    intro child isChild
    apply page.visits_walk.mem_of_below member
    simp [below, found, Node.below, isChild]
  have fragment : ∀ lower ∈ node.data.template.toList, removes page.nodes lower = false := by
    intro lower isFragment
    obtain ⟨contents, foundContents, data⟩ :=
      page.linked.fragments found (Option.mem_toList.mp isFragment)
    rw [removes_eq foundContents, data]
    rfl
  rw [Page.nodes_sanitized]
  unfold below
  rw [getElem?_cleared, found]
  simp only [Option.map_some, Option.elim_some, Node.below, filter_append]
  congr 1
  · rw [template_ite_withPermittedAttributes, filter_eq_self.mpr]
    intro lower isFragment
    simp [fragment lower isFragment]
  · apply filter_congr
    intro child isChild
    simp [inside child isChild]

theorem Page.removes_root : removes page.nodes page.root = false := by
  obtain ⟨node, found, data⟩ := page.linked.rootData
  rw [removes_eq found, data]
  rfl

theorem Page.mem_walk_sanitized_iff (id : NodeId) :
    id ∈ page.sanitized.walk ↔
      id ∈ page.walk ∧ ∀ upper ∈ page.walk, Reaches (below page.nodes) upper id →
        removes page.nodes upper = false := by
  have listed := page.visits_walk.mem_filtered_iff (fun lower => removes page.nodes lower = false)
    page.nodup_walk page.sanitized.visits_walk (by simpa using page.removes_root)
    (fun id member => page.below_sanitized member) id
  simpa using listed

theorem Page.node_sanitized (member : id ∈ page.sanitized.walk) :
    ∃ node, page.node id = some node ∧ shouldRemoveElement node.data = false ∧
      page.sanitized.node id = some
        { node with
          children := node.children.filter fun child => child ∈ page.sanitized.walk
          data := withPermittedAttributes node.data } := by
  obtain ⟨memberBefore, above⟩ := (page.mem_walk_sanitized_iff id).mp member
  obtain ⟨node, found⟩ := page.exists_of_mem_walk memberBefore
  have stays : shouldRemoveElement node.data = false := by
    rw [← removes_eq found]
    exact above id memberBefore .refl
  have remains : ∀ child ∈ node.children,
      child ∈ page.sanitized.walk ↔ ¬(child ∈ page.walk ∧ removes page.nodes child = true) := by
    intro child isChild
    have under : child ∈ below page.nodes id := by simp [below, found, Node.below, isChild]
    have inside := page.visits_walk.mem_of_below memberBefore under
    constructor
    · intro memberChild removed
      have kept := ((page.mem_walk_sanitized_iff child).mp memberChild).2 child inside .refl
      rw [kept] at removed
      exact Bool.false_ne_true removed.2
    · intro kept
      apply page.sanitized.visits_walk.mem_of_below member
      rw [page.below_sanitized memberBefore, mem_filter]
      refine ⟨under, ?_⟩
      simpa [inside] using kept
  refine ⟨node, found, stays, ?_⟩
  unfold Document.node
  rw [page.nodes_sanitized, getElem?_cleared, found]
  simp only [Option.map_some, memberBefore, stays, Bool.false_eq_true, if_false,
    not_false_eq_true, and_true, if_true, Option.some.injEq, Node.mk.injEq, true_and]
  apply filter_congr
  intro child isChild
  simp [remains child isChild]

end Page

section Again

/-- The node holds nothing the policy forbids. -/
def Permitted : NodeData → Prop
  | .element name attrs _ =>
    ¬ForbidsElement name attrs ∧ ∀ attr ∈ attrs, ¬ForbidsAttribute attr
  | _ => True

theorem permitted_withPermittedAttributes {data : NodeData}
    (stays : shouldRemoveElement data = false) : Permitted (withPermittedAttributes data) := by
  have staysAfter := (shouldRemoveElement_withPermittedAttributes data).trans stays
  cases data with
  | element name attrs templateContents =>
    refine ⟨fun forbidden => ?_, fun attr member => ?_⟩
    · exact Bool.false_ne_true (staysAfter.symm.trans (shouldRemoveElement_iff.mpr forbidden))
    · simpa using (mem_filter.mp member).2
  | _ => trivial

theorem sanitizeNode_of_permitted {nodes : List Node}
    (permitted : ∀ node, nodes[id]? = some node → Permitted node.data)
    (report : SanitizationReport) : sanitizeNode (nodes, report) id = (nodes, report) := by
  unfold sanitizeNode removes
  dsimp only
  cases found : nodes[id]? with
  | none => simp
  | some node =>
    have fine := permitted node found
    cases data : node.data with
    | element name attrs templateContents =>
      rw [data] at fine
      have stays : shouldRemoveElement (.element name attrs templateContents) = false := by
        rw [← Bool.not_eq_true, shouldRemoveElement_iff]
        exact fine.1
      simp only [Option.any_some, data, stays, Bool.false_eq_true, if_false, Option.map_some,
        sanitizeAttributes_of_permitted fine.2, Prod.mk.injEq, and_true]
      apply ext_getElem?
      intro index
      by_cases same : id = index
      · subst same
        simp [found, ← data]
      · simp [same]
    | _ => simp [data, shouldRemoveElement]

theorem foldl_sanitizeNode_of_permitted {nodes : List Node} {ids : List NodeId}
    (permitted : ∀ id ∈ ids, ∀ node, nodes[id]? = some node → Permitted node.data)
    (report : SanitizationReport) : ids.foldl sanitizeNode (nodes, report) = (nodes, report) := by
  induction ids with
  | nil => rfl
  | cons id rest ih =>
    rw [foldl_cons, sanitizeNode_of_permitted (permitted id mem_cons_self)]
    exact ih fun other member =>
      permitted other (mem_cons_of_mem _ member)

theorem sanitizeSafeStatic_of_permitted {document : Document}
    (permitted : ∀ id ∈ document.walk, ∀ node, document.node id = some node →
      Permitted node.data) : sanitizeSafeStatic document = (document, {}) := by
  have folded := foldl_sanitizeNode_of_permitted permitted {}
  unfold sanitizeSafeStatic Document.cut
  simp only [folded]

end Again

section Main

variable (page : Page)

theorem Page.permitted_sanitized {node : Node} (member : id ∈ page.sanitized.walk)
    (found : page.sanitized.node id = some node) : Permitted node.data := by
  obtain ⟨before, -, stays, after⟩ := page.node_sanitized member
  obtain rfl := Option.some.inj (after.symm.trans found)
  exact permitted_withPermittedAttributes stays

/-- The pass takes out what the policy forbids and nothing else, and one pass is enough. -/
theorem sanitizeSafeStatic_complete_minimal_idempotent :
    (∀ id ∈ page.sanitized.walk, ∀ node, page.sanitized.node id = some node → Permitted node.data) ∧
    (∀ id, id ∈ page.sanitized.walk ↔
      id ∈ page.walk ∧ ∀ upper ∈ page.walk, Reaches (below page.nodes) upper id →
        ∀ name attrs, page.element? upper = some (name, attrs) → ¬ForbidsElement name attrs) ∧
    (∀ id ∈ page.sanitized.walk, ∃ node, page.node id = some node ∧ page.sanitized.node id = some
        { parent := node.parent
          children := node.children.filter fun child => child ∈ page.sanitized.walk
          data := withPermittedAttributes node.data }) ∧
    sanitizeSafeStatic page.sanitized = (page.sanitized, {}) := by
  refine ⟨fun id member node found => page.permitted_sanitized member found, fun id => ?_,
    fun id member => ?_, sanitizeSafeStatic_of_permitted fun id member node found =>
      page.permitted_sanitized member found⟩
  · simp only [page.mem_walk_sanitized_iff, removes_eq_false_iff]
  · obtain ⟨node, found, -, after⟩ := page.node_sanitized member
    exact ⟨node, found, after⟩

end Main
end Offprint.Document
