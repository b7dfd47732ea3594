import Offprint.Document.Graft

/-!
# Freezing the rendering of a page

A style element with the freeze rules is added to the head of a page and to every declarative
shadow root, unless the scope already has a style element with the freeze attribute.  What that
element says is not looked at.
-/

namespace Offprint.Document

open Effect Model Page List Checked

section Styles

def freezeAttribute : String := "data-offprint-freeze"

def freezeCss : List Char :=
  ("*,*::before,*::after\x7banimation-play-state:paused!important;transition:none!important;" ++
    "caret-color:transparent!important\x7d").toList

variable (document : Document) (page : Page) (parent : NodeId)

def isFreezeStyle (id : NodeId) : Bool :=
  (document.element? id).any fun element =>
    element.1 == ⟨.html, "style"⟩ && (attributeValue element.2 freezeAttribute).isSome

def hasDirectFreezeStyle : Bool :=
  (document.children parent).any (isFreezeStyle document)

def freezeScope : Checked OffprintError Page :=
  if hasDirectFreezeStyle page.toDocument parent then .ok page
  else page.appendElement parent ⟨.html, "style"⟩ [⟨⟨.none, freezeAttribute⟩, []⟩] freezeCss

/-- The contents of a template that becomes a shadow root. -/
def shadowRoot (id : NodeId) : Option NodeId :=
  match (document.node id).map Node.data with
  | some (.element name attrs templateContents) =>
    if name == ⟨.html, "template"⟩ && (attributeValue attrs "shadowrootmode").isSome then
      templateContents
    else none
  | _ => none

def shadowRoots : List NodeId :=
  document.walk.filterMap (shadowRoot document)

def freezeParent : Option NodeId :=
  (document.findHtmlElement "head").or (document.findHtmlElement "html")

def ensureRenderFreezeStyles : Checked OffprintError Page :=
  match freezeParent page.toDocument with
  | none => .error (transformError "offprint.transform.document"
      "captured document has no HTML root for rendering freeze rules")
  | some parent => do
      let page ← freezeScope page parent
      (shadowRoots page.toDocument).foldlM freezeScope page

end Styles

section Scopes

/-- The nodes whose descendants one style element can reach. -/
def freezeScopes (document : Document) : List NodeId :=
  (freezeParent document).toList ++ shadowRoots document

/-- The rules stand in a style element among the children of a scope. -/
def HasFreezeRules (document : Document) (scope : NodeId) : Prop :=
  ∃ child ∈ document.children scope, document.hasName ⟨.html, "style"⟩ child = true ∧
    document.textContents child = freezeCss

instance (document : Document) (scope : NodeId) : Decidable (HasFreezeRules document scope) :=
  inferInstanceAs (Decidable (∃ child ∈ document.children scope, _))

def Page.withFreezeStyle (page : Page) (scope : NodeId) : Page :=
  page.append scope ⟨.html, "style"⟩ [⟨⟨.none, freezeAttribute⟩, []⟩] freezeCss

variable {page : Page} {host id scope : NodeId} {current frozen : Page} {done : List NodeId}

theorem exists_of_shadowRoot {document : Document} {contents : NodeId}
    (found : shadowRoot document id = some contents) :
    ∃ node, document.node id = some node ∧ node.data.template = some contents := by
  unfold shadowRoot at found
  cases nodeFound : document.node id with
  | none => simp [nodeFound] at found
  | some node =>
    refine ⟨node, rfl, ?_⟩
    rw [nodeFound, Option.map_some] at found
    split at found
    next name attrs templateContents data =>
      rw [Option.some.inj data, NodeData.template]
      split at found
      · exact found
      · cases found
    next => cases found

theorem mem_walk_of_mem_freezeScopes (member : host ∈ freezeScopes page.toDocument) :
    host ∈ page.walk ∧ page.hasName ⟨.html, "style"⟩ host = false := by
  have found : ∀ localName, localName ≠ "style" → page.findHtmlElement localName = some host →
      host ∈ page.walk ∧ page.hasName ⟨.html, "style"⟩ host = false := by
    intro localName differs found
    refine ⟨mem_of_find?_eq_some found, ?_⟩
    apply hasName_eq_false_of_hasName (find?_some found)
    simp [differs]
  obtain isParent | isRoot := mem_append.mp member
  · obtain isHead | ⟨-, isHtml⟩ := Option.or_eq_some_iff.mp (Option.mem_toList.mp isParent)
    · exact found "head" (by decide) isHead
    · exact found "html" (by decide) isHtml
  · obtain ⟨id, listed, contents⟩ := mem_filterMap.mp isRoot
    obtain ⟨node, foundNode, template⟩ := exists_of_shadowRoot contents
    constructor
    · apply page.visits_walk.mem_of_below listed
      have foundAt : page.nodes[id]? = some node := foundNode
      simp [below, foundAt, Node.below, template]
    · obtain ⟨fragment, foundFragment, data⟩ := page.linked.fragments foundNode template
      have foundAt : page.node host = some fragment := foundFragment
      simp [Document.hasName, Document.element?, foundAt, data]

theorem freezeParent_withFreezeStyle (member : host ∈ page.walk) :
    freezeParent (page.withFreezeStyle host).toDocument = freezeParent page.toDocument := by
  unfold freezeParent withFreezeStyle Page.append
  rw [page.findHtmlElement_graft member (by decide), page.findHtmlElement_graft member (by decide)]

theorem shadowRoots_withFreezeStyle (member : host ∈ page.walk) :
    shadowRoots (page.withFreezeStyle host).toDocument = shadowRoots page.toDocument := by
  unfold withFreezeStyle Page.append
  apply page.filterMap_walk_graft member
  · intro id old
    unfold shadowRoot
    rw [page.data_graft (page.lt_of_mem_walk old)]
  · intro id new
    unfold shadowRoot
    obtain rfl | isText := mem_cons.mp new
    · rw [page.node_graft_element]
      rfl
    · obtain ⟨index, -, rfl⟩ := mem_range'.mp isText
      rw [Nat.one_mul, page.node_graft_text]
      cases [freezeCss][index]? <;> rfl

theorem children_withFreezeStyle (inside : id < page.nodes.length) :
    (page.withFreezeStyle host).children id =
      if host = id then page.children id ++ [page.nodes.length] else page.children id := by
  unfold withFreezeStyle Page.append
  exact page.children_graft inside

theorem isFreezeStyle_withFreezeStyle (inside : id < page.nodes.length) :
    isFreezeStyle (page.withFreezeStyle host).toDocument id = isFreezeStyle page.toDocument id := by
  unfold isFreezeStyle withFreezeStyle Page.append
  rw [page.element?_graft inside]

theorem isFreezeStyle_new :
    isFreezeStyle (page.withFreezeStyle host).toDocument page.nodes.length = true := by
  unfold isFreezeStyle withFreezeStyle Page.append
  rw [page.element?_graft_element]
  rfl

theorem hasDirectFreezeStyle_withFreezeStyle (inside : scope < page.nodes.length) :
    hasDirectFreezeStyle (page.withFreezeStyle host).toDocument scope =
      (decide (host = scope) || hasDirectFreezeStyle page.toDocument scope) := by
  have old : (page.children scope).any (isFreezeStyle (page.withFreezeStyle host).toDocument) =
      (page.children scope).any (isFreezeStyle page.toDocument) := by
    rw [Bool.eq_iff_iff, any_eq_true, any_eq_true]
    refine exists_congr fun child => and_congr_right fun member => ?_
    rw [isFreezeStyle_withFreezeStyle (page.lt_of_mem_children member)]
  unfold hasDirectFreezeStyle
  rw [children_withFreezeStyle inside]
  by_cases same : host = scope
  · rw [if_pos same, any_append, old]
    simp [isFreezeStyle_new, same]
  · rw [if_neg same, old]
    simp [same]

theorem hasFreezeRules_withFreezeStyle (inside : scope < page.nodes.length)
    (notStyle : page.hasName ⟨.html, "style"⟩ host = false) :
    HasFreezeRules (page.withFreezeStyle host).toDocument scope ↔
      host = scope ∨ HasFreezeRules page.toDocument scope := by
  have old : ∀ child ∈ page.children scope,
      ((page.withFreezeStyle host).hasName ⟨.html, "style"⟩ child = true ∧
          (page.withFreezeStyle host).textContents child = freezeCss ↔
        page.hasName ⟨.html, "style"⟩ child = true ∧ page.textContents child = freezeCss) := by
    intro child member
    have insideChild := page.lt_of_mem_children member
    have sameName : (page.withFreezeStyle host).hasName ⟨.html, "style"⟩ child =
        page.hasName ⟨.html, "style"⟩ child := by
      unfold withFreezeStyle Page.append
      exact page.hasName_graft insideChild _
    by_cases isHost : host = child
    · subst isHost
      simp [sameName, notStyle]
    · have sameText : (page.withFreezeStyle host).textContents child = page.textContents child := by
        unfold withFreezeStyle Page.append
        exact page.textContents_graft insideChild isHost
      rw [sameName, sameText]
  unfold HasFreezeRules
  rw [children_withFreezeStyle inside]
  by_cases same : host = scope
  · rw [if_pos same]
    refine iff_of_true ⟨page.nodes.length, by simp, ?_, page.textContents_append _⟩ (.inl same)
    unfold Document.hasName withFreezeStyle Page.append
    rw [page.element?_graft_element]
    rfl
  · rw [if_neg same, or_iff_right same]
    exact exists_congr fun child => and_congr_right (old child)

/-- How a page stands after some of its scopes were seen to. -/
structure Freezing (page current : Page) (done : List NodeId) : Prop where
  parent : freezeParent current.toDocument = freezeParent page.toDocument
  roots : shadowRoots current.toDocument = shadowRoots page.toDocument
  length : current.nodes.length ≤ page.nodes.length + 2 * done.length
  marked : ∀ scope ∈ freezeScopes page.toDocument,
    hasDirectFreezeStyle current.toDocument scope =
      (decide (scope ∈ done) || hasDirectFreezeStyle page.toDocument scope)
  rules : ∀ scope ∈ freezeScopes page.toDocument,
    HasFreezeRules current.toDocument scope ↔
      HasFreezeRules page.toDocument scope ∨
        scope ∈ done ∧ hasDirectFreezeStyle page.toDocument scope = false

theorem Freezing.scopes (freezing : Freezing page current done) :
    freezeScopes current.toDocument = freezeScopes page.toDocument := by
  unfold freezeScopes
  rw [freezing.parent, freezing.roots]

theorem Freezing.refl (page : Page) : Freezing page page [] where
  parent := rfl
  roots := rfl
  length := Nat.le_refl _
  marked := by simp
  rules := by simp

theorem Freezing.step {next : Page}
    (freezing : Freezing page current done) (member : scope ∈ freezeScopes page.toDocument)
    (stepped : freezeScope current scope = .ok next) : Freezing page next (done ++ [scope]) := by
  have here := freezing.scopes ▸ member
  obtain ⟨inWalk, notStyle⟩ := mem_walk_of_mem_freezeScopes here
  unfold freezeScope at stepped
  split at stepped
  next isMarked =>
    cases stepped
    have seen := freezing.marked scope member
    rw [isMarked] at seen
    refine ⟨freezing.parent, freezing.roots, ?_, fun other memberOther => ?_,
      fun other memberOther => ?_⟩
    · have length := freezing.length
      simp
      omega
    · rw [freezing.marked other memberOther]
      by_cases same : other = scope
      · subst same
        simpa using seen.symm
      · simp [same]
    · rw [freezing.rules other memberOther]
      by_cases same : other = scope
      · subst same
        rw [Bool.true_eq, Bool.or_eq_true, decide_eq_true_eq] at seen
        obtain isDone | isDirect := seen
        · simp [isDone]
        · simp [isDirect]
      · simp [same]
  next notMarked =>
    rw [current.appendElement_eq (current.lt_of_mem_walk inWalk)] at stepped
    split at stepped
    next =>
      have unseen := freezing.marked scope member
      rw [Bool.not_eq_true] at notMarked
      rw [notMarked, eq_comm, Bool.or_eq_false_iff, decide_eq_false_iff_not] at unseen
      obtain rfl : current.withFreezeStyle scope = next := Checked.ok.inj stepped
      have inside : ∀ other ∈ freezeScopes page.toDocument, other < current.nodes.length :=
        fun other memberOther => current.lt_of_mem_walk
          (mem_walk_of_mem_freezeScopes (freezing.scopes ▸ memberOther)).1
      refine ⟨(freezeParent_withFreezeStyle inWalk).trans freezing.parent,
        (shadowRoots_withFreezeStyle inWalk).trans freezing.roots, ?_, fun other memberOther => ?_,
        fun other memberOther => ?_⟩
      · have length := freezing.length
        have longer : (current.withFreezeStyle scope).nodes.length = current.nodes.length + 2 := by
          unfold withFreezeStyle Page.append
          exact current.length_graft
        rw [longer, length_append, length_singleton]
        omega
      · rw [hasDirectFreezeStyle_withFreezeStyle (inside other memberOther),
          freezing.marked other memberOther]
        by_cases same : scope = other
        · simp [same]
        · simp [same, Ne.symm same]
      · rw [hasFreezeRules_withFreezeStyle (inside other memberOther) notStyle,
          freezing.rules other memberOther]
        by_cases same : scope = other
        · subst same
          simp [unseen.2]
        · simp [same, Ne.symm same]
    next => cases stepped

theorem Freezing.foldlM {scopes : List NodeId} (freezing : Freezing page current done)
    (within : ∀ scope ∈ scopes, scope ∈ freezeScopes page.toDocument)
    (folded : scopes.foldlM freezeScope current = .ok frozen) :
    Freezing page frozen (done ++ scopes) := by
  induction scopes generalizing current done with
  | nil =>
    cases folded
    simpa using freezing
  | cons scope rest ih =>
    rw [foldlM_cons] at folded
    obtain ⟨next, stepped, folded⟩ := of_bind folded
    have further := freezing.step (within scope mem_cons_self) stepped
    have whole := ih further
      (fun other member => within other (mem_cons_of_mem _ member)) folded
    rwa [append_assoc] at whole

theorem freezing_ensureRenderFreezeStyles (ensured : ensureRenderFreezeStyles page = .ok frozen) :
    Freezing page frozen (freezeScopes page.toDocument) := by
  unfold ensureRenderFreezeStyles at ensured
  split at ensured
  next => cases ensured
  next parent isParent =>
    obtain ⟨next, stepped, folded⟩ := of_bind ensured
    have member : parent ∈ freezeScopes page.toDocument := by
      simp [freezeScopes, isParent]
    have first := (Freezing.refl page).step member stepped
    rw [first.roots] at folded
    have whole := first.foldlM (fun scope isRoot => mem_append_right _ isRoot) folded
    unfold freezeScopes
    rwa [isParent]

theorem exists_foldlM_freezeScope {scopes : List NodeId} (freezing : Freezing page current done)
    (within : ∀ scope ∈ scopes, scope ∈ freezeScopes page.toDocument)
    (small : page.nodes.length + 2 * (done ++ scopes).length ≤ u32Max) :
    ∃ frozen, scopes.foldlM freezeScope current = .ok frozen := by
  induction scopes generalizing current done with
  | nil => exact ⟨current, rfl⟩
  | cons scope rest ih =>
    have member := within scope mem_cons_self
    have inWalk := (mem_walk_of_mem_freezeScopes (freezing.scopes ▸ member)).1
    have length := freezing.length
    have stepped : ∃ next, freezeScope current scope = .ok next := by
      unfold freezeScope
      split
      · exact ⟨current, rfl⟩
      · rw [current.appendElement_eq (current.lt_of_mem_walk inWalk), if_pos]
        · exact ⟨_, rfl⟩
        · simp only [length_append, length_cons] at small
          omega
    obtain ⟨next, stepped⟩ := stepped
    obtain ⟨frozen, folded⟩ := ih (freezing.step member stepped)
      (fun other memberOther => within other (mem_cons_of_mem _ memberOther))
      (by simpa using small)
    exact ⟨frozen, by rw [foldlM_cons, stepped]; exact folded⟩

theorem exists_ensureRenderFreezeStyles (page : Page)
    (hasRoot : (page.findHtmlElement "html").isSome = true)
    (small : page.nodes.length + 2 * (freezeScopes page.toDocument).length ≤ u32Max) :
    ∃ frozen, ensureRenderFreezeStyles page = .ok frozen := by
  have hasParent : (freezeParent page.toDocument).isSome = true := by
    simp [freezeParent, Option.isSome_or, hasRoot]
  obtain ⟨parent, isParent⟩ := Option.isSome_iff_exists.mp hasParent
  have scopes : freezeScopes page.toDocument = parent :: shadowRoots page.toDocument := by
    simp [freezeScopes, isParent]
  obtain ⟨frozen, folded⟩ := exists_foldlM_freezeScope (Freezing.refl page)
    (fun _ member => member) (by simpa using small)
  rw [scopes, foldlM_cons] at folded
  obtain ⟨next, stepped, folded⟩ := of_bind folded
  have first := (Freezing.refl page).step (by simp [scopes]) stepped
  refine ⟨frozen, ?_⟩
  simp only [ensureRenderFreezeStyles, isParent, stepped, ok_bind, first.roots, folded]

end Scopes

section Main

/-- Every scope is frozen exactly when no style element with the freeze attribute stands in for
the rules: a page that brings such an element keeps its scope as it is. -/
theorem frozen_iff_rules_behind_attribute (page : Page) :
    (∀ frozen, ensureRenderFreezeStyles page = .ok frozen →
      ((∀ scope ∈ freezeScopes frozen.toDocument, HasFreezeRules frozen.toDocument scope) ↔
        ∀ scope ∈ freezeScopes page.toDocument,
          hasDirectFreezeStyle page.toDocument scope = true →
            HasFreezeRules page.toDocument scope)) ∧
    ((page.findHtmlElement "html").isSome = true →
      page.nodes.length + 2 * (freezeScopes page.toDocument).length ≤ u32Max →
        ∃ frozen, ensureRenderFreezeStyles page = .ok frozen) := by
  refine ⟨fun frozen ensured => ?_, exists_ensureRenderFreezeStyles page⟩
  have freezing := freezing_ensureRenderFreezeStyles ensured
  rw [freezing.scopes]
  refine forall_congr' fun scope => forall_congr' fun member => ?_
  rw [freezing.rules scope member]
  cases hasDirectFreezeStyle page.toDocument scope <;> simp [member]

theorem foldlM_freezeScope_marked {page : Page} {scopes : List NodeId}
    (marked : ∀ scope ∈ scopes, hasDirectFreezeStyle page.toDocument scope = true) :
    scopes.foldlM freezeScope page = .ok page := by
  induction scopes with
  | nil => rfl
  | cons scope rest ih =>
    rw [foldlM_cons, freezeScope, if_pos (marked scope mem_cons_self), ok_bind]
    exact ih fun other member => marked other (mem_cons_of_mem _ member)

/-- A pass over a page that it already went over changes nothing. -/
theorem freeze_styles_once (page : Page) :
    (ensureRenderFreezeStyles page >>= ensureRenderFreezeStyles) =
      ensureRenderFreezeStyles page := by
  cases ensured : ensureRenderFreezeStyles page with
  | error error => rfl
  | panic => rfl
  | ok frozen =>
    have freezing := freezing_ensureRenderFreezeStyles ensured
    have marked : ∀ scope ∈ freezeScopes frozen.toDocument,
        hasDirectFreezeStyle frozen.toDocument scope = true := by
      intro scope member
      rw [freezing.scopes] at member
      simp [freezing.marked scope member, member]
    unfold ensureRenderFreezeStyles at ensured
    split at ensured
    next => cases ensured
    next parent isParent =>
      have isParent := freezing.parent.trans isParent
      unfold freezeScopes at marked
      simp only [isParent, Option.toList_some, singleton_append, forall_mem_cons] at marked
      simp only [ok_bind, ensureRenderFreezeStyles, isParent, freezeScope, if_pos marked.1]
      exact foldlM_freezeScope_marked marked.2

/-- A page whose head has an empty style element with the freeze attribute. -/
def forgedPage : Page :=
  .ofSound
    [⟨none, [1], .document⟩, ⟨some 0, [2], .element ⟨.html, "html"⟩ [] none⟩,
      ⟨some 1, [3], .element ⟨.html, "head"⟩ [] none⟩,
      ⟨some 2, [], .element ⟨.html, "style"⟩ [⟨⟨.none, freezeAttribute⟩, []⟩] none⟩]
    0 (by decide)

theorem forgedPage_stays_unfrozen :
    ∃ frozen, ensureRenderFreezeStyles forgedPage = .ok frozen ∧
      ∃ scope ∈ freezeScopes frozen.toDocument, ¬HasFreezeRules frozen.toDocument scope :=
  ⟨forgedPage, rfl, 2, by decide, by decide +kernel⟩

end Main
end Offprint.Document
