import Offprint.Document.Discover
import Offprint.Document.Page

/-!
# Adding elements to a page

New elements are created at the end of the arena and then put among the children of a node that
was there before, so that a page stays a page and its own nodes keep their order.
-/

namespace Offprint.Document

open Offprint.Data (Json)
open Offprint.Data.Traversal Effect
open Offprint.Effect.Checked (failIf)
open Model Document List
open Nat

section Operations

def transformError (code message : String) : OffprintError :=
  .new code .transform message

def nodeLimitError : OffprintError :=
  (transformError "offprint.transform.node_limit"
    "document exceeds the supported node identifier range").withDetail "reason"
      (.string intRangeText)

def createNode (nodes : List Node) (data : NodeData) :
    Checked OffprintError (List Node × NodeId) := do
  failIf (nodes.length > u32Max) nodeLimitError
  return (nodes ++ [⟨none, [], data⟩], nodes.length)

def unknownNodeError (operation : String) : OffprintError :=
  transformError "offprint.transform.node"
    ("document " ++ operation ++ " references an unknown node")

/-- Put a node among the children of another one. -/
def placeChild (operation : String) (place : List NodeId → List NodeId) (nodes : List Node)
    (parent child : NodeId) : Checked OffprintError (List Node) := do
  failIf (nodes.length ≤ parent ∨ nodes.length ≤ child) (unknownNodeError operation)
  let unlinked := detach nodes child
  let named := unlinked.modify child fun node => { node with parent := some parent }
  return named.modify parent fun node => { node with children := place node.children }

def appendChild (nodes : List Node) (parent child : NodeId) : Checked OffprintError (List Node) :=
  placeChild "append" (· ++ [child]) nodes parent child

/-- Create an element with a text and make it the last child of a node. -/
def appendElement (nodes : List Node) (parent : NodeId) (name : QualName)
    (attrs : List Attribute) (contents : List Char) : Checked OffprintError (List Node) := do
  let (nodes, element) ← createNode nodes (.element name attrs none)
  let (nodes, text) ← createNode nodes (.text contents)
  let nodes ← appendChild nodes element text
  appendChild nodes parent element

end Operations

section Grafted

/-- The arena with a new element among the children of a node, the element's texts behind it. -/
def grafted (nodes : List Node) (host : NodeId) (place : List NodeId → List NodeId)
    (name : QualName) (attrs : List Attribute) (texts : List (List Char)) : List Node :=
  (nodes.modify host fun node => { node with children := place node.children }) ++
    ⟨some host, List.range' (nodes.length + 1) texts.length, .element name attrs none⟩ ::
      texts.map fun contents => ⟨some nodes.length, [], .text contents⟩

variable {nodes : List Node} {host id root : NodeId} {place : List NodeId → List NodeId}
  {name : QualName} {attrs : List Attribute} {texts : List (List Char)} {node : Node}

theorem modify_append_of_lt {α : Type*} {front : List α} {index : Nat}
    (inside : index < front.length) (back : List α) (change : α → α) :
    (front ++ back).modify index change = front.modify index change ++ back := by
  induction front generalizing index with
  | nil => cases inside
  | cons head rest ih =>
    cases index with
    | zero => simp
    | succ index => simp [ih (lt_of_succ_lt_succ inside)]

theorem modify_append_length {α : Type*} (front : List α) (item : α) (back : List α)
    (change : α → α) :
    (front ++ item :: back).modify front.length change = front ++ change item :: back := by
  induction front with
  | nil => simp
  | cons head rest ih => simp [ih]

theorem detach_of_orphan (found : nodes[id]? = some node) (orphan : node.parent = none) :
    detach nodes id = nodes := by
  apply ext_getElem?
  intro index
  rw [getElem?_detach, found]
  simp only [Option.bind_some, orphan, reduceCtorEq, if_false]
  by_cases same : id = index
  · subst same
    obtain ⟨parent, children, data⟩ := node
    simp_all
  · simp [same]

theorem placeChild_of_orphan {operation : String} {child : Node} {rest : List Node}
    (inside : host < nodes.length) (orphan : child.parent = none) :
    placeChild operation place (nodes ++ child :: rest) host nodes.length =
      .ok ((nodes.modify host fun node => { node with children := place node.children }) ++
        { child with parent := some host } :: rest) := by
  have found : (nodes ++ child :: rest)[nodes.length]? = some child := by simp
  have known : ¬((nodes ++ child :: rest).length ≤ host ∨
      (nodes ++ child :: rest).length ≤ nodes.length) := by
    rw [length_append, not_or]
    exact ⟨not_le.mpr (Nat.lt_add_right _ inside), by simp⟩
  unfold placeChild
  rw [Checked.failIf_bind_of_not known, detach_of_orphan found orphan]
  dsimp only
  rw [modify_append_length, modify_append_of_lt inside]
  rfl

theorem createNode_eq (nodes : List Node) (data : NodeData) :
    createNode nodes data =
      if nodes.length ≤ u32Max then .ok (nodes ++ [⟨none, [], data⟩], nodes.length)
      else .error nodeLimitError := by
  unfold createNode failIf
  by_cases small : nodes.length ≤ u32Max
  · rw [if_neg (by omega), if_pos small]
    rfl
  · rw [if_pos (by omega), if_neg small]
    rfl

theorem appendElement_eq (inside : host < nodes.length) (contents : List Char) :
    appendElement nodes host name attrs contents =
      if nodes.length + 1 ≤ u32Max then
        .ok (grafted nodes host (· ++ [nodes.length]) name attrs [contents])
      else .error nodeLimitError := by
  -- the element as it is created, still without its text
  generalize created : (⟨none, [], .element name attrs none⟩ : Node) = element
  have filled : appendChild (nodes ++ [element] ++ [⟨none, [], .text contents⟩])
      nodes.length (nodes.length + 1) =
      .ok (nodes ++ ⟨none, [nodes.length + 1], .element name attrs none⟩ ::
        [⟨some nodes.length, [], .text contents⟩]) := by
    have placed := @placeChild_of_orphan (nodes ++ [element]) nodes.length
      (· ++ [nodes.length + 1]) "append" ⟨none, [], .text contents⟩ [] (by simp) rfl
    rw [modify_append_length, ← created] at placed
    simpa [appendChild, ← created] using placed
  simp only [appendElement, createNode_eq, created]
  by_cases small : nodes.length + 1 ≤ u32Max
  · have smaller : nodes.length ≤ u32Max := by omega
    simp only [if_pos smaller, Checked.ok_bind, length_append, length_singleton,
      if_pos small, filled]
    exact placeChild_of_orphan inside rfl
  · simp only [if_neg small]
    split
    · simp [small]
    · rfl

theorem getElem?_grafted (inside : id < nodes.length) :
    (grafted nodes host place name attrs texts)[id]? = nodes[id]?.map fun node =>
      if host = id then { node with children := place node.children } else node := by
  unfold grafted
  rw [getElem?_append_left (by simpa using inside), getElem?_modify]
  rfl

theorem getElem?_grafted_element :
    (grafted nodes host place name attrs texts)[nodes.length]? =
      some ⟨some host, List.range' (nodes.length + 1) texts.length, .element name attrs none⟩ := by
  unfold grafted
  simp

theorem getElem?_grafted_text (index : Nat) :
    (grafted nodes host place name attrs texts)[nodes.length + 1 + index]? =
      texts[index]?.map fun contents => ⟨some nodes.length, [], .text contents⟩ := by
  unfold grafted
  rw [getElem?_append_right (by simp; omega), length_modify,
    show nodes.length + 1 + index - nodes.length = index + 1 by omega, getElem?_cons_succ,
    getElem?_map]

/-- The new element joins the children and their order stays. -/
def Places (place : List NodeId → List NodeId) (new : NodeId) : Prop :=
  ∀ children, ∃ front back, children = front ++ back ∧ place children = front ++ [new] ++ back

theorem places_append (new : NodeId) : Places (· ++ [new]) new :=
  fun children => ⟨children, [], by simp, by simp⟩

theorem Places.mem_iff {new : NodeId}
    (places : Places place new) {children : List NodeId} {child : NodeId} :
    child ∈ place children ↔ child = new ∨ child ∈ children := by
  obtain ⟨front, back, rfl, placed⟩ := places children
  rw [placed]
  simp only [mem_append, mem_singleton]
  tauto

theorem grafted_cases (found : (grafted nodes host place name attrs texts)[id]? = some node) :
    (id < nodes.length ∧ ∃ before, nodes[id]? = some before ∧
        node = if host = id then { before with children := place before.children } else before) ∨
      (id = nodes.length ∧ node =
        ⟨some host, List.range' (nodes.length + 1) texts.length, .element name attrs none⟩) ∨
      ∃ contents ∈ texts, node = ⟨some nodes.length, [], .text contents⟩ := by
  obtain inside | rfl | outside := lt_trichotomy id nodes.length
  · left
    rw [getElem?_grafted inside] at found
    obtain ⟨before, foundBefore, same⟩ := Option.map_eq_some_iff.mp found
    exact ⟨inside, before, foundBefore, same.symm⟩
  · right; left
    rw [getElem?_grafted_element] at found
    exact ⟨rfl, (Option.some.inj found).symm⟩
  · right; right
    obtain ⟨index, rfl⟩ := Nat.exists_eq_add_of_le outside
    rw [getElem?_grafted_text] at found
    obtain ⟨contents, member, same⟩ := Option.map_eq_some_iff.mp found
    exact ⟨contents, mem_of_getElem? member, same.symm⟩

theorem exists_grafted {before : Node} (found : nodes[id]? = some before) :
    ∃ node, (grafted nodes host place name attrs texts)[id]? = some node ∧
      node.parent = before.parent ∧ node.data = before.data := by
  have inside := (List.getElem?_eq_some_iff.mp found).1
  rw [getElem?_grafted inside, found]
  refine ⟨_, rfl, ?_⟩
  split <;> exact ⟨rfl, rfl⟩

theorem Linked.grafted (linked : Linked nodes root) (places : Places place nodes.length) :
    Linked (grafted nodes host place name attrs texts) root where
  parents := by
    intro id node child found member
    have old : ∀ before, nodes[id]? = some before → child ∈ before.children →
        ∃ found, (Document.grafted nodes host place name attrs texts)[child]? = some found ∧
          found.parent = some id := by
      intro before foundBefore isChild
      obtain ⟨other, foundOther, parent⟩ := linked.parents foundBefore isChild
      obtain ⟨node, foundNode, sameParent, -⟩ := exists_grafted foundOther
      exact ⟨node, foundNode, sameParent.trans parent⟩
    obtain ⟨-, before, foundBefore, rfl⟩ | ⟨rfl, rfl⟩ | ⟨contents, -, rfl⟩ := grafted_cases found
    · split at member
      next isHost =>
        subst isHost
        obtain rfl | isChild := places.mem_iff.mp member
        · exact ⟨_, getElem?_grafted_element, rfl⟩
        · exact old before foundBefore isChild
      next => exact old before foundBefore member
    · obtain ⟨index, within, rfl⟩ := mem_range'.mp member
      rw [one_mul, getElem?_grafted_text, getElem?_eq_getElem within]
      exact ⟨_, rfl, rfl⟩
    · cases member
  fragments := by
    intro id node fragment found isFragment
    obtain ⟨-, before, foundBefore, rfl⟩ | ⟨rfl, rfl⟩ | ⟨contents, -, rfl⟩ := grafted_cases found
    · have template : before.data.template = some fragment := by
        split at isFragment <;> exact isFragment
      obtain ⟨other, foundOther, data⟩ := linked.fragments foundBefore template
      obtain ⟨node, foundNode, -, sameData⟩ := exists_grafted foundOther
      exact ⟨node, foundNode, sameData.trans data⟩
    · cases isFragment
    · cases isFragment
  rootData := by
    obtain ⟨before, found, data⟩ := linked.rootData
    obtain ⟨node, foundNode, -, sameData⟩ := exists_grafted found
    exact ⟨node, foundNode, sameData.trans data⟩

theorem below_grafted_of_ne (inside : id < nodes.length) (other : id ≠ host) :
    below (grafted nodes host place name attrs texts) id = below nodes id := by
  unfold below
  rw [getElem?_grafted inside]
  cases nodes[id]? <;> simp [Ne.symm other]

theorem below_grafted_host (places : Places place nodes.length) (inside : host < nodes.length) :
    ∃ front back, below nodes host = front ++ back ∧
      below (grafted nodes host place name attrs texts) host =
        front ++ [nodes.length] ++ back := by
  unfold below
  rw [getElem?_grafted inside, getElem?_eq_getElem inside]
  obtain ⟨front, back, split, placed⟩ := places nodes[host].children
  refine ⟨nodes[host].data.template.toList ++ front, back, ?_, ?_⟩
  · simp [Node.below, split]
  · simp [Node.below, placed]

/-- The ids of the new element and its texts. -/
def newIds (nodes : List Node) (texts : List (List Char)) : List NodeId :=
  nodes.length :: List.range' (nodes.length + 1) texts.length

theorem below_grafted_element :
    below (grafted nodes host place name attrs texts) nodes.length =
      List.range' (nodes.length + 1) texts.length := by
  unfold below
  rw [getElem?_grafted_element]
  rfl

theorem below_grafted_text (index : Nat) :
    below (grafted nodes host place name attrs texts) (nodes.length + 1 + index) = [] := by
  unfold below
  rw [getElem?_grafted_text]
  cases texts[index]? <;> rfl

theorem visits_newIds : Visits (below (grafted nodes host place name attrs texts)) [nodes.length]
      (newIds nodes texts) := by
  apply Visits.cons
  rw [below_grafted_element, append_nil]
  apply Visits.of_leaves
  intro id member
  obtain ⟨index, within, rfl⟩ := mem_range'.mp member
  rw [one_mul, below_grafted_text]

theorem nodup_newIds (nodes : List Node) (texts : List (List Char)) :
    (newIds nodes texts).Nodup := by
  rw [newIds, nodup_cons]
  refine ⟨?_, nodup_range'⟩
  rw [mem_range']
  omega

theorem le_of_mem_newIds (member : id ∈ newIds nodes texts) : nodes.length ≤ id := by
  obtain rfl | member := mem_cons.mp member
  · exact le_refl _
  · obtain ⟨index, -, rfl⟩ := mem_range'.mp member
    omega

end Grafted

section Page

variable (page : Page) {host : NodeId} {place : List NodeId → List NodeId} {name : QualName}
  {attrs : List Attribute} {texts : List (List Char)}

theorem Page.exists_visits_grafted (places : Places place page.nodes.length)
    (member : host ∈ page.walk) :
    ∃ front back, page.walk = front ++ back ∧
      Visits (below (grafted page.nodes host place name attrs texts)) [page.root]
        (front ++ newIds page.nodes texts ++ back) :=
  page.visits_walk.exists_graft page.nodup_walk member
    (fun _ memberItem other => below_grafted_of_ne (page.lt_of_mem_walk memberItem) other)
    (below_grafted_host places (page.lt_of_mem_walk member))
    visits_newIds

theorem Page.sound_grafted (places : Places place page.nodes.length) :
    Sound (grafted page.nodes host place name attrs texts) page.root where
  linked := page.linked.grafted places
  visits := by
    by_cases member : host ∈ page.walk
    · obtain ⟨front, back, whole, visits⟩ := page.exists_visits_grafted places member
      refine ⟨_, visits, ?_⟩
      have distinct := page.nodup_walk
      rw [whole] at distinct
      have apart : List.Disjoint (front ++ back) (newIds page.nodes texts) := by
        intro id old new
        rw [← whole] at old
        exact absurd (le_of_mem_newIds new) (not_le.mpr (page.lt_of_mem_walk old))
      have moved : (front ++ back ++ newIds page.nodes texts).Perm
          (front ++ newIds page.nodes texts ++ back) := by
        rw [append_assoc, append_assoc]
        exact perm_append_comm.append_left front
      exact (distinct.append (nodup_newIds _ _) apart).perm moved
    · refine ⟨page.walk, page.visits_walk.congr fun id memberId => ?_, page.nodup_walk⟩
      exact below_grafted_of_ne (page.lt_of_mem_walk memberId) fun same =>
        member (same ▸ memberId)

/-- The page with a new element that has the given texts. -/
def Page.graft (host : NodeId) (place : List NodeId → List NodeId)
    (places : Places place page.nodes.length) (name : QualName) (attrs : List Attribute)
    (texts : List (List Char)) : Page :=
  .ofSound (grafted page.nodes host place name attrs texts) page.root (page.sound_grafted places)

def Page.append (host : NodeId) (name : QualName) (attrs : List Attribute)
    (contents : List Char) : Page :=
  page.graft host (· ++ [page.nodes.length]) (places_append _) name attrs [contents]

theorem sound_of_appendElement {nodes : List Node} {contents : List Char}
    (inside : host < page.nodes.length)
    (returned : appendElement page.nodes host name attrs contents = .ok nodes) :
    Sound nodes page.root := by
  rw [appendElement_eq inside] at returned
  split at returned
  · cases returned
    exact page.sound_grafted (places_append _)
  · cases returned

/-- Elements are only added to nodes of the page. -/
def Page.appendElement (host : NodeId) (name : QualName) (attrs : List Attribute)
    (contents : List Char) : Checked OffprintError Page :=
  if inside : host < page.nodes.length then
    (Document.appendElement page.nodes host name attrs contents).pmap fun nodes returned =>
      .ofSound nodes page.root (sound_of_appendElement page inside returned)
  else .error (unknownNodeError "append")

theorem Page.appendElement_eq (inside : host < page.nodes.length) (contents : List Char) :
    page.appendElement host name attrs contents =
      if page.nodes.length + 1 ≤ u32Max then .ok (page.append host name attrs contents)
      else .error nodeLimitError := by
  have whole := @Document.appendElement_eq page.nodes host name attrs inside contents
  unfold Page.appendElement
  rw [dif_pos inside]
  by_cases small : page.nodes.length + 1 ≤ u32Max
  · rw [if_pos small] at whole ⊢
    exact Checked.pmap_of_ok whole _
  · rw [if_neg small] at whole ⊢
    exact Checked.pmap_of_error whole _

section Reading

variable {place : List NodeId → List NodeId} {places : Places place page.nodes.length} {id : NodeId}

theorem Page.length_graft :
    (page.graft host place places name attrs texts).nodes.length =
      page.nodes.length + 1 + texts.length := by
  show (grafted page.nodes host place name attrs texts).length = _
  simp [grafted]
  omega

theorem Page.exists_walk_graft (member : host ∈ page.walk) :
    ∃ front back, page.walk = front ++ back ∧
      (page.graft host place places name attrs texts).walk =
        front ++ newIds page.nodes texts ++ back := by
  obtain ⟨front, back, whole, visits⟩ := page.exists_visits_grafted places member
  exact ⟨front, back, whole, (visits_walk _).unique visits⟩

theorem Page.node_graft (inside : id < page.nodes.length) :
    (page.graft host place places name attrs texts).node id = (page.node id).map fun node =>
      if host = id then { node with children := place node.children } else node :=
  getElem?_grafted inside

theorem Page.node_graft_element :
    (page.graft host place places name attrs texts).node page.nodes.length =
      some ⟨some host, List.range' (page.nodes.length + 1) texts.length,
        .element name attrs none⟩ :=
  getElem?_grafted_element

theorem Page.node_graft_text (index : Nat) :
    (page.graft host place places name attrs texts).node (page.nodes.length + 1 + index) =
      texts[index]?.map fun contents => ⟨some page.nodes.length, [], .text contents⟩ :=
  getElem?_grafted_text index

section

variable (inside : id < page.nodes.length)
include inside

theorem Page.data_graft :
    ((page.graft host place places name attrs texts).node id).map Node.data =
      (page.node id).map Node.data := by
  rw [page.node_graft inside]
  cases page.node id with
  | none => rfl
  | some node =>
    split <;> rfl

theorem Page.element?_graft :
    (page.graft host place places name attrs texts).element? id = page.element? id := by
  unfold element?
  rw [page.data_graft inside]

theorem Page.hasName_graft (other : QualName) :
    (page.graft host place places name attrs texts).hasName other id = page.hasName other id := by
  unfold hasName
  rw [page.element?_graft inside]

end

theorem Page.element?_graft_element :
    (page.graft host place places name attrs texts).element? page.nodes.length =
      some (name, attrs) := by
  unfold element?
  rw [page.node_graft_element]
  rfl

theorem Page.element?_graft_text (index : Nat) :
    (page.graft host place places name attrs texts).element? (page.nodes.length + 1 + index) =
      none := by
  unfold element?
  rw [page.node_graft_text]
  cases texts[index]? <;> rfl

theorem Page.children_graft (inside : id < page.nodes.length) :
    (page.graft host place places name attrs texts).children id =
      if host = id then place (page.children id) else page.children id := by
  obtain ⟨node, found⟩ : ∃ node, page.node id = some node := ⟨_, getElem?_eq_getElem inside⟩
  unfold Document.children
  rw [page.node_graft inside, found]
  split <;> rfl

theorem Page.lt_of_mem_children {child : NodeId} (member : child ∈ page.children id) :
    child < page.nodes.length := by
  unfold Document.children at member
  cases found : page.node id with
  | none =>
    rw [found] at member
    cases member
  | some node =>
    rw [found] at member
    obtain ⟨other, foundChild, -⟩ := page.linked.parents found member
    exact (List.getElem?_eq_some_iff.mp foundChild).1

theorem Page.textContents_graft (inside : id < page.nodes.length) (other : host ≠ id) :
    (page.graft host place places name attrs texts).textContents id = page.textContents id := by
  have same : (page.graft host place places name attrs texts).children id = page.children id := by
    rw [page.children_graft inside, if_neg other]
  show ((page.graft host place places name attrs texts).children id).flatMap _ =
    (page.children id).flatMap _
  rw [same]
  apply flatMap_congr
  intro child member
  rw [page.data_graft (page.lt_of_mem_children member)]

theorem Page.textContents_append (contents : List Char) :
    (page.append host name attrs contents).textContents page.nodes.length = contents := by
  have text : (page.append host name attrs contents).node (page.nodes.length + 1 + 0) =
      some ⟨some page.nodes.length, [], .text contents⟩ := by
    unfold Page.append
    rw [page.node_graft_text]
    rfl
  have element : (page.append host name attrs contents).children page.nodes.length =
      [page.nodes.length + 1 + 0] := by
    unfold Document.children Page.append
    rw [page.node_graft_element]
    rfl
  show ((page.append host name attrs contents).children page.nodes.length).flatMap _ = _
  rw [element, flatMap_singleton, text]
  rfl

theorem Page.filterMap_walk_graft {β : Type*} {find find' : NodeId → Option β}
    (member : host ∈ page.walk) (same : ∀ id ∈ page.walk, find' id = find id)
    (new : ∀ id ∈ newIds page.nodes texts, find' id = none) :
    (page.graft host place places name attrs texts).walk.filterMap find' =
      page.walk.filterMap find := by
  obtain ⟨front, back, whole, walked⟩ := page.exists_walk_graft member
  rw [walked, filterMap_append, filterMap_append, whole, filterMap_append,
    filterMap_eq_nil_iff.mpr new, append_nil]
  rw [whole] at same
  rw [filterMap_congr fun id old => same id (mem_append_left _ old),
    filterMap_congr fun id old => same id (mem_append_right _ old)]

theorem Page.findHtmlElement_graft (member : host ∈ page.walk) {localName : String}
    (other : name ≠ ⟨.html, localName⟩) :
    (page.graft host place places name attrs texts).findHtmlElement localName =
      page.findHtmlElement localName := by
  unfold findHtmlElement
  rw [← head?_filter, ← head?_filter, ← filterMap_eq_filter,
    ← filterMap_eq_filter]
  apply congrArg
  apply page.filterMap_walk_graft member
  · intro id old
    rw [Option.guard, Option.guard, page.hasName_graft (page.lt_of_mem_walk old)]
  · intro id new
    obtain rfl | isText := mem_cons.mp new
    · simp [Option.guard, hasName, page.element?_graft_element, other]
    · obtain ⟨index, -, rfl⟩ := mem_range'.mp isText
      simp [Option.guard, hasName, page.element?_graft_text]

end Reading

end Page
end Offprint.Document
