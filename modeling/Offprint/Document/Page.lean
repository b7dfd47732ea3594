import Mathlib.Data.List.Perm.Subperm
import Mathlib.Data.List.Nodup
import Offprint.Data.Traversal

/-!
# Documents and pages

A document is an arena of nodes that name their children by index.  From its root every node
is met once, so that the walk over the document comes to an end.

A page is a document whose links agree with each other: a child names its parent, the contents
of a template are a fragment of their own, and the root is the document node.  The parser builds
only such documents, and the functions that change a document keep the links.
-/

set_option linter.dupNamespace false

namespace Offprint.Document

open Offprint.Data.Traversal List

inductive Namespace where
  | none
  | html
  | svg
  | mathml
  | xlink
  | xml
  | xmlns
  | other (uri : String)
  deriving Repr, DecidableEq

structure QualName where
  ns : Namespace
  localName : String
  deriving Repr, DecidableEq

structure Attribute where
  name : QualName
  value : List Char
  deriving Repr, DecidableEq

abbrev NodeId : Type := Nat

inductive NodeData where
  | document
  | doctype (name publicId systemId : List Char)
  | text (contents : List Char)
  | comment (contents : List Char)
  | element (name : QualName) (attrs : List Attribute) (templateContents : Option NodeId)
  | processingInstruction (target contents : List Char)
  deriving Repr, DecidableEq

structure Node where
  parent : Option NodeId
  children : List NodeId
  data : NodeData
  deriving Repr, DecidableEq

def NodeData.template : NodeData → Option NodeId
  | .element _ _ templateContents => templateContents
  | _ => none

/-- What a walk visits behind a node: the contents of a template, then the children. -/
def Node.below (node : Node) : List NodeId :=
  node.data.template.toList ++ node.children

def below (nodes : List Node) (id : NodeId) : List NodeId :=
  nodes[id]?.elim [] Node.below

/-- The nodes a walk meets with some nodes still to visit, if it ends. -/
def walkFor (nodes : List Node) : Nat → List NodeId → Option (List NodeId)
  | _, [] => some []
  | 0, _ :: _ => none
  | fuel + 1, id :: stack => (id :: ·) <$> walkFor nodes fuel (below nodes id ++ stack)

structure Document where
  nodes : List Node
  root : NodeId
  /-- A walk meets every node at most once. -/
  tree : ∃ ids, walkFor nodes nodes.length [root] = some ids ∧ ids.Nodup

namespace Document

variable (document : Document)

def node (id : NodeId) : Option Node :=
  document.nodes[id]?

def walk : List NodeId :=
  (walkFor document.nodes document.nodes.length [document.root]).getD []

theorem walkFor_eq :
    walkFor document.nodes document.nodes.length [document.root] = some document.walk := by
  obtain ⟨ids, walked, -⟩ := document.tree
  rw [walk, walked]
  rfl

theorem nodup_walk : document.walk.Nodup := by
  obtain ⟨ids, walked, distinct⟩ := document.tree
  rwa [walk, walked]

/-- The name and the attributes of a node that is an element. -/
def element? (id : NodeId) : Option (QualName × List Attribute) :=
  match (document.node id).map Node.data with
  | some (.element name attrs _) => some (name, attrs)
  | _ => none

def hasName (name : QualName) (id : NodeId) : Bool :=
  (document.element? id).any fun element => element.1 == name

def findHtmlElement (localName : String) : Option NodeId :=
  document.walk.find? (document.hasName ⟨.html, localName⟩)

def findSvgRoot : Option NodeId :=
  document.walk.find? (document.hasName ⟨.svg, "svg"⟩)

/-- The text of the children of a node that are text nodes. -/
def textContents (parent : NodeId) : List Char :=
  ((document.node parent).elim [] Node.children).flatMap fun child =>
    match (document.node child).map Node.data with
    | some (.text contents) => contents
    | _ => []

end Document

variable {id : NodeId}

section Walk

variable {nodes : List Node} {root : NodeId}

theorem walkFor_eq_some_iff {fuel : Nat} {stack ids : List NodeId} :
    walkFor nodes fuel stack = some ids ↔
      Visits (below nodes) stack ids ∧ ids.length ≤ fuel := by
  induction fuel generalizing stack ids with
  | zero =>
    cases stack with
    | nil =>
      rw [walkFor, Option.some.injEq]
      constructor
      · rintro rfl
        exact ⟨.nil, Nat.le_refl _⟩
      · rintro ⟨visits, -⟩
        exact Visits.nil.unique visits
    | cons id stack =>
      rw [walkFor]
      constructor
      · intro impossible
        cases impossible
      · rintro ⟨visits, short⟩
        cases visits
        cases short
  | succ fuel ih =>
    cases stack with
    | nil =>
      rw [walkFor, Option.some.injEq]
      constructor
      · rintro rfl
        exact ⟨.nil, Nat.zero_le _⟩
      · rintro ⟨visits, -⟩
        exact Visits.nil.unique visits
    | cons id stack =>
      simp only [walkFor, Option.map_eq_map, Option.map_eq_some_iff, ih]
      constructor
      · rintro ⟨rest, ⟨visits, short⟩, rfl⟩
        exact ⟨.cons visits, Nat.succ_le_succ short⟩
      · rintro ⟨visits, short⟩
        cases visits with
        | cons visits => exact ⟨_, ⟨visits, Nat.le_of_succ_le_succ short⟩, rfl⟩

section

variable (document : Document)
include document

theorem Document.visits_walk : Visits (below document.nodes) [document.root] document.walk :=
  (walkFor_eq_some_iff.mp document.walkFor_eq).1

theorem Document.mem_walk_iff (id : NodeId) :
    id ∈ document.walk ↔ Reaches (below document.nodes) document.root id := by
  rw [document.visits_walk.mem_iff]
  simp

end

def Document.children (document : Document) (id : NodeId) : List NodeId :=
  (document.node id).elim [] Node.children

theorem Document.element?_eq_some_iff {document : Document} {name : QualName}
    {attrs : List Attribute} :
    document.element? id = some (name, attrs) ↔
      ∃ node templateContents, document.node id = some node ∧
        node.data = .element name attrs templateContents := by
  unfold Document.element?
  cases found : document.node id with
  | none => simp
  | some node =>
    cases data : node.data with
    | element => simp [data]
    | _ => simp [data]

theorem hasName_eq_false_of_hasName {document : Document} {name other : QualName}
    (named : document.hasName name id = true) (differs : name ≠ other) :
    document.hasName other id = false := by
  unfold Document.hasName at named ⊢
  obtain ⟨element, found, same⟩ := (Option.any_eq_true _ _).mp named
  rw [found, Option.any_some, beq_eq_false_iff_ne]
  rwa [beq_iff_eq.mp same]

/-- An arena from which only links were taken out. -/
structure Fewer (nodes nodes' : List Node) : Prop where
  sameLength : nodes'.length = nodes.length
  sublist : ∀ id, (below nodes' id).Sublist (below nodes id)

theorem Fewer.refl (nodes : List Node) : Fewer nodes nodes :=
  ⟨rfl, fun _ => .refl _⟩

theorem Fewer.trans {nodes' nodes'' : List Node} (first : Fewer nodes nodes')
    (second : Fewer nodes' nodes'') : Fewer nodes nodes'' :=
  ⟨second.sameLength.trans first.sameLength, fun id => (second.sublist id).trans (first.sublist id)⟩

def Document.cut (document : Document) (nodes : List Node)
    (fewer : Fewer document.nodes nodes) : Document where
  nodes := nodes
  root := document.root
  tree := by
    obtain ⟨ids, visits, sublist⟩ :=
      document.visits_walk.exists_sublist (.refl _) fun id _ => fewer.sublist id
    refine ⟨ids, walkFor_eq_some_iff.mpr ⟨visits, ?_⟩, document.nodup_walk.sublist sublist⟩
    rw [fewer.sameLength]
    exact Nat.le_trans sublist.length_le (walkFor_eq_some_iff.mp document.walkFor_eq).2

end Walk

section Links

structure Linked (nodes : List Node) (root : NodeId) : Prop where
  parents : ∀ {id : NodeId} {node : Node} {child : NodeId}, nodes[id]? = some node →
    child ∈ node.children → ∃ found, nodes[child]? = some found ∧ found.parent = some id
  fragments : ∀ {id : NodeId} {node : Node} {fragment : NodeId}, nodes[id]? = some node →
    node.data.template = some fragment → ∃ found, nodes[fragment]? = some found ∧
      found.data = .document
  rootData : ∃ node, nodes[root]? = some node ∧ node.data = .document

variable {nodes : List Node} {root id lower : NodeId}

theorem exists_of_mem_below (under : lower ∈ below nodes id) :
    ∃ node, nodes[id]? = some node ∧ (node.data.template = some lower ∨ lower ∈ node.children) := by
  unfold below at under
  cases found : nodes[id]? with
  | none =>
    rw [found] at under
    cases under
  | some node =>
    rw [found] at under
    refine ⟨node, rfl, ?_⟩
    simpa [Node.below] using under

theorem Linked.exists_of_mem_below (linked : Linked nodes root) (under : lower ∈ below nodes id) :
    ∃ node, nodes[lower]? = some node := by
  obtain ⟨node, found, isFragment | isChild⟩ := Document.exists_of_mem_below under
  · obtain ⟨contents, foundContents, -⟩ := linked.fragments found isFragment
    exact ⟨contents, foundContents⟩
  · obtain ⟨child, foundChild, -⟩ := linked.parents found isChild
    exact ⟨child, foundChild⟩

theorem Linked.exists_of_reaches (linked : Linked nodes root)
    (reaches : Reaches (below nodes) root lower) : ∃ node, nodes[lower]? = some node := by
  cases reaches using Relation.ReflTransGen.casesOn with
  | refl =>
    obtain ⟨node, found, -⟩ := linked.rootData
    exact ⟨node, found⟩
  | tail _ under => exact linked.exists_of_mem_below under

theorem Linked.tree (linked : Linked nodes root) {ids : List NodeId}
    (visits : Visits (below nodes) [root] ids) (distinct : ids.Nodup) :
    ∃ ids, walkFor nodes nodes.length [root] = some ids ∧ ids.Nodup := by
  refine ⟨ids, walkFor_eq_some_iff.mpr ⟨visits, ?_⟩, distinct⟩
  have inside : ids ⊆ List.range nodes.length := by
    intro id member
    obtain ⟨top, isRoot, reaches⟩ := (visits.mem_iff id).mp member
    obtain rfl := mem_singleton.mp isRoot
    obtain ⟨node, found⟩ := linked.exists_of_reaches reaches
    exact mem_range.mpr (List.getElem?_eq_some_iff.mp found).1
  simpa using (subperm_of_subset distinct inside).length_le

instance : Decidable (Linked nodes root) :=
  decidable_of_iff
    ((∀ id ∈ List.range nodes.length, ∀ node ∈ nodes[id]?,
        (∀ child ∈ node.children, nodes[child]?.any fun found => found.parent = some id) ∧
          ∀ fragment ∈ node.data.template,
            nodes[fragment]?.any fun found => found.data = .document) ∧
      nodes[root]?.any fun node => node.data = .document) <| by
    simp only [Option.any_eq_true, decide_eq_true_eq, Option.mem_def, List.mem_range]
    constructor
    · rintro ⟨links, rootData⟩
      refine ⟨fun {id node child} found member => ?_, fun {id node fragment} found template => ?_,
        rootData⟩
      · exact (links id (List.getElem?_eq_some_iff.mp found).1 node found).1 child member
      · exact (links id (List.getElem?_eq_some_iff.mp found).1 node found).2 fragment template
    · rintro ⟨parents, fragments, rootData⟩
      exact ⟨fun id _ node found => ⟨fun child member => parents found member,
        fun fragment template => fragments found template⟩, rootData⟩

end Links

structure Page extends Document where
  linked : Linked nodes root

structure Sound (nodes : List Node) (root : NodeId) : Prop where
  linked : Linked nodes root
  visits : ∃ ids, Visits (below nodes) [root] ids ∧ ids.Nodup

instance {nodes : List Node} {root : NodeId} : Decidable (Sound nodes root) :=
  decidable_of_iff
    (Linked nodes root ∧ (walkFor nodes nodes.length [root]).any fun ids => ids.Nodup) <| by
    simp only [Option.any_eq_true, decide_eq_true_eq]
    constructor
    · rintro ⟨linked, ids, walked, distinct⟩
      exact ⟨linked, ids, (walkFor_eq_some_iff.mp walked).1, distinct⟩
    · rintro ⟨linked, ids, visits, distinct⟩
      exact ⟨linked, linked.tree visits distinct⟩

def Page.ofSound (nodes : List Node) (root : NodeId) (sound : Sound nodes root) : Page where
  nodes := nodes
  root := root
  tree := by
    obtain ⟨ids, visits, distinct⟩ := sound.visits
    exact sound.linked.tree visits distinct
  linked := sound.linked

theorem Page.exists_of_mem_walk (page : Page) (member : id ∈ page.walk) :
    ∃ node, page.nodes[id]? = some node :=
  page.linked.exists_of_reaches ((page.mem_walk_iff id).mp member)

theorem Page.lt_of_mem_walk (page : Page) (member : id ∈ page.walk) : id < page.nodes.length := by
  obtain ⟨node, found⟩ := page.exists_of_mem_walk member
  exact (List.getElem?_eq_some_iff.mp found).1

section Detach

/-- Take a node out of the children of its parent. -/
def detach (nodes : List Node) (id : NodeId) : List Node :=
  let unlinked := match nodes[id]?.bind Node.parent with
    | some parent =>
      nodes.modify parent fun node => { node with children := node.children.filter (· ≠ id) }
    | none => nodes
  unlinked.modify id fun node => { node with parent := none }

theorem getElem?_detach (nodes : List Node) (id index : NodeId) :
    (detach nodes id)[index]? = nodes[index]?.map fun node =>
      { node with
        parent := if id = index then none else node.parent
        children := if nodes[id]?.bind Node.parent = some index then node.children.filter (· ≠ id)
          else node.children } := by
  unfold detach
  cases found : nodes[index]? with
  | none => split <;> simpa using found
  | some node =>
    split
    next upper parent =>
      rw [parent]
      by_cases same : id = index <;> by_cases isUpper : upper = index <;>
        simp [found, same, isUpper]
    next parent =>
      rw [parent]
      by_cases same : id = index <;> simp [found, same]

theorem fewer_detach (nodes : List Node) (id : NodeId) : Fewer nodes (detach nodes id) := by
  constructor
  · unfold detach
    split <;> simp
  · intro index
    unfold below
    rw [getElem?_detach]
    cases nodes[index]? with
    | none => exact .refl _
    | some node =>
      apply List.Sublist.append_left
      show List.Sublist (if _ then _ else _) node.children
      split
      · exact filter_sublist
      · exact .refl _

end Detach
end Offprint.Document
