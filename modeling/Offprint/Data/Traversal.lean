import Mathlib.Data.List.Nodup
import Mathlib.Data.List.Pairwise

/-!
# Depth-first traversals

A traversal takes the first item of its stack, lists it and puts what stands below it on the
stack.  What it lists depends only on what stands below the items it lists, so that a change
to a tree is followed by following the change to its traversal.
-/

namespace Offprint.Data.Traversal

open List

variable {α : Type*} {below below' : α → List α}

/-- The items a traversal lists from a stack. -/
inductive Visits (below : α → List α) : List α → List α → Prop where
  | nil : Visits below [] []
  | cons {item stack rest} :
      Visits below (below item ++ stack) rest → Visits below (item :: stack) (item :: rest)

/-- One item stands below another, at any depth. -/
abbrev Reaches (below : α → List α) : α → α → Prop :=
  Relation.ReflTransGen fun upper lower => lower ∈ below upper

namespace Visits

variable {listed listed' : List α} {first second stack : List α} {upper lower : α}

theorem append (visits : Visits below first listed) (visits' : Visits below second listed') :
    Visits below (first ++ second) (listed ++ listed') := by
  induction visits with
  | nil => exact visits'
  | cons _ ih =>
    apply Visits.cons
    rwa [append_assoc] at ih

theorem of_append (visits : Visits below (first ++ second) listed) :
    ∃ front back, listed = front ++ back ∧ Visits below first front ∧
      Visits below second back := by
  generalize stacked : first ++ second = stack at visits
  induction visits generalizing first with
  | nil =>
    obtain ⟨rfl, rfl⟩ := append_eq_nil_iff.mp stacked
    exact ⟨[], [], rfl, .nil, .nil⟩
  | @cons item stack rest visits ih =>
    cases first with
    | nil =>
      obtain rfl : second = item :: stack := stacked
      exact ⟨[], item :: rest, rfl, .nil, .cons visits⟩
    | cons head tail =>
      obtain ⟨rfl, rfl⟩ := List.cons.inj stacked
      obtain ⟨front, back, rfl, below, after⟩ :=
        ih (append_assoc (below head) tail second)
      exact ⟨head :: front, back, rfl, .cons below, after⟩

theorem unique (visits : Visits below stack listed) (visits' : Visits below stack listed') :
    listed = listed' := by
  induction visits generalizing listed' with
  | nil => cases visits'; rfl
  | cons _ ih =>
    cases visits' with
    | cons rest => rw [ih rest]

theorem mem_iff (visits : Visits below stack listed) (item : α) :
    item ∈ listed ↔ ∃ upper ∈ stack, Reaches below upper item := by
  induction visits with
  | nil => simp
  | @cons head stack rest _ ih =>
    rw [mem_cons, ih, exists_mem_cons_iff]
    simp only [mem_append, or_and_right, exists_or, ← or_assoc]
    apply or_congr _ Iff.rfl
    rw [eq_comm]
    exact (Relation.ReflTransGen.cases_head_iff (r := fun upper lower => lower ∈ below upper)).symm

section

variable (visits : Visits below stack listed)
include visits

theorem mem_of_reaches (listedUpper : upper ∈ listed)
    (reaches : Reaches below upper lower) : lower ∈ listed := by
  obtain ⟨top, stacked, above⟩ := (visits.mem_iff upper).mp listedUpper
  exact (visits.mem_iff lower).mpr ⟨top, stacked, above.trans reaches⟩

theorem mem_of_below (listedUpper : upper ∈ listed)
    (under : lower ∈ below upper) : lower ∈ listed :=
  visits.mem_of_reaches listedUpper (.single under)

theorem perm_flatMap : listed.Perm (stack ++ listed.flatMap below) := by
  induction visits with
  | nil => exact .refl _
  | @cons head stack rest _ ih =>
    apply List.Perm.cons head
    apply ih.trans
    show (below head ++ stack ++ rest.flatMap below).Perm
      (stack ++ (below head ++ rest.flatMap below))
    rw [← append_assoc]
    exact perm_append_comm.append_right _

theorem eq_of_mem_below (distinct : listed.Nodup)
    {first second : α} (listedFirst : first ∈ listed) (listedSecond : second ∈ listed)
    (underFirst : lower ∈ below first) (underSecond : lower ∈ below second) : first = second := by
  have once := (nodup_append'.mp (distinct.perm visits.perm_flatMap)).2.1
  have apart := (nodup_flatMap.mp once).2
  have : Std.Symm (Function.onFun List.Disjoint below) :=
    ⟨fun _ _ disjoint _ second first => disjoint first second⟩
  by_contra differ
  exact apart.forall listedFirst listedSecond differ underFirst underSecond

theorem notMem_below_of_mem (distinct : listed.Nodup)
    {top : α} (stacked : top ∈ stack) (member : upper ∈ listed) : top ∉ below upper := by
  have apart := (nodup_append'.mp (distinct.perm visits.perm_flatMap)).2.2
  intro under
  exact apart stacked (mem_flatMap.mpr ⟨upper, member, under⟩)

theorem congr (alike : ∀ item ∈ listed, below' item = below item) : Visits below' stack listed := by
  induction visits with
  | nil => exact .nil
  | cons _ ih =>
    apply Visits.cons
    rw [alike _ mem_cons_self]
    exact ih fun item member => alike item (mem_cons_of_mem _ member)

theorem exists_sublist {stack' : List α}
    (shorter : stack'.Sublist stack) (fewer : ∀ item ∈ listed, (below' item).Sublist (below item)) :
    ∃ listed', Visits below' stack' listed' ∧ listed'.Sublist listed := by
  induction visits generalizing stack' with
  | nil =>
    obtain rfl := sublist_nil.mp shorter
    exact ⟨[], .nil, .refl _⟩
  | @cons head stack rest _ ih =>
    have fewerBelow := fun item member => fewer item (mem_cons_of_mem head member)
    cases shorter with
    | cons _ shorter =>
      obtain ⟨listed', visits', sublist⟩ :=
        ih (shorter.trans (sublist_append_right _ _)) fewerBelow
      exact ⟨listed', visits', sublist.cons _⟩
    | cons_cons _ shorter =>
      obtain ⟨listed', visits', sublist⟩ :=
        ih ((fewer head mem_cons_self).append shorter) fewerBelow
      exact ⟨head :: listed', .cons visits', sublist.cons_cons _⟩

end

theorem mem_filtered_iff (keep : α → Bool) (visits : Visits below stack listed)
    (distinct : listed.Nodup) (visits' : Visits below' stack listed')
    (kept : ∀ top ∈ stack, keep top = true)
    (filtered : ∀ item ∈ listed, below' item = (below item).filter keep) (item : α) :
    item ∈ listed' ↔
      item ∈ listed ∧ ∀ upper ∈ listed, Reaches below upper item → keep upper = true := by
  rw [visits'.mem_iff]
  constructor
  · rintro ⟨top, stacked, reaches⟩
    induction reaches with
    | refl =>
      have member := (visits.mem_iff top).mpr ⟨top, stacked, .refl⟩
      refine ⟨member, fun upper memberUpper reaches => ?_⟩
      cases reaches with
      | refl => exact kept top stacked
      | tail reaches under =>
        have memberLast := visits.mem_of_reaches memberUpper reaches
        exact absurd under (visits.notMem_below_of_mem distinct stacked memberLast)
    | @tail middle lower _ under ih =>
      obtain ⟨memberMiddle, keptAbove⟩ := ih
      rw [filtered middle memberMiddle, mem_filter] at under
      refine ⟨visits.mem_of_below memberMiddle under.1, fun upper memberUpper reaches => ?_⟩
      cases reaches with
      | refl => exact under.2
      | tail reaches underLast =>
        have memberLast := visits.mem_of_reaches memberUpper reaches
        obtain rfl := visits.eq_of_mem_below distinct memberMiddle memberLast under.1 underLast
        exact keptAbove upper memberUpper reaches
  · rintro ⟨member, keptAbove⟩
    obtain ⟨top, stacked, reaches⟩ := (visits.mem_iff item).mp member
    refine ⟨top, stacked, ?_⟩
    induction reaches with
    | refl => exact .refl
    | @tail middle lower reaches under ih =>
      have memberMiddle := (visits.mem_iff middle).mpr ⟨top, stacked, reaches⟩
      have above := ih memberMiddle fun upper memberUpper reaches =>
        keptAbove upper memberUpper (reaches.tail under)
      refine above.tail ?_
      rw [filtered middle memberMiddle, mem_filter]
      exact ⟨under, keptAbove lower member .refl⟩

theorem exists_graft {grafted added : List α} {host : α} (visits : Visits below stack listed)
    (distinct : listed.Nodup) (member : host ∈ listed)
    (alike : ∀ item ∈ listed, item ≠ host → below' item = below item)
    (extended : ∃ front back, below host = front ++ back ∧ below' host = front ++ grafted ++ back)
    (visitsGrafted : Visits below' grafted added) :
    ∃ front back, listed = front ++ back ∧ Visits below' stack (front ++ added ++ back) := by
  induction visits with
  | nil => cases member
  | @cons head stack rest visits ih =>
    obtain ⟨notMember, distinctRest⟩ := nodup_cons.mp distinct
    have alikeRest := fun item member => alike item (mem_cons_of_mem head member)
    by_cases isHost : head = host
    · subst isHost
      obtain ⟨front, back, whole, whole'⟩ := extended
      have visitsRest : Visits below' (below head ++ stack) rest :=
        visits.congr fun item member => alikeRest item member fun equal =>
          notMember (equal ▸ member)
      rw [whole, append_assoc] at visitsRest
      obtain ⟨listedFront, listedBack, rfl, visitsFront, visitsBack⟩ := visitsRest.of_append
      refine ⟨head :: listedFront, listedBack, rfl, .cons ?_⟩
      rw [whole']
      simpa using visitsFront.append (visitsGrafted.append visitsBack)
    · have memberRest : host ∈ rest :=
        (mem_cons.mp member).resolve_left fun equal => isHost equal.symm
      obtain ⟨front, back, rfl, visits'⟩ :=
        ih distinctRest memberRest alikeRest
      refine ⟨head :: front, back, rfl, .cons ?_⟩
      rwa [alike head mem_cons_self isHost]

theorem of_leaves (leaves : ∀ item ∈ stack, below item = []) : Visits below stack stack := by
  induction stack with
  | nil => exact .nil
  | cons head rest ih =>
    apply Visits.cons
    rw [leaves head mem_cons_self]
    exact ih fun item member => leaves item (mem_cons_of_mem _ member)

end Visits
end Offprint.Data.Traversal
