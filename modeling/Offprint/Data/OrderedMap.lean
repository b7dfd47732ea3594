import Mathlib.Order.Lattice
import Mathlib.Data.List.Perm.Basic
import Mathlib.Data.List.Nodup

/-!
# Ordered maps

A map as the list of its entries in the order of their keys.
-/

namespace Offprint.Data

open List

abbrev OrderedMap (Key Value : Type) : Type :=
  List (Key × Value)

namespace OrderedMap

variable {Key Value : Type}

def keys (map : OrderedMap Key Value) : List Key :=
  map.map Prod.fst

section Operations

variable [LinearOrder Key]

def insert (key : Key) (value : Value) : OrderedMap Key Value → OrderedMap Key Value
  | [] => [(key, value)]
  | (other, old) :: rest =>
    if key < other then
      (key, value) :: (other, old) :: rest
    else if key = other then
      (key, value) :: rest
    else
      (other, old) :: insert key value rest

def erase (key : Key) (map : OrderedMap Key Value) : OrderedMap Key Value :=
  map.filter fun entry => entry.1 ≠ key

def get? (key : Key) (map : OrderedMap Key Value) : Option Value :=
  (map.find? fun entry => entry.1 = key).map Prod.snd

end Operations

variable {map : OrderedMap Key Value}

theorem insert_perm [LinearOrder Key] {key : Key} (value : Value) (fresh : key ∉ map.keys) :
    (insert key value map).Perm ((key, value) :: map) := by
  induction map with
  | nil => exact List.Perm.refl _
  | cons entry rest ih =>
    obtain ⟨other, old⟩ := entry
    simp only [keys, map_cons, mem_cons, not_or] at fresh
    unfold insert
    split_ifs with below same
    · exact List.Perm.refl _
    · exact absurd same fresh.1
    · apply (List.Perm.cons _ (ih fresh.2)).trans
      exact List.Perm.swap _ _ _

section Membership

variable [LinearOrder Key] {key : Key} {value : Value} {map : OrderedMap Key Value}
  {entry : Key × Value}

theorem mem_insert_self : (key, value) ∈ insert key value map := by
  induction map with
  | nil => simp [insert]
  | cons first rest ih =>
    unfold insert
    split_ifs <;> simp [ih]

theorem mem_of_mem_insert (member : entry ∈ insert key value map) :
    entry = (key, value) ∨ entry ∈ map := by
  induction map with
  | nil => simpa [insert] using member
  | cons first rest ih =>
    unfold insert at member
    split_ifs at member
    · simpa using member
    · simp only [mem_cons] at member ⊢
      exact member.imp_right .inr
    · simp only [mem_cons] at member ⊢
      rcases member with isFirst | later
      · exact .inr (.inl isFirst)
      · exact (ih later).imp_right .inr

theorem mem_insert_of_mem (member : entry ∈ map) (differs : entry.1 ≠ key) :
    entry ∈ insert key value map := by
  induction map with
  | nil => cases member
  | cons first rest ih =>
    unfold insert
    split_ifs with below same
    · exact mem_cons_of_mem _ member
    · rcases mem_cons.mp member with rfl | later
      · exact absurd same.symm differs
      · exact mem_cons_of_mem _ later
    · rcases mem_cons.mp member with rfl | later
      · exact mem_cons_self
      · exact mem_cons_of_mem _ (ih later)

end Membership

section Lookup

variable [LinearOrder Key] {key : Key} {value : Value} {map : OrderedMap Key Value} {other : Key}

theorem get?_insert_self : get? key (insert key value map) = some value := by
  induction map with
  | nil => simp [insert, get?]
  | cons first rest ih =>
    unfold insert
    split_ifs with below same
    · simp [get?]
    · simp [get?]
    · simpa [get?, Ne.symm same] using ih

theorem get?_insert_of_ne (differs : other ≠ key) :
    get? other (insert key value map) = get? other map := by
  induction map with
  | nil => simp [insert, get?, differs.symm]
  | cons first rest ih =>
    unfold insert
    split_ifs with below same
    · simp [get?, differs.symm]
    · simp [get?, differs.symm, ← same]
    · by_cases found : first.1 = other
      · simp [get?, found]
      · simpa [get?, found] using ih

theorem get?_erase_self : get? key (erase key map) = none := by
  simp [get?, erase]

theorem get?_erase_of_ne (differs : other ≠ key) : get? other (erase key map) = get? other map := by
  induction map with
  | nil => rfl
  | cons first rest ih =>
    unfold get? erase at ih ⊢
    by_cases removed : first.1 = key
    · simpa [removed, differs.symm] using ih
    · by_cases found : first.1 = other
      · simp [found, differs]
      · simpa [removed, found] using ih

theorem get?_eq_none (absent : ∀ value, (key, value) ∉ map) : get? key map = none := by
  rw [get?, Option.map_eq_none_iff, find?_eq_none]
  rintro ⟨other, value⟩ member same
  obtain rfl : other = key := of_decide_eq_true same
  exact absent value member

theorem ne_of_get?_eq_none {entry : Key × Value} (absent : get? key map = none)
    (member : entry ∈ map) : entry.1 ≠ key := by
  rw [get?, Option.map_eq_none_iff, find?_eq_none] at absent
  exact fun same => absent entry member (decide_eq_true same)

end Lookup

theorem mem_keys {key : Key} : key ∈ map.keys ↔ ∃ value, (key, value) ∈ map := by
  simp [keys]

end OrderedMap
end Offprint.Data
