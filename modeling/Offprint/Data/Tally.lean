import Mathlib.Algebra.GroupWithZero.Nat
import Mathlib.Algebra.BigOperators.Group.Multiset.Basic

/-!
# Tallies

A tally counts how often each key was seen.  It stands for the multiset of its keys.
-/

namespace Offprint.Data

open Multiset

variable {Key : Type} [DecidableEq Key]

abbrev Tally (Key : Type) : Type :=
  List (Key × Nat)

namespace Tally

def keys : Tally Key → Multiset Key
  | [] => 0
  | (key, count) :: rest => Multiset.replicate count key + keys rest

def add (key : Key) : Tally Key → Tally Key
  | [] => [(key, 1)]
  | (other, count) :: rest =>
    if other = key then (other, count + 1) :: rest else (other, count) :: add key rest

/-- Take a key back some times, if it was seen that often. -/
def take (key : Key) (amount : Nat) : Tally Key → Option (Tally Key)
  | [] => none
  | (other, count) :: rest =>
    if other = key then
      if count < amount then none else some ((other, count - amount) :: rest)
    else
      ((other, count) :: ·) <$> take key amount rest

/-- Take every key of one tally back from another. -/
def takeAll (tally : Tally Key) (taken : Tally Key) : Option (Tally Key) :=
  taken.foldlM (fun tally entry => take entry.1 entry.2 tally) tally

def total (tally : Tally Key) : Nat :=
  (tally.map Prod.snd).sum

omit [DecidableEq Key] in
theorem card_keys (tally : Tally Key) : tally.keys.card = tally.total := by
  induction tally with
  | nil => rfl
  | cons entry rest ih =>
    obtain ⟨key, count⟩ := entry
    rw [keys, card_add, card_replicate, ih]
    rfl

theorem keys_add (key : Key) (tally : Tally Key) : (add key tally).keys = {key} + tally.keys := by
  induction tally with
  | nil => rfl
  | cons entry rest ih =>
    obtain ⟨other, count⟩ := entry
    unfold add
    split
    · rename_i same
      subst same
      rw [keys, keys, replicate_succ, cons_add, singleton_add]
    · rw [keys, keys, ih, add_left_comm]

theorem keys_foldl_add (list : List Key) (tally : Tally Key) :
    keys (list.foldl (fun tally key => add key tally) tally) = ↑list + tally.keys := by
  induction list generalizing tally with
  | nil => rw [List.foldl_nil, coe_nil, zero_add]
  | cons key rest ih =>
    rw [List.foldl_cons, ih, keys_add, ← cons_coe,
      singleton_add, add_cons, cons_add]

theorem keys_of_take {key : Key} {amount : Nat} {tally left : Tally Key}
    (taken : take key amount tally = some left) :
    tally.keys = Multiset.replicate amount key + left.keys := by
  induction tally generalizing left with
  | nil => cases taken
  | cons entry rest ih =>
    obtain ⟨other, count⟩ := entry
    unfold take at taken
    split at taken
    · rename_i same
      subst same
      split at taken
      · cases taken
      · obtain rfl := Option.some.inj taken
        rw [keys, keys, ← add_assoc, ← replicate_add]
        congr 2
        omega
    · obtain ⟨others, found, rfl⟩ := Option.map_eq_some_iff.mp taken
      rw [keys, keys, ih found, add_left_comm]

theorem keys_of_takeAll {tally taken left : Tally Key} (found : tally.takeAll taken = some left) :
    tally.keys = taken.keys + left.keys := by
  induction taken generalizing tally with
  | nil =>
    obtain rfl := Option.some.inj found
    rw [keys, zero_add]
  | cons entry rest ih =>
    obtain ⟨next, first, others⟩ := Option.bind_eq_some_iff.mp found
    rw [keys_of_take first, ih others, keys, add_assoc]

omit [DecidableEq Key] in
theorem keys_filter (tally : Tally Key) :
    keys (tally.filter fun entry => 0 < entry.2) = tally.keys := by
  induction tally with
  | nil => rfl
  | cons entry rest ih =>
    obtain ⟨key, count⟩ := entry
    cases count with
    | zero =>
      rw [List.filter_cons_of_neg (by simp), ih, keys, replicate_zero, zero_add]
    | succ count => rw [List.filter_cons_of_pos (by simp), keys, keys, ih]

omit [DecidableEq Key] in
theorem mem_of_mem_keys {tally : Tally Key} {key : Key} (inside : key ∈ tally.keys) :
    ∃ entry ∈ tally, entry.1 = key := by
  induction tally with
  | nil => cases inside
  | cons entry rest ih =>
    rcases mem_add.mp inside with here | later
    · exact ⟨entry, List.mem_cons_self, (eq_of_mem_replicate here).symm⟩
    · obtain ⟨other, listed, same⟩ := ih later
      exact ⟨other, List.mem_cons_of_mem entry listed, same⟩

end Tally
end Offprint.Data
