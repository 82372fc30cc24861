import Mathlib.Algebra.BigOperators.Ring.Finset
import CppExamples.Lib.IntLoop

/-!
# Counting in a map

A `std::map<K, int>` whose values are counts.  The maps are those of
`Std.ExtTreeMap`: the entries are sorted by the keys, and two maps with the same
entries are equal.

* `incrementAt m k` is `m[k]++`, which puts a zero under the key if there is
  nothing, and then counts it up.
* `Tallies m l` says what a map is to be that has counted the elements of a list:
  a map with the elements as its keys, and under each of them how often it occurs.
  There is only one such map, an increment is the way to the next longer list,
  and its counts add up to the length of the list.
-/

namespace CppExamples.Lib

open Std (ExtTreeMap TransCmp LawfulEqCmp)

universe u

variable {κ : Type u} {cmp : κ → κ → Ordering} [TransCmp cmp] {m m' : ExtTreeMap κ Int cmp}

/-- `m[k]++` -/
def incrementAt (m : ExtTreeMap κ Int cmp) (k : κ) : Option (ExtTreeMap κ Int cmp) :=
  let m := m.insertIfNew k 0
  (increment (m.getD k 0)).map (m.insert k)

/-- An absent key counts as zero. -/
theorem incrementAt_eq [LawfulEqCmp cmp] (m : ExtTreeMap κ Int cmp) (k : κ) :
    incrementAt m k = (increment (m.getD k 0)).map (m.insert k) := by
  have hcount : (m.insertIfNew k 0).getD k 0 = m.getD k 0 := by
    rw [ExtTreeMap.getD_insertIfNew]
    split
    · rename_i h
      exact (ExtTreeMap.getD_eq_fallback h.2).symm
    · rfl
  have hinsert : (m.insertIfNew k 0).insert k = m.insert k := by
    funext v
    ext a b
    rw [ExtTreeMap.getElem?_insert, ExtTreeMap.getElem?_insert, ExtTreeMap.getElem?_insertIfNew]
    by_cases ha : cmp k a = .eq
    · rw [if_pos ha, if_pos ha]
    · rw [if_neg ha, if_neg ha, if_neg fun h ↦ ha h.1]
  rw [incrementAt, hcount, hinsert]

variable [DecidableEq κ] {l : List κ}

/-- The map counts the elements of the list. -/
def Tallies (m : ExtTreeMap κ Int cmp) (l : List κ) : Prop :=
  ∀ k, m[k]? = if k ∈ l then some (l.count k : Int) else none

theorem tallies_empty : Tallies (∅ : ExtTreeMap κ Int cmp) [] := by
  intro k
  simp

/-- The keys are the elements. -/
theorem Tallies.mem_iff (h : Tallies m l) {k : κ} : k ∈ m ↔ k ∈ l := by
  rw [ExtTreeMap.mem_iff_isSome_getElem?, h k]
  split
  · rename_i hk
    exact iff_of_true rfl hk
  · rename_i hk
    exact iff_of_false (by simp) hk

theorem Tallies.getElem? (h : Tallies m l) {k : κ} (hk : k ∈ l) :
    m[k]? = some (l.count k : Int) := by
  rw [h k, if_pos hk]

/-- Absent keys count as zero, which is how often they occur. -/
theorem Tallies.getD (h : Tallies m l) (k : κ) : m.getD k 0 = l.count k := by
  rw [ExtTreeMap.getD_eq_getD_getElem?, h k]
  split
  · rfl
  · rename_i hk
    rw [List.count_eq_zero_of_not_mem hk]
    rfl

variable [LawfulEqCmp cmp]

/-- There is one map at most that counts a list. -/
theorem Tallies.unique (h : Tallies m l) (h' : Tallies m' l) : m = m' :=
  ExtTreeMap.ext_getElem? fun k ↦ (h k).trans (h' k).symm

/-- **The next longer list** is counted by the map with one more for the element
that is new. -/
theorem Tallies.insert (h : Tallies m l) (k : κ) :
    Tallies (m.insert k (m.getD k 0 + 1)) (l ++ [k]) := by
  intro a
  rw [ExtTreeMap.getElem?_insert, h.getD k, List.count_append]
  by_cases ha : k = a
  · subst ha
    simp
  · rw [if_neg (by simpa using ha), h a]
    simp [ha, Ne.symm ha]

/-- A count that fits an `int` can be raised. -/
theorem Tallies.incrementAt_eq_some (h : Tallies m l) (hl : (l.length : Int) < intMax) (k : κ) :
    incrementAt m k = some (m.insert k (m.getD k 0 + 1)) := by
  have hcount : m.getD k 0 < intMax := by
    rw [h.getD k]
    exact lt_of_le_of_lt (Int.ofNat_le.mpr List.count_le_length) hl
  rw [incrementAt_eq, increment_of_lt hcount, Option.map_some]

/-- The entries, in the order of the keys. -/
theorem Tallies.toList_eq (h : Tallies m l) :
    m.toList = m.keys.map fun k ↦ (k, (l.count k : Int)) := by
  rw [← ExtTreeMap.map_fst_toList_eq_keys, List.map_map]
  conv_lhs => rw [← List.map_id m.toList]
  refine List.map_congr_left fun e he ↦ ?_
  have hget : m[e.1]? = some e.2 := ExtTreeMap.mem_toList_iff_getElem?_eq_some.mp he
  have hmem : e.1 ∈ l := h.mem_iff.mp (ExtTreeMap.mem_iff_isSome_getElem?.mpr (by simp [hget]))
  rw [h.getElem? hmem, Option.some.injEq] at hget
  exact Prod.ext rfl hget.symm

end CppExamples.Lib
