import Mathlib.Data.List.Perm.Basic
import Mathlib.Logic.Function.Basic

/-!
# Shared pointers

Objects that are owned by shared pointers and nothing else.  A heap maps an
address to the object there and its use count; an object is destroyed when its
last pointer is released, after which its address may be used again.

`Heap.Owned h owners` says that the pointers in existence are exactly those in
the list `owners`, one entry for each: the use counts are the numbers of
pointers, and the objects are those that are pointed at.  A program that keeps
this invariant neither leaks an object nor loses one that is still pointed at.
The rules follow the operations: `make`, `copy` and `release` change the list of
owners by one entry, `modify` not at all.

What a pointer sees is `Heap.get`.  The lemmas about it are the frame rules: no
operation on one address changes the object at another, and a release leaves an
object alone that has another pointer.
-/

namespace CppExamples.Lib

universe u v

/-- An object and the number of shared pointers to it. -/
structure Shared (α : Type u) where
  object : α
  useCount : Nat

/-- The objects in existence, by address. -/
abbrev Heap (α : Type u) := Nat → Option (Shared α)

namespace Heap

variable {α : Type u} {h : Heap α} {owners owners' : List Nat} {p q : Nat}

def empty : Heap α := fun _ ↦ none

/-- The object a pointer sees. -/
def get (h : Heap α) (p : Nat) : Option α := (h p).map Shared.object

/-- A first pointer to a new object at a free address. -/
def make (h : Heap α) (p : Nat) (a : α) : Heap α := Function.update h p (some ⟨a, 1⟩)

/-- A further pointer to the object at `p`. -/
def copy (h : Heap α) (p : Nat) : Heap α :=
  Function.update h p ((h p).map fun s ↦ { s with useCount := s.useCount + 1 })

/-- One pointer to the object at `p` less; the last one destroys it. -/
def release (h : Heap α) (p : Nat) : Heap α :=
  Function.update h p ((h p).bind fun s ↦
    if s.useCount ≤ 1 then none else some { s with useCount := s.useCount - 1 })

/-- A change of the object at `p`. -/
def modify (h : Heap α) (p : Nat) (f : α → α) : Heap α :=
  Function.update h p ((h p).map fun s ↦ { s with object := f s.object })

/-! ## Ownership -/

/-- The pointers to the objects of the heap are those in the list. -/
def Owned (h : Heap α) (owners : List Nat) : Prop :=
  ∀ p, (h p).map Shared.useCount =
    if owners.count p = 0 then none else some (owners.count p)

namespace Owned

theorem empty : (Heap.empty : Heap α).Owned [] := fun _ ↦ rfl

theorem perm (ho : h.Owned owners) (hp : owners.Perm owners') : h.Owned owners' := fun p ↦ by
  rw [← hp.count_eq p]
  exact ho p

/-- **No pointer dangles**: there is an object at every address that is pointed at. -/
theorem exists_of_mem (ho : h.Owned owners) (hp : p ∈ owners) :
    ∃ s, h p = some s ∧ s.useCount = owners.count p := by
  have hcount := ho p
  have hpos : 0 < owners.count p := List.count_pos_iff.mpr hp
  rw [if_neg (Nat.ne_of_gt hpos)] at hcount
  exact Option.map_eq_some_iff.mp hcount

/-- **No object leaks**: the free addresses are those without a pointer. -/
theorem eq_none_iff (ho : h.Owned owners) : h p = none ↔ p ∉ owners := by
  rw [← List.count_eq_zero, ← Option.map_eq_none_iff (f := Shared.useCount), ho p]
  split <;> simp_all

theorem make (ho : h.Owned owners) (hp : h p = none) (a : α) :
    (h.make p a).Owned (p :: owners) := by
  intro q
  rw [Heap.make]
  by_cases hq : q = p
  · subst hq
    have hnone : owners.count q = 0 := List.count_eq_zero.mpr (ho.eq_none_iff.mp hp)
    simp [hnone]
  · rw [Function.update_of_ne hq, List.count_cons_of_ne (Ne.symm hq)]
    exact ho q

theorem copy (ho : h.Owned owners) (hp : p ∈ owners) : (h.copy p).Owned (p :: owners) := by
  intro q
  rw [Heap.copy]
  by_cases hq : q = p
  · subst hq
    obtain ⟨s, hs, hu⟩ := ho.exists_of_mem hp
    simp [hs, hu]
  · rw [Function.update_of_ne hq, List.count_cons_of_ne (Ne.symm hq)]
    exact ho q

theorem release (ho : h.Owned (p :: owners)) : (h.release p).Owned owners := by
  intro q
  rw [Heap.release]
  by_cases hq : q = p
  · subst hq
    obtain ⟨s, hs, hu⟩ := ho.exists_of_mem (List.mem_cons_self ..)
    rw [List.count_cons_self] at hu
    rw [Function.update_self, hs, Option.bind_some, hu]
    by_cases hz : owners.count q = 0
    · rw [if_pos (by omega), if_pos hz]
      rfl
    · rw [if_neg (by omega), if_neg hz]
      rfl
  · rw [Function.update_of_ne hq]
    have hcount := ho q
    rwa [List.count_cons_of_ne (Ne.symm hq)] at hcount

/-- Where each of the operations in `l` owns a pointer: the pointer of the `i`-th
one, which is about to be released, in front of all the others. -/
theorem eraseIdx {β : Type v} {f : β → Nat} {l : List β} {i : Nat} {b : β} (others : List Nat)
    (ho : h.Owned (others ++ l.map f)) (hb : l[i]? = some b) :
    h.Owned (f b :: (others ++ (l.eraseIdx i).map f)) := by
  obtain ⟨hi, rfl⟩ := List.getElem?_eq_some_iff.mp hb
  have hperm := (List.getElem_cons_eraseIdx_perm hi).map f
  exact ho.perm ((hperm.symm.append_left others).trans List.perm_middle)

theorem modify (ho : h.Owned owners) (f : α → α) : (h.modify p f).Owned owners := by
  intro q
  rw [Heap.modify, ← ho q]
  by_cases hq : q = p
  · subst hq
    rw [Function.update_self, Option.map_map]
    rfl
  · rw [Function.update_of_ne hq]

end Owned

/-- A first pointer that is copied and then dropped has moved. -/
theorem release_copy_make (a : α) : ((h.make p a).copy p).release p = h.make p a := by
  funext q
  by_cases hq : q = p
  · subst hq
    simp [release, copy, make]
  · rw [release, copy, make, Function.update_of_ne hq, Function.update_of_ne hq]

/-! ## What a pointer sees -/

theorem get_make_self (a : α) : (h.make p a).get p = some a := by simp [make, get]

theorem get_make_of_ne (hq : q ≠ p) (a : α) : (h.make p a).get q = h.get q := by
  rw [make, get, Function.update_of_ne hq, get]

@[simp] theorem get_copy : (h.copy p).get q = h.get q := by
  by_cases hq : q = p
  · subst hq
    rw [copy, get, Function.update_self, Option.map_map]
    rfl
  · rw [copy, get, Function.update_of_ne hq, get]

theorem get_modify_self (f : α → α) : (h.modify p f).get p = (h.get p).map f := by
  rw [modify, get, Function.update_self, get, Option.map_map, Option.map_map]
  rfl

theorem get_modify_of_ne (hq : q ≠ p) (f : α → α) : (h.modify p f).get q = h.get q := by
  rw [modify, get, Function.update_of_ne hq, get]

/-- A release does not change what the remaining pointers see. -/
theorem get_release (ho : h.Owned (p :: owners)) (hq : q ∈ owners) :
    (h.release p).get q = h.get q := by
  by_cases he : q = p
  · subst he
    obtain ⟨s, hs, hu⟩ := ho.exists_of_mem (List.mem_cons_self ..)
    rw [List.count_cons_self] at hu
    have hpos : 0 < owners.count q := List.count_pos_iff.mpr hq
    rw [release, get, Function.update_self, hs, Option.bind_some, hu, if_neg (by omega), get, hs]
    rfl
  · rw [release, get, Function.update_of_ne he, get]

end Heap

end CppExamples.Lib
