import CppExamples.Lib.Tally

/-!
# How often the characters of a string occur

`findOccurences` of `ConsoleApplication1.cpp`.  For every position of a string it
counts the characters up to there, each time from the start and in a map of its
own; then it prints the maps one after the other.

The loops count with an `int`, from zero on, so that to compare the counter with a
length is to compare numbers; the maps hold `int`s; and what is undefined is
`none`.  A string that is not longer than the largest `int` keeps all of it
defined: `Filled` is the invariant of the loop over the positions, and inside of
it the map of the position has counted as many characters as the inner loop has
made passes.
-/

namespace CppExamples.ConsoleApplication

open CppExamples.Lib
open Std (ExtTreeMap TransCmp LawfulEqCmp)

/-! ## Characters -/

/-- Whether a `char` is signed is up to the implementation. -/
inductive CharSign where
  | signed
  | unsigned
deriving DecidableEq

/-- The value of a `char`. -/
def CharSign.toInt : CharSign → UInt8 → Int
  | .signed, c => c.toInt8.toInt
  | .unsigned, c => c.toNat

/-- `std::less<char>`, as a comparison. -/
def CharSign.compare (g : CharSign) : UInt8 → UInt8 → Ordering := compareOn g.toInt

variable {g : CharSign}

theorem CharSign.toInt_injective (g : CharSign) : Function.Injective g.toInt := by
  intro c d h
  cases g with
  | signed => exact congrArg Int8.toUInt8 (Int8.toInt_inj.mp h)
  | unsigned => exact UInt8.toNat_inj.mp (Int.ofNat_inj.mp h)

instance : TransCmp g.compare := inferInstanceAs (TransCmp (compareOn g.toInt))

instance : LawfulEqCmp g.compare where
  eq_of_compare h := g.toInt_injective (Std.LawfulEqCmp.eq_of_compare h)

/-- `std::map<char, int>` -/
abbrev Counts (g : CharSign) := ExtTreeMap UInt8 Int g.compare

/-- `xs[i]` with an `int` as the index; a negative one is a large `size_t`. -/
def subscript {α : Type} (xs : List α) (i : Int) : Option α :=
  if 0 ≤ i then xs[i.toNat]? else none

/-- `mp[i][s[j]]++`; behind the characters of a `std::string` there is a NUL. -/
def countChar (s : List UInt8) (i j : Int) (mp : List (Counts g)) : Option (List (Counts g)) :=
  (subscript (s ++ [0]) j).bind fun c ↦
    (subscript mp i).bind fun m ↦
      (incrementAt m c).map fun m ↦ mp.set i.toNat m

/-- The inner loop, for the position `i`. -/
def countUpTo (s : List UInt8) (i : Int) (mp : List (Counts g)) : Option (List (Counts g)) :=
  intLoop (fun j ↦ j ≤ i) (countChar s i) 0 mp

def text (s : String) : List UInt8 := s.toUTF8.data.toList

/-- The line in front of the map of a position. -/
def positionText (position : Int) : List UInt8 :=
  text "Frequency upto " ++ text "position " ++ formatInt position ++ [10]

/-- The line of an entry of a map. -/
def entryText (c : UInt8) (count : Int) : List UInt8 :=
  [c] ++ text "-" ++ formatInt count ++ [10]

/-- The body of the printing loop; `out` is what has been printed so far. -/
def printPosition (mp : List (Counts g)) (i : Int) (out : List UInt8) : Option (List UInt8) :=
  (increment i).bind fun position ↦
    (subscript mp i).map fun m ↦
      out ++ (positionText position ++ m.toList.flatMap fun x ↦ entryText x.1 x.2)

variable {s : List UInt8} {mp : List (Counts g)} {m : Counts g}

theorem subscript_natCast {α : Type} (xs : List α) (i : Nat) : subscript xs i = xs[i]? := by
  rw [subscript, if_pos (Int.natCast_nonneg i), Int.toNat_natCast]

/-- **A pass of the inner loop** counts one more character. -/
theorem countChar_eq {i j : Nat} (hj : j < s.length) (hs : (s.length : Int) ≤ intMax)
    (hm : mp[i]? = some m) (h : Tallies m (s.take j)) :
    ∃ m', countChar s i j mp = some (mp.set i m') ∧ Tallies m' (s.take (j + 1)) := by
  have hc : (s ++ [0])[j]? = some s[j] := by
    rw [List.getElem?_append_left hj, List.getElem?_eq_getElem hj]
  have hlt : ((s.take j).length : Int) < intMax := by
    rw [List.length_take]
    omega
  refine ⟨m.insert s[j] (m.getD s[j] 0 + 1), ?_, ?_⟩
  · simp only [countChar, subscript_natCast, hc, hm, h.incrementAt_eq_some hlt, Option.bind_some,
      Option.map_some, Int.toNat_natCast]
  · rw [← List.take_append_getElem hj]
    exact h.insert s[j]

/-- **The inner loop** counts the characters up to the position. -/
theorem countUpTo_eq {i : Nat} (hi : i < s.length) (hs : (s.length : Int) ≤ intMax)
    (hm : mp[i]? = some ∅) :
    ∃ m, countUpTo s i mp = some (mp.set i m) ∧ Tallies m (s.take (i + 1)) := by
  obtain ⟨hlen, hempty⟩ := List.getElem?_eq_some_iff.mp hm
  have hloop : ∃ t, countUpTo s i mp = some t ∧
      ∃ m, t = mp.set i m ∧ Tallies m (s.take (i + 1)) := by
    have htest (j : Int) : decide (j ≤ i) = true ↔ j < (i + 1 : Nat) := by
      rw [decide_eq_true_iff, Int.natCast_add_one]
      exact Int.lt_add_one_iff.symm
    refine intLoop_upto (I := fun j t ↦ ∃ m, t = mp.set i m ∧ Tallies m (s.take j)) (by omega)
      htest ?_ (Nat.zero_le _) ⟨∅, by rw [← hempty, List.set_getElem_self], tallies_empty⟩
    rintro j hj - ⟨m, rfl, h⟩
    obtain ⟨m', hpass, h'⟩ := countChar_eq (by omega) hs (List.getElem?_set_self hlen) h
    exact ⟨_, hpass, m', List.set_set .., h'⟩
  obtain ⟨-, hsome, m, rfl, hcount⟩ := hloop
  exact ⟨m, hsome, hcount⟩

/-- The vector when the positions up to `i` have been filled in. -/
structure Filled (s : List UInt8) (i : Nat) (mp : List (Counts g)) : Prop where
  length_eq : mp.length = s.length
  counted : ∀ k < i, ∃ m, mp[k]? = some m ∧ Tallies m (s.take (k + 1))
  empty : ∀ k, i ≤ k → k < s.length → mp[k]? = some ∅

/-- **A pass of the outer loop** fills in one more position. -/
theorem Filled.countUpTo {i : Nat} (h : Filled s i mp) (hi : i < s.length)
    (hs : (s.length : Int) ≤ intMax) :
    ∃ mp', countUpTo s i mp = some mp' ∧ Filled s (i + 1) mp' := by
  obtain ⟨m, hpass, hm⟩ := countUpTo_eq hi hs (h.empty i le_rfl hi)
  refine ⟨mp.set i m, hpass, (List.length_set ..).trans h.length_eq, fun k hk ↦ ?_,
    fun k hk hlen ↦ ?_⟩
  · rcases Nat.lt_succ_iff_lt_or_eq.mp hk with hk | rfl
    · rw [List.getElem?_set_ne hk.ne']
      exact h.counted k hk
    · exact ⟨m, List.getElem?_set_self (h.length_eq ▸ hi), hm⟩
  · rw [List.getElem?_set_ne (Nat.ne_of_lt hk)]
    exact h.empty k (Nat.le_of_succ_le hk) hlen

/-- The number of positions up to `i` that hold the character `c`. -/
def occurrences (s : List UInt8) (i : Nat) (c : UInt8) : Nat :=
  ((Finset.range (i + 1)).filter fun j ↦ s[j]? = some c).card

theorem card_filter_getElem? (s : List UInt8) (n : Nat) (c : UInt8) :
    ((Finset.range n).filter fun j ↦ s[j]? = some c).card = (s.take n).count c := by
  induction n with
  | zero => simp
  | succ n ih =>
      rw [Finset.range_add_one, Finset.filter_insert, List.take_add_one, List.count_append, ← ih]
      cases hn : s[n]? with
      | none => simp
      | some d =>
          by_cases hd : d = c
          · simp [hd]
          · simp [hd]

theorem occurrences_eq_count (s : List UInt8) (i : Nat) (c : UInt8) :
    occurrences s i c = (s.take (i + 1)).count c :=
  card_filter_getElem? s (i + 1) c

/-- What is printed for a position, with some keys. -/
def listing (s : List UInt8) (i : Nat) (keys : List UInt8) : List UInt8 :=
  positionText (i + 1) ++ keys.flatMap fun c ↦ entryText c (occurrences s i c)

/-- **A pass of the printing loop.** -/
theorem printPosition_eq {i : Nat} (hi : (i : Int) < intMax) (hm : mp[i]? = some m)
    (h : Tallies m (s.take (i + 1))) (out : List UInt8) :
    printPosition mp i out = some (out ++ listing s i m.keys) := by
  have hentries : (m.toList.flatMap fun x ↦ entryText x.1 x.2) =
      m.keys.flatMap fun c ↦ entryText c (occurrences s i c) := by
    rw [h.toList_eq, List.flatMap_map]
    simp only [occurrences_eq_count]
  rw [printPosition, increment_of_lt hi, subscript_natCast, hm, Option.bind_some, Option.map_some,
    hentries, listing]

/-- The keys of the map of a position. -/
def keysAt (mp : List (Counts g)) (i : Nat) : List UInt8 := (mp[i]?.getD ∅).keys

/-- **The printing loop** prints the positions one after the other. -/
theorem Filled.print (h : Filled s s.length mp) (hs : (s.length : Int) ≤ intMax) :
    intLoop (fun i ↦ i < s.length) (printPosition mp) 0 [] =
      some ((List.range s.length).flatMap fun i ↦ listing s i (keysAt mp i)) := by
  have hloop : ∃ out, intLoop (fun i ↦ i < s.length) (printPosition mp) 0 [] = some out ∧
      out = (List.range s.length).flatMap fun i ↦ listing s i (keysAt mp i) := by
    refine intLoop_upto
      (I := fun i out ↦ out = (List.range i).flatMap fun i ↦ listing s i (keysAt mp i))
      hs (by simp) ?_ (Nat.zero_le _) rfl
    rintro i hi - rfl
    obtain ⟨m, hm, hcount⟩ := h.counted i hi
    refine ⟨_, printPosition_eq (by omega) hm hcount _, ?_⟩
    simp [List.range_succ, keysAt, hm]
  obtain ⟨-, hsome, rfl⟩ := hloop
  exact hsome

end CppExamples.ConsoleApplication
