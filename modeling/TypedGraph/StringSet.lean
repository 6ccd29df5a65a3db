/-!
# Sets of Strings

Finite sets of strings as strictly increasing lists, so that equal sets are equal as data.
-/

namespace TypedGraph

/-- A finite set of strings. -/
structure StringSet where
  /-- The elements in increasing order. -/
  toList : List String
  /-- The elements increase strictly. -/
  increasing : toList.Pairwise (· < ·)
deriving DecidableEq

namespace StringSet

/-- The set without elements. -/
def empty : StringSet := ⟨[], by simp⟩

instance : EmptyCollection StringSet := ⟨empty⟩

instance : Inhabited StringSet := ⟨empty⟩

@[ext]
theorem ext {s t : StringSet} (h : s.toList = t.toList) : s = t := by
  cases s; cases t; simpa using h

/-- Puts a string into an increasing list, unless it is there. -/
def insertSorted (x : String) : List String → List String
  | [] => [x]
  | y :: rest =>
    if x < y then x :: y :: rest
    else if x = y then y :: rest
    else y :: insertSorted x rest

theorem mem_insertSorted {x z : String} {l : List String} :
    z ∈ insertSorted x l ↔ z = x ∨ z ∈ l := by
  induction l with
  | nil => simp [insertSorted]
  | cons y rest ih =>
    rw [insertSorted]
    split
    · simp
    · split
      · next h => subst h; simp
      · simp [ih, or_left_comm]

theorem insertSorted_increasing {x : String} {l : List String} (h : l.Pairwise (· < ·)) :
    (insertSorted x l).Pairwise (· < ·) := by
  induction l with
  | nil => simp [insertSorted]
  | cons y rest ih =>
    rw [List.pairwise_cons] at h
    rw [insertSorted]
    split
    · next hxy =>
      refine List.pairwise_cons.2 ⟨fun z hz => ?_, List.pairwise_cons.2 h⟩
      rcases List.mem_cons.1 hz with rfl | hz
      · exact hxy
      · exact String.lt_trans hxy (h.1 z hz)
    · next hxy =>
      split
      · exact List.pairwise_cons.2 h
      · next hne =>
        refine List.pairwise_cons.2 ⟨fun z hz => ?_, ih h.2⟩
        rcases mem_insertSorted.1 hz with rfl | hz
        · exact Std.lt_of_le_of_ne (Std.not_lt.1 hxy) (Ne.symm hne)
        · exact h.1 z hz

/-- Adds an element. -/
def insert (x : String) (s : StringSet) : StringSet :=
  ⟨insertSorted x s.toList, insertSorted_increasing s.increasing⟩

/-- The set of the elements of a list. -/
def ofList (l : List String) : StringSet := l.foldl (fun s x => s.insert x) ∅

/-- A string is an element. -/
def contains (s : StringSet) (x : String) : Bool := s.toList.contains x

/-- All elements are elements of another set. -/
def subset (s t : StringSet) : Bool := s.toList.all t.contains

instance : Membership String StringSet := ⟨fun s x => x ∈ s.toList⟩

theorem mem_def {s : StringSet} {x : String} : x ∈ s ↔ x ∈ s.toList := Iff.rfl

theorem contains_iff {s : StringSet} {x : String} : s.contains x ↔ x ∈ s := by
  simp [contains, mem_def]

theorem subset_iff {s t : StringSet} : s.subset t ↔ ∀ x ∈ s, x ∈ t := by
  simp [subset, contains_iff, mem_def]

theorem mem_insert {s : StringSet} {x z : String} : z ∈ s.insert x ↔ z = x ∨ z ∈ s :=
  mem_insertSorted

theorem mem_ofList {l : List String} {x : String} : x ∈ ofList l ↔ x ∈ l := by
  have hfold (l : List String) (s : StringSet) :
      x ∈ l.foldl (fun s x => s.insert x) s ↔ x ∈ l ∨ x ∈ s := by
    induction l generalizing s with
    | nil => simp
    | cons y rest ih => simp [ih, mem_insert, or_assoc, or_left_comm]
  have hempty : ¬ x ∈ (∅ : StringSet) := by simp [mem_def, EmptyCollection.emptyCollection, empty]
  simp [ofList, hfold, hempty]

end StringSet

end TypedGraph
