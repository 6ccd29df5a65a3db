import Std.Data.ExtTreeSet

/-!
# Ordered Maps

Finite maps that remember the order in which their keys first came in. A key occurs once; giving it
a new value keeps its position. The entries are a list of pairs, which is also the view that all
statements use.
-/

namespace TypedGraph

/-- A finite map whose entries keep the order of first insertion. -/
structure OrderedMap (κ : Type u) (β : Type v) where
  /-- The entries in order. -/
  entries : List (κ × β)
  /-- A key occurs once. -/
  nodup_keys : (entries.map Prod.fst).Nodup
deriving DecidableEq

namespace OrderedMap

variable {κ : Type u} {β : Type v} {γ : Type w}

/-- The map without entries. -/
def empty : OrderedMap κ β := ⟨[], by simp⟩

instance : EmptyCollection (OrderedMap κ β) := ⟨empty⟩

instance : Inhabited (OrderedMap κ β) := ⟨empty⟩

/-- The keys in order. -/
def keys (m : OrderedMap κ β) : List κ := m.entries.map Prod.fst

/-- The number of entries. -/
def size (m : OrderedMap κ β) : Nat := m.entries.length

/-- The map has no entries. -/
def isEmpty (m : OrderedMap κ β) : Bool := m.entries.isEmpty

/-- Two maps with the same entries in the same order are equal. -/
@[ext]
theorem ext {m n : OrderedMap κ β} (h : m.entries = n.entries) : m = n := by
  cases m; cases n; simpa using h

@[simp]
theorem entries_empty : (∅ : OrderedMap κ β).entries = [] := rfl

theorem keys_nodup (m : OrderedMap κ β) : m.keys.Nodup := m.nodup_keys

@[simp]
theorem length_keys (m : OrderedMap κ β) : m.keys.length = m.size := by
  simp [keys, size]

section Lookup

variable [DecidableEq κ]

/-- The value stored under a key. -/
def get? (m : OrderedMap κ β) (k : κ) : Option β := m.entries.lookup k

/-- A key has a value. -/
def contains (m : OrderedMap κ β) (k : κ) : Bool := (m.get? k).isSome

/-- The position of a key. -/
def indexOf? (m : OrderedMap κ β) (k : κ) : Option Nat := m.keys.findIdx? (· = k)

/-- Replaces the value of `k` wherever it occurs in a list of entries. -/
def replaceValue (k : κ) (v : β) (l : List (κ × β)) : List (κ × β) :=
  l.map fun e => if e.1 = k then (e.1, v) else e

theorem map_fst_replaceValue (k : κ) (v : β) (l : List (κ × β)) :
    (replaceValue k v l).map Prod.fst = l.map Prod.fst := by
  simp only [replaceValue, List.map_map]
  apply List.map_congr_left
  intro e _
  by_cases h : e.1 = k <;> simp [h]

theorem lookup_isSome_iff {k : κ} {l : List (κ × β)} :
    (l.lookup k).isSome ↔ k ∈ l.map Prod.fst := by
  induction l with
  | nil => simp
  | cons e l ih =>
    rw [List.lookup_cons]
    by_cases h : k = e.1
    · simp [h]
    · simp [beq_eq_false_iff_ne.2 h, ih, h]

theorem contains_iff {m : OrderedMap κ β} {k : κ} : m.contains k ↔ k ∈ m.keys :=
  lookup_isSome_iff

/-- Stores a value: in place when the key is there, at the end when it is new. -/
def insert (m : OrderedMap κ β) (k : κ) (v : β) : OrderedMap κ β :=
  if h : m.contains k then
    ⟨replaceValue k v m.entries, by rw [map_fst_replaceValue]; exact m.nodup_keys⟩
  else
    ⟨m.entries ++ [(k, v)], by
      have hk : k ∉ m.entries.map Prod.fst := fun hk => h (contains_iff.2 hk)
      rw [List.map_append, List.nodup_append]
      refine ⟨m.nodup_keys, by simp, ?_⟩
      intro a ha b hb
      simp only [List.map_cons, List.map_nil, List.mem_singleton] at hb
      rintro rfl
      exact hk (hb ▸ ha)⟩

theorem lookup_replaceValue (k j : κ) (v : β) (l : List (κ × β)) :
    (replaceValue k v l).lookup j =
      if j = k ∧ (l.lookup k).isSome then some v else l.lookup j := by
  induction l with
  | nil => simp [replaceValue]
  | cons e l ih =>
    have hcons : replaceValue k v (e :: l) =
        (if e.1 = k then (e.1, v) else e) :: replaceValue k v l := rfl
    by_cases hek : e.1 = k
    · rw [hcons, if_pos hek, List.lookup_cons, List.lookup_cons, List.lookup_cons, ih]
      by_cases hjk : j = k
      · simp [hek, hjk]
      · simp [hek, hjk, beq_eq_false_iff_ne.2 hjk]
    · have hke : (k == e.1) = false := beq_eq_false_iff_ne.2 (Ne.symm hek)
      rw [hcons, if_neg hek, List.lookup_cons, List.lookup_cons, List.lookup_cons, ih, hke]
      by_cases hje : j = e.1
      · have hjk : j ≠ k := fun h => hek (hje ▸ h)
        simp [← hje, hjk]
      · simp [beq_eq_false_iff_ne.2 hje]

theorem get?_insert (m : OrderedMap κ β) (k j : κ) (v : β) :
    (m.insert k v).get? j = if j = k then some v else m.get? j := by
  unfold insert
  split
  · next h =>
    simp only [get?, lookup_replaceValue]
    have h' : (m.entries.lookup k).isSome := h
    simp [h']
  · next h =>
    have h' : m.entries.lookup k = none := Option.not_isSome_iff_eq_none.1 h
    simp only [get?, List.lookup_append, List.lookup_cons, List.lookup_nil]
    by_cases hjk : j = k
    · simp [hjk, h']
    · simp [beq_eq_false_iff_ne.2 hjk, hjk]

@[simp]
theorem get?_insert_self (m : OrderedMap κ β) (k : κ) (v : β) :
    (m.insert k v).get? k = some v := by simp [get?_insert]

theorem get?_insert_of_ne (m : OrderedMap κ β) {k j : κ} (v : β) (h : j ≠ k) :
    (m.insert k v).get? j = m.get? j := by simp [get?_insert, h]

@[simp]
theorem get?_empty (k : κ) : (∅ : OrderedMap κ β).get? k = none := rfl

/-- Storing under a known key keeps the keys; a new key goes last. -/
theorem keys_insert (m : OrderedMap κ β) (k : κ) (v : β) :
    (m.insert k v).keys = if m.contains k then m.keys else m.keys ++ [k] := by
  unfold insert
  split
  · simp [keys, map_fst_replaceValue]
  · simp [keys]

theorem entries_insert_of_not_contains {m : OrderedMap κ β} {k : κ} (v : β)
    (h : ¬ m.contains k) : (m.insert k v).entries = m.entries ++ [(k, v)] := by
  simp [insert, h]

theorem get?_eq_some_iff {m : OrderedMap κ β} {k : κ} {v : β} :
    m.get? k = some v ↔ (k, v) ∈ m.entries := by
  obtain ⟨l, hl⟩ := m
  simp only [get?]
  induction l with
  | nil => simp
  | cons e l ih =>
    rw [List.map_cons, List.nodup_cons] at hl
    rw [List.lookup_cons]
    by_cases hk : k = e.1
    · subst hk
      -- the key does not occur again
      have hv : (e.1, v) ∉ l := fun hm => hl.1 (List.mem_map.2 ⟨_, hm, rfl⟩)
      obtain ⟨a, b⟩ := e
      simp_all [eq_comm]
    · have hne : (k, v) ≠ e := fun he => hk (by rw [← he])
      simp [beq_eq_false_iff_ne.2 hk, ih hl.2, hne]

/-- The entry at a position has the key at this position, with its value. -/
theorem getElem?_entries_iff {m : OrderedMap κ β} {i : Nat} {k : κ} {v : β} :
    m.entries[i]? = some (k, v) ↔ m.keys[i]? = some k ∧ m.get? k = some v := by
  rw [keys, List.getElem?_map, Option.map_eq_some_iff]
  constructor
  · intro h
    exact ⟨⟨(k, v), h, rfl⟩, get?_eq_some_iff.2 (List.mem_of_getElem? h)⟩
  · rintro ⟨⟨⟨j, w⟩, h, rfl⟩, hget⟩
    have hw := get?_eq_some_iff.2 (List.mem_of_getElem? h)
    rw [h, Option.some.inj (hw.symm.trans hget)]

theorem get?_eq_none_iff {m : OrderedMap κ β} {k : κ} : m.get? k = none ↔ k ∉ m.keys := by
  rw [← contains_iff, contains]
  simp

theorem mem_keys_iff {m : OrderedMap κ β} {k : κ} : k ∈ m.keys ↔ ∃ v, m.get? k = some v := by
  rw [← contains_iff, contains, Option.isSome_iff_exists]

/-- The entries in order are the keys in order with their values. -/
theorem map_entries_eq (m : OrderedMap κ β) :
    (m.entries.map fun e => (e.1, some e.2)) = m.keys.map fun k => (k, m.get? k) := by
  rw [keys, List.map_map]
  refine List.map_congr_left fun e he => ?_
  rw [Function.comp_apply, get?_eq_some_iff.2 he]

/-- The same values under the same keys in the same order make the same map. -/
theorem ext_get? {m n : OrderedMap κ β} (hkeys : m.keys = n.keys)
    (hget : ∀ k, m.get? k = n.get? k) : m = n := by
  apply ext
  have hmap : (m.entries.map fun e => (e.1, some e.2)) =
      n.entries.map fun e => (e.1, some e.2) := by
    rw [map_entries_eq, map_entries_eq, hkeys]
    exact List.map_congr_left fun k _ => by rw [hget]
  refine (List.map_inj_right ?_).1 hmap
  rintro ⟨k, v⟩ ⟨j, w⟩ h
  cases h
  rfl

/-- Stores the pairs one after the other. -/
def insertMany (m : OrderedMap κ β) (l : List (κ × β)) : OrderedMap κ β :=
  l.foldl (fun acc e => acc.insert e.1 e.2) m

/-- Entries with new keys are appended as they are. -/
theorem entries_insertMany_of_disjoint (m : OrderedMap κ β) (l : List (κ × β))
    (h : ((m.entries ++ l).map Prod.fst).Nodup) :
    (m.insertMany l).entries = m.entries ++ l := by
  induction l generalizing m with
  | nil => simp [insertMany]
  | cons e l ih =>
    -- the first new key is not yet there, and the other ones are not the same
    have hnew : ¬ m.contains e.1 := by
      intro hc
      have hmem := contains_iff.1 hc
      rw [List.map_append, List.nodup_append] at h
      exact h.2.2 e.1 hmem e.1 (by simp) rfl
    have he := entries_insert_of_not_contains e.2 hnew
    have hstep : m.insertMany (e :: l) = (m.insert e.1 e.2).insertMany l := rfl
    rw [hstep, ih]
    · simp [he]
    · simpa [he] using h

end Lookup

section OfList

variable [Ord κ] [Std.TransOrd κ] [Std.LawfulEqOrd κ]

/-- No element of the list is among those seen or occurs twice. -/
def allFresh (seen : Std.ExtTreeSet κ) : List κ → Bool
  | [] => true
  | k :: ks => !seen.contains k && allFresh (seen.insert k) ks

theorem allFresh_iff (seen : Std.ExtTreeSet κ) (l : List κ) :
    allFresh seen l ↔ l.Nodup ∧ ∀ k ∈ l, k ∉ seen := by
  induction l generalizing seen with
  | nil => simp [allFresh]
  | cons k ks ih =>
    simp only [allFresh, Bool.and_eq_true, Bool.not_eq_true', ih, List.nodup_cons,
      List.mem_cons, Std.ExtTreeSet.mem_insert, Std.compare_eq_iff_eq, forall_eq_or_imp, not_or]
    rw [← Bool.not_eq_true, Std.ExtTreeSet.contains_iff_mem]
    constructor
    · rintro ⟨hk, hks, hall⟩
      refine ⟨⟨fun hmem => (hall k hmem).1 rfl, hks⟩, hk, fun j hj => (hall j hj).2⟩
    · rintro ⟨⟨hk, hks⟩, hseen, hall⟩
      exact ⟨hseen, hks, fun j hj => ⟨fun he => hk (he ▸ hj), hall j hj⟩⟩

variable [DecidableEq κ]

/-- The map of a list of pairs: a repeated key keeps its first position and takes the last value.
Pairs with distinct keys are taken over as they stand, which is the same and needs no search. -/
def ofList (l : List (κ × β)) : OrderedMap κ β :=
  if h : allFresh (∅ : Std.ExtTreeSet κ) (l.map Prod.fst) then
    ⟨l, ((allFresh_iff _ _).1 h).1⟩
  else
    (∅ : OrderedMap κ β).insertMany l

theorem ofList_eq_insertMany (l : List (κ × β)) :
    ofList l = (∅ : OrderedMap κ β).insertMany l := by
  unfold ofList
  split
  · next h =>
    apply ext
    rw [entries_insertMany_of_disjoint]
    · simp
    · simpa using ((allFresh_iff _ _).1 h).1
  · rfl

theorem entries_ofList_of_nodup {l : List (κ × β)} (h : (l.map Prod.fst).Nodup) :
    (ofList l).entries = l := by
  rw [ofList_eq_insertMany, entries_insertMany_of_disjoint]
  · simp
  · simpa using h

/-- The map of the entries of a map is the map. -/
theorem ofList_entries (m : OrderedMap κ β) : ofList m.entries = m :=
  ext (entries_ofList_of_nodup m.nodup_keys)

end OfList

/-- The entries that a function keeps, with their new values. -/
def filterMap (m : OrderedMap κ β) (f : κ → β → Option γ) : OrderedMap κ γ :=
  ⟨m.entries.filterMap fun e => (f e.1 e.2).map (e.1, ·), by
    have hsub : ((m.entries.filterMap fun e => (f e.1 e.2).map (e.1, ·)).map Prod.fst).Sublist
        (m.entries.map Prod.fst) := by
      generalize m.entries = l
      induction l with
      | nil => simp
      | cons e l ih =>
        rw [List.filterMap_cons]
        cases f e.1 e.2 with
        | none => simpa using List.Sublist.cons _ ih
        | some v => simpa using ih
    exact hsub.nodup m.nodup_keys⟩

end OrderedMap

end TypedGraph
