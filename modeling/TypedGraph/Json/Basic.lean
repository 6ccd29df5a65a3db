import TypedGraph.Numeric.Shortest

/-!
# JSON Values

JSON values with integers kept apart from other numbers. The members of an object are a list in the
order in which they are shown; a value is *canonical* when the members of every object in it are
strictly increasing by key. All untyped values of the library are canonical.
-/

namespace TypedGraph

/-- A JSON number: an integer, or a binary64 number. -/
inductive Json.Number where
  /-- An integer, written without point and exponent. -/
  | int (value : Int)
  /-- A finite binary64 number, written with a point or an exponent. -/
  | float (value : Binary64)
deriving DecidableEq

/-- A JSON value. -/
inductive Json where
  /-- The value `null`. -/
  | null
  /-- A truth value. -/
  | bool (value : Bool)
  /-- A number. -/
  | num (value : Json.Number)
  /-- A string. -/
  | str (value : String)
  /-- An array. -/
  | arr (items : List Json)
  /-- An object with its members in order. -/
  | obj (members : List (String × Json))

namespace Json

instance : Inhabited Json := ⟨null⟩

mutual

/-- Equality of values, also of the order of members. -/
def beq : Json → Json → Bool
  | null, null => true
  | bool a, bool b => a == b
  | num a, num b => decide (a = b)
  | str a, str b => a == b
  | arr a, arr b => beqItems a b
  | obj a, obj b => beqMembers a b
  | _, _ => false

/-- Equality of lists of values. -/
def beqItems : List Json → List Json → Bool
  | [], [] => true
  | a :: as, b :: bs => beq a b && beqItems as bs
  | _, _ => false

/-- Equality of lists of members. -/
def beqMembers : List (String × Json) → List (String × Json) → Bool
  | [], [] => true
  | (k, a) :: as, (j, b) :: bs => k == j && beq a b && beqMembers as bs
  | _, _ => false

end

mutual

theorem beq_iff : (a b : Json) → (beq a b = true ↔ a = b)
  | null, b => by cases b <;> simp [beq]
  | bool a, b => by cases b <;> simp [beq]
  | num a, b => by cases b <;> simp [beq]
  | str a, b => by cases b <;> simp [beq]
  | arr a, b => by
    cases b with
    | arr b => simp [beq, beqItems_iff a b]
    | _ => simp [beq]
  | obj a, b => by
    cases b with
    | obj b => simp [beq, beqMembers_iff a b]
    | _ => simp [beq]

theorem beqItems_iff : (a b : List Json) → (beqItems a b = true ↔ a = b)
  | [], b => by cases b <;> simp [beqItems]
  | a :: as, [] => by simp [beqItems]
  | a :: as, b :: bs => by simp [beqItems, beq_iff a b, beqItems_iff as bs]

theorem beqMembers_iff : (a b : List (String × Json)) → (beqMembers a b = true ↔ a = b)
  | [], b => by cases b <;> simp [beqMembers]
  | (_, _) :: _, [] => by simp [beqMembers]
  | (k, a) :: as, (j, b) :: bs => by
    simp [beqMembers, beq_iff a b, beqMembers_iff as bs]

end

instance : DecidableEq Json := fun a b => decidable_of_iff _ (beq_iff a b)

/-! ## Members of Objects -/

/-- The value of the first member with a key. -/
def lookup (members : List (String × Json)) (key : String) : Option Json := members.lookup key

/-- The keys of a list of members. -/
def keys (members : List (String × Json)) : List String := members.map Prod.fst

/-- Sets a member of a list that increases by key; the list stays increasing. -/
def insertMember (key : String) (value : Json) : List (String × Json) → List (String × Json)
  | [] => [(key, value)]
  | (k, v) :: rest =>
    if key < k then (key, value) :: (k, v) :: rest
    else if key = k then (key, value) :: rest
    else (k, v) :: insertMember key value rest

/-- Removes the members with a key. -/
def eraseMember (key : String) (members : List (String × Json)) : List (String × Json) :=
  members.filter (·.1 ≠ key)

theorem lookup_cons (m : String × Json) (members : List (String × Json)) (j : String) :
    lookup (m :: members) j = if j = m.1 then some m.2 else lookup members j := by
  rw [lookup, List.lookup_cons]
  by_cases hj : j = m.1
  · rw [if_pos hj, beq_iff_eq.2 hj]
  · rw [if_neg hj, beq_eq_false_iff_ne.2 hj]
    rfl

/-- Setting a member changes what is found under its key only. -/
theorem lookup_insertMember (key j : String) (value : Json) (members : List (String × Json)) :
    lookup (insertMember key value members) j =
      if j = key then some value else lookup members j := by
  induction members with
  | nil => rw [insertMember, lookup_cons]
  | cons m rest ih =>
    obtain ⟨k, v⟩ := m
    rw [insertMember]
    split
    · rw [lookup_cons]
    · split
      · next heq =>
        -- the member with the key is replaced, and is not looked up any more
        rw [lookup_cons, lookup_cons, ← heq]
        by_cases hj : j = key
        · rw [if_pos hj, if_pos hj]
        · rw [if_neg hj, if_neg hj, if_neg hj]
      · next hne =>
        -- the member with the key comes later or goes last
        rw [lookup_cons, lookup_cons, ih]
        by_cases hj : j = key
        · have hjk : j ≠ k := fun hjk => hne (hj.symm.trans hjk)
          rw [if_neg hjk, if_neg hjk]
        · rw [if_neg hj, if_neg hj]

/-- Removing the members with a key changes what is found under it only. -/
theorem lookup_eraseMember (key j : String) (members : List (String × Json)) :
    lookup (eraseMember key members) j = if j = key then none else lookup members j := by
  induction members with
  | nil => exact (ite_self none).symm
  | cons m rest ih =>
    rw [eraseMember] at ih
    by_cases hm : m.1 = key
    · rw [eraseMember, List.filter_cons_of_neg (by simp [hm]), ih, lookup_cons, hm]
      by_cases hj : j = key
      · rw [if_pos hj, if_pos hj]
      · rw [if_neg hj, if_neg hj, if_neg hj]
    · rw [eraseMember, List.filter_cons_of_pos (by simp [hm]), lookup_cons, ih, lookup_cons]
      by_cases hj : j = key
      · have hjm : j ≠ m.1 := fun hjm => hm (hjm.symm.trans hj)
        rw [if_neg hjm, if_neg hjm]
      · rw [if_neg hj, if_neg hj]

/-- A member of a list with one member set is the new one or an old one. -/
theorem mem_insertMember {key : String} {value : Json} {m : String × Json}
    {members : List (String × Json)} (h : m ∈ insertMember key value members) :
    m = (key, value) ∨ m ∈ members := by
  induction members with
  | nil => exact .inl (List.mem_singleton.1 h)
  | cons e rest ih =>
    rw [insertMember] at h
    split at h
    · exact List.mem_cons.1 h
    · split at h
      · exact (List.mem_cons.1 h).imp_right (List.mem_cons_of_mem _)
      · rcases List.mem_cons.1 h with rfl | hrest
        · exact .inr List.mem_cons_self
        · exact (ih hrest).imp_right (List.mem_cons_of_mem _)

/-- The increasing list of members; of several members with one key the last counts. -/
def sortMembers (members : List (String × Json)) : List (String × Json) :=
  members.foldl (fun acc m => insertMember m.1 m.2 acc) []

/-- The members of an object. -/
def members? : Json → Option (List (String × Json))
  | obj members => some members
  | _ => none

/-- The items of an array. -/
def items? : Json → Option (List Json)
  | arr items => some items
  | _ => none

/-- The text of a string value. -/
def str? : Json → Option String
  | str s => some s
  | _ => none

/-- The truth value of a boolean. -/
def bool? : Json → Option Bool
  | bool b => some b
  | _ => none

/-- The number nearest to a numeric value. -/
def binary64? : Json → Option Binary64
  | num (.int i) => Binary64.ofInt? i
  | num (.float x) => some x
  | _ => none

/-- The value of a member of an object. -/
def member? (value : Json) (key : String) : Option Json := do lookup (← value.members?) key

/-- The object with increasing members. -/
def object (members : List (String × Json)) : Json := obj (sortMembers members)

/-! ## Canonical Values and Depth -/

mutual

/-- The canonical value: members sorted by key, the last of equal keys. -/
def canonical : Json → Json
  | arr items => arr (canonicalItems items)
  | obj members => obj (sortMembers (canonicalMembers members))
  | v => v

/-- The canonical values of a list. -/
def canonicalItems : List Json → List Json
  | [] => []
  | v :: rest => canonical v :: canonicalItems rest

/-- The members with canonical values, in the given order. -/
def canonicalMembers : List (String × Json) → List (String × Json)
  | [] => []
  | (k, v) :: rest => (k, canonical v) :: canonicalMembers rest

end

/-- The keys increase strictly. -/
def Increasing (members : List (String × Json)) : Prop :=
  (keys members).Pairwise (· < ·)

instance (members : List (String × Json)) : Decidable (Increasing members) :=
  inferInstanceAs (Decidable (List.Pairwise _ _))

mutual

/-- The members of every object in the value increase by key. -/
def Canonical : Json → Prop
  | arr items => CanonicalItems items
  | obj members => Increasing members ∧ CanonicalMembers members
  | _ => True

/-- Every value of the list is canonical. -/
def CanonicalItems : List Json → Prop
  | [] => True
  | v :: rest => Canonical v ∧ CanonicalItems rest

/-- Every member has a canonical value. -/
def CanonicalMembers : List (String × Json) → Prop
  | [] => True
  | (_, v) :: rest => Canonical v ∧ CanonicalMembers rest

end

mutual

/-- The number of arrays and objects inside one another. -/
def depth : Json → Nat
  | arr items => depthItems items + 1
  | obj members => depthMembers members + 1
  | _ => 0

/-- The greatest depth in a list. -/
def depthItems : List Json → Nat
  | [] => 0
  | v :: rest => max (depth v) (depthItems rest)

/-- The greatest depth of a member's value. -/
def depthMembers : List (String × Json) → Nat
  | [] => 0
  | (_, v) :: rest => max (depth v) (depthMembers rest)

end

end Json

end TypedGraph
