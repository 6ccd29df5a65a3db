import Mathlib.Data.List.Nodup
import TypedGraph.Json.Basic
import TypedGraph.OrderedMap

/-!
# Sorted Members

An object is made canonical by setting its members one after the other. This sorts them by key and
keeps what is found under each key, and it leaves members alone that are sorted already.

## Main results

* `ext_lookup`: increasing members are determined by what is found under each key;
* `increasing_sortMembers` and `mem_of_mem_sortMembers`: the sorted members increase by key, and are
  members of the list;
* `sortMembers_of_increasing`: increasing members are sorted already;
* `lookup_sortMembers`: sorting keeps what is found under each key;
* `canonical_object`: an object of canonical values is canonical.
-/

namespace TypedGraph.Json

variable {key : String} {value : Json} {members : List (String × Json)}

theorem increasing_insertMember (h : Increasing members) :
    Increasing (insertMember key value members) := by
  rw [Increasing, keys, List.pairwise_map] at h ⊢
  induction members with
  | nil => exact List.pairwise_singleton _ _
  | cons m rest ih =>
    have hrest := List.pairwise_cons.1 h
    rw [insertMember]
    split
    · next hlt =>
      refine List.pairwise_cons.2 ⟨fun e he => ?_, h⟩
      rcases List.mem_cons.1 he with rfl | he
      · exact hlt
      · exact String.lt_trans hlt (hrest.1 e he)
    · next hlt =>
      split
      · next heq => exact List.pairwise_cons.2 ⟨heq ▸ hrest.1, hrest.2⟩
      · next hne =>
        refine List.pairwise_cons.2 ⟨fun e he => ?_, ih hrest.2⟩
        rcases mem_insertMember he with rfl | he
        · exact Std.lt_of_le_of_ne (Std.not_lt.1 hlt) (Ne.symm hne)
        · exact hrest.1 e he

theorem increasing_eraseMember (h : Increasing members) : Increasing (eraseMember key members) := by
  rw [Increasing, keys, List.pairwise_map] at h ⊢
  exact h.filter _

/-- A member with a key after all others goes last. -/
theorem insertMember_of_forall_lt (h : ∀ m ∈ members, m.1 < key) :
    insertMember key value members = members ++ [(key, value)] := by
  induction members with
  | nil => rfl
  | cons m rest ih =>
    obtain ⟨hm, hrest⟩ := List.forall_mem_cons.1 h
    have hne : key ≠ m.1 := fun heq => String.lt_irrefl _ (heq ▸ hm)
    rw [insertMember, if_neg (String.lt_asymm hm), if_neg hne, ih hrest, List.cons_append]

/-- Keys that increase occur once. -/
theorem Increasing.nodup_keys (h : Increasing members) : (members.map Prod.fst).Nodup := by
  refine List.Pairwise.imp (R := (· < ·)) (fun {a b} hlt heq => ?_) h
  rw [heq] at hlt
  exact String.lt_irrefl b hlt

/-- Members that increase by key are those under which their values are found. -/
theorem Increasing.mem_iff (h : Increasing members) :
    (key, value) ∈ members ↔ lookup members key = some value :=
  (OrderedMap.get?_eq_some_iff (m := ⟨members, h.nodup_keys⟩)).symm

/-- Increasing members are the same if the same is found under each key. -/
theorem ext_lookup {members' : List (String × Json)} (h : Increasing members)
    (h' : Increasing members') (heq : ∀ key, lookup members key = lookup members' key) :
    members = members' := by
  have hmem (m : String × Json) : m ∈ members ↔ m ∈ members' := by
    rw [h.mem_iff, h'.mem_iff, heq]
  have hperm : members.Perm members' :=
    (List.perm_ext_iff_of_nodup h.nodup_keys.of_map h'.nodup_keys.of_map).2 hmem
  rw [Increasing, keys, List.pairwise_map] at h h'
  exact hperm.eq_of_pairwise (fun a b _ _ hab hba => absurd hba (String.lt_asymm hab)) h h'

/-! ## Sorting -/

theorem increasing_sortMembers (members : List (String × Json)) :
    Increasing (sortMembers members) :=
  List.foldlRecOn members _ List.Pairwise.nil fun _ hacc _ _ => increasing_insertMember hacc

theorem mem_of_mem_sortMembers {m : String × Json} (h : m ∈ sortMembers members) : m ∈ members := by
  have hsub : ∀ e ∈ sortMembers members, e ∈ members := by
    refine List.foldlRecOn (motive := fun acc => ∀ e ∈ acc, e ∈ members) members _
      (fun e he => nomatch he) fun acc hacc m hm e he => ?_
    rcases mem_insertMember he with rfl | he
    · exact hm
    · exact hacc e he
  exact hsub m h

/-- Increasing members are sorted already. -/
theorem sortMembers_of_increasing (h : Increasing members) : sortMembers members = members := by
  have hfold (rest acc : List (String × Json)) (hacc : Increasing (acc ++ rest)) :
      rest.foldl (fun acc m => insertMember m.1 m.2 acc) acc = acc ++ rest := by
    induction rest generalizing acc with
    | nil => exact (List.append_nil acc).symm
    | cons m rest ih =>
      -- all members that have been set come before the next one
      have hlt : ∀ e ∈ acc, e.1 < m.1 := by
        rw [Increasing, keys, List.pairwise_map, List.pairwise_append] at hacc
        exact fun e he => hacc.2.2 e he m List.mem_cons_self
      rw [List.append_cons] at hacc ⊢
      rw [List.foldl_cons, insertMember_of_forall_lt hlt]
      exact ih _ hacc
  exact hfold members [] h

/-- Sorting members with different keys keeps what is found under each key. -/
theorem lookup_sortMembers (members : OrderedMap String Json) (key : String) :
    lookup (sortMembers members.entries) key = members.get? key := by
  have hfold (l : List (String × Json)) :
      lookup (l.foldr (fun m acc => insertMember m.1 m.2 acc) []) key = l.lookup key := by
    induction l with
    | nil => rfl
    | cons m l ih =>
      rw [List.foldr_cons, lookup_insertMember, ih, ← lookup, ← lookup, lookup_cons]
  rw [sortMembers, List.foldl_eq_foldr_reverse, hfold]
  -- the last member with a key is also the first one
  let reversed : OrderedMap String Json :=
    ⟨members.entries.reverse, by
      rw [List.map_reverse]
      exact List.nodup_reverse.2 members.nodup_keys⟩
  have hreversed : reversed.get? key = members.get? key := by
    ext value
    rw [OrderedMap.get?_eq_some_iff, OrderedMap.get?_eq_some_iff, List.mem_reverse]
  exact hreversed

/-! ## Canonical Objects -/

theorem canonicalMembers_iff : CanonicalMembers members ↔ ∀ m ∈ members, m.2.Canonical := by
  induction members with
  | nil => simp [CanonicalMembers]
  | cons m rest ih => rw [CanonicalMembers, ih, List.forall_mem_cons]

/-- Objects are canonical by their making, if their values are. -/
theorem canonical_object (h : ∀ m ∈ members, m.2.Canonical) : (object members).Canonical :=
  ⟨increasing_sortMembers members,
    canonicalMembers_iff.2 fun m hm => h m (mem_of_mem_sortMembers hm)⟩

end TypedGraph.Json
