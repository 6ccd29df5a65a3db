import Mathlib.Data.List.Nodup
import Mathlib.Data.List.Perm.Subperm
import Mathlib.Data.Nat.Find
import TypedGraph.Proofs.Entity.Counters
import TypedGraph.Store

/-!
# Fresh Ids

A store mints ids until one is not taken. Nothing bounds the number of tries in advance. The ids of
a mint come round after as many as there are counters, and before that they are all different. So if
any of them is free, the loop ends with the first free one, before more ids have been made than
there are entities and one; and otherwise it never ends.

## Main definitions

* `IdMint.minted`: the ids that a mint makes one after the other;
* `DataModel.FindsFresh`: a run of the loop, with the number of ids that it makes;
* `DataModel.HasFreshId`: one of the ids that a store can mint is not taken;
* `DataModel.newId`: the id that the next new entity gets.

## Main results

* `IdMint.minted_inj`: ids that are made before the counter comes round are different;
* `DataModel.findsFresh_iff` and `DataModel.findsFresh_mintFresh`: the loop makes ids up to the
  first free one, and counting down the tries comes to the same;
* `DataModel.exists_findsFresh_iff`: the loop ends exactly if there is a free id;
* `DataModel.not_contains_newId`: a new entity gets an id that is not taken, if there is one;
* `DataModel.hasFreshId_of_size_lt`: there is one as long as there are fewer entities than counters.
-/

namespace TypedGraph

namespace IdMint

/-- The id that a mint makes after some others. -/
def minted (m : IdMint) : Nat → EntityId
  | 0 => m.mint.1
  | n + 1 => m.mint.2.minted n

/-- The counter goes up by one with each id and comes round after the greatest number. -/
theorem minted_eq (m : IdMint) (n : Nat) :
    m.minted n = idAt m.stem ((m.next.toNat + n) % UInt64.size) := by
  induction n generalizing m with
  | zero =>
    rw [minted, Nat.add_zero, Nat.mod_eq_of_lt m.next.toNat_lt]
    rfl
  | succ n ih =>
    rw [minted, ih]
    simp only [mint, UInt64.toNat_add, UInt64.toNat_one]
    congr 1
    rw [Nat.mod_add_mod]
    congr 1
    omega

theorem minted_mod (m : IdMint) (n : Nat) : m.minted (n % UInt64.size) = m.minted n := by
  rw [minted_eq, minted_eq, Nat.add_mod_mod]

/-- The ids that are made before the counter comes round are different. -/
theorem minted_inj {m : IdMint} {i j : Nat} (hi : i < UInt64.size) (hj : j < UInt64.size)
    (h : m.minted i = m.minted j) : i = j := by
  rw [minted_eq, minted_eq] at h
  have hmod := idAt_inj h
  have hnext := m.next.toNat_lt
  simp only [UInt64.size] at *
  omega

/-- The mint after some more ids. -/
def advance (m : IdMint) (n : Nat) : IdMint := { m with next := m.next + UInt64.ofNat n }

/-- A mint that has made one id has some more to make after it. -/
theorem advance_mint (m : IdMint) (n : Nat) : m.mint.2.advance n = m.advance (n + 1) := by
  show (⟨m.stem, m.next + 1 + UInt64.ofNat n⟩ : IdMint) = ⟨m.stem, m.next + UInt64.ofNat (n + 1)⟩
  congr 1
  rw [UInt64.ofNat_add, UInt64.add_assoc, UInt64.add_comm 1]
  rfl

end IdMint

namespace DataModel

variable {m : DataModel} {taken : EntityId → Bool} {mint : IdMint} {result : EntityId × IdMint}

/-! ## The Loop -/

/-- A run of the loop that makes ids until one is not taken: how many ids it makes, the last of
them, and the mint then. -/
inductive FindsFresh (taken : EntityId → Bool) : IdMint → Nat → EntityId × IdMint → Prop
  | stop {mint : IdMint} (hfree : taken mint.mint.1 = false) : FindsFresh taken mint 1 mint.mint
  | retry {mint : IdMint} {n : Nat} {result : EntityId × IdMint} (htaken : taken mint.mint.1)
    (hrest : FindsFresh taken mint.mint.2 n result) : FindsFresh taken mint (n + 1) result

/-- The loop makes ids up to the first one that is not taken, and moves the counter as far. -/
theorem findsFresh_iff {n : Nat} :
    FindsFresh taken mint (n + 1) result ↔ (∀ i < n, taken (mint.minted i)) ∧
      taken (mint.minted n) = false ∧ result = (mint.minted n, mint.advance (n + 1)) := by
  induction n generalizing mint with
  | zero =>
    constructor
    · rintro (hfree | ⟨-, ⟨⟩⟩)
      exact ⟨fun i hi => absurd hi (Nat.not_lt_zero i), hfree, rfl⟩
    · rintro ⟨-, hfree, rfl⟩
      exact .stop hfree
  | succ n ih =>
    -- after the first try the loop goes on with the same ids, each one place earlier
    rw [← IdMint.advance_mint]
    constructor
    · rintro (_ | ⟨htaken, hrest⟩)
      obtain ⟨hbefore, hfree, hresult⟩ := ih.1 hrest
      refine ⟨fun i hi => ?_, hfree, hresult⟩
      cases i with
      | zero => exact htaken
      | succ i => exact hbefore i (Nat.lt_of_succ_lt_succ hi)
    · rintro ⟨hbefore, hfree, hresult⟩
      refine .retry (hbefore 0 (Nat.succ_pos n)) (ih.2 ⟨fun i hi => ?_, hfree, hresult⟩)
      exact hbefore (i + 1) (Nat.succ_lt_succ hi)

/-- A run ends with an id that is not taken. -/
theorem FindsFresh.exists_free {n : Nat} (h : FindsFresh taken mint n result) :
    ∃ i, taken (mint.minted i) = false := by
  induction h with
  | stop hfree => exact ⟨0, hfree⟩
  | retry _ _ ih =>
    obtain ⟨i, hfree⟩ := ih
    exact ⟨i + 1, hfree⟩

/-- There is only one way for the loop to end. -/
theorem FindsFresh.unique {n n' : Nat} {result' : EntityId × IdMint}
    (h : FindsFresh taken mint n result) (h' : FindsFresh taken mint n' result') :
    n' = n ∧ result' = result := by
  -- whether the first id is taken decides for both runs how they go on
  induction h generalizing n' result' with
  | stop hfree =>
    obtain _ | ⟨htaken, -⟩ := h'
    · exact ⟨rfl, rfl⟩
    · rw [hfree] at htaken
      cases htaken
  | retry htaken _ ih =>
    obtain hfree | ⟨-, hrest⟩ := h'
    · rw [hfree] at htaken
      cases htaken
    · obtain ⟨rfl, rfl⟩ := ih hrest
      exact ⟨rfl, rfl⟩

/-- Counting down the tries gives what the loop gives, if the tries reach as far as the first free
id. -/
theorem findsFresh_mintFresh {tries n : Nat} (htaken : ∀ i < n, taken (mint.minted i))
    (hfree : taken (mint.minted n) = false) (hn : n ≤ tries) :
    FindsFresh taken mint (n + 1) (mintFresh taken tries mint) := by
  induction tries generalizing n mint with
  | zero =>
    obtain rfl := Nat.le_zero.1 hn
    exact .stop hfree
  | succ tries ih =>
    rw [mintFresh]
    cases n with
    | zero =>
      have hfirst : taken mint.mint.1 = false := hfree
      rw [hfirst]
      exact .stop hfree
    | succ n =>
      have hfirst : taken mint.mint.1 := htaken 0 (Nat.succ_pos n)
      rw [if_pos hfirst]
      refine .retry hfirst (ih (fun i hi => ?_) hfree (Nat.le_of_succ_le_succ hn))
      exact htaken (i + 1) (Nat.succ_lt_succ hi)

/-- The first id that is not taken is minted, if the tries reach that far. -/
theorem mintFresh_eq_minted {tries n : Nat} (htaken : ∀ i < n, taken (mint.minted i))
    (hfree : taken (mint.minted n) = false) (hn : n ≤ tries) :
    (mintFresh taken tries mint).1 = mint.minted n := by
  obtain ⟨-, -, hresult⟩ := findsFresh_iff.1 (findsFresh_mintFresh htaken hfree hn)
  exact congrArg Prod.fst hresult

/-! ## Fresh Ids of a Store -/

/-- Among the ids that the store can mint there is one that is not taken; otherwise it would mint
for ever. -/
def HasFreshId (m : DataModel) : Prop := ∃ n, m.entities.contains (m.mint.minted n) = false

/-- Different ids that are all taken are no more than there are entities. -/
theorem le_size_of_taken {n : Nat} (hn : n ≤ UInt64.size)
    (h : ∀ i < n, m.entities.contains (m.mint.minted i)) : n ≤ m.entities.size := by
  have hnodup : ((List.range n).map m.mint.minted).Nodup := by
    refine List.nodup_range.map_on fun i hi j hj heq => ?_
    rw [List.mem_range] at hi hj
    exact IdMint.minted_inj (Nat.lt_of_lt_of_le hi hn) (Nat.lt_of_lt_of_le hj hn) heq
  have hsubset : (List.range n).map m.mint.minted ⊆ m.entities.keys := by
    intro id hid
    obtain ⟨i, hi, rfl⟩ := List.mem_map.1 hid
    exact OrderedMap.contains_iff.1 (h i (List.mem_range.1 hi))
  have hlength := (hnodup.subperm hsubset).length_le
  rwa [List.length_map, List.length_range, OrderedMap.length_keys] at hlength

/-- The first id that is not taken comes before more ids than there are entities. -/
theorem exists_first_fresh (h : m.HasFreshId) :
    ∃ n ≤ m.entities.size, (∀ i < n, m.entities.contains (m.mint.minted i)) ∧
      m.entities.contains (m.mint.minted n) = false := by
  have htaken (i : Nat) (hi : i < Nat.find h) : m.entities.contains (m.mint.minted i) := by
    simpa using Nat.find_min h hi
  refine ⟨Nat.find h, le_size_of_taken ?_ htaken, htaken, Nat.find_spec h⟩
  -- the ids come round, so that one of the first ones is free
  have hround : m.entities.contains (m.mint.minted (Nat.find h % UInt64.size)) = false := by
    rw [IdMint.minted_mod]
    exact Nat.find_spec h
  calc Nat.find h ≤ Nat.find h % UInt64.size := Nat.find_min' h hround
    _ ≤ UInt64.size := Nat.le_of_lt (Nat.mod_lt _ (by decide))

/-- The loop for a new id ends exactly if there is an id that is not taken. -/
theorem exists_findsFresh_iff :
    (∃ n result, FindsFresh m.entities.contains m.mint n result) ↔ m.HasFreshId := by
  constructor
  · rintro ⟨n, result, hrun⟩
    exact hrun.exists_free
  · intro h
    obtain ⟨n, -, htaken, hfree⟩ := exists_first_fresh h
    exact ⟨n + 1, _, findsFresh_iff.2 ⟨htaken, hfree, rfl⟩⟩

/-- The id that the next new entity gets. -/
def newId (m : DataModel) : EntityId :=
  (mintFresh m.entities.contains m.entities.size m.mint).1

theorem entities_create (m : DataModel) (kind : String) (value : Json) :
    (m.create kind value).2.entities = m.entities.insert m.newId value := rfl

theorem kinds_create (m : DataModel) (kind : String) (value : Json) :
    (m.create kind value).2.kinds = m.kinds.insert m.newId kind := rfl

/-- The id of a new entity is not taken, if there is any that is not. -/
theorem not_contains_newId (h : m.HasFreshId) : m.entities.contains m.newId = false := by
  obtain ⟨n, hn, htaken, hfree⟩ := exists_first_fresh h
  rw [newId, mintFresh_eq_minted htaken hfree hn]
  exact hfree

/-- With fewer entities than counters there is an id that is not taken. -/
theorem hasFreshId_of_size_lt (h : m.entities.size < UInt64.size) : m.HasFreshId := by
  by_contra hnone
  have htaken (i : Nat) : m.entities.contains (m.mint.minted i) := by
    rw [HasFreshId, not_exists] at hnone
    simpa using hnone i
  have hle : m.entities.size + 1 ≤ m.entities.size := le_size_of_taken h fun i _ => htaken i
  exact Nat.not_succ_le_self _ hle

end DataModel

end TypedGraph
