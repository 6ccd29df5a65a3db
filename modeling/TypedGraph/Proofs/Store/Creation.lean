import TypedGraph.Proofs.Store.Coherence

/-!
# Creation of Entities

A store with fewer entities than counters always has an id for a new entity: the loop that looks for
it ends before it has made more ids than there are entities and one. All that the store does then is
to put the entity and its kind last, under an id that neither was there before.

## Main definitions

* `DataModel.Appended`: a store has one more entity than another one, in the last place.

## Main results

* `DataModel.Coherent.appended`: a fresh id comes last among the entities and among their kinds;
* `DataModel.appended_create`: the loop for a new id ends in one way only, and the entity is put
  last.
-/

namespace TypedGraph.DataModel

variable {schema : Schema} {m : DataModel}

/-- A store has come of another one by one more entity with its kind, under an id that was not there
and stands last now. Everything else is as it was. -/
structure Appended (m : DataModel) (id : EntityId) (kind : String) (value : Json) (m' : DataModel) :
    Prop where
  /-- The id was no entity. -/
  fresh : m.entities.contains id = false
  /-- The id had no kind. -/
  unknown : m.kindOf? id = none
  /-- The entity stands last. -/
  entities : m'.entities.entries = m.entities.entries ++ [(id, value)]
  /-- Its kind stands last. -/
  kinds : m'.kinds.entries = m.kinds.entries ++ [(id, kind)]
  /-- The schema is the same. -/
  schema : m'.schema = m.schema

/-- In a coherent store, a fresh id has no kind either, so that both maps get it in the last
place. -/
theorem Coherent.appended {id : EntityId} (h : m.Coherent) (hfresh : m.entities.contains id = false)
    (kind : String) (value : Json) (mint : IdMint) :
    m.Appended id kind value
      ⟨m.schema, m.entities.insert id value, m.kinds.insert id kind, mint⟩ := by
  -- graph and index have the same ids, so that what is free in one is free in the other
  have hids : id ∉ m.entities.ids := by
    rw [EntityGraph.ids, ← OrderedMap.contains_iff, hfresh]
    exact Bool.false_ne_true
  have hkinds : id ∉ m.kinds.keys := by rwa [show m.kinds.keys = m.entities.ids from h]
  exact {
    fresh := hfresh
    unknown := OrderedMap.get?_eq_none_iff.2 hkinds
    entities := OrderedMap.entries_insert_of_not_contains _ (mt OrderedMap.contains_iff.1 hids)
    kinds := OrderedMap.entries_insert_of_not_contains _ (mt OrderedMap.contains_iff.1 hkinds)
    schema := rfl }

/-- In a store with fewer entities than counters, the loop for a new id ends, and only in one way:
it makes at most one more id than there are entities, and the store goes on with its id and its
mint. The new entity stands last under this id. -/
theorem appended_create (h : Arises schema m) (hsize : m.entities.size < UInt64.size)
    (kind : String) (value : Json) :
    ∃ n ≤ m.entities.size + 1,
      (∀ n' result, FindsFresh m.entities.contains m.mint n' result ↔
        n' = n ∧ result = ((m.create kind value).1.id, (m.create kind value).2.mint)) ∧
      (m.create kind value).2.mint = m.mint.advance n ∧
      m.Appended (m.create kind value).1.id kind value (m.create kind value).2 := by
  obtain ⟨hcoherent, -, -⟩ := coherent_of_arises h
  have hfresh := hasFreshId_of_size_lt hsize
  obtain ⟨n, hn, htaken, hfree⟩ := exists_first_fresh hfresh
  have hrun : FindsFresh m.entities.contains m.mint (n + 1)
      ((m.create kind value).1.id, (m.create kind value).2.mint) :=
    findsFresh_mintFresh htaken hfree hn
  refine ⟨n + 1, Nat.succ_le_succ hn, fun n' result => ⟨hrun.unique, ?_⟩, ?_, ?_⟩
  · rintro ⟨rfl, rfl⟩
    exact hrun
  · obtain ⟨-, -, hresult⟩ := findsFresh_iff.1 hrun
    exact congrArg Prod.snd hresult
  · exact hcoherent.appended (not_contains_newId hfresh) kind value _

/-- A mint that is about to come round. -/
def lastMint : IdMint := ⟨IdMint.defaultStem, 18446744073709551615⟩

/-- Books with the greatest and with the least counter. -/
def limitGraph : EntityGraph := .ofMembers [
  ("$18446744073709551615", .obj [("title", .str "Zenith")]),
  ("$0", .obj [("title", .str "Nadir")])]

/-- The store that has taken over the two books. -/
def limitStore : DataModel := ((empty shelfSchema lastMint).tryInit limitGraph).2

/-- With both counters taken, the counter comes round, and the third id is the first free one. -/
theorem appended_limitStore :
    Arises shelfSchema limitStore ∧ limitStore.entities.ids.length = 2 ∧
      limitStore.mint = lastMint ∧
      FindsFresh limitStore.entities.contains lastMint 3 (⟨"$1"⟩, ⟨IdMint.defaultStem, 2⟩) ∧
      limitStore.Appended ⟨"$1"⟩ "Book" .null (limitStore.create "Book" .null).2 := by
  have hgraph : limitGraph.Canonical :=
    EntityGraph.canonical_ofMembers (by decide) (by simp [Json.CanonicalMembers, Json.Canonical,
      Json.Increasing, Json.keys])
  have harises : Arises shelfSchema limitStore := (Arises.empty lastMint).tryInit limitGraph hgraph
  have hmint : limitStore.mint = lastMint := by decide +kernel
  have hrun : FindsFresh limitStore.entities.contains lastMint 3
      (⟨"$1"⟩, ⟨IdMint.defaultStem, 2⟩) := findsFresh_iff.2 (by decide +kernel)
  obtain ⟨n, -, hruns, -, happended⟩ := appended_create harises (by decide +kernel) "Book" .null
  rw [hmint] at hruns
  obtain ⟨-, hresult⟩ := (hruns _ _).1 hrun
  have hid : (limitStore.create "Book" .null).1.id = ⟨"$1"⟩ := (congrArg Prod.fst hresult).symm
  rw [hid] at happended
  exact ⟨harises, by decide +kernel, hmint, hrun, happended⟩

end TypedGraph.DataModel
