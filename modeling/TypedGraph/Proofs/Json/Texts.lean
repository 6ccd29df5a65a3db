import TypedGraph.Json.Reading
import TypedGraph.Proofs.Json.Canonical
import TypedGraph.Proofs.Json.Tokens

/-!
# Reading What Has Been Written

A value with integers only is read back from its text, if its arrays and objects are not nested too
deep. A canonical value stays as it is when it is read as an untyped value.

## Main results

* `readFrom_toTokens`: reading the tokens of a value comes to the value, wherever in a text it
  stands;
* `readTextWithin_text`: whatever is read from the text of a value is read from the value;
* `content_ofJson` and `canonical_of_canonical`: untyped values are the values themselves;
* `readUntyped_text`: an untyped value is read back from its text.
-/

namespace TypedGraph.Json

variable {limit : Nat} {stack : List Open}

/-! ## Token by Token -/

/-- A token that is taken leads to the next place, unless the outermost value is complete. -/
theorem readFrom_of_step {place place' : Place} {stack' : List Open} {t : Token} (rest : List Token)
    (hopen : ∀ r, place = .after r → stack ≠ [])
    (h : step limit place stack t = .ok (place', stack')) :
    readFrom limit place stack (t :: rest) = readFrom limit place' stack' rest := by
  rw [readFrom, h]
  exact hopen

/-- The first item of an array is read like any other value, as it does not start with a bracket
that closes. -/
theorem readFrom_firstItem (v : Json) (rest : List Token) :
    readFrom limit .firstItem stack (v.toTokens ++ rest) =
      readFrom limit .value (.arr [] :: stack) (v.toTokens ++ rest) := by
  cases v <;> rfl

theorem readFrom_openArray (rest : List Token) (h : stack.length < limit) :
    readFrom limit .value stack (.openArray :: rest) = readFrom limit .firstItem stack rest :=
  readFrom_of_step rest nofun (if_pos h)

theorem readFrom_openObject (rest : List Token) (h : stack.length < limit) :
    readFrom limit .value stack (.openObject :: rest) = readFrom limit .firstKey stack rest :=
  readFrom_of_step rest nofun (if_pos h)

theorem readFrom_colon (read : List (String × Reading)) (key : String) (rest : List Token) :
    readFrom limit (.colon read key) stack (.colon :: rest) =
      readFrom limit .value (.member read key :: stack) rest :=
  readFrom_of_step rest nofun rfl

theorem readFrom_firstKey (key : String) (rest : List Token) :
    readFrom limit .firstKey stack (.str key :: .colon :: rest) =
      readFrom limit .value (.member [] key :: stack) rest := by
  rw [← readFrom_colon]
  exact readFrom_of_step (.colon :: rest) nofun rfl

theorem readFrom_nextItem (r : Reading) (read : List Reading) (rest : List Token) :
    readFrom limit (.after r) (.arr read :: stack) (.comma :: rest) =
      readFrom limit .value (.arr (r :: read) :: stack) rest :=
  readFrom_of_step rest nofun rfl

theorem readFrom_nextMember (r : Reading) (read : List (String × Reading)) (key next : String)
    (rest : List Token) :
    readFrom limit (.after r) (.member read key :: stack) (.comma :: .str next :: .colon :: rest) =
      readFrom limit .value (.member ((key, r) :: read) next :: stack) rest := by
  have hkey : readFrom limit (.nextKey ((key, r) :: read)) stack (.str next :: .colon :: rest) =
      readFrom limit (.colon ((key, r) :: read) next) stack (.colon :: rest) :=
    readFrom_of_step (.colon :: rest) nofun rfl
  rw [← readFrom_colon, ← hkey]
  exact readFrom_of_step (.str next :: .colon :: rest) nofun rfl

mutual

/-- Reading the tokens of a value comes to the value. -/
theorem readFrom_toTokens : (v : Json) → (stack : List Open) → (rest : List Token) →
    v.depth + stack.length ≤ limit →
    readFrom limit .value stack (v.toTokens ++ rest) =
      readFrom limit (.after (.ofJson v)) stack rest
  | null, _, rest, _ => readFrom_of_step rest nofun rfl
  | bool _, _, rest, _ => readFrom_of_step rest nofun rfl
  | num _, _, rest, _ => readFrom_of_step rest nofun rfl
  | str _, _, rest, _ => readFrom_of_step rest nofun rfl
  | arr [], stack, rest, h => by
    rw [depth, depthItems] at h
    exact (readFrom_openArray _ (by omega)).trans (readFrom_of_step rest nofun rfl)
  -- The first element is read on its own: only the later ones follow a comma.
  | arr (v :: items), stack, rest, h => by
    rw [depth, depthItems] at h
    have htokens : (arr (v :: items)).toTokens ++ rest =
        .openArray :: (v.toTokens ++ (itemTokensAfter items ++ .closeArray :: rest)) := by
      simp [toTokens, itemTokens]
    have hv : v.depth + (Open.arr [] :: stack).length ≤ limit := by
      rw [List.length_cons]
      omega
    rw [htokens, readFrom_openArray _ (by omega), readFrom_firstItem, readFrom_toTokens v _ _ hv,
      readFrom_itemTokensAfter items _ [] stack rest (by omega)]
    rfl
  | obj [], stack, rest, h => by
    rw [depth, depthMembers] at h
    exact (readFrom_openObject _ (by omega)).trans (readFrom_of_step rest nofun rfl)
  | obj ((k, v) :: members), stack, rest, h => by
    rw [depth, depthMembers] at h
    have htokens : (obj ((k, v) :: members)).toTokens ++ rest =
        .openObject :: .str k :: .colon ::
          (v.toTokens ++ (memberTokensAfter members ++ .closeObject :: rest)) := by
      simp [toTokens, memberTokens]
    have hv : v.depth + (Open.member [] k :: stack).length ≤ limit := by
      rw [List.length_cons]
      omega
    rw [htokens, readFrom_openObject _ (by omega), readFrom_firstKey, readFrom_toTokens v _ _ hv,
      readFrom_memberTokensAfter members _ [] k stack rest (by omega)]
    rfl

/-- Reading further items comes to the array with all of them. -/
theorem readFrom_itemTokensAfter : (items : List Json) → (r : Reading) → (read : List Reading) →
    (stack : List Open) → (rest : List Token) → depthItems items + 1 + stack.length ≤ limit →
    readFrom limit (.after r) (.arr read :: stack) (itemTokensAfter items ++ .closeArray :: rest) =
      readFrom limit (.after (.arr ((r :: read).reverse ++ Reading.ofItems items) .closed)) stack
        rest
  | [], r, read, stack, rest, _ => by
    rw [Reading.ofItems, List.append_nil]
    exact readFrom_of_step rest nofun rfl
  | v :: items, r, read, stack, rest, h => by
    rw [depthItems] at h
    have htokens : itemTokensAfter (v :: items) ++ .closeArray :: rest =
        .comma :: (v.toTokens ++ (itemTokensAfter items ++ .closeArray :: rest)) := by
      simp [itemTokensAfter]
    have hv : v.depth + (Open.arr (r :: read) :: stack).length ≤ limit := by
      rw [List.length_cons]
      omega
    rw [htokens, readFrom_nextItem, readFrom_toTokens v _ _ hv,
      readFrom_itemTokensAfter items _ (r :: read) stack rest (by omega), Reading.ofItems]
    simp

/-- Reading further members comes to the object with all of them. -/
theorem readFrom_memberTokensAfter : (members : List (String × Json)) → (r : Reading) →
    (read : List (String × Reading)) → (key : String) → (stack : List Open) → (rest : List Token) →
    depthMembers members + 1 + stack.length ≤ limit →
    readFrom limit (.after r) (.member read key :: stack)
        (memberTokensAfter members ++ .closeObject :: rest) =
      readFrom limit
        (.after (.obj (((key, r) :: read).reverse ++ Reading.ofMembers members) .closed)) stack rest
  | [], r, read, key, stack, rest, _ => by
    rw [Reading.ofMembers, List.append_nil]
    exact readFrom_of_step rest nofun rfl
  | (k, v) :: members, r, read, key, stack, rest, h => by
    rw [depthMembers] at h
    have htokens : memberTokensAfter ((k, v) :: members) ++ .closeObject :: rest =
        .comma :: .str k :: .colon ::
          (v.toTokens ++ (memberTokensAfter members ++ .closeObject :: rest)) := by
      simp [memberTokensAfter]
    have hv : v.depth + (Open.member ((key, r) :: read) k :: stack).length ≤ limit := by
      rw [List.length_cons]
      omega
    rw [htokens, readFrom_nextMember, readFrom_toTokens v _ _ hv,
      readFrom_memberTokensAfter members _ ((key, r) :: read) k stack rest (by omega),
      Reading.ofMembers]
    simp

end

/-! ## Whole Texts -/

/-- Whatever is read from the text of a value is read from the value. -/
theorem readTextWithin_text {α : Type u} (decode : Reading → Except ReadError α) {v : Json}
    (hexact : v.Exact) (hdepth : v.depth ≤ limit) :
    readTextWithin limit decode v.text = decode (.ofJson v) := by
  have htokens : tokens v.chars = v.toTokens ++ [] := by
    have hchars := tokens_chars v hexact [] delimited_nil
    rwa [List.append_nil, tokens] at hchars
  have hread : readFrom limit .value [] (tokens v.text.toList) = (.ofJson v, []) := by
    rw [text, String.toList_ofList, htokens, readFrom_toTokens v [] [] hdepth]
    rfl
  rw [readTextWithin, hread]
  dsimp only
  cases decode (.ofJson v) <;> rfl

theorem readText_text {α : Type u} (decode : Reading → Except ReadError α) {v : Json}
    (hexact : v.Exact) (hdepth : v.depth ≤ depthLimit) :
    readText decode v.text = decode (.ofJson v) :=
  readTextWithin_text decode hexact hdepth

/-! ## Untyped Values -/

mutual

/-- The reading of a value says the value. -/
theorem Reading.content_ofJson : (v : Json) → (ofJson v).content = .ok v
  | .null => rfl
  | .bool _ => rfl
  | .num _ => rfl
  | .str _ => rfl
  | .arr items => by
    rw [ofJson, content, contentItems_ofItems items]
    rfl
  | .obj members => by
    rw [ofJson, content, contentMembers_ofMembers members]
    rfl

theorem Reading.contentItems_ofItems : (items : List Json) →
    contentItems (ofItems items) = .ok items
  | [] => rfl
  | v :: items => by
    rw [ofItems, contentItems, content_ofJson v, contentItems_ofItems items]
    rfl

theorem Reading.contentMembers_ofMembers : (members : List (String × Json)) →
    contentMembers (ofMembers members) = .ok members
  | [] => rfl
  | (k, v) :: members => by
    rw [ofMembers, contentMembers, content_ofJson v, contentMembers_ofMembers members]
    rfl

end

mutual

/-- A canonical value is the canonical value of itself. -/
theorem canonical_of_canonical : (v : Json) → v.Canonical → v.canonical = v
  | null, _ => rfl
  | bool _, _ => rfl
  | num _, _ => rfl
  | str _, _ => rfl
  | arr items, h => by rw [canonical, canonicalItems_of_canonical items h]
  | obj members, h => by
    rw [canonical, canonicalMembers_of_canonical members h.2, sortMembers_of_increasing h.1]

theorem canonicalItems_of_canonical : (items : List Json) → CanonicalItems items →
    canonicalItems items = items
  | [], _ => rfl
  | v :: items, h => by
    rw [canonicalItems, canonical_of_canonical v h.1, canonicalItems_of_canonical items h.2]

theorem canonicalMembers_of_canonical : (members : List (String × Json)) →
    CanonicalMembers members → canonicalMembers members = members
  | [], _ => rfl
  | (k, v) :: members, h => by
    rw [canonicalMembers, canonical_of_canonical v h.1, canonicalMembers_of_canonical members h.2]

end

/-- An untyped value is read back from its text. -/
theorem readUntyped_text {v : Json} (hcanonical : v.Canonical) (hexact : v.Exact)
    (hdepth : v.depth ≤ depthLimit) : readUntyped v.text = .ok v := by
  rw [readUntyped, readText_text _ hexact hdepth, Reading.untyped, Reading.content_ofJson]
  show Except.ok v.canonical = _
  rw [canonical_of_canonical v hcanonical]

end TypedGraph.Json
