import TypedGraph.Entity.Id

/-!
# Counters of Mints

A mint is asked for new ids and is shown ids from elsewhere, in any order. What is shown may be
anything: only a text that is the stem and a counter moves the counter of the mint, and then past
its own. So the counter goes forward until it comes round, and up to there an id is neither made
twice nor made after it has been shown. The one exception is the id with the greatest counter, which
nothing can lead past.

## Main definitions

* `IdMint.after`: the mint after some calls;
* `IdMint.made`: the ids that are made in the course of some calls;
* `IdMint.WithinRound`: at most the last call makes the counter come round.

## Main results

* `IdMint.counterOf?_idAt`: the counter of a minted id is read back from its text;
* `IdMint.WithinRound.next_le_after`: the counter does not go back;
* `IdMint.WithinRound.nodup_made`: the ids that are made are different;
* `IdMint.WithinRound.next_eq_greatest`: an id that has been shown is made at the greatest counter
  only;
* `IdMint.unrepeated_of_withinRound`: all of this for the calls of a new mint.
-/

namespace TypedGraph.IdMint

/-! ## Counters in Ids -/

theorem idAt_inj {stem : String} {i j : Nat} (h : idAt stem i = idAt stem j) : i = j := by
  have htext : stem ++ Decimal.text i = stem ++ Decimal.text j := congrArg EntityId.text h
  have hdigits : Decimal.digits i = Decimal.digits j :=
    String.ofList_injective ((String.append_right_inj stem).1 htext)
  exact Decimal.digits_inj hdigits

theorem afterStem?_append (stem cs : List Char) : afterStem? stem (stem ++ cs) = some cs := by
  induction stem with
  | nil => rfl
  | cons c stem ih => rwa [List.cons_append, afterStem?, if_pos rfl]

/-- The digits of a 64-bit number stand for the number. -/
theorem counter?_digits {n : Nat} (h : n < UInt64.size) : counter? (Decimal.digits n) = some n := by
  have hsign : (Decimal.digits n).head? ≠ some '+' := by
    intro hhead
    exact absurd (Decimal.isDigit_of_mem_digits (List.mem_of_head? hhead)) (by decide)
  have hall : (Decimal.digits n).all Char.isDigit :=
    List.all_eq_true.2 fun _ hc => Decimal.isDigit_of_mem_digits hc
  simp [counter?, hsign, hall, Decimal.digits_ne_nil, Decimal.ofDigits_digits, h]

/-- The counter of an id is read back, whatever the stem ends in. -/
theorem counterOf?_idAt (m : IdMint) {n : Nat} (h : n < UInt64.size) :
    m.counterOf? (idAt m.stem n) = some n := by
  rw [counterOf?, idAt, Decimal.text, String.toList_append, String.toList_ofList,
    afterStem?_append]
  exact counter?_digits h

/-! ## One Call -/

theorem toNat_max (a b : UInt64) : (max a b).toNat = max a.toNat b.toNat := by
  show (if a ≤ b then b else a).toNat = _
  split
  · next h => exact (Nat.max_eq_right (UInt64.le_iff_toNat_le.1 h)).symm
  · next h =>
    have hle := UInt64.le_iff_toNat_le.1 (UInt64.le_of_lt (UInt64.not_le.1 h))
    exact (Nat.max_eq_left hle).symm

/-- Looking at an id moves the counter forward if at all. -/
theorem next_le_observe (mint : IdMint) (id : EntityId) : mint.next ≤ (mint.observe id).next := by
  unfold observe
  split
  · split
    · rw [UInt64.le_iff_toNat_le, toNat_max]
      exact Nat.le_max_left _ _
    · exact UInt64.le_refl _
  · exact UInt64.le_refl _

theorem stem_observe (mint : IdMint) (id : EntityId) : (mint.observe id).stem = mint.stem := by
  unfold observe
  split
  · split <;> rfl
  · rfl

theorem next_le_foldl_observe (mint : IdMint) (ids : List EntityId) :
    mint.next ≤ (ids.foldl observe mint).next := by
  induction ids generalizing mint with
  | nil => exact UInt64.le_refl _
  | cons id ids ih => exact UInt64.le_trans (mint.next_le_observe id) (ih _)

theorem stem_foldl_observe (mint : IdMint) (ids : List EntityId) :
    (ids.foldl observe mint).stem = mint.stem := by
  induction ids generalizing mint with
  | nil => rfl
  | cons id ids ih => exact (ih _).trans (mint.stem_observe id)

/-- The counter goes past that of an id of the mint's own form, if there is a greater one. -/
theorem lt_next_observe (m : IdMint) {n : Nat} (h : n + 1 < UInt64.size) :
    n < (m.observe (idAt m.stem n)).next.toNat := by
  rw [observe, m.counterOf?_idAt (Nat.lt_of_succ_lt h)]
  simp only [if_pos h]
  rw [toNat_max, UInt64.toNat_ofNat_of_lt' h]
  exact Nat.le_max_right _ _

/-- The counter with which a mint comes round. -/
def greatest : UInt64 := 18446744073709551615

theorem toNat_add_one_lt {n : UInt64} (h : n ≠ greatest) : n.toNat + 1 < UInt64.size := by
  have hne : n.toNat ≠ 18446744073709551615 := fun hn => h (UInt64.toNat_inj.1 hn)
  have hlt := n.toNat_lt
  rw [UInt64.size]
  omega

/-- What a mint is called for. -/
inductive Call where
  /-- It makes an id. -/
  | mint
  /-- It is shown an id. -/
  | observe (id : EntityId)
deriving DecidableEq

/-- The mint after a call. -/
def call (m : IdMint) : Call → IdMint
  | .mint => m.mint.2
  | .observe id => m.observe id

variable {m : IdMint} {c : Call} {before calls rest : List Call}

theorem stem_call (m : IdMint) (c : Call) : (m.call c).stem = m.stem := by
  cases c with
  | mint => rfl
  | observe id => exact m.stem_observe id

/-- Below the greatest counter, making an id moves the counter forward. -/
theorem next_lt_mint (h : m.next ≠ greatest) : m.next < m.mint.2.next := by
  have hsize : m.next.toNat + 1 < 2 ^ 64 := toNat_add_one_lt h
  show m.next < m.next + 1
  rw [UInt64.lt_iff_toNat_lt, UInt64.toNat_add, UInt64.toNat_one, Nat.mod_eq_of_lt hsize]
  exact Nat.lt_succ_self _

/-- A call does not move the counter back, unless it makes the counter come round. -/
theorem next_le_call (h : c = .mint → m.next ≠ greatest) : m.next ≤ (m.call c).next := by
  cases c with
  | mint => exact UInt64.le_of_lt (next_lt_mint (h rfl))
  | observe id => exact m.next_le_observe id

/-! ## Many Calls -/

/-- The mint after some calls. -/
def after (m : IdMint) (calls : List Call) : IdMint := calls.foldl call m

/-- The ids that are made in the course of some calls, in order. -/
def made (m : IdMint) : List Call → List EntityId
  | [] => []
  | .mint :: calls => m.mint.1 :: m.mint.2.made calls
  | .observe id :: calls => (m.observe id).made calls

/-- An id is made at the greatest counter by the last call at most. -/
def WithinRound (m : IdMint) (calls : List Call) : Prop :=
  ∀ before rest, calls = before ++ .mint :: rest → (m.after before).next = greatest → rest = []

theorem stem_after (m : IdMint) (calls : List Call) : (m.after calls).stem = m.stem := by
  induction calls generalizing m with
  | nil => rfl
  | cons c calls ih => exact (ih (m.call c)).trans (m.stem_call c)

/-- What is made after some calls has the stem of the mint and the counter of that moment. -/
theorem fst_mint_after (m : IdMint) (calls : List Call) :
    (m.after calls).mint.1 = idAt m.stem (m.after calls).next.toNat :=
  congrArg (idAt · _) (m.stem_after calls)

theorem after_append (m : IdMint) (before rest : List Call) :
    m.after (before ++ rest) = (m.after before).after rest := List.foldl_append

/-- An id is made by one of the calls, at the counter of that moment. -/
theorem mem_made_iff {id : EntityId} :
    id ∈ m.made calls ↔
      ∃ before rest, calls = before ++ .mint :: rest ∧ id = (m.after before).mint.1 := by
  constructor
  · intro h
    induction calls generalizing m with
    | nil => cases h
    | cons c calls ih =>
      have hlater (hmem : id ∈ (m.call c).made calls) : ∃ before rest,
          c :: calls = before ++ .mint :: rest ∧ id = (m.after before).mint.1 := by
        obtain ⟨before, rest, rfl, hid⟩ := ih hmem
        exact ⟨c :: before, rest, rfl, hid⟩
      cases c with
      | mint =>
        obtain rfl | hmem := List.mem_cons.1 h
        · exact ⟨[], calls, rfl, rfl⟩
        · exact hlater hmem
      | observe _ => exact hlater h
  · rintro ⟨before, rest, rfl, rfl⟩
    induction before generalizing m with
    | nil => exact List.mem_cons_self
    | cons c before ih =>
      cases c with
      | mint => exact List.mem_cons_of_mem _ ih
      | observe _ => exact ih

namespace WithinRound

theorem nil (m : IdMint) : m.WithinRound [] := by
  intro before rest h
  simp at h

theorem cons_iff :
    m.WithinRound (c :: calls) ↔
      (c = .mint → m.next = greatest → calls = []) ∧ (m.call c).WithinRound calls := by
  constructor
  · intro h
    refine ⟨?_, fun before rest hcalls => h (c :: before) rest (by rw [hcalls]; rfl)⟩
    rintro rfl
    exact h [] calls rfl
  · rintro ⟨hfirst, hlater⟩ before rest hcalls hnext
    cases before with
    | nil =>
      obtain ⟨rfl, rfl⟩ := List.cons.inj hcalls
      exact hfirst rfl hnext
    | cons _ before =>
      obtain ⟨rfl, rfl⟩ := List.cons.inj hcalls
      exact hlater before rest rfl hnext

instance decidable : (m : IdMint) → (calls : List Call) → Decidable (m.WithinRound calls)
  | m, [] => .isTrue (.nil m)
  | m, c :: calls =>
    have := decidable (m.call c) calls
    decidable_of_iff _ cons_iff.symm

theorem after (h : m.WithinRound (before ++ rest)) : (m.after before).WithinRound rest := by
  intro before' rest' hrest hnext
  refine h (before ++ before') rest' (by rw [hrest, List.append_assoc]) ?_
  rwa [after_append]

/-- With more calls to come, the counter has not gone back. -/
theorem next_le_after (h : m.WithinRound (before ++ c :: rest)) :
    m.next ≤ (m.after before).next := by
  induction before generalizing m with
  | nil => exact UInt64.le_refl _
  | cons c' before ih =>
    obtain ⟨hfirst, hlater⟩ := cons_iff.1 h
    refine UInt64.le_trans (next_le_call fun hc hnext => ?_) (ih hlater)
    exact absurd (hfirst hc hnext) (by simp)

/-- The ids that are made within a round are different. -/
theorem nodup_made (h : m.WithinRound calls) : (m.made calls).Nodup := by
  induction calls generalizing m with
  | nil => exact List.nodup_nil
  | cons c calls ih =>
    obtain ⟨hfirst, hlater⟩ := cons_iff.1 h
    cases c with
    | observe id => exact ih hlater
    | mint =>
      refine List.nodup_cons.2 ⟨fun hmem => ?_, ih hlater⟩
      obtain ⟨before, rest, rfl, hid⟩ := mem_made_iff.1 hmem
      -- the same id would have to be made at the counter of the first, which has been left behind
      have hcounter : m.next = ((m.call .mint).after before).next :=
        UInt64.toNat_inj.1 (idAt_inj (hid.trans (fst_mint_after _ before)))
      have hlt : m.next < (m.call .mint).next :=
        next_lt_mint fun hnext => absurd (hfirst rfl hnext) (by simp)
      have hle := hlater.next_le_after
      rw [← hcounter] at hle
      exact absurd hle (UInt64.not_le.2 hlt)

/-- An id that has been shown is made again at the greatest counter only. -/
theorem next_eq_greatest {id : EntityId} (h : m.WithinRound (before ++ .mint :: rest))
    (hshown : .observe id ∈ before) (hid : (m.after before).mint.1 = id) :
    (m.after before).next = greatest := by
  obtain ⟨earlier, later, hbefore⟩ := List.append_of_mem hshown
  have hround : m.WithinRound (earlier ++ .observe id :: (later ++ .mint :: rest)) := by
    rwa [hbefore, List.append_assoc, List.cons_append] at h
  have hmade : id = idAt (m.after earlier).stem (m.after before).next.toNat := by
    rw [stem_after, ← fst_mint_after, hid]
  refine Decidable.byContradiction fun hnext => ?_
  -- a counter that is not the greatest has been left behind when the id was shown
  have hpast : (m.after before).next.toNat < ((m.after earlier).observe id).next.toNat := by
    have hobserve := (m.after earlier).lt_next_observe (toNat_add_one_lt hnext)
    rwa [← hmade] at hobserve
  have hle : ((m.after earlier).observe id).next ≤ (m.after before).next := by
    rw [hbefore, after_append]
    exact (cons_iff.1 hround.after).2.next_le_after
  exact absurd (UInt64.le_iff_toNat_le.1 hle) (Nat.not_le.2 hpast)

end WithinRound

/-- Up to and with the first id at the greatest counter, whatever the stem: the ids that a new mint
makes are different; no call moves the counter back, except for the last one, which may bring it
round to zero; and no id is made after it has been shown, except for one at the greatest counter. -/
theorem unrepeated_of_withinRound {stem : String} {calls : List Call}
    (h : (ofStem stem).WithinRound calls) :
    ((ofStem stem).made calls).Nodup ∧
    (∀ before c rest, calls = before ++ c :: rest →
      let m := (ofStem stem).after before
      m.next ≤ (m.call c).next ∨
        c = .mint ∧ m.next = greatest ∧ (m.call c).next = 0 ∧ rest = []) ∧
    ∀ before rest id, calls = before ++ .mint :: rest → .observe id ∈ before →
      let m := (ofStem stem).after before
      m.mint.1 = id → m.next = greatest := by
  refine ⟨h.nodup_made, ?_, ?_⟩
  · rintro before c rest rfl m
    by_cases hround : c = .mint ∧ m.next = greatest
    · obtain ⟨rfl, hnext⟩ := hround
      refine .inr ⟨rfl, hnext, ?_, h before rest rfl hnext⟩
      show m.next + 1 = 0
      rw [hnext]
      rfl
    · exact .inl (next_le_call fun hc hnext => hround ⟨hc, hnext⟩)
  · rintro before rest id rfl hshown m hid
    exact h.next_eq_greatest hshown hid

/-- Calls of a mint whose stem is a digit. What it is shown has a sign, leading zeros, no counter,
or one that is too large. -/
def digitCalls : List Call := [
  .mint, .observe ⟨"1+7"⟩, .observe ⟨"100012"⟩, .mint, .observe ⟨"1-20"⟩, .observe ⟨"1"⟩,
  .observe ⟨"118446744073709551616"⟩, .observe ⟨"118446744073709551615"⟩, .mint,
  .observe ⟨"118446744073709551614"⟩, .mint]

/-- The last of these calls makes the counter come round, with an id that the mint has been shown;
the other ids are new. -/
theorem unrepeated_digitCalls :
    (ofStem "1").WithinRound digitCalls ∧
    (ofStem "1").made digitCalls =
      [⟨"10"⟩, ⟨"113"⟩, ⟨"114"⟩, ⟨"118446744073709551615"⟩] ∧
    ((ofStem "1").made digitCalls).Nodup ∧
    ((ofStem "1").after digitCalls.dropLast).next = greatest ∧
    ((ofStem "1").after digitCalls).next = 0 := by
  have hround : (ofStem "1").WithinRound digitCalls := by decide +kernel
  obtain ⟨hnodup, -, hshown⟩ := unrepeated_of_withinRound hround
  have hgreatest : ((ofStem "1").after digitCalls.dropLast).next = greatest :=
    hshown digitCalls.dropLast [] ⟨"118446744073709551615"⟩ (by decide) (by decide)
      (by decide +kernel)
  exact ⟨hround, by decide +kernel, hnodup, hgreatest, by decide +kernel⟩

end TypedGraph.IdMint
