import TypedGraph.Json.Printer
import TypedGraph.Json.Token

/-!
# Tokens of Written Values

The text of a value has the tokens that the value has by its structure. Strings may hold any
characters, as what they must not hold is escaped. A number ends where a character comes that cannot
belong to it; in the text of a value this is a comma or a bracket.

## Main definitions

* `Exact`: all numbers of a value are integers of 64 bits;
* `toTokens`: the tokens that a value has by its structure.

## Main results

* `stringBody_flatMap_escapeChar`: a string is read back from its escaped characters;
* `number_digits`: an integer is read back from its digits;
* `tokens_chars`: the text of a value has the tokens of the value.
-/

namespace TypedGraph

theorem Hexadecimal.ofFourDigits?_digitChar {n : Nat} (h : n < 65536) :
    ofFourDigits? (digitChar (n / 4096 % 16)) (digitChar (n / 256 % 16)) (digitChar (n / 16 % 16))
      (digitChar (n % 16)) = some n := by
  have hdigit (m : Nat) : digitValue? (digitChar (m % 16)) = some (m % 16) :=
    digitValue?_digitChar _ (Nat.mod_lt _ (by omega))
  simp only [ofFourDigits?, hdigit, Option.bind_eq_bind, Option.bind_some]
  show some _ = some n
  congr 1
  omega

/-- The digits of a number do not start with zero, unless it is zero. -/
theorem Decimal.head?_digits {n : Nat} (h : 0 < n) : (digits n).head? ≠ some '0' := by
  induction n using Nat.strongRecOn with
  | ind n ih =>
    by_cases hn : n < 10
    · have hdigit : ∀ d < 10, 0 < d → digitChar d ≠ '0' := by decide
      rw [digits_of_lt hn, List.head?_cons]
      exact fun heq => hdigit n hn h (Option.some.inj heq)
    · rw [digits_of_le (by omega), List.head?_append]
      have hhead : (digits (n / 10)).head? ≠ none := by
        rw [ne_eq, List.head?_eq_none_iff]
        exact digits_ne_nil _
      obtain ⟨c, hc⟩ := Option.ne_none_iff_exists'.1 hhead
      rw [hc, Option.some_or, ← hc]
      exact ih (n / 10) (by omega) (by omega)

namespace Json

/-! ## Strings -/

theorem hexEscape_fourDigits {n : Nat} (h : n < 65536) (rest : List Char) :
    hexEscape (Hexadecimal.fourDigits n ++ rest) = .ok (n, rest) := by
  simp only [Hexadecimal.fourDigits, List.map_cons, List.map_nil, List.cons_append, List.nil_append,
    hexEscape, Hexadecimal.ofFourDigits?_digitChar h]

theorem stringBody_of_escape {read cs rest : List Char} {c : Char} (h : escape cs = .ok (c, rest)) :
    stringBody read ('\\' :: cs) = stringBody (c :: read) rest := by
  rw [stringBody, if_neg (by decide), if_pos rfl]
  split
  · next hc =>
    rw [h] at hc
    cases hc
    rfl
  · next hc =>
    rw [h] at hc
    cases hc

/-- A character is read back from what is written for it in a string. -/
theorem stringBody_escapeChar (read : List Char) (c : Char) (rest : List Char) :
    stringBody read (escapeChar c ++ rest) = stringBody (c :: read) rest := by
  unfold escapeChar
  -- the characters with a short escape come first
  iterate 7
    split
    · next h =>
      rw [h]
      exact stringBody_of_escape rfl
  split
  · next h =>
    apply stringBody_of_escape
    show escape ('u' :: (Hexadecimal.fourDigits c.toNat ++ rest)) = _
    rw [escape, if_pos rfl, hexEscape_fourDigits (by omega)]
    dsimp only
    rw [if_neg (by omega), if_neg (by omega), Char.ofNat_toNat]
  · next hquote hbackslash _ _ _ _ _ hcontrol =>
    rw [List.singleton_append, stringBody, if_neg hquote, if_neg hbackslash, if_neg hcontrol]

/-- A string is read back from its escaped characters. -/
theorem stringBody_flatMap_escapeChar (read cs rest : List Char) :
    stringBody read (cs.flatMap escapeChar ++ '"' :: rest) = .ok (read.reverse ++ cs, rest) := by
  induction cs generalizing read with
  | nil =>
    rw [List.flatMap_nil, List.nil_append, stringBody, if_pos rfl, List.append_nil]
  | cons c cs ih =>
    rw [List.flatMap_cons, List.append_assoc, stringBody_escapeChar, ih, List.reverse_cons,
      List.append_assoc, List.singleton_append]

/-! ## Numbers -/

/-- What comes next does not belong to a number. -/
def Delimited (cs : List Char) : Prop :=
  ∀ c ∈ cs.head?, c.isDigit = false ∧ c ≠ '.' ∧ c ≠ 'e' ∧ c ≠ 'E'

theorem delimited_nil : Delimited [] := nofun

theorem delimited_cons {c : Char} {rest : List Char}
    (h : c.isDigit = false ∧ c ≠ '.' ∧ c ≠ 'e' ∧ c ≠ 'E') : Delimited (c :: rest) := by
  intro d hd
  cases hd
  exact h

theorem digitsOf_digits (n : Nat) {rest : List Char} (h : Delimited rest) :
    digitsOf (Decimal.digits n ++ rest) = .ok (Decimal.digits n, rest) := by
  have hdigits : ∀ c ∈ Decimal.digits n, c.isDigit = true := fun _ => Decimal.isDigit_of_mem_digits
  have hrest : rest.takeWhile Char.isDigit = [] ∧ rest.dropWhile Char.isDigit = rest := by
    cases rest with
    | nil => exact ⟨rfl, rfl⟩
    | cons c rest =>
      have hc := (h c rfl).1
      exact ⟨List.takeWhile_cons_of_neg (by simp [hc]), List.dropWhile_cons_of_neg (by simp [hc])⟩
  rw [digitsOf, List.takeWhile_append_of_pos hdigits, List.dropWhile_append_of_pos hdigits, hrest.1,
    hrest.2, List.append_nil]
  split
  · next hnil => exact absurd hnil (Decimal.digits_ne_nil n)
  · rfl

theorem fractionOf_delimited {rest : List Char} (h : Delimited rest) :
    fractionOf rest = .ok (none, rest) := by
  cases rest with
  | nil => rfl
  | cons c rest => rw [fractionOf, if_neg (h c rfl).2.1]

theorem exponentOf_delimited {rest : List Char} (h : Delimited rest) :
    exponentOf rest = .ok (none, rest) := by
  cases rest with
  | nil => rfl
  | cons c rest =>
    rw [exponentOf, if_neg]
    exact fun he => he.elim (h c rfl).2.2.1 (h c rfl).2.2.2

/-- An integer in range is read back from its digits. -/
theorem number_digits {negative : Bool} {n : Nat} {i : Int} {rest : List Char}
    (hi : i = if negative then -(n : Int) else n) (hexact : isExactInteger i)
    (hzero : negative → n ≠ 0) (h : Delimited rest) :
    number negative (Decimal.digits n ++ rest) = .ok (.int i, rest) := by
  -- zero is written as one digit, which is no leading one
  have hlead : ¬ ((Decimal.digits n).head? = some '0' ∧ 1 < (Decimal.digits n).length) := by
    rintro ⟨hhead, hlength⟩
    by_cases hn : n = 0
    · rw [hn, Decimal.digits_of_lt (by omega)] at hlength
      exact absurd hlength (Nat.lt_irrefl 1)
    · exact Decimal.head?_digits (Nat.pos_of_ne_zero hn) hhead
  have hvalue : numberValue? negative (Decimal.digits n) none none = some (.int i) := by
    simp only [numberValue?, Option.getD_none, List.append_nil, Decimal.ofDigits_digits, ← hi]
    exact if_pos ⟨rfl, rfl, hexact, fun hneg => hzero hneg.1 hneg.2⟩
  simp only [number, digitsOf_digits n h, if_neg hlead, fractionOf_delimited h,
    exponentOf_delimited h, hvalue]

/-! ## Tokens -/

mutual

/-- All numbers of the value are integers of 64 bits, signed or unsigned. -/
def Exact : Json → Prop
  | num (.int i) => isExactInteger i
  | num (.float _) => False
  | arr items => ExactItems items
  | obj members => ExactMembers members
  | _ => True

/-- All values of the list have integers only. -/
def ExactItems : List Json → Prop
  | [] => True
  | v :: rest => Exact v ∧ ExactItems rest

/-- All members have integers only. -/
def ExactMembers : List (String × Json) → Prop
  | [] => True
  | (_, v) :: rest => Exact v ∧ ExactMembers rest

end

mutual

/-- The tokens of a value. -/
def toTokens : Json → List Token
  | null => [.null]
  | bool b => [.bool b]
  | num n => [.num n]
  | str s => [.str s]
  | arr items => .openArray :: itemTokens items ++ [.closeArray]
  | obj members => .openObject :: memberTokens members ++ [.closeObject]

/-- The tokens of the items of an array. -/
def itemTokens : List Json → List Token
  | [] => []
  | v :: rest => toTokens v ++ itemTokensAfter rest

/-- The tokens of further items. -/
def itemTokensAfter : List Json → List Token
  | [] => []
  | v :: rest => .comma :: toTokens v ++ itemTokensAfter rest

/-- The tokens of the members of an object. -/
def memberTokens : List (String × Json) → List Token
  | [] => []
  | (k, v) :: rest => .str k :: .colon :: toTokens v ++ memberTokensAfter rest

/-- The tokens of further members. -/
def memberTokensAfter : List (String × Json) → List Token
  | [] => []
  | (k, v) :: rest => .comma :: .str k :: .colon :: toTokens v ++ memberTokensAfter rest

end

theorem tokens_cons {c : Char} {rest rest' : List Char} {t : Token} (hblank : isBlank c = false)
    (h : token c rest = (t, rest')) : tokens (c :: rest) = t :: tokens rest' := by
  rw [tokens, hblank, h]
  rfl

/-- A mark is one character, whatever comes after it. -/
theorem tokens_mark {c : Char} {t : Token} (hblank : isBlank c = false)
    (h : ∀ rest, token c rest = (t, rest)) (rest : List Char) :
    tokens (c :: rest) = t :: tokens rest :=
  tokens_cons hblank (h rest)

theorem tokens_stringChars (s : String) (rest : List Char) :
    tokens (stringChars s ++ rest) = .str s :: tokens rest := by
  have hbody : stringBody [] (s.toList.flatMap escapeChar ++ '"' :: rest) = .ok (s.toList, rest) :=
    stringBody_flatMap_escapeChar [] s.toList rest
  have hchars : stringChars s ++ rest = '"' :: (s.toList.flatMap escapeChar ++ '"' :: rest) := by
    simp [stringChars]
  rw [hchars]
  apply tokens_cons rfl
  show tokenOr .badString _ = _
  rw [hbody]
  simp [tokenOr, Except.map]

/-- A digit starts a number that is not negative. -/
theorem token_of_isDigit {c : Char} (h : c.isDigit = true) (rest : List Char) :
    isBlank c = false ∧ token c rest =
      tokenOr .bad ((number false (c :: rest)).map fun r => (.num r.1, r.2)) := by
  have hne (d : Char) (hd : d.isDigit = false) : c ≠ d := by
    rintro rfl
    rw [h] at hd
    cases hd
  constructor
  · simp [isBlank, hne]
  · simp only [token, hne '[' rfl, hne ']' rfl, hne '\x7b' rfl, hne '\x7d' rfl, hne ',' rfl,
      hne ':' rfl, hne 'n' rfl, hne 't' rfl, hne 'f' rfl, hne '"' rfl, hne '-' rfl, h, if_true,
      if_false]

theorem tokens_intChars {i : Int} {rest : List Char} (hexact : isExactInteger i)
    (h : Delimited rest) :
    tokens (intChars i ++ rest) = .num (.int i) :: tokens rest := by
  cases i with
  | ofNat n =>
    have hnumber : number false (Decimal.digits n ++ rest) = .ok (.int (.ofNat n), rest) :=
      number_digits rfl hexact nofun h
    show tokens (Decimal.digits n ++ rest) = _
    obtain ⟨c, cs, hdigits⟩ := List.exists_cons_of_ne_nil (Decimal.digits_ne_nil n)
    have hc : c.isDigit = true := Decimal.isDigit_of_mem_digits (hdigits ▸ List.mem_cons_self)
    rw [hdigits, List.cons_append] at hnumber ⊢
    obtain ⟨hblank, htoken⟩ := token_of_isDigit hc (cs ++ rest)
    rw [hnumber] at htoken
    exact tokens_cons hblank htoken
  | negSucc n =>
    have hnumber : number true (Decimal.digits (n + 1) ++ rest) = .ok (.int (.negSucc n), rest) :=
      number_digits rfl hexact (fun _ => Nat.succ_ne_zero n) h
    show tokens ('-' :: (Decimal.digits (n + 1) ++ rest)) = _
    apply tokens_cons rfl
    show tokenOr .bad _ = _
    rw [hnumber]
    rfl

theorem delimited_itemCharsAfter (items : List Json) (rest : List Char) :
    Delimited (itemCharsAfter items ++ ']' :: rest) := by
  cases items <;> exact delimited_cons (by decide)

theorem delimited_memberCharsAfter (members : List (String × Json)) (rest : List Char) :
    Delimited (memberCharsAfter members ++ '\x7d' :: rest) := by
  cases members <;> exact delimited_cons (by decide)

mutual

/-- The text of a value has the tokens of the value, whatever comes after it that does not belong to
a number. -/
theorem tokens_chars : (v : Json) → v.Exact → (rest : List Char) → Delimited rest →
    tokens (v.chars ++ rest) = v.toTokens ++ tokens rest
  | null, _, rest, _ => tokens_cons rfl rfl
  | bool true, _, rest, _ => tokens_cons rfl rfl
  | bool false, _, rest, _ => tokens_cons rfl rfl
  | num (.int i), hexact, rest, h => tokens_intChars hexact h
  | str s, _, rest, _ => tokens_stringChars s rest
  | arr items, hexact, rest, _ => by
    have hchars : (arr items).chars ++ rest = '[' :: (itemChars items ++ ']' :: rest) := by
      simp [chars]
    rw [hchars, tokens_mark (t := .openArray) rfl fun _ => rfl, tokens_itemChars items hexact rest,
      toTokens]
    simp
  | obj members, hexact, rest, _ => by
    have hchars :
        (obj members).chars ++ rest = '\x7b' :: (memberChars members ++ '\x7d' :: rest) := by
      simp [chars]
    rw [hchars, tokens_mark (t := .openObject) rfl fun _ => rfl,
      tokens_memberChars members hexact rest, toTokens]
    simp

theorem tokens_itemChars : (items : List Json) → ExactItems items → (rest : List Char) →
    tokens (itemChars items ++ ']' :: rest) = itemTokens items ++ .closeArray :: tokens rest
  | [], _, rest => tokens_mark rfl (fun _ => rfl) rest
  | v :: items, hexact, rest => by
    rw [itemChars, List.append_assoc,
      tokens_chars v hexact.1 _ (delimited_itemCharsAfter items rest),
      tokens_itemCharsAfter items hexact.2 rest, itemTokens, List.append_assoc]

theorem tokens_itemCharsAfter : (items : List Json) → ExactItems items → (rest : List Char) →
    tokens (itemCharsAfter items ++ ']' :: rest) =
      itemTokensAfter items ++ .closeArray :: tokens rest
  | [], _, rest => tokens_mark rfl (fun _ => rfl) rest
  | v :: items, hexact, rest => by
    have hchars : itemCharsAfter (v :: items) ++ ']' :: rest =
        ',' :: (v.chars ++ (itemCharsAfter items ++ ']' :: rest)) := by
      simp [itemCharsAfter]
    rw [hchars, tokens_mark (t := .comma) rfl fun _ => rfl,
      tokens_chars v hexact.1 _ (delimited_itemCharsAfter items rest),
      tokens_itemCharsAfter items hexact.2 rest, itemTokensAfter]
    simp

theorem tokens_memberChars : (members : List (String × Json)) → ExactMembers members →
    (rest : List Char) →
    tokens (memberChars members ++ '\x7d' :: rest) =
      memberTokens members ++ .closeObject :: tokens rest
  | [], _, rest => tokens_mark rfl (fun _ => rfl) rest
  | (k, v) :: members, hexact, rest => by
    have hchars : memberChars ((k, v) :: members) ++ '\x7d' :: rest =
        stringChars k ++ ':' :: (v.chars ++ (memberCharsAfter members ++ '\x7d' :: rest)) := by
      simp [memberChars]
    rw [hchars, tokens_stringChars, tokens_mark (t := .colon) rfl fun _ => rfl,
      tokens_chars v hexact.1 _ (delimited_memberCharsAfter members rest),
      tokens_memberCharsAfter members hexact.2 rest, memberTokens]
    simp

theorem tokens_memberCharsAfter : (members : List (String × Json)) → ExactMembers members →
    (rest : List Char) →
    tokens (memberCharsAfter members ++ '\x7d' :: rest) =
      memberTokensAfter members ++ .closeObject :: tokens rest
  | [], _, rest => tokens_mark rfl (fun _ => rfl) rest
  | (k, v) :: members, hexact, rest => by
    have hchars : memberCharsAfter ((k, v) :: members) ++ '\x7d' :: rest =
        ',' :: (stringChars k ++
          ':' :: (v.chars ++ (memberCharsAfter members ++ '\x7d' :: rest))) := by
      simp [memberCharsAfter]
    rw [hchars, tokens_mark (t := .comma) rfl fun _ => rfl, tokens_stringChars,
      tokens_mark (t := .colon) rfl fun _ => rfl,
      tokens_chars v hexact.1 _ (delimited_memberCharsAfter members rest),
      tokens_memberCharsAfter members hexact.2 rest, memberTokensAfter]
    simp

end

end Json

end TypedGraph
