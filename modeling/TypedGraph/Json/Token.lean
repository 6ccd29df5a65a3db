import TypedGraph.Json.Basic
import TypedGraph.Text.Hexadecimal

/-!
# JSON Tokens

A JSON text as a list of tokens. What is no token ends the list with a token that says so, and keeps
apart a text that stops too early from one that cannot be continued to a token at all. Each token
consumes at least one character.
-/

namespace TypedGraph.Json

/-- What keeps a text from being JSON. -/
inductive Flaw where
  /-- The text ends too early. -/
  | ended
  /-- The text cannot be continued to JSON. -/
  | malformed
deriving DecidableEq

/-- A token of a JSON text. -/
inductive Token where
  | openArray
  | closeArray
  | openObject
  | closeObject
  | comma
  | colon
  | null
  | bool (value : Bool)
  | num (value : Number)
  | str (value : String)
  /-- Something that starts like a string and is none. -/
  | badString (flaw : Flaw)
  /-- Something that is no token and does not start like a string. -/
  | bad (flaw : Flaw)
deriving DecidableEq

/-- The blanks between tokens. -/
def isBlank (c : Char) : Bool := c == ' ' || c == '\n' || c == '\t' || c == '\r'

/-! ## Literal Words -/

/-- The text after a word, which has to come next. -/
def word : List Char → List Char → Except Flaw (List Char)
  | [], rest => .ok rest
  | _ :: _, [] => .error .ended
  | w :: ws, c :: rest => if w = c then word ws rest else .error .malformed

/-! ## Strings -/

/-- The number of the four hexadecimal digits that have to come next. They are missing when fewer
than four bytes are left. -/
def hexEscape (cs : List Char) : Except Flaw (Nat × List Char) :=
  match cs with
  | a :: b :: c :: d :: rest =>
    match Hexadecimal.ofFourDigits? a b c d with
    | some n => .ok (n, rest)
    | none => .error .malformed
  | short => .error (if (String.ofList short).utf8ByteSize < 4 then .ended else .malformed)

/-- The second half of a surrogate pair, after its first half. -/
def trailingSurrogate (lead : Nat) (cs : List Char) : Except Flaw (Char × List Char) :=
  match cs with
  | [] => .error .ended
  -- the second half may still follow
  | ['\\'] => .error .ended
  | '\\' :: 'u' :: rest =>
    match hexEscape rest with
    | .error f => .error f
    | .ok (trail, rest) =>
      if 0xdc00 ≤ trail ∧ trail ≤ 0xdfff then
        .ok (Char.ofNat (0x10000 + (lead - 0xd800) * 0x400 + (trail - 0xdc00)), rest)
      else .error .malformed
  | _ => .error .malformed

/-- The character that a backslash and one character stand for. -/
def shortEscape? (c : Char) : Option Char :=
  if c = '"' ∨ c = '\\' ∨ c = '/' then some c
  else if c = 'b' then some '\x08'
  else if c = 'f' then some '\x0c'
  else if c = 'n' then some '\n'
  else if c = 'r' then some '\r'
  else if c = 't' then some '\t'
  else none

/-- The character of an escape, after its backslash. Surrogates have to come in pairs. -/
def escape (cs : List Char) : Except Flaw (Char × List Char) :=
  match cs with
  | [] => .error .ended
  | c :: rest =>
    if c = 'u' then
      match hexEscape rest with
      | .error f => .error f
      | .ok (n, rest) =>
        if 0xdc00 ≤ n ∧ n ≤ 0xdfff then .error .malformed
        else if 0xd800 ≤ n ∧ n ≤ 0xdbff then trailingSurrogate n rest
        else .ok (Char.ofNat n, rest)
    else
      match shortEscape? c with
      | some d => .ok (d, rest)
      | none => .error .malformed

theorem length_of_hexEscape {cs rest : List Char} {n : Nat}
    (h : hexEscape cs = .ok (n, rest)) : rest.length < cs.length := by
  unfold hexEscape at h
  split at h
  · split at h
    · cases h; simp; omega
    · cases h
  · cases h

theorem length_of_trailingSurrogate {cs rest : List Char} {lead : Nat} {c : Char}
    (h : trailingSurrogate lead cs = .ok (c, rest)) : rest.length < cs.length := by
  unfold trailingSurrogate at h
  split at h
  · cases h
  · cases h
  · split at h
    · cases h
    · next hx =>
      have := length_of_hexEscape hx
      split at h
      · obtain ⟨-, rfl⟩ := Prod.mk.inj (Except.ok.inj h)
        simp; omega
      · cases h
  · cases h

theorem length_of_escape {cs rest : List Char} {c : Char}
    (h : escape cs = .ok (c, rest)) : rest.length < cs.length := by
  unfold escape at h
  split at h
  · cases h
  · split at h
    · split at h
      · cases h
      · next hx =>
        have := length_of_hexEscape hx
        split at h
        · cases h
        · split at h
          · have := length_of_trailingSurrogate h
            simp; omega
          · cases h; simp; omega
    · split at h
      · cases h; simp
      · cases h

/-- The characters of a string up to its closing quote, after those already read in reverse. -/
def stringBody (read : List Char) (cs : List Char) : Except Flaw (List Char × List Char) :=
  match cs with
  | [] => .error .ended
  | c :: rest =>
    if c = '"' then .ok (read.reverse, rest)
    else if c = '\\' then
      match _h : escape rest with
      | .ok (d, rest') => stringBody (d :: read) rest'
      | .error f => .error f
    -- control characters have to be escaped
    else if c.toNat < 0x20 then .error .malformed
    else stringBody (c :: read) rest
termination_by cs.length
decreasing_by
  · have := length_of_escape _h
    simp; omega
  · simp

/-! ## Numbers -/

/-- The digits that have to come next: at least one. -/
def digitsOf (cs : List Char) : Except Flaw (List Char × List Char) :=
  match cs.takeWhile Char.isDigit with
  | [] => .error (if cs.isEmpty then .ended else .malformed)
  | digits => .ok (digits, cs.dropWhile Char.isDigit)

/-- The sign that may come next, and the text after it. -/
def signOf (cs : List Char) : Bool × List Char :=
  match cs with
  | '-' :: rest => (true, rest)
  | '+' :: rest => (false, rest)
  | cs => (false, cs)

/-- The exponent of a number, if there is one. -/
def exponentOf (cs : List Char) : Except Flaw (Option Int × List Char) :=
  match cs with
  | [] => .ok (none, [])
  | e :: rest =>
    if e = 'e' ∨ e = 'E' then
      match digitsOf (signOf rest).2 with
      | .error f => .error f
      | .ok (digits, after) =>
        let magnitude : Int := Decimal.ofDigits digits
        .ok (some (if (signOf rest).1 then -magnitude else magnitude), after)
    else .ok (none, cs)

/-- The digits after the point of a number, if it has one. -/
def fractionOf (cs : List Char) : Except Flaw (Option (List Char) × List Char) :=
  match cs with
  | [] => .ok (none, [])
  | c :: rest =>
    if c = '.' then
      match digitsOf rest with
      | .error f => .error f
      | .ok (digits, rest) => .ok (some digits, rest)
    else .ok (none, cs)

/-- Integers of 64 bits, signed or unsigned, stay integers; others become binary64 numbers. -/
def isExactInteger (i : Int) : Bool :=
  decide (Int64.minValue.toInt ≤ i) && decide (i < UInt64.size)

/-- The value of a number from its parts. A number without point and exponent is an integer if it is
in range and not a negative zero. There is none beyond the binary64 range. -/
def numberValue? (negative : Bool) (whole : List Char) (fraction : Option (List Char))
    (exponent : Option Int) : Option Number :=
  let coefficient := Decimal.ofDigits (whole ++ fraction.getD [])
  let asInteger : Int := if negative then -(coefficient : Int) else coefficient
  if fraction.isNone ∧ exponent.isNone ∧ isExactInteger asInteger
      ∧ ¬ (negative ∧ coefficient = 0) then
    some (.int asInteger)
  else
    -- the digits after the point count for the coefficient and lower the exponent
    (Binary64.ofDecimal? negative coefficient
      (exponent.getD 0 - (fraction.getD []).length)).map .float

/-- The number whose unsigned part comes next. A leading zero stands alone. -/
def number (negative : Bool) (cs : List Char) : Except Flaw (Number × List Char) :=
  match digitsOf cs with
  | .error f => .error f
  | .ok (whole, rest) =>
    if whole.head? = some '0' ∧ 1 < whole.length then .error .malformed
    else
      match fractionOf rest with
      | .error f => .error f
      | .ok (fraction, rest) =>
        match exponentOf rest with
        | .error f => .error f
        | .ok (exponent, rest) =>
          match numberValue? negative whole fraction exponent with
          | some n => .ok (n, rest)
          | none => .error .malformed

/-! ## Texts -/

/-- A token with the text after it, or the flawed token that ends the list. -/
def tokenOr (onFlaw : Flaw → Token) : Except Flaw (Token × List Char) → Token × List Char
  | .ok result => result
  | .error f => (onFlaw f, [])

/-- The token that starts with a character that is not blank, and the text after it. -/
def token (c : Char) (rest : List Char) : Token × List Char :=
  if c = '[' then (.openArray, rest)
  else if c = ']' then (.closeArray, rest)
  else if c = '\x7b' then (.openObject, rest)
  else if c = '\x7d' then (.closeObject, rest)
  else if c = ',' then (.comma, rest)
  else if c = ':' then (.colon, rest)
  else if c = 'n' then tokenOr .bad ((word ['u', 'l', 'l'] rest).map (.null, ·))
  else if c = 't' then tokenOr .bad ((word ['r', 'u', 'e'] rest).map (.bool true, ·))
  else if c = 'f' then tokenOr .bad ((word ['a', 'l', 's', 'e'] rest).map (.bool false, ·))
  else if c = '"' then
    tokenOr .badString ((stringBody [] rest).map fun r => (.str (String.ofList r.1), r.2))
  else if c = '-' then tokenOr .bad ((number true rest).map fun r => (.num r.1, r.2))
  else if c.isDigit then tokenOr .bad ((number false (c :: rest)).map fun r => (.num r.1, r.2))
  else (.bad .malformed, [])

theorem length_of_word {ws cs rest : List Char} (h : word ws cs = .ok rest) :
    rest.length ≤ cs.length := by
  induction ws generalizing cs with
  | nil => cases h; exact Nat.le_refl _
  | cons w ws ih =>
    cases cs with
    | nil => cases h
    | cons c cs =>
      simp only [word] at h
      split at h
      · have := ih h
        simp; omega
      · cases h

theorem length_of_stringBody {read cs chars rest : List Char}
    (h : stringBody read cs = .ok (chars, rest)) : rest.length < cs.length := by
  fun_induction stringBody read cs with
  | case1 => cases h
  | case2 => cases h; simp
  | case3 read rest' d rest'' hesc _ ih =>
    have := length_of_escape hesc
    have := ih h
    simp; omega
  | case4 => cases h
  | case5 => cases h
  | case6 read c rest' _ _ _ ih =>
    have := ih h
    simp; omega

theorem length_of_digitsOf {cs digits rest : List Char} (h : digitsOf cs = .ok (digits, rest)) :
    rest.length < cs.length := by
  unfold digitsOf at h
  split at h
  · cases h
  · next hne =>
    cases h
    -- at least one digit is taken off the text
    have hsplit :=
      congrArg List.length (List.takeWhile_append_dropWhile (p := Char.isDigit) (l := cs))
    rw [List.length_append] at hsplit
    have : (cs.takeWhile Char.isDigit).length ≠ 0 := by simpa using hne
    omega

theorem length_signOf (cs : List Char) : (signOf cs).2.length ≤ cs.length := by
  unfold signOf
  split <;> simp

theorem length_of_fractionOf {cs rest : List Char} {fraction : Option (List Char)}
    (h : fractionOf cs = .ok (fraction, rest)) : rest.length ≤ cs.length := by
  unfold fractionOf at h
  split at h
  · cases h; exact Nat.le_refl _
  · split at h
    · split at h
      · cases h
      · next hd =>
        have := length_of_digitsOf hd
        cases h
        simp; omega
    · cases h; exact Nat.le_refl _

theorem length_of_exponentOf {cs rest : List Char} {exponent : Option Int}
    (h : exponentOf cs = .ok (exponent, rest)) : rest.length ≤ cs.length := by
  unfold exponentOf at h
  split at h
  · cases h; exact Nat.le_refl _
  · next e tail =>
    split at h
    · split at h
      · cases h
      · next hd =>
        have := length_of_digitsOf hd
        have := length_signOf tail
        cases h
        simp; omega
    · cases h; exact Nat.le_refl _

theorem length_of_number {negative : Bool} {cs rest : List Char} {n : Number}
    (h : number negative cs = .ok (n, rest)) : rest.length < cs.length := by
  unfold number at h
  split at h
  · cases h
  · next hd =>
    split at h
    · cases h
    · split at h
      · cases h
      · next hf =>
        split at h
        · cases h
        · next he =>
          split at h
          · cases h
            have := length_of_digitsOf hd
            have := length_of_fractionOf hf
            have := length_of_exponentOf he
            omega
          · cases h

theorem length_tokenOr {α : Type} {onFlaw : Flaw → Token} {r : Except Flaw α}
    {f : α → Token × List Char} {n : Nat} (h : ∀ a, r = .ok a → (f a).2.length ≤ n) :
    (tokenOr onFlaw (r.map f)).2.length ≤ n := by
  cases r with
  | error f => simp [tokenOr, Except.map]
  | ok a => exact h a rfl

theorem length_ite {p : Prop} [Decidable p] {a b : Token × List Char} {n : Nat}
    (ha : a.2.length ≤ n) (hb : b.2.length ≤ n) : (if p then a else b).2.length ≤ n := by
  by_cases h : p
  · rwa [if_pos h]
  · rwa [if_neg h]

/-- A token takes at least its first character. -/
theorem length_token (c : Char) (rest : List Char) : (token c rest).2.length ≤ rest.length := by
  have hself : rest.length ≤ rest.length := Nat.le_refl _
  have hword (ws : List Char) (t : Token) :
      (tokenOr .bad ((word ws rest).map (t, ·))).2.length ≤ rest.length :=
    length_tokenOr fun _ h => length_of_word h
  unfold token
  exact
    length_ite hself <| length_ite hself <| length_ite hself <|
    length_ite hself <| length_ite hself <| length_ite hself <|
    length_ite (hword _ _) <| length_ite (hword _ _) <| length_ite (hword _ _) <|
    length_ite (length_tokenOr fun _ h => Nat.le_of_lt (length_of_stringBody h)) <|
    length_ite (length_tokenOr fun _ h => Nat.le_of_lt (length_of_number h)) <|
    length_ite (length_tokenOr fun _ h => Nat.le_of_lt_succ (length_of_number h)) <|
    Nat.zero_le _

/-- The tokens of a text. -/
def tokens (cs : List Char) : List Token :=
  match cs with
  | [] => []
  | c :: rest =>
    if isBlank c then tokens rest
    else (token c rest).1 :: tokens (token c rest).2
termination_by cs.length
decreasing_by
  · simp
  · have := length_token c rest
    simp; omega

end TypedGraph.Json
