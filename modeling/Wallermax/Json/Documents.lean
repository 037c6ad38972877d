import Wallermax.Base.Uri
import Wallermax.Templates.Literals

/-!
# JSON documents

Written without blanks, as `serde_json` writes them, and read by recursive descent, with a
bound on the nesting as `serde_json` has one. What is written is read back, whatever
stands behind it that is no part of a number.
-/

namespace Wallermax.Json

open Wallermax.Base
open Wallermax.Templates (jsonStringify hexNumber readEscape length_readEscape readLiteral
  readLiteral_jsonStringify)

/-! ## Numbers -/

def isNumeralChar (c : Char) : Bool :=
  c.isDigit || c == '-' || c == '+' || c == '.' || c == 'e' || c == 'E'

/-- Digits, at least one, up to the end or a stop. -/
def skipDigits (t : Text) : Option Text :=
  if (t.takeWhile Char.isDigit) = [] then none else some (t.dropWhile Char.isDigit)

def skipExponent (t : Text) : Option Text :=
  if t.head? = some 'e' ∨ t.head? = some 'E' then
    skipDigits (if t.tail.head? = some '-' ∨ t.tail.head? = some '+' then t.tail.tail else t.tail)
  else some t

def skipFraction (t : Text) : Option Text :=
  if t.head? = some '.' then (skipDigits t.tail).bind skipExponent else skipExponent t

/-- A sign, digits without a leading zero, a fraction, an exponent. -/
def isNumeral (t : Text) : Bool :=
  let digits := if t.head? = some '-' then t.tail else t
  t.all isNumeralChar &&
    (if digits.head? = some '0' then skipFraction digits.tail
      else (skipDigits digits).bind skipFraction) == some []

structure Numeral : Type where
  text : Text
  valid : isNumeral text = true

/-! ## Documents -/

inductive Value : Type where
  | null
  | bool (value : Bool)
  | number (value : Numeral)
  | string (text : Text)
  | array (items : List Value)
  | object (members : List (Text × Value))

mutual
/-- `Value::to_string`. -/
def Value.print : Value → Text
  | .null => "null".toList
  | .bool value => if value then "true".toList else "false".toList
  | .number value => value.text
  | .string text => jsonStringify text
  | .array items => '[' :: (printItems items ++ [']'])
  | .object members => '{' :: (printMembers members ++ ['}'])
def printItems : List Value → Text
  | [] => []
  | v :: vs => v.print ++ if vs.isEmpty then [] else ',' :: printItems vs
def printMembers : List (Text × Value) → Text
  | [] => []
  | (name, v) :: ms =>
      jsonStringify name ++ ':' :: (v.print ++ if ms.isEmpty then [] else ',' :: printMembers ms)
end

mutual
/-- How many arrays and objects stand in one another. -/
def Value.depth : Value → ℕ
  | .array items => depthItems items + 1
  | .object members => depthMembers members + 1
  | _ => 0
def depthItems : List Value → ℕ
  | [] => 0
  | v :: vs => max v.depth (depthItems vs)
def depthMembers : List (Text × Value) → ℕ
  | [] => 0
  | (_, v) :: ms => max v.depth (depthMembers ms)
end

/-! ## Reading -/

def isBlank (c : Char) : Bool := c == ' ' || c == '\t' || c == '\n' || c == '\r'

def skip (t : Text) : Text := t.dropWhile isBlank

/-- What stands behind a character, blanks in front of it aside. -/
def expect (c : Char) (t : Text) : Option Text :=
  if (skip t).head? = some c then some (skip t).tail else none

def keyword (word : String) (value : Value) (t : Text) : Option (Value × Text) :=
  if word.toList.isPrefixOf t then some (value, t.drop word.toList.length) else none

def readNumeral (t : Text) : Option (Value × Text) :=
  if h : isNumeral (t.takeWhile isNumeralChar) = true then
    some (.number ⟨t.takeWhile isNumeralChar, h⟩, t.dropWhile isNumeralChar)
  else none

/-- The number behind `\u`. -/
def readUnit : Text → Option (ℕ × Text)
  | 'u' :: a :: b :: c :: d :: rest => (hexNumber a b c d).map fun n => (n, rest)
  | _ => none

/-- A pair of escaped surrogates. -/
def readPair (t : Text) : Option (Char × Text) :=
  (readUnit t).bind fun (high, rest) =>
    if rest.head? = some '\\' then
      (readUnit rest.tail).bind fun (low, rest) =>
        if 0xD800 ≤ high ∧ high < 0xDC00 ∧ 0xDC00 ≤ low ∧ low < 0xE000 then
          some (Char.ofNat (0x10000 + 0x400 * (high - 0xD800) + (low - 0xDC00)), rest)
        else none
    else none

theorem length_readUnit {t rest : Text} {n : ℕ} (h : readUnit t = some (n, rest)) :
    rest.length < t.length := by
  unfold readUnit at h
  split at h
  · obtain ⟨m, -, hm⟩ := Option.map_eq_some_iff.mp h
    cases hm
    simp only [List.length_cons]
    omega
  · cases h

theorem length_readPair {t rest : Text} {c : Char} (h : readPair t = some (c, rest)) :
    rest.length < t.length := by
  obtain ⟨⟨high, behind⟩, hhigh, h⟩ := Option.bind_eq_some_iff.mp h
  have hbehind := length_readUnit hhigh
  dsimp only at h
  split at h
  · obtain ⟨⟨low, last⟩, hlow, h⟩ := Option.bind_eq_some_iff.mp h
    have hlast := length_readUnit hlow
    rw [List.length_tail] at hlast
    dsimp only at h
    split at h
    · rw [← (Prod.mk.inj (Option.some.inj h)).2]
      omega
    · cases h
  · cases h

/-- An escape, behind its backslash. -/
def readEscaped (t : Text) : Option (Char × Text) := (readEscape t).or (readPair t)

theorem length_readEscaped {t rest : Text} {c : Char} (h : readEscaped t = some (c, rest)) :
    rest.length < t.length := by
  rcases Option.or_eq_some_iff.mp h with hone | ⟨-, hpair⟩
  · exact length_readEscape hone
  · exact length_readPair hpair

/-- The text of a string, behind its opening quote, and what is behind the closing one. -/
def readText : Text → Option (Text × Text)
  | [] => none
  | c :: t =>
      if c = '"' then some ([], t)
      else if c = '\\' then
        match _hescape : readEscaped t with
        | none => none
        | some (d, rest) => (readText rest).map fun (text, left) => (d :: text, left)
      else if c.toNat < 0x20 then none
      else (readText t).map fun (text, left) => (c :: text, left)
termination_by t => t.length
decreasing_by
  · have := length_readEscaped _hescape
    simp only [List.length_cons]
    omega
  · simp

/-- A string and what is behind it. -/
def readString (t : Text) : Option (Text × Text) :=
  (expect '"' t).bind readText

mutual
def readValue : ℕ → ℕ → Text → Option (Value × Text)
  | 0, _, _ => none
  | fuel + 1, depth, t =>
      match (skip t).head? with
      | none => none
      | some c =>
          if c = 'n' then keyword "null" .null (skip t)
          else if c = 't' then keyword "true" (.bool true) (skip t)
          else if c = 'f' then keyword "false" (.bool false) (skip t)
          else if c = '"' then (readText (skip t).tail).map fun (s, rest) => (.string s, rest)
          else if c = '[' then
            if depth ≤ 1 then none
            else match expect ']' (skip t).tail with
              | some rest => some (.array [], rest)
              | none => (readItems fuel (depth - 1) (skip t).tail).map
                  fun (items, rest) => (.array items, rest)
          else if c = '{' then
            if depth ≤ 1 then none
            else match expect '}' (skip t).tail with
              | some rest => some (.object [], rest)
              | none => (readMembers fuel (depth - 1) (skip t).tail).map
                  fun (members, rest) => (.object members, rest)
          else readNumeral (skip t)
def readItems : ℕ → ℕ → Text → Option (List Value × Text)
  | 0, _, _ => none
  | fuel + 1, depth, t =>
      (readValue fuel depth t).bind fun (v, rest) =>
        match expect ',' rest with
        | some rest => (readItems fuel depth rest).map fun (vs, rest) => (v :: vs, rest)
        | none => (expect ']' rest).map fun rest => ([v], rest)
def readMembers : ℕ → ℕ → Text → Option (List (Text × Value) × Text)
  | 0, _, _ => none
  | fuel + 1, depth, t =>
      (readString t).bind fun (name, rest) =>
        (expect ':' rest).bind fun rest =>
          (readValue fuel depth rest).bind fun (v, rest) =>
            match expect ',' rest with
            | some rest =>
                (readMembers fuel depth rest).map fun (ms, rest) => ((name, v) :: ms, rest)
            | none => (expect '}' rest).map fun rest => ([(name, v)], rest)
end

/-- A whole document. -/
def parse (limit : ℕ) (t : Text) : Option Value :=
  (readValue (t.length + 1) limit t).bind fun (v, rest) =>
    if skip rest = [] then some v else none

/-- `serde_json` gives up at 128 arrays and objects in one another. -/
def serdeLimit : ℕ := 128

/-! ## Strings -/

/-- Where surrogates are refused, the text is the same. -/
theorem readText_of_readLiteral (t : Text) : ∀ {found : Text × Text},
    readLiteral t = some found → readText t = some found := by
  induction hlength : t.length using Nat.strong_induction_on generalizing t with
  | _ n ih =>
    subst hlength
    intro found h
    cases t with
    | nil =>
        rw [readLiteral] at h
        cases h
    | cons c t =>
        rw [readLiteral] at h
        rw [readText]
        split_ifs at h ⊢ with hquote hslash hcontrol
        · exact h
        · split at h
          · cases h
          · rename_i d rest hescape
            have hescaped : readEscaped t = some (d, rest) := by
              rw [readEscaped, hescape, Option.some_or]
            obtain ⟨inner, hinner, rfl⟩ := Option.map_eq_some_iff.mp h
            have hshorter : rest.length < (c :: t).length :=
              (length_readEscape hescape).trans (Nat.lt_succ_self _)
            split
            · rename_i hnone
              rw [hescaped] at hnone
              cases hnone
            · rename_i d' rest' hsome
              cases hescaped.symm.trans hsome
              rw [ih _ hshorter rest rfl hinner]
              rfl
        · obtain ⟨inner, hinner, rfl⟩ := Option.map_eq_some_iff.mp h
          rw [ih _ (Nat.lt_succ_self _) t rfl hinner]
          rfl

theorem readText_jsonStringify (text rest : Text) :
    readText (jsonStringify text ++ rest).tail = some (text, rest) := by
  rw [← List.drop_one]
  exact readText_of_readLiteral _ (readLiteral_jsonStringify text rest).2

/-! ## One character at a time -/

theorem skip_cons {c : Char} (h : isBlank c = false) (t : Text) : skip (c :: t) = c :: t :=
  List.dropWhile_cons_of_neg (by simp [h])

theorem expect_cons {c : Char} (h : isBlank c = false) (t : Text) :
    expect c (c :: t) = some t := by
  unfold expect
  rw [skip_cons h]
  simp

theorem expect_ne {c d : Char} (h : isBlank d = false) (hne : d ≠ c) (t : Text) :
    expect c (d :: t) = none := by
  unfold expect
  rw [skip_cons h]
  simp [hne]

/-- What a document may start with: no blank and nothing that stands between documents. -/
def Opens (c : Char) : Prop := isBlank c = false ∧ c ≠ ',' ∧ c ≠ ']' ∧ c ≠ '}'

instance (c : Char) : Decidable (Opens c) := by
  unfold Opens
  infer_instance

/-- What may stand behind a document. -/
def Closed (rest : Text) : Prop := ∀ c ∈ rest.head?, isNumeralChar c = false

theorem closed_cons {c : Char} (h : isNumeralChar c = false) (rest : Text) :
    Closed (c :: rest) := by
  intro d hd
  rw [← Option.some.inj hd]
  exact h

theorem isNumeralChar_cases {c : Char} (h : isNumeralChar c = true) :
    Opens c ∧ c ≠ 'n' ∧ c ≠ 't' ∧ c ≠ 'f' ∧ c ≠ '"' ∧ c ≠ '[' ∧ c ≠ '{' := by
  have hnot : ∀ d, isNumeralChar d = false → c ≠ d := by
    rintro d hd rfl
    rw [h] at hd
    cases hd
  refine ⟨⟨?_, hnot _ (by decide), hnot _ (by decide), hnot _ (by decide)⟩, hnot _ (by decide),
    hnot _ (by decide), hnot _ (by decide), hnot _ (by decide), hnot _ (by decide),
    hnot _ (by decide)⟩
  cases hblank : isBlank c with
  | false => rfl
  | true =>
      simp only [isBlank, Bool.or_eq_true, beq_iff_eq] at hblank
      rcases hblank with ((rfl | rfl) | rfl) | rfl
      all_goals exact absurd h (by decide)

theorem Numeral.chars (n : Numeral) : ∀ c ∈ n.text, isNumeralChar c = true := by
  have hvalid := n.valid
  unfold isNumeral at hvalid
  exact List.all_eq_true.mp (Bool.and_eq_true_iff.mp hvalid).1

theorem Numeral.exists_cons (n : Numeral) : ∃ c t, n.text = c :: t := by
  cases htext : n.text with
  | nil =>
      have hvalid := n.valid
      rw [htext] at hvalid
      exact absurd hvalid (by decide)
  | cons c t => exact ⟨c, t, rfl⟩

theorem readNumeral_append (n : Numeral) {rest : Text} (h : Closed rest) :
    readNumeral (n.text ++ rest) = some (.number n, rest) := by
  have hcut : ∀ t : Text, Closed t → t.takeWhile isNumeralChar = [] ∧
      t.dropWhile isNumeralChar = t := by
    intro t ht
    cases t with
    | nil => exact ⟨rfl, rfl⟩
    | cons c t =>
        have hc := ht c rfl
        exact ⟨List.takeWhile_cons_of_neg (by simp [hc]), List.dropWhile_cons_of_neg (by simp [hc])⟩
  have htake : (n.text ++ rest).takeWhile isNumeralChar = n.text := by
    rw [List.takeWhile_append_of_pos n.chars, (hcut rest h).1, List.append_nil]
  have hdrop : (n.text ++ rest).dropWhile isNumeralChar = rest := by
    rw [List.dropWhile_append_of_pos n.chars, (hcut rest h).2]
  unfold readNumeral
  rw [dif_pos (by rw [htake]; exact n.valid)]
  simp only [htake, hdrop]

theorem readString_jsonStringify (text rest : Text) :
    readString (jsonStringify text ++ rest) = some (text, rest) := by
  unfold readString
  rw [show jsonStringify text ++ rest = '"' :: (jsonStringify text ++ rest).tail from rfl,
    expect_cons (by decide)]
  exact readText_jsonStringify text rest

theorem Value.print_opens (v : Value) : ∃ c t, v.print = c :: t ∧ Opens c := by
  cases v with
  | null => exact ⟨'n', _, rfl, by decide⟩
  | bool value =>
      cases value with
      | true => exact ⟨'t', _, rfl, by decide⟩
      | false => exact ⟨'f', _, rfl, by decide⟩
  | number value =>
      obtain ⟨c, t, htext⟩ := value.exists_cons
      have hc := value.chars c (htext ▸ List.mem_cons_self)
      exact ⟨c, t, by rw [Value.print, htext], (isNumeralChar_cases hc).1⟩
  | string text => exact ⟨'"', _, rfl, by decide⟩
  | array items => exact ⟨'[', _, by rw [Value.print], by decide⟩
  | object members => exact ⟨'{', _, by rw [Value.print], by decide⟩

/-! ## What is written is read -/

section

variable {fuel depth : ℕ} (rest : Text)

theorem readValue_null :
    readValue (fuel + 1) depth (Value.null.print ++ rest) = some (.null, rest) := by
  simp [readValue, Value.print, skip_cons (c := 'n') (by decide), keyword]

theorem readValue_bool (value : Bool) :
    readValue (fuel + 1) depth ((Value.bool value).print ++ rest) = some (.bool value, rest) := by
  cases value with
  | true => simp [readValue, Value.print, skip_cons (c := 't') (by decide), keyword]
  | false => simp [readValue, Value.print, skip_cons (c := 'f') (by decide), keyword]

theorem readValue_string (text : Text) :
    readValue (fuel + 1) depth ((Value.string text).print ++ rest) =
      some (.string text, rest) := by
  rw [Value.print, show jsonStringify text ++ rest =
    '"' :: (jsonStringify text ++ rest).tail from rfl]
  simp [readValue, skip_cons (c := '"') (by decide), readText_jsonStringify]

theorem readValue_number (value : Numeral) {rest : Text} (h : Closed rest) :
    readValue (fuel + 1) depth ((Value.number value).print ++ rest) =
      some (.number value, rest) := by
  have hread := readNumeral_append value h
  obtain ⟨c, t, htext⟩ := value.exists_cons
  obtain ⟨hopens, hn, ht, hf, hquote, hbracket, hbrace⟩ :=
    isNumeralChar_cases (value.chars c (htext ▸ List.mem_cons_self))
  rw [htext] at hread
  rw [Value.print, htext, List.cons_append] at *
  simp [readValue, skip_cons hopens.1, hn, ht, hf, hquote, hbracket, hbrace, hread]

end

mutual
/-- **A document, written, is read back**, and the reader stops behind it. -/
theorem readValue_print : ∀ (v : Value) (fuel depth : ℕ) (rest : Text),
    v.print.length ≤ fuel → v.depth < depth → Closed rest →
      readValue fuel depth (v.print ++ rest) = some (v, rest)
  | v, 0, _, _, hfuel, _, _ => by
      obtain ⟨c, t, hprint, _⟩ := v.print_opens
      rw [hprint] at hfuel
      cases hfuel
  | .null, _ + 1, _, rest, _, _, _ => readValue_null rest
  | .bool value, _ + 1, _, rest, _, _, _ => readValue_bool rest value
  | .number value, _ + 1, _, _, _, _, hrest => readValue_number value hrest
  | .string text, _ + 1, _, rest, _, _, _ => readValue_string rest text
  | .array [], fuel + 1, depth, rest, _, hdepth, _ => by
      have hone : ¬ depth ≤ 1 := by
        simp only [Value.depth, depthItems] at hdepth
        omega
      simp [readValue, Value.print, printItems, skip_cons (c := '[') (by decide), hone,
        expect_cons (c := ']') (by decide)]
  | .array (v :: vs), fuel + 1, depth, rest, hfuel, hdepth, _ => by
      have hone : ¬ depth ≤ 1 := by
        simp only [Value.depth] at hdepth
        omega
      have hitems := readItems_print (v :: vs) (List.cons_ne_nil _ _) fuel (depth - 1) rest
        (by
          simp only [Value.print, List.length_cons, List.length_append, List.length_nil] at hfuel
          omega)
        (by
          simp only [Value.depth] at hdepth
          omega)
      obtain ⟨c, t, hprint, hopens⟩ := v.print_opens
      have hnone : expect ']' (printItems (v :: vs) ++ ']' :: rest) = none := by
        rw [printItems, hprint]
        exact expect_ne hopens.1 hopens.2.2.1 _
      simp [readValue, Value.print, skip_cons (c := '[') (by decide), hone, hnone, hitems]
  | .object [], fuel + 1, depth, rest, _, hdepth, _ => by
      have hone : ¬ depth ≤ 1 := by
        simp only [Value.depth, depthMembers] at hdepth
        omega
      simp [readValue, Value.print, printMembers, skip_cons (c := '{') (by decide), hone,
        expect_cons (c := '}') (by decide)]
  | .object (m :: ms), fuel + 1, depth, rest, hfuel, hdepth, _ => by
      have hone : ¬ depth ≤ 1 := by
        simp only [Value.depth] at hdepth
        omega
      have hmembers := readMembers_print (m :: ms) (List.cons_ne_nil _ _) fuel (depth - 1) rest
        (by
          simp only [Value.print, List.length_cons, List.length_append, List.length_nil] at hfuel
          omega)
        (by
          simp only [Value.depth] at hdepth
          omega)
      have hnone : expect '}' (printMembers (m :: ms) ++ '}' :: rest) = none := by
        obtain ⟨name, v⟩ := m
        rw [printMembers]
        exact expect_ne (d := '"') (by decide) (by decide) _
      simp [readValue, Value.print, skip_cons (c := '{') (by decide), hone, hnone, hmembers]
theorem readItems_print : ∀ (items : List Value), items ≠ [] → ∀ (fuel depth : ℕ) (rest : Text),
    (printItems items).length + 1 ≤ fuel → depthItems items < depth →
      readItems fuel depth (printItems items ++ ']' :: rest) = some (items, rest)
  | [], hne, _, _, _, _, _ => absurd rfl hne
  | v :: vs, _, 0, _, _, hfuel, _ => absurd hfuel (Nat.not_succ_le_zero _)
  | [v], _, fuel + 1, depth, rest, hfuel, hdepth => by
      have hv := readValue_print v fuel depth (']' :: rest)
        (by
          simp only [printItems, List.length_append] at hfuel
          omega)
        (by
          simp only [depthItems] at hdepth
          omega)
        (closed_cons (by decide) rest)
      simp [readItems, printItems, hv, expect_ne (c := ',') (d := ']') (by decide) (by decide),
        expect_cons (c := ']') (by decide)]
  | v :: w :: vs, _, fuel + 1, depth, rest, hfuel, hdepth => by
      have hv := readValue_print v fuel depth (',' :: (printItems (w :: vs) ++ ']' :: rest))
        (by
          simp only [printItems, List.length_append] at hfuel
          omega)
        (by
          simp only [depthItems] at hdepth
          omega)
        (closed_cons (by decide) _)
      have hvs := readItems_print (w :: vs) (List.cons_ne_nil _ _) fuel depth rest
        (by
          rw [printItems] at hfuel
          simp only [List.isEmpty_cons, Bool.false_eq_true, if_false, List.length_append,
            List.length_cons] at hfuel
          omega)
        (by
          rw [depthItems] at hdepth
          omega)
      have hprint : printItems (v :: w :: vs) ++ ']' :: rest =
          v.print ++ ',' :: (printItems (w :: vs) ++ ']' :: rest) := by
        rw [printItems]
        simp
      rw [hprint, readItems, hv]
      simp [expect_cons (c := ',') (by decide), hvs]
theorem readMembers_print : ∀ (members : List (Text × Value)), members ≠ [] →
    ∀ (fuel depth : ℕ) (rest : Text),
      (printMembers members).length + 1 ≤ fuel → depthMembers members < depth →
        readMembers fuel depth (printMembers members ++ '}' :: rest) = some (members, rest)
  | [], hne, _, _, _, _, _ => absurd rfl hne
  | m :: ms, _, 0, _, _, hfuel, _ => absurd hfuel (Nat.not_succ_le_zero _)
  | [(name, v)], _, fuel + 1, depth, rest, hfuel, hdepth => by
      have hv := readValue_print v fuel depth ('}' :: rest)
        (by
          simp only [printMembers, List.length_append, List.length_cons] at hfuel
          omega)
        (by
          simp only [depthMembers] at hdepth
          omega)
        (closed_cons (by decide) rest)
      have hprint : printMembers [(name, v)] ++ '}' :: rest =
          jsonStringify name ++ ':' :: (v.print ++ '}' :: rest) := by
        rw [printMembers]
        simp
      rw [hprint, readMembers, readString_jsonStringify]
      simp [hv, expect_cons (c := ':') (by decide),
        expect_ne (c := ',') (d := '}') (by decide) (by decide),
        expect_cons (c := '}') (by decide)]
  | (name, v) :: m :: ms, _, fuel + 1, depth, rest, hfuel, hdepth => by
      have hv := readValue_print v fuel depth (',' :: (printMembers (m :: ms) ++ '}' :: rest))
        (by
          rw [printMembers] at hfuel
          simp only [List.length_append, List.length_cons] at hfuel
          omega)
        (by
          rw [depthMembers] at hdepth
          omega)
        (closed_cons (by decide) _)
      have hms := readMembers_print (m :: ms) (List.cons_ne_nil _ _) fuel depth rest
        (by
          rw [printMembers] at hfuel
          simp only [List.isEmpty_cons, Bool.false_eq_true, if_false, List.length_append,
            List.length_cons] at hfuel
          omega)
        (by
          rw [depthMembers] at hdepth
          omega)
      have hprint : printMembers ((name, v) :: m :: ms) ++ '}' :: rest =
          jsonStringify name ++
            ':' :: (v.print ++ ',' :: (printMembers (m :: ms) ++ '}' :: rest)) := by
        rw [printMembers]
        simp
      rw [hprint, readMembers, readString_jsonStringify]
      simp [hv, hms, expect_cons (c := ':') (by decide), expect_cons (c := ',') (by decide)]
end

theorem parse_print {v : Value} {limit : ℕ} (h : v.depth < limit) :
    parse limit v.print = some v := by
  have hread := readValue_print v (v.print.length + 1) limit [] (Nat.le_succ _) h
    (fun c hc => by cases hc)
  rw [List.append_nil] at hread
  unfold parse
  rw [hread]
  rfl

end Wallermax.Json
