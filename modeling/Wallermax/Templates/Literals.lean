import Wallermax.Templates.Parser

/-!
# Reading a string literal back

The reader of the language that runs the compiled program, for one JSON string
literal: it stands behind the opening quote and stops at the first quote that no
escape consumed. It refuses a raw control character, as that lexer does, and an
escaped surrogate, which `json_stringify` never writes.
-/

namespace Wallermax.Templates

/-! ## The reader -/

def hexValue (c : Char) : Option ℕ :=
  if '0' ≤ c ∧ c ≤ '9' then some (c.toNat - '0'.toNat)
  else if 'a' ≤ c ∧ c ≤ 'f' then some (c.toNat - 'a'.toNat + 10)
  else if 'A' ≤ c ∧ c ≤ 'F' then some (c.toNat - 'A'.toNat + 10)
  else none

/-- Four hexadecimal digits. -/
def hexNumber (a b c d : Char) : Option ℕ := do
  let a ← hexValue a
  let b ← hexValue b
  let c ← hexValue c
  let d ← hexValue d
  return 4096 * a + 256 * b + 16 * c + d

/-- The character behind a backslash. -/
def simpleEscape (c : Char) : Option Char :=
  if c = '"' ∨ c = '\\' ∨ c = '/' then some c
  else if c = 'b' then some (Char.ofNat 0x08)
  else if c = 'f' then some (Char.ofNat 0x0C)
  else if c = 'n' then some '\n'
  else if c = 'r' then some '\r'
  else if c = 't' then some '\t'
  else none

/-- What an escape stands for, and what is left behind it. -/
def readEscape : List Char → Option (Char × List Char)
  | 'u' :: a :: b :: c :: d :: rest =>
      (hexNumber a b c d).bind fun n =>
        if n.isValidChar then some (Char.ofNat n, rest) else none
  | c :: rest => (simpleEscape c).map fun d => (d, rest)
  | [] => none

theorem length_readEscape {s rest : List Char} {c : Char}
    (h : readEscape s = some (c, rest)) : rest.length < s.length := by
  unfold readEscape at h
  split at h
  · obtain ⟨n, -, hn⟩ := Option.bind_eq_some_iff.mp h
    split at hn
    · cases hn
      simp only [List.length_cons]
      omega
    · cases hn
  · obtain ⟨d, -, hd⟩ := Option.map_eq_some_iff.mp h
    cases hd
    simp
  · cases h

/-- The text of a literal, and what is left behind its closing quote. -/
def readLiteral : List Char → Option (List Char × List Char)
  | [] => none
  | c :: s =>
      if c = '"' then some ([], s)
      else if c = '\\' then
        match _hesc : readEscape s with
        | none => none
        | some (d, rest) => (readLiteral rest).map fun (text, left) => (d :: text, left)
      else if c.toNat < 0x20 then none
      else (readLiteral s).map fun (text, left) => (c :: text, left)
termination_by s => s.length
decreasing_by
  · have := length_readEscape _hesc
    simp only [List.length_cons]
    omega
  · simp

theorem readLiteral_quote (s : List Char) : readLiteral ('"' :: s) = some ([], s) := by
  rw [readLiteral, if_pos rfl]

theorem readLiteral_escape {s rest : List Char} {d : Char} (h : readEscape s = some (d, rest)) :
    readLiteral ('\\' :: s) = (readLiteral rest).map fun (text, left) => (d :: text, left) := by
  rw [readLiteral, if_neg (by decide), if_pos rfl]
  split
  · rename_i heq
    rw [h] at heq
    cases heq
  · rename_i heq
    cases h.symm.trans heq
    rfl

theorem readLiteral_plain {c : Char} (hquote : c ≠ '"') (hslash : c ≠ '\\')
    (hcontrol : ¬ c.toNat < 0x20) (s : List Char) :
    readLiteral (c :: s) = (readLiteral s).map fun (text, left) => (c :: text, left) := by
  rw [readLiteral, if_neg hquote, if_neg hslash, if_neg hcontrol]

/-! ## `json_stringify` -/

/-- The control characters are written with four digits that read back. -/
theorem readEscape_hex4 {n : ℕ} (hn : n < 0x20) (rest : List Char) :
    readEscape ('u' :: (hex4 n ++ rest)) = some (Char.ofNat n, rest) := by
  have hdigits : ∀ m < 0x20, hexNumber (Nat.digitChar (m / 4096 % 16))
      (Nat.digitChar (m / 256 % 16)) (Nat.digitChar (m / 16 % 16)) (Nat.digitChar (m % 16)) =
        some m ∧ m.isValidChar := by decide
  obtain ⟨hnum, hvalid⟩ := hdigits n hn
  simp [hex4, readEscape, hnum, hvalid]

/-- **One character reads back**, whatever follows it. -/
theorem readLiteral_jsonEscape (c : Char) (s : List Char) :
    readLiteral (jsonEscape c ++ s) =
      (readLiteral s).map fun (text, left) => (c :: text, left) := by
  have simple (e : Char) (he : e ≠ 'u') (hc : simpleEscape e = some c) :
      readLiteral (['\\', e] ++ s) =
        (readLiteral s).map fun (text, left) => (c :: text, left) := by
    refine readLiteral_escape ?_
    show readEscape (e :: s) = some (c, s)
    unfold readEscape
    split
    · rename_i heq
      exact absurd (List.cons.inj heq).1 he
    · rename_i heq
      obtain ⟨rfl, rfl⟩ := List.cons.inj heq
      rw [hc]
      rfl
    · rename_i heq
      cases heq
  have hof {n : ℕ} (h : c.toNat = n) : Char.ofNat n = c := by
    rw [← h, Char.ofNat_toNat]
  unfold jsonEscape
  split_ifs with hquote hslash hlf hcr htab hbs hff hcontrol
  · exact simple '"' (by decide) (by rw [hquote]; rfl)
  · exact simple '\\' (by decide) (by rw [hslash]; rfl)
  · exact simple 'n' (by decide) (by rw [hlf]; rfl)
  · exact simple 'r' (by decide) (by rw [hcr]; rfl)
  · exact simple 't' (by decide) (by rw [htab]; rfl)
  · exact simple 'b' (by decide) (by rw [← hof hbs]; rfl)
  · exact simple 'f' (by decide) (by rw [← hof hff]; rfl)
  · rw [List.append_assoc]
    refine readLiteral_escape ?_
    show readEscape ('u' :: (hex4 c.toNat ++ s)) = some (c, s)
    rw [readEscape_hex4 hcontrol, hof rfl]
  · exact readLiteral_plain hquote hslash hcontrol s

theorem readLiteral_flatMap (text rest : List Char) :
    readLiteral (text.flatMap jsonEscape ++ ('"' :: rest)) = some (text, rest) := by
  induction text with
  | nil => exact readLiteral_quote rest
  | cons c text ih =>
      rw [List.flatMap_cons, List.append_assoc, readLiteral_jsonEscape, ih]
      rfl

/-- **The literal reads back as the text**, and the reader stops at its last
character. -/
theorem readLiteral_jsonStringify (text rest : List Char) :
    (jsonStringify text ++ rest).head? = some '"' ∧
      readLiteral ((jsonStringify text ++ rest).drop 1) = some (text, rest) := by
  refine ⟨rfl, ?_⟩
  show readLiteral (text.flatMap jsonEscape ++ ['"'] ++ rest) = _
  rw [List.append_assoc]
  exact readLiteral_flatMap text rest

theorem hex4_printable {n : ℕ} {d : Char} (h : d ∈ hex4 n) : 0x20 ≤ d.toNat := by
  have hdigit : ∀ m < 16, 0x20 ≤ (Nat.digitChar m).toNat := by decide
  simp only [hex4, List.mem_cons, List.not_mem_nil, or_false] at h
  rcases h with rfl | rfl | rfl | rfl <;> exact hdigit _ (Nat.mod_lt _ (by decide))

theorem jsonEscape_printable {c d : Char} (h : d ∈ jsonEscape c) : 0x20 ≤ d.toNat := by
  unfold jsonEscape at h
  split_ifs at h with hquote hslash hlf hcr htab hbs hff hcontrol
  any_goals
    simp only [List.mem_cons, List.not_mem_nil, or_false] at h
    rcases h with rfl | rfl <;> decide
  · rcases List.mem_append.mp h with hpre | hhex
    · simp only [List.mem_cons, List.not_mem_nil, or_false] at hpre
      rcases hpre with rfl | rfl <;> decide
    · exact hex4_printable hhex
  · rw [List.mem_singleton.mp h]
    omega

/-- No line break and no other control character is left raw. -/
theorem jsonStringify_printable {text : List Char} {d : Char} (h : d ∈ jsonStringify text) :
    0x20 ≤ d.toNat := by
  simp only [jsonStringify, List.mem_append, List.mem_singleton, List.mem_flatMap] at h
  rcases h with (rfl | ⟨c, -, hd⟩) | rfl
  · decide
  · exact jsonEscape_printable hd
  · decide

end Wallermax.Templates
