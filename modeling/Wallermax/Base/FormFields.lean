import Wallermax.Base.Ascii
import Wallermax.Base.Cut
import Wallermax.Base.PercentEncoding
import Wallermax.Base.Uri

/-!
# Form fields

`application/x-www-form-urlencoded`, the coding of a query and of a posted form: fields
between `&`, the name before the first `=`, a space written as `+` and other octets as
escapes. A value that escapes these signs is one field and reads back as itself.
-/

namespace Wallermax.Base.FormFields

/-- `+` is a space, and then the escapes are undone. -/
def decode (t : Text) : Text := percentText (t.map fun c => if c = '+' then ' ' else c)

/-- A field without `=` is a name without a value. -/
def readField (t : Text) : Text × Text :=
  (decode (t.span (· != '=')).1, decode (t.span (· != '=')).2.tail)

/-- The fields, empty ones skipped. -/
def parse (t : Text) : List (Text × Text) :=
  ((t.splitOn '&').filter (· ≠ [])).map readField

/-- The character stands for itself in a value. -/
def IsPlain (c : Char) : Prop := c.toNat < 0x80 ∧ c ≠ '%' ∧ c ≠ '+' ∧ c ≠ '&' ∧ c ≠ '#'

instance (c : Char) : Decidable (IsPlain c) := inferInstanceAs (Decidable (_ ∧ _))

/-! ## Reading what was written -/

theorem isPlain_hexUpper (n : Fin 16) : IsPlain (hexUpper n) := by
  unfold IsPlain
  revert n
  decide

section

variable {safe : Char → Bool} (hsafe : ∀ c, safe c = true → IsPlain c)

include hsafe

theorem percentEncode_ne_sign {c : Char} {t : Text} (hc : c ∈ percentEncode safe t) :
    c ≠ '+' ∧ c ≠ '&' ∧ c ≠ '#' := by
  rcases mem_percentEncode hc with h | rfl | ⟨n, rfl⟩
  · exact (hsafe c h).2.2
  · decide
  · exact (isPlain_hexUpper n).2.2

/-- **A value is decoded to what was encoded.** -/
theorem decode_percentEncode (t : Text) : decode (percentEncode safe t) = t := by
  have hkept : (percentEncode safe t).map (fun c => if c = '+' then ' ' else c) =
      (percentEncode safe t).map id :=
    List.map_congr_left fun c hc => if_neg (percentEncode_ne_sign hsafe hc).1
  have hascii : ∀ c, safe c = true → c.toNat < 0x80 ∧ c ≠ '%' := fun c hc =>
    ⟨(hsafe c hc).1, (hsafe c hc).2.1⟩
  rw [decode, hkept, List.map_id]
  exact percentText_of_strict (percentText?_percentEncode hascii t)

/-- **One field** is read back. -/
theorem parse_field {name : Text} (hequals : '=' ∉ name) (hamp : '&' ∉ name) (value : Text) :
    parse (name ++ '=' :: percentEncode safe value) = [(decode name, value)] := by
  have hvalue : '&' ∉ name ++ '=' :: percentEncode safe value := by
    intro hmem
    rcases List.mem_append.mp hmem with hmem | hmem
    · exact hamp hmem
    · rcases List.mem_cons.mp hmem with heq | hmem
      · cases heq
      · exact (percentEncode_ne_sign hsafe hmem).2.1 rfl
  rw [parse, splitOn_of_not_mem hvalue, List.filter_cons_of_pos (by simp),
    List.filter_nil, List.map_singleton, readField, span_append_cons hequals]
  exact congrArg (fun t => [(decode name, t)]) (decode_percentEncode hsafe value)

end

/-! ## The serializer -/

/-- The octets that are written as they are. -/
def isFormSafe (c : Char) : Bool :=
  c.isAlphanum || c == '*' || c == '-' || c == '.' || c == '_'

/-- `byte_serialize`: a space as `+`, other octets as escapes. -/
def encode (t : Text) : Text :=
  t.flatMap fun c =>
    if c = ' ' then ['+']
    else if isFormSafe c then [c]
    else (String.utf8EncodeChar c).flatMap percentOctet

theorem isPlain_of_isFormSafe {c : Char} (h : isFormSafe c = true) : IsPlain c := by
  simp only [isFormSafe, Bool.or_eq_true, beq_iff_eq] at h
  rcases h with (((h | rfl) | rfl) | rfl) | rfl
  · have hrange := toNat_of_isAlphanum h
    have hne : ∀ d : Char, d.toNat < 48 → c ≠ d := by
      rintro d hd rfl
      omega
    exact ⟨by omega, hne _ (by decide), hne _ (by decide), hne _ (by decide), hne _ (by decide)⟩
  · decide
  · decide
  · decide
  · decide

theorem mem_encode {c : Char} {t : Text} (hc : c ∈ encode t) :
    c = '+' ∨ c = '%' ∨ isFormSafe c = true ∨ ∃ n : Fin 16, c = hexUpper n := by
  obtain ⟨d, _, hd⟩ := List.mem_flatMap.mp hc
  split at hd
  · exact Or.inl (List.mem_singleton.mp hd)
  · split at hd
    case isTrue hsafe =>
      obtain rfl := List.mem_singleton.mp hd
      exact Or.inr (Or.inr (Or.inl hsafe))
    case isFalse =>
      obtain ⟨b, _, hb⟩ := List.mem_flatMap.mp hd
      rcases mem_percentOctet hb with rfl | hhex
      · exact Or.inr (Or.inl rfl)
      · exact Or.inr (Or.inr (Or.inr hhex))

theorem encode_ne_sign {c : Char} {t : Text} (hc : c ∈ encode t) : c ≠ '&' ∧ c ≠ '#' := by
  rcases mem_encode hc with rfl | rfl | hsafe | ⟨n, rfl⟩
  · decide
  · decide
  · exact (isPlain_of_isFormSafe hsafe).2.2.2
  · exact (isPlain_hexUpper n).2.2.2

/-- With its plus signs read, an encoding leaves the spaces alone. -/
theorem map_encode (t : Text) :
    (encode t).map (fun c => if c = '+' then ' ' else c) =
      percentEncode (fun c => c == ' ' || isFormSafe c) t := by
  rw [encode, percentEncode, List.map_flatMap]
  refine List.flatMap_congr fun c _ => ?_
  by_cases hspace : c = ' '
  · subst hspace
    rfl
  · rw [if_neg hspace, beq_false_of_ne hspace, Bool.false_or]
    cases hsafe : isFormSafe c with
    | true =>
        rw [if_pos rfl, List.map_singleton,
          if_neg (isPlain_of_isFormSafe hsafe).2.2.1]
    | false =>
        rw [if_neg Bool.false_ne_true]
        have hkept : ∀ d ∈ (String.utf8EncodeChar c).flatMap percentOctet,
            (if d = '+' then ' ' else d) = id d := by
          intro d hd
          obtain ⟨b, _, hb⟩ := List.mem_flatMap.mp hd
          apply if_neg
          rcases mem_percentOctet hb with rfl | ⟨n, rfl⟩
          · decide
          · exact (isPlain_hexUpper n).2.2.1
        rw [List.map_congr_left hkept, List.map_id]

/-- **What the serializer writes is read back.** -/
theorem decode_encode (t : Text) : decode (encode t) = t := by
  have hascii : ∀ c, (c == ' ' || isFormSafe c) = true → c.toNat < 0x80 ∧ c ≠ '%' := by
    intro c hc
    rcases Bool.or_eq_true_iff.mp hc with hspace | hsafe
    · rw [beq_iff_eq.mp hspace]
      decide
    · exact ⟨(isPlain_of_isFormSafe hsafe).1, (isPlain_of_isFormSafe hsafe).2.1⟩
  rw [decode, map_encode]
  exact percentText_of_strict (percentText?_percentEncode hascii t)

/-- `append_pair` of a name that needs no escape. -/
def field (name value : Text) : Text := name ++ '=' :: encode value

/-- The name needs no escape. -/
def IsName (name : Text) : Prop := ∀ c ∈ name, isFormSafe c = true

variable {name name' : Text}

theorem encode_of_isName (h : IsName name) : encode name = name := by
  rw [encode, List.flatMap_congr (g := fun c => [c]), List.flatMap_singleton']
  intro c hc
  have hne : c ≠ ' ' := by
    rintro rfl
    cases h ' ' hc
  rw [if_neg hne, if_pos (h c hc)]

theorem decode_of_isName (h : IsName name) : decode name = name := by
  have hname := decode_encode name
  rwa [encode_of_isName h] at hname

theorem field_ne_sign (h : IsName name) (value : Text) :
    ∀ c ∈ field name value, c ≠ '&' ∧ c ≠ '#' := by
  intro c hc
  rcases List.mem_append.mp hc with hc | hc
  · exact (isPlain_of_isFormSafe (h c hc)).2.2.2
  · rcases List.mem_cons.mp hc with rfl | hc
    · decide
    · exact encode_ne_sign hc

theorem field_ne_nil (name value : Text) : field name value ≠ [] := by
  simp [field]

theorem readField_field (h : IsName name) (value : Text) :
    readField (field name value) = (name, value) := by
  have hequals : '=' ∉ name := fun hmem => by cases h '=' hmem
  rw [readField, field, span_append_cons hequals]
  exact Prod.ext (decode_of_isName h) (decode_encode value)

/-- **One field** of the serializer is read back. -/
theorem parse_serialized (h : IsName name) (value : Text) :
    parse (field name value) = [(name, value)] := by
  have hamp : '&' ∉ field name value := fun hmem => (field_ne_sign h value _ hmem).1 rfl
  rw [parse, splitOn_of_not_mem hamp, List.filter_cons_of_pos (by simp [field_ne_nil]),
    List.filter_nil, List.map_singleton, readField_field h]

/-- **Two fields** of the serializer are read back. -/
theorem parse_serialized_pair (h : IsName name) (h' : IsName name') (value value' : Text) :
    parse (field name value ++ '&' :: field name' value') =
      [(name, value), (name', value')] := by
  have hamp : '&' ∉ field name value := fun hmem => (field_ne_sign h value _ hmem).1 rfl
  have hamp' : '&' ∉ field name' value' := fun hmem => (field_ne_sign h' value' _ hmem).1 rfl
  rw [parse, splitOn_pair hamp hamp', List.filter_cons_of_pos (by simp [field_ne_nil]),
    List.filter_cons_of_pos (by simp [field_ne_nil]), List.filter_nil, List.map_cons,
    List.map_singleton, readField_field h, readField_field h']

end Wallermax.Base.FormFields
