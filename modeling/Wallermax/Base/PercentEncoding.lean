import Mathlib.Data.List.Basic

/-!
# Percent-decoding and UTF-8

`percent_decode_str` and the two ways to read its octets as text. The decoder
walks the octets with the rest of a character still owed; an octet that cannot
continue it, or end of input, marks one maximal ill-formed subsequence. The
lossy reading puts U+FFFD for each mark, the strict reading accepts none, so
where the strict reading succeeds the two agree. The encoder escapes the octets
of the characters outside a set and is undone by the decoder.
-/

namespace Wallermax.Base

/-! ## Percent-decoding -/

def hexDigit (b : UInt8) : Option UInt8 :=
  if 0x30 ≤ b ∧ b ≤ 0x39 then some (b - 0x30)
  else if 0x41 ≤ b ∧ b ≤ 0x46 then some (b - 0x37)
  else if 0x61 ≤ b ∧ b ≤ 0x66 then some (b - 0x57)
  else none

/-- A `%` that two hex digits do not follow stands for itself. -/
def percentDecode : List UInt8 → List UInt8
  | b :: h :: l :: rest =>
      if b = 0x25 then
        match hexDigit h, hexDigit l with
        | some x, some y => (x * 16 + y) :: percentDecode rest
        | _, _ => b :: percentDecode (h :: l :: rest)
      else b :: percentDecode (h :: l :: rest)
  | b :: rest => b :: percentDecode rest
  | [] => []

theorem percentDecode_cons {b : UInt8} (hb : b ≠ 0x25) (bs : List UInt8) :
    percentDecode (b :: bs) = b :: percentDecode bs := by
  match bs with
  | [] => rfl
  | [h] => rfl
  | h :: l :: rest => simp [percentDecode, hb]

theorem percentDecode_ne_nil {bs : List UInt8} (h : bs ≠ []) : percentDecode bs ≠ [] := by
  match bs with
  | [] => exact absurd rfl h
  | [b] => simp [percentDecode]
  | [b, h'] => simp [percentDecode]
  | b :: h' :: l :: rest =>
      simp only [percentDecode]
      split
      · split <;> simp
      · simp

/-! ## UTF-8 -/

/-- What a started character still owes: how many octets, the bounds of the next
one, and the bits read so far. -/
structure Owed : Type where
  octets : ℕ
  low : ℕ
  high : ℕ
  bits : ℕ

/-- The first octet of a character; `none` in the output is an ill-formed
subsequence. -/
def utf8Lead (b : ℕ) : List (Option Char) × Option Owed :=
  if b < 0x80 then ([some (Char.ofNat b)], none)
  else if 0xC2 ≤ b ∧ b ≤ 0xDF then ([], some ⟨1, 0x80, 0xBF, b - 0xC0⟩)
  else if b = 0xE0 then ([], some ⟨2, 0xA0, 0xBF, 0⟩)
  else if b = 0xED then ([], some ⟨2, 0x80, 0x9F, 0xD⟩)
  else if 0xE1 ≤ b ∧ b ≤ 0xEF then ([], some ⟨2, 0x80, 0xBF, b - 0xE0⟩)
  else if b = 0xF0 then ([], some ⟨3, 0x90, 0xBF, 0⟩)
  else if 0xF1 ≤ b ∧ b ≤ 0xF3 then ([], some ⟨3, 0x80, 0xBF, b - 0xF0⟩)
  else if b = 0xF4 then ([], some ⟨3, 0x80, 0x8F, 4⟩)
  else ([none], none)

/-- One octet. One that does not continue a started character ends it as
ill-formed and starts afresh. -/
def utf8Octet (owed : Option Owed) (b : ℕ) : List (Option Char) × Option Owed :=
  match owed with
  | none => utf8Lead b
  | some o =>
      if o.low ≤ b ∧ b ≤ o.high then
        let bits := o.bits * 64 + (b - 0x80)
        if o.octets ≤ 1 then ([some (Char.ofNat bits)], none)
        else ([], some ⟨o.octets - 1, 0x80, 0xBF, bits⟩)
      else (none :: (utf8Lead b).1, (utf8Lead b).2)

def utf8Decode (owed : Option Owed) : List UInt8 → List (Option Char)
  | [] => if owed.isSome then [none] else []
  | b :: bs =>
      (utf8Octet owed b.toNat).1 ++ utf8Decode (utf8Octet owed b.toNat).2 bs

/-- `decode_utf8_lossy`. -/
def decodeLossy (bs : List UInt8) : List Char :=
  (utf8Decode none bs).map fun c => c.getD '\uFFFD'

/-- `decode_utf8`. -/
def decodeStrict (bs : List UInt8) : Option (List Char) :=
  if (utf8Decode none bs).all Option.isSome then some (decodeLossy bs) else none

/-- Where the strict reading succeeds, the lossy one is the same text. -/
theorem decodeLossy_of_strict {bs : List UInt8} {s : List Char}
    (h : decodeStrict bs = some s) : decodeLossy bs = s := by
  simp only [decodeStrict, Option.ite_none_right_eq_some, Option.some.injEq] at h
  exact h.2

theorem utf8Decode_owed_ne_nil (bs : List UInt8) (o : Owed) :
    utf8Decode (some o) bs ≠ [] := by
  induction bs generalizing o with
  | nil => simp [utf8Decode]
  | cons b bs ih =>
      simp only [utf8Decode, utf8Octet]
      split
      · split
        · simp
        · simpa using ih _
      · simp

theorem utf8Decode_ne_nil {bs : List UInt8} (h : bs ≠ []) : utf8Decode none bs ≠ [] := by
  cases bs with
  | nil => exact absurd rfl h
  | cons b bs =>
      simp only [utf8Decode, utf8Octet, utf8Lead]
      repeat' split
      all_goals simp [utf8Decode_owed_ne_nil]

/-- An ASCII octet reads as its character. -/
theorem decodeLossy_cons_ascii {b : UInt8} (hb : b.toNat < 0x80) (bs : List UInt8) :
    decodeLossy (b :: bs) = Char.ofNat b.toNat :: decodeLossy bs := by
  simp [decodeLossy, utf8Decode, utf8Octet, utf8Lead, hb]

/-! ## Percent-encoded text -/

/-- The octets of a text. -/
def octets (s : List Char) : List UInt8 := s.flatMap String.utf8EncodeChar

/-- `percent_decode_str(s).decode_utf8_lossy()`. -/
def percentText (s : List Char) : List Char := decodeLossy (percentDecode (octets s))

/-- `percent_decode_str(s).decode_utf8()`. -/
def percentText? (s : List Char) : Option (List Char) :=
  decodeStrict (percentDecode (octets s))

theorem percentText_of_strict {s t : List Char} (h : percentText? s = some t) :
    percentText s = t :=
  decodeLossy_of_strict h

/-- A plain ASCII character stands for itself. -/
theorem percentText_cons {c : Char} {b : UInt8} (hc : String.utf8EncodeChar c = [b])
    (hb : b.toNat < 0x80) (hpercent : b ≠ 0x25) (s : List Char) :
    percentText (c :: s) = Char.ofNat b.toNat :: percentText s := by
  rw [percentText, octets, List.flatMap_cons, hc, List.singleton_append,
    percentDecode_cons hpercent, decodeLossy_cons_ascii hb]
  rfl

theorem percentText_ne_nil {s : List Char} (h : s ≠ []) : percentText s ≠ [] := by
  have hoctets : octets s ≠ [] := by
    cases s with
    | nil => exact absurd rfl h
    | cons c s =>
        intro heq
        have hlen := congrArg List.length heq
        have hpos := c.utf8Size_pos
        simp only [octets, List.flatMap_cons, List.length_append,
          String.length_utf8EncodeChar, List.length_nil] at hlen
        omega
  have hmap := utf8Decode_ne_nil (percentDecode_ne_nil hoctets)
  simpa [percentText, decodeLossy] using hmap

theorem percentText_slash (s : List Char) :
    percentText ('/' :: s) = '/' :: percentText s :=
  percentText_cons (b := 0x2F) (by decide) (by decide) (by decide) s

/-! ## Encoded characters -/

theorem toNat_ofNat_lt {x : ℕ} (h : x < 256) : (UInt8.ofNat x).toNat = x := by
  rw [UInt8.toNat_ofNat']
  exact Nat.mod_eq_of_lt h

theorem utf8Decode_lead {x : ℕ} {o : Owed} (hx : x < 256) (h : utf8Lead x = ([], some o))
    (bs : List UInt8) : utf8Decode none (UInt8.ofNat x :: bs) = utf8Decode (some o) bs := by
  simp only [utf8Decode, utf8Octet, toNat_ofNat_lt hx, h, List.nil_append]

/-- An octet that leaves others owed. -/
theorem utf8Decode_more {y : ℕ} {o : Owed} (hy : y < 256) (hlow : o.low ≤ y)
    (hhigh : y ≤ o.high) (hmore : 1 < o.octets) (bs : List UInt8) :
    utf8Decode (some o) (UInt8.ofNat y :: bs) =
      utf8Decode (some ⟨o.octets - 1, 0x80, 0xBF, o.bits * 64 + (y - 0x80)⟩) bs := by
  simp only [utf8Decode, utf8Octet, toNat_ofNat_lt hy]
  rw [if_pos ⟨hlow, hhigh⟩, if_neg (by omega)]
  rfl

/-- The last octet owed. -/
theorem utf8Decode_last {y : ℕ} {o : Owed} (hy : y < 256) (hlow : o.low ≤ y)
    (hhigh : y ≤ o.high) (hlast : o.octets = 1) (bs : List UInt8) :
    utf8Decode (some o) (UInt8.ofNat y :: bs) =
      some (Char.ofNat (o.bits * 64 + (y - 0x80))) :: utf8Decode none bs := by
  simp only [utf8Decode, utf8Octet, toNat_ofNat_lt hy]
  rw [if_pos ⟨hlow, hhigh⟩, if_pos (by omega)]
  rfl

/-- The first octet of three: after `0xE0` an overlong form and after `0xED` a
surrogate are excluded. -/
theorem utf8Lead_three {x : ℕ} (hlow : 0xE0 ≤ x) (hhigh : x ≤ 0xEF) :
    utf8Lead x = ([], some ⟨2, if x = 0xE0 then 0xA0 else 0x80,
      if x = 0xED then 0x9F else 0xBF, x - 0xE0⟩) := by
  unfold utf8Lead
  rw [if_neg (by omega), if_neg (by omega)]
  by_cases hE0 : x = 0xE0
  · simp [hE0]
  · by_cases hED : x = 0xED
    · simp [hED]
    · rw [if_neg hE0, if_neg hED, if_pos (by omega), if_neg hE0, if_neg hED]

/-- The first octet of four. -/
theorem utf8Lead_four {x : ℕ} (hlow : 0xF0 ≤ x) (hhigh : x ≤ 0xF4) :
    utf8Lead x = ([], some ⟨3, if x = 0xF0 then 0x90 else 0x80,
      if x = 0xF4 then 0x8F else 0xBF, x - 0xF0⟩) := by
  unfold utf8Lead
  rw [if_neg (by omega), if_neg (by omega), if_neg (by omega), if_neg (by omega),
    if_neg (by omega)]
  by_cases hF0 : x = 0xF0
  · simp [hF0]
  · by_cases hF4 : x = 0xF4
    · simp [hF4]
    · rw [if_neg hF0, if_pos (by omega), if_neg hF0, if_neg hF4]

theorem utf8EncodeChar_ascii {c : Char} (hc : c.toNat ≤ 0x7F) :
    String.utf8EncodeChar c = [UInt8.ofNat c.toNat] := by
  unfold String.utf8EncodeChar
  exact if_pos hc

/-- Octets of a character beyond ASCII are beyond ASCII. -/
theorem le_of_mem_utf8EncodeChar {c : Char} (hc : 0x7F < c.toNat) :
    ∀ b ∈ String.utf8EncodeChar c, 0x80 ≤ b.toNat := by
  intro b hb
  have htoNat : c.val.toNat = c.toNat := rfl
  unfold String.utf8EncodeChar at hb
  simp only [htoNat] at hb
  rw [if_neg (by omega)] at hb
  split at hb
  · simp only [List.mem_cons, List.not_mem_nil, or_false] at hb
    rcases hb with rfl | rfl <;> rw [toNat_ofNat_lt (by omega)] <;> omega
  · split at hb
    · simp only [List.mem_cons, List.not_mem_nil, or_false] at hb
      rcases hb with rfl | rfl | rfl <;> rw [toNat_ofNat_lt (by omega)] <;> omega
    · simp only [List.mem_cons, List.not_mem_nil, or_false] at hb
      rcases hb with rfl | rfl | rfl | rfl <;> rw [toNat_ofNat_lt (by omega)] <;> omega

/-- The decoder reads an encoded character. -/
theorem utf8Decode_utf8EncodeChar (c : Char) (bs : List UInt8) :
    utf8Decode none (String.utf8EncodeChar c ++ bs) = some c :: utf8Decode none bs := by
  have hchar : ∀ n, n = c.toNat → Char.ofNat n = c := by
    intro n hn
    rw [hn, Char.ofNat_toNat]
  have hvalid : c.toNat < 0xD800 ∨ (0xDFFF < c.toNat ∧ c.toNat < 0x110000) := c.valid
  have htoNat : c.val.toNat = c.toNat := rfl
  unfold String.utf8EncodeChar
  simp only [htoNat]
  by_cases h1 : c.toNat ≤ 0x7F
  · rw [if_pos h1]
    simp only [List.cons_append, List.nil_append, utf8Decode, utf8Octet, utf8Lead,
      toNat_ofNat_lt (show c.toNat < 256 by omega)]
    rw [if_pos (show c.toNat < 0x80 by omega), hchar _ rfl]
    rfl
  rw [if_neg h1]
  by_cases h2 : c.toNat ≤ 0x7FF
  · rw [if_pos h2]
    have hlead : utf8Lead (c.toNat / 64 % 0x20 + 0xC0) =
        ([], some ⟨1, 0x80, 0xBF, c.toNat / 64 % 0x20 + 0xC0 - 0xC0⟩) := by
      unfold utf8Lead
      rw [if_neg (by omega), if_pos (by omega)]
    simp only [List.cons_append, List.nil_append]
    rw [utf8Decode_lead (by omega) hlead,
      utf8Decode_last (by omega) (by dsimp only; omega) (by dsimp only; omega) rfl,
      hchar _ (by dsimp only; omega)]
  rw [if_neg h2]
  by_cases h3 : c.toNat ≤ 0xFFFF
  · rw [if_pos h3]
    simp only [List.cons_append, List.nil_append]
    rw [utf8Decode_lead (by omega) (utf8Lead_three (by omega) (by omega)),
      utf8Decode_more (by omega) (by dsimp only; split <;> omega)
        (by dsimp only; split <;> omega) (by dsimp only; omega),
      utf8Decode_last (by omega) (by dsimp only; omega) (by dsimp only; omega) rfl,
      hchar _ (by dsimp only; omega)]
  · rw [if_neg h3]
    simp only [List.cons_append, List.nil_append]
    rw [utf8Decode_lead (by omega) (utf8Lead_four (by omega) (by omega)),
      utf8Decode_more (by omega) (by dsimp only; split <;> omega)
        (by dsimp only; split <;> omega) (by dsimp only; omega),
      utf8Decode_more (by omega) (by dsimp only; omega) (by dsimp only; omega)
        (by dsimp only; omega),
      utf8Decode_last (by omega) (by dsimp only; omega) (by dsimp only; omega) rfl,
      hchar _ (by dsimp only; omega)]

/-- **The strict reading gives a text back from its octets.** -/
theorem decodeStrict_octets (s : List Char) : decodeStrict (octets s) = some s := by
  have hdecode : utf8Decode none (octets s) = s.map some := by
    induction s with
    | nil => rfl
    | cons c s ih =>
        rw [octets, List.flatMap_cons, utf8Decode_utf8EncodeChar]
        exact congrArg (some c :: ·) ih
  have hlossy : decodeLossy (octets s) = s := by
    rw [decodeLossy, hdecode, List.map_map]
    exact List.map_id s
  unfold decodeStrict
  rw [hlossy, hdecode]
  simp

/-! ## Percent-encoding -/

def hexUpper (n : ℕ) : Char := Char.ofNat (if n < 10 then 0x30 + n else 0x37 + n)

/-- `%XX`. -/
def percentOctet (b : UInt8) : List Char :=
  ['%', hexUpper (b.toNat / 16), hexUpper (b.toNat % 16)]

/-- Percent-encode the octets of every character that is not `safe`. -/
def percentEncode (safe : Char → Bool) (s : List Char) : List Char :=
  s.flatMap fun c =>
    if safe c then [c] else (String.utf8EncodeChar c).flatMap percentOctet

theorem octets_append (s t : List Char) : octets (s ++ t) = octets s ++ octets t :=
  List.flatMap_append

theorem hexDigit_hexUpper (n : Fin 16) :
    octets [hexUpper n] = [UInt8.ofNat (hexUpper n).toNat] ∧
      hexDigit (UInt8.ofNat (hexUpper n).toNat) = some (UInt8.ofNat n) := by
  revert n
  decide

theorem percentDecode_percentOctet (b : UInt8) (bs : List UInt8) :
    percentDecode (octets (percentOctet b) ++ bs) = b :: percentDecode bs := by
  have hb : b.toNat < 256 := b.toNat_lt
  obtain ⟨hhigh, hhigh'⟩ := hexDigit_hexUpper ⟨b.toNat / 16, by omega⟩
  obtain ⟨hlow, hlow'⟩ := hexDigit_hexUpper ⟨b.toNat % 16, by omega⟩
  have hoctets : octets (percentOctet b) = 0x25 ::
      UInt8.ofNat (hexUpper (b.toNat / 16)).toNat ::
      UInt8.ofNat (hexUpper (b.toNat % 16)).toNat :: [] := by
    have hsplit : percentOctet b =
        ['%'] ++ ([hexUpper (b.toNat / 16)] ++ [hexUpper (b.toNat % 16)]) := rfl
    rw [hsplit, octets_append, octets_append, hhigh, hlow]
    rfl
  have hvalue : UInt8.ofNat (b.toNat / 16) * 16 + UInt8.ofNat (b.toNat % 16) = b := by
    apply UInt8.toNat_inj.mp
    rw [UInt8.toNat_add, UInt8.toNat_mul, toNat_ofNat_lt (by omega), toNat_ofNat_lt (by omega)]
    show (b.toNat / 16 * 16 % 256 + b.toNat % 16) % 256 = b.toNat
    omega
  rw [hoctets]
  simp only [List.cons_append, List.nil_append, percentDecode, hhigh', hlow', if_true, hvalue]

theorem percentDecode_flatMap_percentOctet (bs cs : List UInt8) :
    percentDecode (octets (bs.flatMap percentOctet) ++ cs) = bs ++ percentDecode cs := by
  induction bs with
  | nil => rfl
  | cons b bs ih =>
      rw [List.flatMap_cons, octets_append, List.append_assoc, percentDecode_percentOctet, ih]
      rfl

/-- **Decoding undoes encoding**, when the characters left alone are plain ASCII. -/
theorem percentDecode_percentEncode {safe : Char → Bool}
    (hsafe : ∀ c, safe c = true → c.toNat < 0x80 ∧ c ≠ '%') (s : List Char) :
    percentDecode (octets (percentEncode safe s)) = octets s := by
  induction s with
  | nil => rfl
  | cons c s ih =>
      have hcons : octets (c :: s) = String.utf8EncodeChar c ++ octets s := rfl
      rw [percentEncode, List.flatMap_cons, octets_append, hcons]
      split
      case isTrue hc =>
        obtain ⟨hascii, hpercent⟩ := hsafe c hc
        have hchar := utf8EncodeChar_ascii (show c.toNat ≤ 0x7F by omega)
        have hne : UInt8.ofNat c.toNat ≠ 0x25 := by
          intro heq
          apply hpercent
          have hnat := congrArg UInt8.toNat heq
          rw [toNat_ofNat_lt (by omega)] at hnat
          exact Char.toNat_inj.mp hnat
        have hone : octets [c] = [UInt8.ofNat c.toNat] := by
          rw [octets, List.flatMap_singleton, hchar]
        rw [hone, hchar, List.singleton_append, percentDecode_cons hne]
        exact congrArg (_ :: ·) ih
      case isFalse =>
        rw [percentDecode_flatMap_percentOctet]
        exact congrArg (_ ++ ·) ih

theorem percentText?_percentEncode {safe : Char → Bool}
    (hsafe : ∀ c, safe c = true → c.toNat < 0x80 ∧ c ≠ '%') (s : List Char) :
    percentText? (percentEncode safe s) = some s := by
  rw [percentText?, percentDecode_percentEncode hsafe, decodeStrict_octets]

/-! ## What an encoding is made of -/

theorem mem_percentOctet {c : Char} {b : UInt8} (hc : c ∈ percentOctet b) :
    c = '%' ∨ ∃ n : Fin 16, c = hexUpper n := by
  have hb : b.toNat < 256 := b.toNat_lt
  rcases List.mem_cons.mp hc with rfl | hc
  · exact Or.inl rfl
  rcases List.mem_cons.mp hc with rfl | hc
  · exact Or.inr ⟨⟨b.toNat / 16, by omega⟩, rfl⟩
  · exact Or.inr ⟨⟨b.toNat % 16, by omega⟩, List.mem_singleton.mp hc⟩

theorem mem_percentEncode {safe : Char → Bool} {c : Char} {s : List Char}
    (hc : c ∈ percentEncode safe s) :
    safe c = true ∨ c = '%' ∨ ∃ n : Fin 16, c = hexUpper n := by
  obtain ⟨d, _, hd⟩ := List.mem_flatMap.mp hc
  split at hd
  case isTrue hsafe =>
    obtain rfl := List.mem_singleton.mp hd
    exact Or.inl hsafe
  case isFalse =>
    obtain ⟨b, _, hb⟩ := List.mem_flatMap.mp hd
    exact Or.inr (mem_percentOctet hb)

end Wallermax.Base
