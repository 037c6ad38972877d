import Mathlib.Algebra.BigOperators.Group.List.Basic
import Mathlib.Algebra.GroupWithZero.Nat
import Wallermax.Base.PercentEncoding

/-!
# Cutting octets that are read with replacement characters

The reading of two parts is the reading of the whole where the second begins with an ASCII
octet: no character goes on there. An octet beyond ASCII that stands alone is ill-formed.
-/

namespace Wallermax.Base

/-- What is owed is beyond ASCII. -/
def Owed.IsHigh (o : Owed) : Prop := 0x80 ≤ o.low

theorem utf8Lead_high {b : ℕ} : ∀ o ∈ (utf8Lead b).2, o.IsHigh := by
  intro o ho
  unfold utf8Lead at ho
  split_ifs at ho <;> cases ho <;> simp [Owed.IsHigh]

theorem utf8Octet_high {owed : Option Owed} {b : ℕ} : ∀ o ∈ (utf8Octet owed b).2, o.IsHigh := by
  intro o ho
  cases owed with
  | none => exact utf8Lead_high o ho
  | some started =>
      rw [utf8Octet] at ho
      split at ho
      · dsimp only at ho
        split at ho
        · cases ho
        · cases ho
          exact Nat.le_refl 0x80
      · exact utf8Lead_high o ho

/-- An ASCII octet ends what was started and is read for itself. -/
theorem utf8Decode_append_ascii {b : UInt8} (hb : b.toNat < 0x80) (front rest : List UInt8)
    (owed : Option Owed) (hhigh : ∀ o ∈ owed, o.IsHigh) :
    utf8Decode owed (front ++ b :: rest) =
      utf8Decode owed front ++ some (Char.ofNat b.toNat) :: utf8Decode none rest := by
  induction front generalizing owed with
  | nil =>
      have hlead : utf8Lead b.toNat = ([some (Char.ofNat b.toNat)], none) := by
        rw [utf8Lead, if_pos hb]
      cases owed with
      | none => simp [utf8Decode, utf8Octet, hlead]
      | some o =>
          have hlow : 0x80 ≤ o.low := hhigh o rfl
          have hout : ¬(o.low ≤ b.toNat ∧ b.toNat ≤ o.high) := by omega
          simp [utf8Decode, utf8Octet, hlead, hout]
  | cons c front ih =>
      rw [List.cons_append, utf8Decode, utf8Decode, ih _ utf8Octet_high, List.append_assoc]

/-- **Cut in front of an ASCII octet.** -/
theorem decodeLossy_append_ascii {b : UInt8} (hb : b.toNat < 0x80) (front rest : List UInt8) :
    decodeLossy (front ++ b :: rest) =
      decodeLossy front ++ Char.ofNat b.toNat :: decodeLossy rest := by
  simp only [decodeLossy, utf8Decode_append_ascii hb front rest none (by simp), List.map_append,
    List.map_cons, Option.getD_some]

/-- **Cut behind whole characters.** -/
theorem decodeLossy_octets_append (s : List Char) (rest : List UInt8) :
    decodeLossy (octets s ++ rest) = s ++ decodeLossy rest := by
  induction s with
  | nil => rfl
  | cons c s ih =>
      have hcons : octets (c :: s) ++ rest =
          String.utf8EncodeChar c ++ (octets s ++ rest) := by
        rw [octets, List.flatMap_cons, List.append_assoc]
        rfl
      unfold decodeLossy at ih ⊢
      rw [hcons, utf8Decode_utf8EncodeChar, List.map_cons, ih]
      rfl

theorem decodeLossy_octets (s : List Char) : decodeLossy (octets s) = s := by
  have hread := decodeLossy_octets_append s []
  rw [List.append_nil] at hread
  rw [hread]
  exact List.append_nil s

/-- An octet beyond ASCII is no character. -/
theorem decodeLossy_singleton {b : UInt8} (hb : 0x80 ≤ b.toNat) :
    decodeLossy [b] = ['\uFFFD'] := by
  unfold decodeLossy
  rw [utf8Decode, utf8Octet]
  unfold utf8Lead
  rw [if_neg (by omega)]
  repeat' split
  all_goals simp [utf8Decode]

theorem toNat_ofNat_ascii {n : ℕ} (h : n < 0x80) : (Char.ofNat n).toNat = n := by
  have hvalid : n.isValidChar := Or.inl (by omega)
  unfold Char.ofNat
  rw [dif_pos hvalid]
  rfl

/-- ASCII octets are those of a text. -/
theorem octets_of_ascii {bs : List UInt8} (h : ∀ b ∈ bs, b.toNat < 0x80) :
    ∃ s, bs = octets s := by
  induction bs with
  | nil => exact ⟨[], rfl⟩
  | cons b bs ih =>
      obtain ⟨s, hs⟩ := ih fun c hc => h c (List.mem_cons_of_mem _ hc)
      have hb := h b List.mem_cons_self
      have hchar : (Char.ofNat b.toNat).toNat = b.toNat := toNat_ofNat_ascii hb
      have hone : String.utf8EncodeChar (Char.ofNat b.toNat) = [b] := by
        rw [utf8EncodeChar_ascii (by omega), hchar, UInt8.ofNat_toNat]
      refine ⟨Char.ofNat b.toNat :: s, ?_⟩
      rw [octets, List.flatMap_cons, hone, hs]
      rfl

theorem length_octets (s : List Char) : (octets s).length = (s.map Char.utf8Size).sum := by
  induction s with
  | nil => rfl
  | cons c s ih =>
      rw [octets, List.flatMap_cons, List.length_append, String.length_utf8EncodeChar,
        List.map_cons, List.sum_cons, ← ih]
      rfl

end Wallermax.Base
