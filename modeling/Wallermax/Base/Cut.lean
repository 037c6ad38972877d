import Mathlib.Data.List.TakeDrop
import Mathlib.Data.List.TakeWhile
import Mathlib.Tactic.Common

/-!
# Cutting a list at a separator

`str::split_once` as a span up to the first separator, and `str::split` into two or three
parts, both ways: what was joined is cut where it was joined, and what was cut was joined
there.
-/

namespace Wallermax.Base

variable {α : Type}

/-! ## At the first separator -/

theorem eq_append_of_span {p : α → Bool} {text front rest : List α}
    (h : text.span p = (front, rest)) : text = front ++ rest := by
  rw [List.span_eq_takeWhile_dropWhile, Prod.mk.injEq] at h
  rw [← h.1, ← h.2, List.takeWhile_append_dropWhile]

variable [DecidableEq α]

theorem bne_of_not_mem {c : α} {front : List α} (h : c ∉ front) :
    ∀ d ∈ front, (d != c) = true := by
  intro d hd
  refine bne_iff_ne.mpr ?_
  rintro rfl
  exact h hd

theorem span_of_not_mem {c : α} {text : List α} (h : c ∉ text) :
    text.span (· != c) = (text, []) := by
  rw [List.span_eq_takeWhile_dropWhile, List.takeWhile_eq_self_iff.mpr (bne_of_not_mem h),
    List.dropWhile_eq_nil_iff.mpr (bne_of_not_mem h)]

theorem span_append_cons {c : α} {front : List α} (h : c ∉ front) (rest : List α) :
    (front ++ c :: rest).span (· != c) = (front, c :: rest) := by
  rw [List.span_eq_takeWhile_dropWhile, List.takeWhile_append_of_pos (bne_of_not_mem h),
    List.dropWhile_append_of_pos (bne_of_not_mem h)]
  simp

/-! ## At every separator -/

theorem splitOn_of_not_mem {c : α} {text : List α} (h : c ∉ text) : text.splitOn c = [text] := by
  have hone : ([c].intercalate [text]).splitOn c = [text] :=
    List.splitOn_intercalate c (by simp [h]) (by simp)
  simpa using hone

theorem splitOn_pair {c : α} {a b : List α} (ha : c ∉ a) (hb : c ∉ b) :
    (a ++ c :: b).splitOn c = [a, b] := by
  have h : ([c].intercalate [a, b]).splitOn c = [a, b] :=
    List.splitOn_intercalate c (by simp [ha, hb]) (by simp)
  simpa [List.intercalate_cons_cons] using h

theorem splitOn_triple {c : α} {a b d : List α} (ha : c ∉ a) (hb : c ∉ b) (hd : c ∉ d) :
    (a ++ c :: (b ++ c :: d)).splitOn c = [a, b, d] := by
  have h : ([c].intercalate [a, b, d]).splitOn c = [a, b, d] :=
    List.splitOn_intercalate c (by simp [ha, hb, hd]) (by simp)
  simpa [List.intercalate_cons_cons] using h

theorem eq_of_splitOn_pair {c : α} {t a b : List α} (h : t.splitOn c = [a, b]) :
    t = a ++ c :: b := by
  have hjoin : [c].intercalate (t.splitOn c) = t := List.intercalate_splitOn c
  rw [h] at hjoin
  simpa [List.intercalate_cons_cons] using hjoin.symm

theorem eq_of_splitOn_triple {c : α} {t a b d : List α} (h : t.splitOn c = [a, b, d]) :
    t = a ++ c :: (b ++ c :: d) := by
  have hjoin : [c].intercalate (t.splitOn c) = t := List.intercalate_splitOn c
  rw [h] at hjoin
  simpa [List.intercalate_cons_cons] using hjoin.symm

end Wallermax.Base
