import Mathlib.Data.List.Count
import Mathlib.Order.Basic
import Mathlib.Tactic.Common

/-!
# A sliding window of stamps

Stamps are added at the back; those older than the window are dropped from the front, one
by one, up to the first that is not. Where stamps come in order this keeps exactly the
ones in the window.
-/

namespace Wallermax.Base.SlidingWindow

/-- One more stamp. -/
def slide (window : ℕ) (stamps : List ℕ) (now : ℕ) : List ℕ :=
  (stamps ++ [now]).dropWhile fun stamp => decide (window < now - stamp)

/-- How many of the stamps are in the window that starts at an instant. -/
def inWindow (window start : ℕ) (stamps : List ℕ) : ℕ :=
  stamps.countP fun stamp => decide (start ≤ stamp ∧ stamp ≤ start + window)

variable {window now : ℕ} {stamps : List ℕ}

theorem slide_suffix : slide window stamps now <:+ stamps ++ [now] := List.dropWhile_suffix _

/-- A run from the back in which nothing is dropped stays whole. -/
theorem suffix_dropWhile {α : Type*} {p : α → Bool} {kept l : List α} (h : kept <:+ l)
    (hkept : ∀ x ∈ kept, p x = false) : kept <:+ l.dropWhile p := by
  obtain ⟨front, rfl⟩ := h
  induction front with
  | nil =>
      have hall : kept.dropWhile p = kept := by
        cases kept with
        | nil => rfl
        | cons x kept => exact List.dropWhile_cons_of_neg (by simp [hkept x List.mem_cons_self])
      exact (congrArg (kept <:+ ·) hall).mpr (List.suffix_refl kept)
  | cons x front ih =>
      rw [List.cons_append, List.dropWhile_cons]
      split
      · exact ih
      · exact (List.suffix_append front kept).trans (List.suffix_cons x _)

/-- What is in the window of the new stamp stays, and the new stamp with it. -/
theorem suffix_slide {kept : List ℕ} (h : kept <:+ stamps)
    (hkept : ∀ stamp ∈ kept, now ≤ stamp + window) :
    kept ++ [now] <:+ slide window stamps now := by
  obtain ⟨front, rfl⟩ := h
  refine suffix_dropWhile ⟨front, (List.append_assoc ..).symm⟩ fun stamp hstamp => ?_
  rw [decide_eq_false_iff_not]
  rcases List.mem_append.mp hstamp with hstamp | hstamp
  · have := hkept stamp hstamp
    omega
  · rw [List.mem_singleton.mp hstamp]
    omega

/-- Of stamps in order only those in the window are left. -/
theorem le_of_mem_slide (hsorted : (stamps ++ [now]).Pairwise (· ≤ ·)) :
    ∀ stamp ∈ slide window stamps now, now ≤ stamp + window := by
  intro stamp hstamp
  have hpair : (slide window stamps now).Pairwise (· ≤ ·) := hsorted.sublist slide_suffix.sublist
  have hhead : ∀ first, (slide window stamps now).head? = some first →
      now ≤ first + window := by
    intro first hfirst
    have hnot := List.head?_dropWhile_not (fun stamp => decide (window < now - stamp))
      (stamps ++ [now])
    unfold slide at hfirst
    rw [hfirst] at hnot
    have hle : ¬ window < now - first := of_decide_eq_false hnot
    omega
  cases hslide : slide window stamps now with
  | nil =>
      rw [hslide] at hstamp
      cases hstamp
  | cons first rest =>
      rw [hslide] at hhead hpair hstamp
      have hfirst : now ≤ first + window := hhead first rfl
      rcases List.mem_cons.mp hstamp with rfl | hrest
      · exact hfirst
      · have := List.rel_of_pairwise_cons hpair hrest
        omega

/-- The stamps left are in one window of all that were added. -/
theorem exists_length_slide_le (window : ℕ) {all : List ℕ}
    (hsorted : (all ++ [now]).Pairwise (· ≤ ·)) (hsuffix : stamps <:+ all) :
    ∃ start, (slide window stamps now).length ≤ inWindow window start (all ++ [now]) := by
  obtain ⟨front, rfl⟩ := hsuffix
  have hlast : ∀ stamp ∈ front ++ stamps, stamp ≤ now := fun stamp hstamp =>
    (List.pairwise_append.mp hsorted).2.2 stamp hstamp now (List.mem_singleton_self now)
  have hall : slide window stamps now <:+ front ++ stamps ++ [now] := by
    rw [List.append_assoc]
    exact slide_suffix.trans (List.suffix_append ..)
  have hpair : (slide window stamps now).Pairwise (· ≤ ·) := hsorted.sublist hall.sublist
  have hin : ∀ stamp ∈ slide window stamps now, now ≤ stamp + window := by
    refine le_of_mem_slide (hsorted.sublist ?_)
    rw [List.append_assoc]
    exact List.sublist_append_right ..
  cases hslide : slide window stamps now with
  | nil => exact ⟨0, Nat.zero_le _⟩
  | cons first rest =>
      rw [hslide] at hall hpair hin
      refine ⟨first, ?_⟩
      have hcount : (first :: rest).countP
          (fun stamp => decide (first ≤ stamp ∧ stamp ≤ first + window)) =
          (first :: rest).length := by
        refine List.countP_eq_length.mpr fun stamp hstamp => decide_eq_true ⟨?_, ?_⟩
        · rcases List.mem_cons.mp hstamp with rfl | hrest
          · exact Nat.le_refl stamp
          · exact List.rel_of_pairwise_cons hpair hrest
        · have hfirst := hin first List.mem_cons_self
          rcases List.mem_append.mp (hall.subset hstamp) with hmem | hmem
          · exact Nat.le_trans (hlast stamp hmem) hfirst
          · rwa [List.mem_singleton.mp hmem]
      rw [← hcount]
      exact hall.sublist.countP_le

end Wallermax.Base.SlidingWindow
