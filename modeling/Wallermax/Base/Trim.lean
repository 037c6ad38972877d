import Mathlib.Data.List.TakeWhile
import Mathlib.Tactic.Common

/-!
# Stretches of a text, and trimming

A reader that skips the characters of one kind stops at the first that is not; trimming
does so at both ends. What was skipped is determined by what it stopped at.
-/

namespace Wallermax.Base

variable {α : Type} {white : α → Bool}

/-! ## Skipping -/

theorem exists_stretch (white : α → Bool) (text : List α) :
    ∃ front, (∀ c ∈ front, white c = true) ∧ text = front ++ text.dropWhile white :=
  ⟨text.takeWhile white, fun _ hc => List.mem_takeWhile_imp hc,
    List.takeWhile_append_dropWhile.symm⟩

theorem dropWhile_stretch {front : List α} (h : ∀ c ∈ front, white c = true) {c : α}
    (hc : white c = false) (rest : List α) :
    (front ++ c :: rest).dropWhile white = c :: rest := by
  rw [List.dropWhile_append_of_pos h, List.dropWhile_cons_of_neg (by simp [hc])]

theorem takeWhile_stretch {front : List α} (h : ∀ c ∈ front, white c = true) {c : α}
    (hc : white c = false) (rest : List α) : (front ++ c :: rest).takeWhile white = front := by
  rw [List.takeWhile_append_of_pos h, List.takeWhile_cons_of_neg (by simp [hc]), List.append_nil]

/-- **One stretch**: the same text is cut at the same place. -/
theorem stretch_unique {front front' rest rest' : List α} {c c' : α}
    (h : front ++ c :: rest = front' ++ c' :: rest') (hfront : ∀ d ∈ front, white d = true)
    (hfront' : ∀ d ∈ front', white d = true) (hc : white c = false) (hc' : white c' = false) :
    front = front' ∧ c = c' ∧ rest = rest' := by
  have htake := congrArg (List.takeWhile white) h
  rw [takeWhile_stretch hfront hc, takeWhile_stretch hfront' hc'] at htake
  subst htake
  exact ⟨rfl, List.cons.inj (List.append_cancel_left h)⟩

/-! ## Trimming -/

def trimBy (white : α → Bool) (text : List α) : List α :=
  ((text.dropWhile white).reverse.dropWhile white).reverse

theorem exists_trimBy (white : α → Bool) (text : List α) :
    ∃ front back, (∀ c ∈ front, white c = true) ∧ (∀ c ∈ back, white c = true) ∧
      text = front ++ (trimBy white text ++ back) := by
  obtain ⟨front, hfront, htext⟩ := exists_stretch white text
  obtain ⟨back, hback, hrest⟩ := exists_stretch white (text.dropWhile white).reverse
  refine ⟨front, back.reverse, hfront, fun c hc => hback c (List.mem_reverse.mp hc), ?_⟩
  have hmiddle : trimBy white text ++ back.reverse = text.dropWhile white := by
    unfold trimBy
    rw [← List.reverse_append, ← hrest, List.reverse_reverse]
  rw [hmiddle]
  exact htext

theorem dropWhile_of_head {text : List α} (h : ∀ c ∈ text.head?, white c = false) :
    text.dropWhile white = text := by
  cases text with
  | nil => rfl
  | cons c text => exact List.dropWhile_cons_of_neg (by simp [h c rfl])

theorem dropWhile_reverse_of_last {text : List α} (h : ∀ c ∈ text.getLast?, white c = false) :
    text.reverse.dropWhile white = text.reverse := by
  apply dropWhile_of_head
  rw [List.head?_reverse]
  exact h

theorem trimBy_eq_self {text : List α} (hfirst : ∀ c ∈ text.head?, white c = false)
    (hlast : ∀ c ∈ text.getLast?, white c = false) : trimBy white text = text := by
  unfold trimBy
  rw [dropWhile_of_head hfirst, dropWhile_reverse_of_last hlast, List.reverse_reverse]

theorem head_dropWhile {text : List α} : ∀ c ∈ (text.dropWhile white).head?, white c = false := by
  intro c hc
  have hhead := List.head?_dropWhile_not white text
  rw [Option.mem_def.mp hc] at hhead
  simpa using hhead

/-- What trimming leaves starts visibly. -/
theorem head_trimBy {text : List α} : ∀ c ∈ (trimBy white text).head?, white c = false := by
  intro c hc
  have hprefix : trimBy white text <+: text.dropWhile white := by
    have hsuffix := (List.dropWhile_suffix white (l := (text.dropWhile white).reverse)).reverse
    rwa [List.reverse_reverse] at hsuffix
  obtain ⟨back, hback⟩ := hprefix
  apply head_dropWhile c
  rw [← hback, List.head?_append, Option.mem_def.mp hc]
  rfl

/-- What trimming leaves ends visibly. -/
theorem last_trimBy {text : List α} : ∀ c ∈ (trimBy white text).getLast?, white c = false := by
  intro c hc
  rw [trimBy, List.getLast?_reverse] at hc
  exact head_dropWhile c hc

theorem trimBy_eq_self_iff {text : List α} : trimBy white text = text ↔
    (∀ c ∈ text.head?, white c = false) ∧ ∀ c ∈ text.getLast?, white c = false := by
  constructor
  · intro h
    rw [← h]
    exact ⟨head_trimBy, last_trimBy⟩
  · rintro ⟨hfirst, hlast⟩
    exact trimBy_eq_self hfirst hlast

theorem trimBy_isInfix (white : α → Bool) (text : List α) : trimBy white text <:+: text := by
  obtain ⟨front, back, -, -, htext⟩ := exists_trimBy white text
  refine ⟨front, back, ?_⟩
  rw [List.append_assoc]
  exact htext.symm

/-- What starts and ends visibly is what is left of it between two stretches. -/
theorem trimBy_stretch {front back text : List α} (hfront : ∀ c ∈ front, white c = true)
    (hback : ∀ c ∈ back, white c = true) (hne : text ≠ [])
    (hfirst : ∀ c ∈ text.head?, white c = false) (hlast : ∀ c ∈ text.getLast?, white c = false) :
    trimBy white (front ++ (text ++ back)) = text := by
  have hstart : (front ++ (text ++ back)).dropWhile white = text ++ back := by
    rw [List.dropWhile_append_of_pos hfront]
    apply dropWhile_of_head
    rw [List.head?_append, Option.or_of_isSome (List.isSome_head?.mpr hne)]
    exact hfirst
  have hend : (text ++ back).reverse.dropWhile white = text.reverse := by
    rw [List.reverse_append, List.dropWhile_append_of_pos (fun c hc =>
      hback c (List.mem_reverse.mp hc))]
    exact dropWhile_reverse_of_last hlast
  unfold trimBy
  rw [hstart, hend, List.reverse_reverse]

end Wallermax.Base
