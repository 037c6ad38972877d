import Mathlib.Data.List.Chain
import Mathlib.Data.List.DropRight
import Wallermax.Base.Trim

/-!
# Words joined by a separator

A text read as the words of one kind of character, whatever stands between them, and
the same words joined by one separator each. A reader that writes one separator for a
stretch of other characters, once those at its ends are trimmed, has joined the words.
-/

namespace Wallermax.Base

variable {α : Type}

section

variable (p : α → Bool) (sep : α)

/-- The words of a text: its longest stretches of characters with `p`. -/
def wordsOf (text : List α) : List (List α) := (text.splitOnP (!p ·)).filter (!·.isEmpty)

/-- Copy the characters with `p` and write one separator for each stretch of others, none
where one has just been written. -/
def squeeze : Bool → List α → List α
  | _, [] => []
  | written, c :: text =>
    if p c then c :: squeeze false text
    else if written then squeeze true text
    else sep :: squeeze true text

def joinWords (words : List (List α)) : List α := [sep].intercalate words

end

variable {p : α → Bool} {sep : α} {text word : List α} {words : List (List α)}

/-! ## Words -/

@[simp] theorem wordsOf_nil : wordsOf p [] = [] := rfl

theorem wordsOf_cons_neg {c : α} (hc : p c = false) : wordsOf p (c :: text) = wordsOf p text := by
  rw [wordsOf, List.splitOnP_cons_eq_if_modifyHead, if_pos (by simp [hc])]
  rfl

theorem wordsOf_cons_of_neg {c d : α} (hc : p c = true) (hd : p d = false) :
    wordsOf p (c :: d :: text) = [c] :: wordsOf p text := by
  rw [wordsOf, List.splitOnP_cons_eq_if_modifyHead, if_neg (by simp [hc]),
    List.splitOnP_cons_eq_if_modifyHead, if_pos (by simp [hd])]
  rfl

/-- A further character lengthens the first word. -/
theorem wordsOf_cons_cons {c d : α} (hc : p c = true) (hd : p d = true) (text : List α) :
    ∃ word words, wordsOf p (d :: text) = word :: words ∧ word ≠ [] ∧
      wordsOf p (c :: d :: text) = (c :: word) :: words := by
  obtain ⟨first, rest, hsplit⟩ := List.exists_cons_of_ne_nil
    (List.splitOnP_ne_nil (!p ·) text)
  refine ⟨d :: first, rest.filter (!·.isEmpty), ?_, List.cons_ne_nil _ _, ?_⟩
  · rw [wordsOf, List.splitOnP_cons_eq_if_modifyHead, if_neg (by simp [hd]), hsplit]
    rfl
  · rw [wordsOf, List.splitOnP_cons_eq_if_modifyHead, if_neg (by simp [hc]),
      List.splitOnP_cons_eq_if_modifyHead, if_neg (by simp [hd]), hsplit]
    rfl

theorem wordsOf_singleton {c : α} (hc : p c = true) : wordsOf p [c] = [[c]] := by
  rw [wordsOf, List.splitOnP_eq_singleton (by simp [hc])]
  rfl

/-- A word is not empty and has characters with `p` only. -/
theorem of_mem_wordsOf (h : word ∈ wordsOf p text) : word ≠ [] ∧ ∀ c ∈ word, p c = true := by
  induction text generalizing word with
  | nil => cases h
  | cons c text ih =>
      cases hc : p c with
      | false =>
          rw [wordsOf_cons_neg hc] at h
          exact ih h
      | true =>
          cases text with
          | nil =>
              rw [wordsOf_singleton hc, List.mem_singleton] at h
              subst h
              exact ⟨List.cons_ne_nil _ _, by simpa using hc⟩
          | cons d text =>
              cases hd : p d with
              | false =>
                  rw [wordsOf_cons_of_neg hc hd] at h
                  rcases List.mem_cons.mp h with rfl | h
                  · exact ⟨List.cons_ne_nil _ _, by simpa using hc⟩
                  · rw [wordsOf_cons_neg hd] at ih
                    exact ih h
              | true =>
                  obtain ⟨first, rest, hrest, hne, hlonger⟩ := wordsOf_cons_cons hc hd text
                  rw [hlonger] at h
                  rw [hrest] at ih
                  rcases List.mem_cons.mp h with rfl | h
                  · refine ⟨List.cons_ne_nil _ _, fun e he => ?_⟩
                    rcases List.mem_cons.mp he with rfl | he
                    · exact hc
                    · exact (ih List.mem_cons_self).2 e he
                  · exact ih (List.mem_cons_of_mem _ h)

/-! ## Joining -/

@[simp] theorem joinWords_nil : joinWords sep [] = [] := rfl

@[simp] theorem joinWords_singleton : joinWords sep [word] = word := List.intercalate_singleton

theorem joinWords_cons (hne : words ≠ []) :
    joinWords sep (word :: words) = word ++ sep :: joinWords sep words := by
  rw [joinWords, List.intercalate_cons_of_ne_nil hne, List.append_assoc]
  rfl

theorem joinWords_cons_cons {c : α} :
    joinWords sep ((c :: word) :: words) = c :: joinWords sep (word :: words) := by
  cases words with
  | nil => rw [joinWords_singleton, joinWords_singleton]
  | cons next words =>
      rw [joinWords_cons (List.cons_ne_nil _ _), joinWords_cons (List.cons_ne_nil _ _),
        List.cons_append]

theorem joinWords_eq_nil (hne : [] ∉ words) : joinWords sep words = [] ↔ words = [] := by
  cases words with
  | nil => simp
  | cons word words =>
      refine iff_of_false ?_ (List.cons_ne_nil _ _)
      cases word with
      | nil => exact absurd List.mem_cons_self hne
      | cons c word =>
          rw [joinWords_cons_cons]
          exact List.cons_ne_nil _ _

theorem mem_joinWords {c : α} (h : c ∈ joinWords sep words) :
    c = sep ∨ ∃ word ∈ words, c ∈ word := by
  induction words with
  | nil => cases h
  | cons word words ih =>
      cases words with
      | nil => exact .inr ⟨word, List.mem_cons_self, by simpa using h⟩
      | cons next words =>
          rw [joinWords_cons (List.cons_ne_nil _ _)] at h
          rcases List.mem_append.mp h with h | h
          · exact .inr ⟨word, List.mem_cons_self, h⟩
          · rcases List.mem_cons.mp h with rfl | h
            · exact .inl rfl
            · exact (ih h).imp_right fun ⟨w, hw, hc⟩ => ⟨w, List.mem_cons_of_mem _ hw, hc⟩

/-- No two separators stand side by side. -/
theorem isChain_joinWords (h : ∀ word ∈ words, word ≠ [] ∧ sep ∉ word) :
    (joinWords sep words).IsChain fun c d => ¬(c = sep ∧ d = sep) := by
  induction words with
  | nil => exact List.isChain_nil
  | cons word words ih =>
      have hword : word.IsChain fun c d => ¬(c = sep ∧ d = sep) :=
        List.Pairwise.isChain (List.pairwise_of_forall_mem_list fun c hc d _ heq =>
          (h word List.mem_cons_self).2 (heq.1 ▸ hc))
      cases words with
      | nil => simpa using hword
      | cons next words =>
          obtain ⟨hne, hnext⟩ := h next (List.mem_cons_of_mem _ List.mem_cons_self)
          obtain ⟨d, next, rfl⟩ := List.exists_cons_of_ne_nil hne
          have hrest := ih fun w hw => h w (List.mem_cons_of_mem _ hw)
          rw [joinWords_cons_cons] at hrest
          rw [joinWords_cons (List.cons_ne_nil _ _), joinWords_cons_cons, List.isChain_append]
          refine ⟨hword, hrest.cons_cons ?_, ?_⟩
          · rintro ⟨-, rfl⟩
            exact hnext List.mem_cons_self
          · rintro c hc d hd ⟨rfl, -⟩
            exact (h word List.mem_cons_self).2 (List.mem_of_mem_getLast? hc)

/-- **Where the separators stand**: behind some of the words, joined, and before the
others. -/
theorem getElem?_joinWords (h : ∀ word ∈ words, sep ∉ word) {n : ℕ} :
    (joinWords sep words)[n]? = some sep ↔ ∃ front back, words = front ++ back ∧
      front ≠ [] ∧ back ≠ [] ∧ (joinWords sep front).length = n := by
  induction words generalizing n with
  | nil =>
      refine iff_of_false (by simp) ?_
      rintro ⟨front, back, heq, hne, -⟩
      exact hne (List.append_eq_nil_iff.mp heq.symm).1
  | cons word words ih =>
      have hword : ∀ m : ℕ, word[m]? ≠ some sep := fun m hm =>
        h word List.mem_cons_self (List.mem_of_getElem? hm)
      have ih := fun m => ih (fun w hw => h w (List.mem_cons_of_mem _ hw)) (n := m)
      by_cases hne : words = []
      · subst hne
        rw [joinWords_singleton]
        refine iff_of_false (hword n) ?_
        rintro ⟨front, back, heq, hfront, hback, -⟩
        have hlength := congrArg List.length heq
        have hpos := List.length_pos_iff.mpr hfront
        have hpos' := List.length_pos_iff.mpr hback
        rw [List.length_append, List.length_singleton] at hlength
        omega
      · rw [joinWords_cons hne]
        constructor
        · intro hsep
          rcases Nat.lt_or_ge n word.length with hlt | hge
          · -- inside the first word there is no separator
            rw [List.getElem?_append_left hlt] at hsep
            exact absurd hsep (hword n)
          · rw [List.getElem?_append_right hge] at hsep
            obtain ⟨m, hm⟩ := Nat.exists_eq_add_of_le hge
            subst hm
            rw [Nat.add_sub_cancel_left] at hsep
            cases m with
            | zero => exact ⟨[word], words, rfl, by simp, hne, by simp⟩
            | succ m =>
                rw [List.getElem?_cons_succ, ih] at hsep
                obtain ⟨front, back, rfl, hfront, hback, hlength⟩ := hsep
                refine ⟨word :: front, back, rfl, by simp, hback, ?_⟩
                rw [joinWords_cons hfront, List.length_append, List.length_cons, hlength]
        · rintro ⟨front, back, heq, hfront, hback, rfl⟩
          obtain ⟨first, front, rfl⟩ := List.exists_cons_of_ne_nil hfront
          obtain ⟨rfl, rfl⟩ := List.cons.inj heq
          by_cases hfront' : front = []
          · subst hfront'
            rw [joinWords_singleton, List.getElem?_append_right (Nat.le_refl _), Nat.sub_self]
            rfl
          · have hsep := (ih _).mpr ⟨front, back, rfl, hfront', hback, rfl⟩
            rw [joinWords_cons hfront', List.length_append, List.length_cons,
              List.getElem?_append_right (Nat.le_add_right _ _), Nat.add_sub_cancel_left,
              List.getElem?_cons_succ]
            exact hsep

/-! ## Squeezing -/

theorem rdropWhile_cons_neg {q : α → Bool} {c : α} (hc : q c = false) (text : List α) :
    (c :: text).rdropWhile q = c :: text.rdropWhile q := by
  unfold List.rdropWhile
  rw [List.reverse_cons]
  by_cases hall : text.reverse.dropWhile q = []
  · simp [List.dropWhile_append, hall, hc]
  · rw [List.dropWhile_append, if_neg (by simpa using hall), List.reverse_append]
    rfl

/-- Where one has just been written, no separator comes first. -/
theorem head_squeeze (hsep : p sep = false) (text : List α) :
    (squeeze p sep true text).head? ≠ some sep := by
  induction text with
  | nil => simp [squeeze]
  | cons c text ih =>
      cases hc : p c with
      | false => simpa [squeeze, hc] using ih
      | true =>
          rw [squeeze, if_pos hc]
          intro heq
          rw [Option.some.inj heq, hsep] at hc
          cases hc

section

variable [DecidableEq α]

/-- A separator behind a character stays where something follows. -/
theorem rdropWhile_sep (text : List α) :
    (sep :: text).rdropWhile (· == sep) =
      if text.rdropWhile (· == sep) = [] then [] else sep :: text.rdropWhile (· == sep) := by
  unfold List.rdropWhile
  rw [List.reverse_cons, List.dropWhile_append]
  by_cases hall : text.reverse.dropWhile (· == sep) = []
  · simp [hall]
  · simp [hall]

/-- **Squeezing joins the words**, but for a separator at the end. -/
theorem rdropWhile_squeeze (hsep : p sep = false) (text : List α) :
    (squeeze p sep true text).rdropWhile (· == sep) = joinWords sep (wordsOf p text) := by
  have hother : ∀ c, p c = true → (c == sep) = false := by
    intro c hc
    rw [beq_eq_false_iff_ne]
    rintro rfl
    rw [hc] at hsep
    cases hsep
  induction text with
  | nil => rfl
  | cons c text ih =>
      cases hc : p c with
      | false => rw [wordsOf_cons_neg hc, ← ih, squeeze, if_neg (by simp [hc]), if_pos rfl]
      | true =>
          rw [squeeze, if_pos hc, rdropWhile_cons_neg (q := (· == sep)) (hother c hc)]
          cases text with
          | nil =>
              rw [wordsOf_singleton hc, joinWords_singleton]
              rfl
          | cons d text =>
              cases hd : p d with
              | true =>
                  obtain ⟨first, rest, hrest, -, hlonger⟩ := wordsOf_cons_cons hc hd text
                  rw [hlonger, joinWords_cons_cons, ← hrest, ← ih, squeeze, squeeze, if_pos hd,
                    if_pos hd]
              | false =>
                  -- the separator written for `d` stays exactly where another word follows
                  have hskip : squeeze p sep true (d :: text) = squeeze p sep true text := by
                    rw [squeeze, if_neg (by simp [hd]), if_pos rfl]
                  have hwrite : squeeze p sep false (d :: text) =
                      sep :: squeeze p sep true text := by
                    rw [squeeze, if_neg (by simp [hd]), if_neg (by simp)]
                  rw [hskip, wordsOf_cons_neg hd] at ih
                  have hnone : [] ∉ wordsOf p text := fun hmem => (of_mem_wordsOf hmem).1 rfl
                  rw [wordsOf_cons_of_neg hc hd, hwrite, rdropWhile_sep, ih]
                  by_cases hwords : wordsOf p text = []
                  · rw [hwords, joinWords_nil, if_pos rfl, joinWords_singleton]
                  · rw [joinWords_cons hwords, if_neg (mt (joinWords_eq_nil hnone).mp hwords)]
                    rfl

/-- A separator is written in front of the first word where something stands there. -/
theorem dropWhile_squeeze (hsep : p sep = false) (text : List α) :
    (squeeze p sep false text).dropWhile (· == sep) = squeeze p sep true text := by
  have hfirst : ∀ text : List α,
      (squeeze p sep true text).dropWhile (· == sep) = squeeze p sep true text := by
    intro text
    refine dropWhile_of_head fun c hc => ?_
    rw [beq_eq_false_iff_ne]
    rintro rfl
    exact head_squeeze hsep text hc
  cases text with
  | nil => rfl
  | cons c text =>
      cases hc : p c with
      | false => simpa [squeeze, hc] using hfirst text
      | true =>
          have hsame : squeeze p sep false (c :: text) = squeeze p sep true (c :: text) := by
            rw [squeeze, squeeze, if_pos hc, if_pos hc]
          rw [hsame]
          exact hfirst (c :: text)

/-- **Trimmed, a squeezed text is its words joined.** -/
theorem trimBy_squeeze (hsep : p sep = false) (text : List α) :
    trimBy (· == sep) (squeeze p sep false text) = joinWords sep (wordsOf p text) := by
  have htrim : trimBy (· == sep) (squeeze p sep false text) =
      ((squeeze p sep false text).dropWhile (· == sep)).rdropWhile (· == sep) := rfl
  rw [htrim, dropWhile_squeeze hsep, rdropWhile_squeeze hsep]

end

end Wallermax.Base
