import Mathlib.Algebra.BigOperators.Group.List.Basic
import Mathlib.Algebra.Order.Field.Basic
import Mathlib.Data.List.Sort
import Mathlib.Data.Prod.Lex

/-!
# Ranked full-text search

Documents are lists of columns, columns are lists of tokens. `Bm25` is the shape
of the ranking function: a sum over the query's phrases of an inverse document
frequency times a weight of the phrase in the document. Both factors read
statistics of the whole collection, so the rank of a document is a property of
the collection it is in, and `insertionSort_eq_iff` says when two collections
order the same documents alike.
-/

namespace Wallermax.Base

/-- Two orders sort a list alike exactly when they agree on its pairs. -/
theorem insertionSort_eq_iff {α : Type*} {r s : α → α → Prop} [DecidableRel r]
    [DecidableRel s] [Std.Total r] [IsTrans α r] [Std.Total s] [IsTrans α s] {l : List α}
    (hr : ∀ a ∈ l, ∀ b ∈ l, r a b → r b a → a = b)
    (hs : ∀ a ∈ l, ∀ b ∈ l, s a b → s b a → a = b) :
    l.insertionSort r = l.insertionSort s ↔ ∀ a ∈ l, ∀ b ∈ l, (r a b ↔ s a b) := by
  have hpr := List.perm_insertionSort r l
  have hps := List.perm_insertionSort s l
  constructor
  · intro heq
    have hsorted : (l.insertionSort r).Pairwise fun a b => r a b ∧ s a b := by
      have hsr := List.pairwise_insertionSort r l
      have hss := List.pairwise_insertionSort s l
      rw [← heq] at hss
      exact hsr.and hss
    -- of two members, the one that comes first is below in both orders
    have hfirst : ∀ a ∈ l.insertionSort r, ∀ b ∈ l.insertionSort r,
        a = b ∨ (r a b ∧ s a b) ∨ r b a ∧ s b a := by
      apply List.Pairwise.forall_of_forall_of_flip
      · exact fun a _ => .inl rfl
      · exact hsorted.imp fun h => .inr (.inl h)
      · exact hsorted.imp fun h => .inr (.inr h)
    intro a ha b hb
    rcases hfirst a (hpr.mem_iff.mpr ha) b (hpr.mem_iff.mpr hb) with rfl | h | h
    · exact ⟨fun _ => (Std.Total.total (r := s) a a).elim id id,
        fun _ => (Std.Total.total (r := r) a a).elim id id⟩
    · exact ⟨fun _ => h.2, fun _ => h.1⟩
    · constructor
      · intro hab
        obtain rfl := hr a ha b hb hab h.1
        exact h.2
      · intro hab
        obtain rfl := hs a ha b hb hab h.2
        exact h.1
  · intro hagree
    have hsorted : (l.insertionSort r).Pairwise s :=
      (List.pairwise_insertionSort r l).imp_of_mem fun ha hb h =>
        (hagree _ (hpr.mem_iff.mp ha) _ (hpr.mem_iff.mp hb)).mp h
    apply List.Perm.eq_of_pairwise _ hsorted (List.pairwise_insertionSort s l)
      (hpr.trans hps.symm)
    intro a b ha hb hab hba
    exact hs a (hpr.mem_iff.mp ha) b (hps.mem_iff.mp hb) hab hba

/-- A function that tells members apart tells lists apart. -/
theorem eq_of_map_eq {α β : Type*} {f : α → β} {l l' : List α}
    (hf : ∀ a ∈ l, ∀ b ∈ l', f a = f b → a = b) (h : l.map f = l'.map f) : l = l' := by
  induction l generalizing l' with
  | nil => exact (List.map_eq_nil_iff.mp h.symm).symm
  | cons a l ih =>
      cases l' with
      | nil => cases h
      | cons b l' =>
          simp only [List.map_cons, List.cons.injEq] at h
          rw [hf a (by simp) b (by simp) h.1,
            ih (fun a ha b hb => hf a (by simp [ha]) b (by simp [hb])) h.2]

/-! ## Documents -/

section Documents

variable {τ : Type*} [DecidableEq τ]

/-- How often a phrase occurs in a text. -/
def occurrences (phrase : List τ) : List τ → ℕ
  | [] => 0
  | t :: ts => (if phrase.isPrefixOf (t :: ts) then 1 else 0) + occurrences phrase ts

/-- How often a phrase occurs in a document. -/
def frequency (phrase : List τ) (doc : List (List τ)) : ℕ :=
  (doc.map (occurrences phrase)).sum

def docSize (doc : List (List τ)) : ℕ := (doc.map List.length).sum

/-- Every phrase of the query occurs; an empty query finds nothing. -/
def matchesAll (phrases : List (List τ)) (doc : List (List τ)) : Bool :=
  !phrases.isEmpty && phrases.all fun phrase => 0 < frequency phrase doc

/-- The number of documents that contain a phrase. -/
def containing (docs : List (List (List τ))) (phrase : List τ) : ℕ :=
  docs.countP fun doc => 0 < frequency phrase doc

end Documents

/-! ## Ranking -/

/-- `idf` of the number of documents and of those with the phrase; `weight` of
the phrase's frequency in the document, its size and the average size. -/
structure Bm25 (α : Type*) [Preorder α] where
  idf : ℕ → ℕ → α
  weight : ℕ → ℕ → α → α
  idf_antitone : ∀ n k m, k ≤ m → m ≤ n → idf n m ≤ idf n k

section Ranking

variable {τ : Type*} [DecidableEq τ] {α : Type*} [Field α] [LinearOrder α]

def averageSize (docs : List (List (List τ))) : α :=
  ((docs.map docSize).sum : α) / docs.length

/-- The rank of a document in a collection; lower is better. -/
def Bm25.rank (m : Bm25 α) (docs : List (List (List τ))) (phrases : List (List τ))
    (doc : List (List τ)) : α :=
  -(phrases.map fun phrase =>
    m.idf docs.length (containing docs phrase) *
      m.weight (frequency phrase doc) (docSize doc) (averageSize docs)).sum

/-- By rank, ties by id. -/
def Bm25.Before (m : Bm25 α) (docs : List (List (List τ))) (phrases : List (List τ))
    (p q : ℕ × List (List τ)) : Prop :=
  toLex (m.rank docs phrases p.2, p.1) ≤ toLex (m.rank docs phrases q.2, q.1)

instance (m : Bm25 α) (docs : List (List (List τ))) (phrases : List (List τ)) :
    DecidableRel (m.Before docs phrases) := fun _ _ =>
  inferInstanceAs (Decidable (toLex (_, _) ≤ toLex (_, _)))

/-- The other documents matter through three statistics only. -/
theorem Bm25.rank_congr (m : Bm25 α) {docs docs' : List (List (List τ))}
    {phrases : List (List τ)} (hlength : docs.length = docs'.length)
    (hcontaining : ∀ phrase ∈ phrases, containing docs phrase = containing docs' phrase)
    (haverage : (averageSize docs : α) = averageSize docs') (doc : List (List τ)) :
    m.rank docs phrases doc = m.rank docs' phrases doc := by
  unfold Bm25.rank
  congr 2
  apply List.map_congr_left
  intro phrase hphrase
  rw [hlength, hcontaining phrase hphrase, haverage]

theorem Bm25.Before.antisymm {m : Bm25 α} {docs : List (List (List τ))}
    {phrases : List (List τ)} {p q : ℕ × List (List τ)} (h : m.Before docs phrases p q)
    (h' : m.Before docs phrases q p) : p.1 = q.1 := by
  have heq : (m.rank docs phrases p.2, p.1) = (m.rank docs phrases q.2, q.1) :=
    toLex.injective (le_antisymm h h')
  exact congrArg Prod.snd heq

end Ranking

end Wallermax.Base
