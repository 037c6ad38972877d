import Mathlib.Data.List.Nodup
import Mathlib.Data.List.Perm.Subperm
import Mathlib.Tactic.Common

/-!
# Tables of patterns

A router registers patterns one after the other, each for one method, and refuses a pattern
that is malformed or overlaps one that is already there. The same pattern may come again for
another method. Which patterns are well formed and which overlap is the router's affair.
-/

namespace Wallermax.Base

/-- What a router asks of its patterns. -/
structure PatternRules (P : Type) : Type where
  wellFormed : P → Bool
  overlaps : P → P → Bool
  overlaps_comm : ∀ p q, overlaps p q = overlaps q p

namespace PatternRules

variable {P M : Type} (rules : PatternRules P)

/-- The registrations of one table, whatever their order. -/
structure Fits (entries : List (P × M)) : Prop where
  nodup : entries.Nodup
  wellFormed : ∀ e ∈ entries, rules.wellFormed e.1 = true
  apart : ∀ e ∈ entries, ∀ f ∈ entries, e.1 ≠ f.1 → rules.overlaps e.1 f.1 = false

variable {rules}

theorem Fits.nil : rules.Fits ([] : List (P × M)) where
  nodup := List.nodup_nil
  wellFormed := fun _ he => absurd he List.not_mem_nil
  apart := fun _ he => absurd he List.not_mem_nil

theorem Fits.of_subset {entries entries' : List (P × M)} (h : rules.Fits entries)
    (hnodup : entries'.Nodup) (hsub : entries' ⊆ entries) : rules.Fits entries' where
  nodup := hnodup
  wellFormed := fun e he => h.wellFormed e (hsub he)
  apart := fun e he f hf => h.apart e (hsub he) f (hsub hf)

theorem Fits.of_perm {entries entries' : List (P × M)} (h : rules.Fits entries)
    (hperm : entries.Perm entries') : rules.Fits entries' :=
  h.of_subset (hperm.nodup_iff.mp h.nodup) hperm.symm.subset

/-- Part of what fits fits, in any order. -/
theorem Fits.of_subperm {entries entries' : List (P × M)} (h : rules.Fits entries)
    (hsub : entries'.Subperm entries) : rules.Fits entries' := by
  obtain ⟨part, hperm, hpart⟩ := hsub
  exact (h.of_subset (h.nodup.sublist hpart) hpart.subset).of_perm hperm

variable (rules) [DecidableEq P] [DecidableEq M]

/-- Two registrations that one table can hold. -/
def compatible (e f : P × M) : Bool :=
  if e.1 = f.1 then decide (e.2 ≠ f.2) else !rules.overlaps e.1 f.1

/-- `none` where the router refuses the pattern. -/
def register (table : List (P × M)) (e : P × M) : Option (List (P × M)) :=
  if rules.wellFormed e.1 && table.all fun f => rules.compatible f e then some (table ++ [e])
  else none

def registerAll (table entries : List (P × M)) : Option (List (P × M)) :=
  entries.foldlM rules.register table

variable {rules}

theorem compatible_iff {e f : P × M} : rules.compatible e f = true ↔
    e ≠ f ∧ (e.1 ≠ f.1 → rules.overlaps e.1 f.1 = false) := by
  obtain ⟨p, m⟩ := e
  obtain ⟨q, n⟩ := f
  unfold compatible
  by_cases hp : p = q <;> simp [hp]

/-- One more registration fits exactly if it is accepted. -/
theorem fits_append_singleton {table : List (P × M)} {e : P × M} :
    rules.Fits (table ++ [e]) ↔ rules.Fits table ∧ rules.wellFormed e.1 = true ∧
      ∀ f ∈ table, rules.compatible f e = true := by
  constructor
  · intro h
    have hnodup := List.nodup_append.mp h.nodup
    refine ⟨h.of_subset hnodup.1 (List.subset_append_left _ _), h.wellFormed e (by simp), ?_⟩
    intro f hf
    apply compatible_iff.mpr
    exact ⟨hnodup.2.2 f hf e (by simp), h.apart f (List.mem_append_left _ hf) e (by simp)⟩
  · rintro ⟨h, he, hcompatible⟩
    have hnew : ∀ f ∈ table, f ≠ e ∧ (f.1 ≠ e.1 → rules.overlaps f.1 e.1 = false) :=
      fun f hf => compatible_iff.mp (hcompatible f hf)
    refine ⟨?_, ?_, ?_⟩
    · apply List.nodup_append.mpr
      refine ⟨h.nodup, List.nodup_singleton e, fun f hf g hg => ?_⟩
      rw [List.mem_singleton.mp hg]
      exact (hnew f hf).1
    · intro f hf
      rcases List.mem_append.mp hf with hold | hlast
      · exact h.wellFormed f hold
      · rw [List.mem_singleton.mp hlast]
        exact he
    · intro f hf g hg hne
      rcases List.mem_append.mp hf with hold | hlast
      · rcases List.mem_append.mp hg with hold' | hlast'
        · exact h.apart f hold g hold' hne
        · obtain rfl := List.mem_singleton.mp hlast'
          exact (hnew f hold).2 hne
      · obtain rfl := List.mem_singleton.mp hlast
        rcases List.mem_append.mp hg with hold' | hlast'
        · rw [rules.overlaps_comm]
          exact (hnew g hold').2 (Ne.symm hne)
        · exact absurd (congrArg Prod.fst (List.mem_singleton.mp hlast').symm) hne

/-- **Registering**: from a table that fits, the entries are taken exactly if the whole
fits. -/
theorem registerAll_eq_some {table entries table' : List (P × M)} (h : rules.Fits table) :
    rules.registerAll table entries = some table' ↔
      table' = table ++ entries ∧ rules.Fits (table ++ entries) := by
  induction entries generalizing table with
  | nil =>
    rw [List.append_nil]
    constructor
    · intro hsome
      exact ⟨(Option.some.inj hsome).symm, h⟩
    · rintro ⟨rfl, -⟩
      rfl
  | cons e entries ih =>
    have hstep : rules.registerAll table (e :: entries) =
        (rules.register table e).bind fun t => rules.registerAll t entries := rfl
    rw [hstep, List.append_cons]
    by_cases he : rules.Fits (table ++ [e])
    · have haccept := (fits_append_singleton.mp he).2
      have hregister : rules.register table e = some (table ++ [e]) :=
        if_pos (by rw [haccept.1, Bool.true_and, List.all_eq_true]; exact haccept.2)
      rw [hregister]
      exact ih he
    · have hregister : rules.register table e = none := by
        apply if_neg
        rw [Bool.and_eq_true, List.all_eq_true]
        exact fun haccept => he (fits_append_singleton.mpr ⟨h, haccept⟩)
      rw [hregister]
      refine iff_of_false (by simp) fun hall => he ?_
      have hwhole := hall.2
      exact hwhole.of_subset (hwhole.nodup.sublist (List.sublist_append_left _ _))
        (List.subset_append_left _ _)

/-- A table built from nothing. -/
theorem registerAll_nil_eq_some {entries table : List (P × M)} :
    rules.registerAll [] entries = some table ↔ table = entries ∧ rules.Fits entries :=
  registerAll_eq_some Fits.nil

end PatternRules

end Wallermax.Base
