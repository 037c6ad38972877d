import Wallermax.Base.ParentTree
import Wallermax.Content.Pages

/-!
# The ancestor walk

`ancestors` collects the pages up to `maxAncestorHops - 1` parent links above
the page it begins at, as far as the links lead to pages of the organization.
-/

namespace Wallermax.Content

open Wallermax.Base
open Wallermax.Accounts
open Wallermax.Storage
open Wallermax.Tenants

/-- `parent_id` of a page of the organization. -/
def parentIn (db : ContentDb) (organization : String) (i : ℕ) : Option ℕ :=
  (Pages.findById db organization i).bind fun p => p.2.parent_id

section Walk

variable {db db' : ContentDb} {organization : String}

/-- The page a hop reads is collected unless the walk began there. -/
theorem mem_collected {id : ℤ} {chain : List (ℕ × Page)} {i : ℕ} {page : Page}
    {a : ℕ × Page} : (a ∈ if (i : ℤ) = id then chain else (i, page) :: chain) ↔
      a ∈ chain ∨ ((a.1 : ℤ) ≠ id ∧ a = (i, page)) := by
  split
  · rename_i hid
    constructor
    · exact .inl
    · rintro (h | ⟨hne, rfl⟩)
      · exact h
      · exact absurd hid hne
  · rename_i hid
    rw [List.mem_cons]
    constructor
    · rintro (rfl | h)
      · exact .inr ⟨hid, rfl⟩
      · exact .inl h
    · rintro (h | ⟨_, rfl⟩)
      · exact .inr h
      · exact .inl rfl

/-- **What the walk collects**: besides what it has, the pages its hops reach,
without the one it began at. -/
theorem mem_ancestorsLoop {id : ℤ} {hops current : ℕ} {chain : List (ℕ × Page)}
    {a : ℕ × Page} : a ∈ Pages.ancestorsLoop db organization id hops current chain ↔
      a ∈ chain ∨ ((a.1 : ℤ) ≠ id ∧ ∃ k < hops,
        climb (parentIn db organization) k current = some a.1 ∧
          Pages.findById db organization a.1 = some a) := by
  induction hops generalizing current chain with
  | zero => simp [Pages.ancestorsLoop]
  | succ hops ih =>
      rw [Nat.exists_lt_succ_left]
      simp only [climb_zero, climb_succ, Option.some.injEq]
      unfold Pages.ancestorsLoop
      cases hfind : Pages.findById db organization current with
      | none =>
          have hup : parentIn db organization current = none := by simp [parentIn, hfind]
          have hnone : ¬ (current = a.1 ∧ Pages.findById db organization a.1 = some a) := by
            rintro ⟨rfl, h⟩
            rw [hfind] at h
            cases h
          simp [hup, hnone]
      | some page =>
          obtain ⟨i, page⟩ := page
          obtain rfl : i = current := Int.ofNat_inj.mp (Pages.findById_some hfind).2
          have hup : parentIn db organization i = page.parent_id := by
            simp [parentIn, hfind]
          have hself : i = a.1 ∧ Pages.findById db organization a.1 = some a ↔
              a = (i, page) := by
            constructor
            · rintro ⟨rfl, h⟩
              exact Option.some.inj (h.symm.trans hfind)
            · rintro rfl
              exact ⟨rfl, hfind⟩
          simp only [hup, hself]
          cases hparent : page.parent_id with
          | none => simpa using mem_collected
          | some m =>
              simp only [Option.bind_some]
              split
              · rename_i hloop
                obtain rfl := hloop
                have hround := climb_fixed (hup.trans hparent)
                rw [mem_collected]
                constructor
                · rintro (h | ⟨hne, h⟩)
                  · exact .inl h
                  · exact .inr ⟨hne, .inl h⟩
                · rintro (h | ⟨hne, h | ⟨k, _, hk, hfound⟩⟩)
                  · exact .inl h
                  · exact .inr ⟨hne, h⟩
                  · rw [hround k] at hk
                    exact .inr ⟨hne, hself.mp ⟨Option.some.inj hk, hfound⟩⟩
              · rw [ih, mem_collected]
                constructor
                · rintro ((h | ⟨hne, h⟩) | ⟨hne, h⟩)
                  · exact .inl h
                  · exact .inr ⟨hne, .inl h⟩
                  · exact .inr ⟨hne, .inr h⟩
                · rintro (h | ⟨hne, h | h⟩)
                  · exact .inl (.inl h)
                  · exact .inl (.inr ⟨hne, h⟩)
                  · exact .inr ⟨hne, h⟩

/-- Two walks over related pages collect related pages. -/
theorem ancestorsLoop_rel {R : ℕ × Page → ℕ × Page → Prop}
    (hR : ∀ p q, R p q → p.1 = q.1 ∧ p.2.parent_id = q.2.parent_id)
    (hfind : ∀ i : ℤ, Option.Rel R (Pages.findById db organization i)
      (Pages.findById db' organization i)) {id : ℤ} {hops : ℕ} {current : ℤ}
    {chain chain' : List (ℕ × Page)} (hchain : List.Forall₂ R chain chain') :
    List.Forall₂ R (Pages.ancestorsLoop db organization id hops current chain)
      (Pages.ancestorsLoop db' organization id hops current chain') := by
  induction hops generalizing current chain chain' with
  | zero => exact hchain
  | succ hops ih =>
      unfold Pages.ancestorsLoop
      have hcurrent := hfind current
      cases hpage : Pages.findById db organization current with
      | none =>
          rw [hpage] at hcurrent
          cases hother : Pages.findById db' organization current with
          | none => exact hchain
          | some q =>
              rw [hother] at hcurrent
              cases hcurrent
      | some p =>
          rw [hpage] at hcurrent
          cases hother : Pages.findById db' organization current with
          | none =>
              rw [hother] at hcurrent
              cases hcurrent
          | some q =>
              rw [hother] at hcurrent
              obtain hpq : R p q := by
                cases hcurrent
                assumption
              obtain ⟨hid, hparent⟩ := hR p q hpq
              have hnext : List.Forall₂ R
                  (if (p.1 : ℤ) = id then chain else p :: chain)
                  (if (q.1 : ℤ) = id then chain' else q :: chain') := by
                rw [← hid]
                split
                · exact hchain
                · exact .cons hpq hchain
              simp only [← hparent, ← hid] at hnext ⊢
              cases p.2.parent_id with
              | none => exact hnext
              | some m =>
                  simp only
                  split
                  · exact hnext
                  · exact ih hnext

end Walk

end Wallermax.Content
