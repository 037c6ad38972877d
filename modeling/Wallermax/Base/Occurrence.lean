import Mathlib.Data.List.Infix
import Mathlib.Tactic.Common

/-!
# Cutting a list at the first occurrence of a pattern

What `str::find` and the two slices around it give. A scan that starts in front
of a stretch `a` may skip it when no occurrence of the pattern begins inside it;
that depends on what follows as well, since an occurrence may begin in `a` and
end behind it.
-/

namespace Wallermax.Base

/-! ## The cut -/

section Cut

variable {α : Type*} [DecidableEq α]

/-- What stands before the first occurrence of the pattern, and behind it. -/
def splitFirst (pat : List α) : List α → Option (List α × List α)
  | [] => if pat = [] then some ([], []) else none
  | c :: s =>
      if pat <+: c :: s then some ([], (c :: s).drop pat.length)
      else (splitFirst pat s).map fun (before, after) => (c :: before, after)

theorem splitFirst_some {pat s before after : List α}
    (h : splitFirst pat s = some (before, after)) : s = before ++ (pat ++ after) := by
  induction s generalizing before after with
  | nil =>
      simp only [splitFirst, Option.ite_none_right_eq_some, Option.some.injEq,
        Prod.mk.injEq] at h
      obtain ⟨rfl, rfl, rfl⟩ := h
      rfl
  | cons c s ih =>
      simp only [splitFirst] at h
      split at h
      · rename_i hpre
        cases h
        obtain ⟨rest, hrest⟩ := hpre
        simp [← hrest]
      · obtain ⟨⟨a, b⟩, hs, heq⟩ := Option.map_eq_some_iff.mp h
        cases heq
        rw [ih hs]
        rfl

theorem splitFirst_suffix {pat s before after : List α}
    (h : splitFirst pat s = some (before, after)) : after <:+ s := by
  rw [splitFirst_some h, ← List.append_assoc]
  exact List.suffix_append _ _

theorem splitFirst_eq_none {pat s : List α} : splitFirst pat s = none ↔ ¬ pat <:+: s := by
  induction s with
  | nil => simp [splitFirst, List.infix_nil]
  | cons c s ih =>
      simp only [splitFirst, List.infix_cons_iff, not_or]
      by_cases hpre : pat <+: c :: s
      · simp [hpre]
      · simp [hpre, ih]

theorem length_splitFirst {pat s before after : List α}
    (h : splitFirst pat s = some (before, after)) :
    before.length + (pat.length + after.length) = s.length := by
  rw [splitFirst_some h, List.length_append, List.length_append]

/-- At the pattern itself the cut is right there. -/
theorem splitFirst_append (pat s : List α) : splitFirst pat (pat ++ s) = some ([], s) := by
  cases hs : pat ++ s with
  | nil =>
      obtain ⟨rfl, rfl⟩ := List.append_eq_nil_iff.mp hs
      simp [splitFirst]
  | cons c rest =>
      have hpre : pat <+: c :: rest := hs ▸ List.prefix_append pat s
      rw [splitFirst, if_pos hpre, ← hs, List.drop_left]

/-- More text behind the first occurrence does not move it. -/
theorem splitFirst_append_right {pat s before after : List α}
    (h : splitFirst pat s = some (before, after)) (t : List α) :
    splitFirst pat (s ++ t) = some (before, after ++ t) := by
  induction s generalizing before after with
  | nil =>
      simp only [splitFirst, Option.ite_none_right_eq_some, Option.some.injEq,
        Prod.mk.injEq] at h
      obtain ⟨rfl, rfl, rfl⟩ := h
      exact splitFirst_append [] t
  | cons c s ih =>
      have hlength := length_splitFirst h
      rw [splitFirst] at h
      split at h
      · rename_i hpre
        cases h
        have hpre' : pat <+: c :: (s ++ t) := hpre.trans (List.prefix_append (c :: s) t)
        have hle : pat.length ≤ (c :: s).length := hpre.length_le
        rw [List.cons_append, splitFirst, if_pos hpre', ← List.cons_append,
          List.drop_append_of_le_length hle]
      · rename_i hpre
        obtain ⟨⟨a, b⟩, hs, heq⟩ := Option.map_eq_some_iff.mp h
        cases heq
        -- an occurrence that starts here would end inside the first list
        have hpre' : ¬ pat <+: c :: (s ++ t) := by
          rw [← List.cons_append]
          intro hlong
          refine hpre (List.prefix_of_prefix_length_le hlong (List.prefix_append _ t) ?_)
          omega
        rw [List.cons_append, splitFirst, if_neg hpre', ih hs]
        rfl

/-- A prefix has the first occurrence where it is long enough, and no other. -/
theorem splitFirst_prefix {pat u v before after : List α}
    (h : splitFirst pat (u ++ v) = some (before, after)) :
    splitFirst pat u = if before.length + pat.length ≤ u.length then
      some (before, u.drop (before.length + pat.length)) else none := by
  have htext := splitFirst_some h
  cases hu : splitFirst pat u with
  | some found =>
      obtain ⟨before', after'⟩ := found
      have hlonger := splitFirst_append_right hu v
      rw [h, Option.some_inj, Prod.mk.injEq] at hlonger
      obtain ⟨rfl, rfl⟩ := hlonger
      have hlength := length_splitFirst hu
      rw [if_pos (by omega), splitFirst_some hu, ← List.append_assoc,
        List.drop_left' (by rw [List.length_append])]
  | none =>
      rw [if_neg]
      intro hle
      refine splitFirst_eq_none.mp hu ?_
      have hprefix : before ++ pat <+: u := by
        refine List.prefix_of_prefix_length_le ?_ (List.prefix_append u v) ?_
        · rw [htext, ← List.append_assoc]
          exact List.prefix_append _ after
        · rw [List.length_append]
          exact hle
      exact (List.suffix_append before pat).isInfix.trans hprefix.isInfix

/-- What is behind the first occurrence. -/
theorem drop_splitFirst {pat s before after : List α}
    (h : splitFirst pat s = some (before, after)) :
    s.drop (before.length + pat.length) = after := by
  rw [splitFirst_some h, ← List.append_assoc, ← List.length_append, List.drop_left]

theorem take_splitFirst {pat s before after : List α}
    (h : splitFirst pat s = some (before, after)) : s.take before.length = before := by
  rw [splitFirst_some h, List.take_left]

/-- What the beginning of a text has of it. -/
theorem drop_prefix_splitFirst {pat u v before after : List α}
    (h : splitFirst pat (u ++ v) = some (before, after)) :
    u.drop (before.length + pat.length) =
      after.take (u.length - (before.length + pat.length)) := by
  calc u.drop (before.length + pat.length)
      = ((u ++ v).take u.length).drop (before.length + pat.length) := by rw [List.take_left]
    _ = after.take (u.length - (before.length + pat.length)) := by
      rw [List.drop_take, drop_splitFirst h]

theorem append_splitFirst {pat u v before after : List α}
    (h : splitFirst pat (u ++ v) = some (before, after))
    (hle : before.length + pat.length ≤ u.length) :
    after.take (u.length - (before.length + pat.length)) ++ v = after := by
  rw [← drop_prefix_splitFirst h, ← List.drop_append_of_le_length hle, drop_splitFirst h]

end Cut

/-! ## Stretches a scan can skip -/

section Clear

variable {α : Type*}

/-- No occurrence of the pattern begins inside `a` when `b` follows. -/
def Clear (pat a b : List α) : Prop :=
  ∀ x y, a = x ++ y → y ≠ [] → ¬ pat <+: y ++ b

theorem clear_nil (pat b : List α) : Clear pat [] b := by
  intro x y h hy
  exact absurd (List.append_eq_nil_iff.mp h.symm).2 hy

theorem clear_cons {pat a b : List α} {c : α} :
    Clear pat (c :: a) b ↔ ¬ pat <+: c :: (a ++ b) ∧ Clear pat a b := by
  constructor
  · intro h
    refine ⟨h [] (c :: a) rfl (List.cons_ne_nil _ _), fun x y hxy hy => ?_⟩
    exact h (c :: x) y (by rw [hxy]; rfl) hy
  · rintro ⟨hhead, htail⟩ x y hxy hy
    cases x with
    | nil =>
        rw [List.nil_append] at hxy
        rwa [← hxy]
    | cons d x =>
        obtain ⟨rfl, hxy⟩ := List.cons.inj hxy
        exact htail x y (by simpa using hxy) hy

theorem clear_append {pat a a' b : List α} :
    Clear pat (a ++ a') b ↔ Clear pat a (a' ++ b) ∧ Clear pat a' b := by
  induction a with
  | nil => simp [clear_nil]
  | cons c a ih =>
      rw [List.cons_append, clear_cons, clear_cons, ih, List.append_assoc]
      exact and_assoc.symm

/-- A stretch without the pattern's first letter is clear. -/
theorem clear_of_not_mem {pat a : List α} {c : α} (h : c ∉ a) (b : List α) :
    Clear (c :: pat) a b := by
  rintro x y rfl hy ⟨rest, hrest⟩
  cases y with
  | nil => exact hy rfl
  | cons d y =>
      obtain ⟨rfl, -⟩ := List.cons.inj hrest
      exact h (List.mem_append_right x (List.mem_cons_self ..))

/-- A stretch without the pattern is clear when what follows does not begin with
the pattern's end. -/
theorem clear_of_tails {pat a b : List α} (h : ¬ pat <:+: a)
    (hb : ∀ z ∈ pat.tail.tails, z ≠ [] → ¬ z <+: b) : Clear pat a b := by
  rintro x y rfl hy ⟨rest, hrest⟩
  have hsub : ∀ z, y = pat ++ z → pat <:+: x ++ y := by
    rintro z rfl
    exact ⟨x, z, by simp⟩
  rcases List.append_eq_append_iff.mp hrest with ⟨z, hz, -⟩ | ⟨z, rfl, hz⟩
  · exact h (hsub z hz)
  · cases y with
    | nil => exact hy rfl
    | cons c y =>
        by_cases hnil : z = []
        · exact h (hsub [] (by simp [hnil]))
        · exact hb z ((List.mem_tails _ _).mpr ⟨y, rfl⟩) hnil ⟨rest, hz.symm⟩

/-- In particular when what follows begins with none of the pattern's later letters. -/
theorem clear_of_head {pat a b : List α} (h : ¬ pat <:+: a)
    (hb : ∀ c ∈ b.head?, c ∉ pat.tail) : Clear pat a b := by
  refine clear_of_tails h fun z hz hne hpre => ?_
  cases z with
  | nil => exact hne rfl
  | cons c z =>
      obtain ⟨rest, rfl⟩ := hpre
      exact hb c rfl (((List.mem_tails _ _).mp hz).subset (List.mem_cons_self ..))

end Clear

/-! ## Scanning past them -/

section Scan

variable {α : Type*} [DecidableEq α]

/-- **The scan skips** a clear stretch. -/
theorem Clear.splitFirst {pat a b : List α} (h : Clear pat a b) :
    splitFirst pat (a ++ b) =
      (splitFirst pat b).map fun (before, after) => (a ++ before, after) := by
  induction a with
  | nil => cases hs : Base.splitFirst pat b <;> simp [hs]
  | cons c a ih =>
      obtain ⟨hhead, htail⟩ := clear_cons.mp h
      rw [List.cons_append, Base.splitFirst, if_neg hhead, ih htail, Option.map_map]
      rfl

/-- The first occurrence, when nothing begins before it. -/
theorem Clear.splitFirst_append {pat a b : List α} (h : Clear pat a (pat ++ b)) :
    Base.splitFirst pat (a ++ (pat ++ b)) = some (a, b) := by
  rw [h.splitFirst, Base.splitFirst_append]
  simp

theorem Clear.infix {pat a b : List α} (h : Clear pat a b) (hb : ¬ pat <:+: b) :
    ¬ pat <:+: a ++ b := by
  rw [← splitFirst_eq_none] at hb ⊢
  rw [h.splitFirst, hb]
  rfl

end Scan

end Wallermax.Base
