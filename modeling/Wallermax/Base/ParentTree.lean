import Mathlib.Data.List.Nodup
import Mathlib.Data.Nat.Notation
import Mathlib.Data.Option.Basic
import Mathlib.Logic.Function.Basic

/-!
# Parent pointers

A tree stored as a pointer from each node to its parent, `none` at the top.
Nothing in the representation forbids a cycle; `Forest` says that every climb
comes to an end, and hence that no node is above itself. Cutting links keeps a
forest, and hanging a node under another does when the node is not among those
above its new parent.
-/

namespace Wallermax.Base

variable {ι : Type*}

/-- The node this many links above. -/
def climb (up : ι → Option ι) : ℕ → ι → Option ι
  | 0, i => some i
  | n + 1, i => (up i).bind (climb up n)

/-- Following the links from `i` comes to an end. -/
def Rooted (up : ι → Option ι) (i : ι) : Prop := ∃ n, climb up n i = none

def Forest (up : ι → Option ι) : Prop := ∀ i, Rooted up i

section Climb

variable {up : ι → Option ι} {i j : ι}

@[simp] theorem climb_zero : climb up 0 i = some i := rfl

theorem climb_succ (n : ℕ) : climb up (n + 1) i = (up i).bind (climb up n) := rfl

theorem climb_add (m n : ℕ) : climb up (m + n) i = (climb up m i).bind (climb up n) := by
  induction m generalizing i with
  | zero => simp
  | succ m ih =>
      rw [Nat.succ_add, climb_succ, climb_succ, Option.bind_assoc]
      exact congrArg _ (funext fun _ => ih)

theorem climb_none_of_le {m n : ℕ} (h : climb up m i = none) (hmn : m ≤ n) :
    climb up n i = none := by
  obtain ⟨k, rfl⟩ := Nat.exists_eq_add_of_le hmn
  rw [climb_add, h, Option.bind_none]

theorem Rooted.of_none (h : up i = none) : Rooted up i := ⟨1, by simp [climb_succ, h]⟩

theorem Rooted.of_up (h : up i = some j) (hj : Rooted up j) : Rooted up i := by
  obtain ⟨n, hn⟩ := hj
  exact ⟨n + 1, by rw [climb_succ, h, Option.bind_some, hn]⟩

/-- A closed walk goes round as often as one likes. -/
theorem climb_mul {n : ℕ} (h : climb up n i = some i) (k : ℕ) :
    climb up (k * n) i = some i := by
  induction k with
  | zero => simp
  | succ k ih => rw [Nat.succ_mul, climb_add, ih, Option.bind_some, h]

/-- A node that is its own parent stays where it is. -/
theorem climb_fixed (h : up i = some i) (k : ℕ) : climb up k i = some i := by
  induction k with
  | zero => rfl
  | succ k ih => rw [climb_succ, h, Option.bind_some, ih]

/-- **No node of a forest is above itself.** -/
theorem Rooted.climb_ne (hi : Rooted up i) {n : ℕ} (hn : 0 < n) :
    climb up n i ≠ some i := by
  intro h
  obtain ⟨m, hm⟩ := hi
  have hround := climb_mul h m
  rw [climb_none_of_le hm (Nat.le_mul_of_pos_right m hn)] at hround
  cases hround

/-- A climb to the top passes each node once, so it is shorter than any list of
the nodes it passes. -/
theorem climb_lt_length {d : ℕ} {s : List ι} (hclimb : climb up d i = some j)
    (htop : up j = none) (hs : ∀ k ≤ d, ∀ l, climb up k i = some l → l ∈ s) :
    d < s.length := by
  have hpass : ∀ k ≤ d, ∃ l, climb up k i = some l ∧ climb up (d - k) l = some j := by
    intro k hk
    have hsplit : climb up (k + (d - k)) i = (climb up k i).bind (climb up (d - k)) :=
      climb_add k (d - k)
    rw [Nat.add_sub_cancel' hk, hclimb] at hsplit
    exact Option.bind_eq_some_iff.mp hsplit.symm
  have hrooted : ∀ k ≤ d, ∀ l, climb up k i = some l → Rooted up l := by
    intro k hk l hl
    obtain ⟨m, hm, hrest⟩ := hpass k hk
    obtain rfl := Option.some.inj (hl.symm.trans hm)
    exact ⟨d - k + 1, by rw [climb_add, hrest, Option.bind_some, climb_succ, htop,
      Option.bind_none]⟩
  have honce : ∀ k l, k < l → l ≤ d → climb up k i ≠ climb up l i := by
    intro k l hkl hl heq
    obtain ⟨m, hm, _⟩ := hpass k (by omega)
    have hround : climb up (l - k) m = some m := by
      have hsplit : climb up (k + (l - k)) i = (climb up k i).bind (climb up (l - k)) :=
        climb_add k (l - k)
      rw [Nat.add_sub_cancel' (Nat.le_of_lt hkl), ← heq, hm, Option.bind_some] at hsplit
      exact hsplit.symm
    exact (hrooted k (by omega) m hm).climb_ne (by omega) hround
  have hnodup : ((List.range (d + 1)).map fun k => climb up k i).Nodup := by
    apply List.nodup_range.map_on
    intro k hk l hl heq
    rw [List.mem_range] at hk hl
    rcases Nat.lt_trichotomy k l with hkl | rfl | hlk
    · exact absurd heq (honce k l hkl (by omega))
    · rfl
    · exact absurd heq.symm (honce l k hlk (by omega))
  have hsub : ((List.range (d + 1)).map fun k => climb up k i) ⊆ s.map some := by
    intro o ho
    obtain ⟨k, hk, rfl⟩ := List.mem_map.mp ho
    have hk : k ≤ d := by
      rw [List.mem_range] at hk
      omega
    obtain ⟨l, hl, _⟩ := hpass k hk
    rw [hl]
    exact List.mem_map_of_mem (hs k hk l hl)
  have hle := hnodup.length_le_of_subset hsub
  rw [List.length_map, List.length_map, List.length_range] at hle
  omega

end Climb

section Links

variable {up up' : ι → Option ι}

/-- A forest with links cut. -/
theorem Forest.cut (h : Forest up) (hcut : ∀ j, up' j = up j ∨ up' j = none) :
    Forest up' := by
  intro i
  obtain ⟨n, hn⟩ := h i
  induction n generalizing i with
  | zero => cases hn
  | succ n ih =>
      rcases hcut i with heq | hnone
      · cases hup : up i with
        | none => exact .of_none (heq.trans hup)
        | some j =>
            rw [climb_succ, hup, Option.bind_some] at hn
            exact .of_up (heq.trans hup) (ih j hn)
      · exact .of_none hnone

variable [DecidableEq ι] {i p : ι}

/-- The new link is no step of a climb that never comes to `i`. -/
theorem climb_update {j : ι} (h : ∀ n, climb up n j ≠ some i) (q : Option ι) (n : ℕ) :
    climb (Function.update up i q) n j = climb up n j := by
  induction n generalizing j with
  | zero => rfl
  | succ n ih =>
      have hne : j ≠ i := fun heq => h 0 (congrArg some heq)
      rw [climb_succ, climb_succ, Function.update_of_ne hne]
      cases hup : up j with
      | none => rfl
      | some k =>
          simp only [Option.bind_some]
          apply ih
          intro m hm
          apply h (m + 1)
          rw [climb_succ, hup, Option.bind_some, hm]

/-- **The sound move**: a node hung under one it is not above. -/
theorem Forest.hang (h : Forest up) (hp : ∀ n, climb up n p ≠ some i) :
    Forest (Function.update up i (some p)) := by
  have hparent : Rooted (Function.update up i (some p)) p := by
    obtain ⟨n, hn⟩ := h p
    exact ⟨n, (climb_update hp _ n).trans hn⟩
  have hi : Rooted (Function.update up i (some p)) i :=
    .of_up (Function.update_self ..) hparent
  intro j
  obtain ⟨n, hn⟩ := h j
  induction n generalizing j with
  | zero => cases hn
  | succ n ih =>
      by_cases hji : j = i
      · rw [hji]
        exact hi
      · cases hup : up j with
        | none => exact .of_none ((Function.update_of_ne hji ..).trans hup)
        | some k =>
            rw [climb_succ, hup, Option.bind_some] at hn
            exact .of_up ((Function.update_of_ne hji ..).trans hup) (ih k hn)

theorem Forest.unhang (h : Forest up) : Forest (Function.update up i none) := by
  apply h.cut
  intro j
  by_cases hji : j = i
  · rw [hji]
    exact .inr (Function.update_self ..)
  · exact .inl (Function.update_of_ne hji ..)

end Links

end Wallermax.Base
