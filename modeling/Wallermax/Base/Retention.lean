import Mathlib.Data.List.MinMax
import Mathlib.Data.Nat.Notation

/-!
# Numbered histories under a cap

A history is the list of its entries' numbers, oldest first. A save takes the
largest number plus one, and then drops the numbers that are a cap or more
below the one it took; a cap of 0 drops nothing. The cap may differ from save
to save. What stays is a block of consecutive numbers that ends at the number
of saves (`Retained`).
-/

namespace Wallermax.Base

/-- `COALESCE(MAX(number), 0) + 1`. -/
def nextNumber (numbers : List ℤ) : ℤ := numbers.max?.getD 0 + 1

/-- The numbers above the floor. -/
def prune (cap : ℕ) (number : ℤ) (numbers : List ℤ) : List ℤ :=
  if cap = 0 ∨ number - cap ≤ 0 then numbers
  else numbers.filter fun n => number - cap < n

def append (cap : ℕ) (numbers : List ℤ) : List ℤ :=
  prune cap (nextNumber numbers) (numbers ++ [nextNumber numbers])

/-- The numbers from `first` to `last`. -/
def block (first last : ℕ) : List ℤ :=
  (List.range' first (last + 1 - first)).map fun n : ℕ => (n : ℤ)

/-- What `last` saves leave: nothing before the first one, then a block that
ends at the last one. -/
def Retained (numbers : List ℤ) (last : ℕ) : Prop :=
  (last = 0 ∧ numbers = []) ∨
    ∃ first, 1 ≤ first ∧ first ≤ last ∧ numbers = block first last

section Blocks

variable {first last cap : ℕ} {numbers : List ℤ}

@[simp] theorem mem_block {n : ℤ} :
    n ∈ block first last ↔ (first : ℤ) ≤ n ∧ n ≤ last := by
  simp only [block, List.mem_map, List.mem_range'_1]
  constructor
  · rintro ⟨m, hm, rfl⟩
    omega
  · intro hn
    exact ⟨n.toNat, by omega, by omega⟩

@[simp] theorem length_block : (block first last).length = last + 1 - first := by
  simp [block]

theorem block_succ (h : first ≤ last + 1) :
    block first (last + 1) = block first last ++ [(last + 1 : ℤ)] := by
  have hlen : last + 1 + 1 - first = (last + 1 - first) + 1 := by omega
  have hlast : first + (last + 1 - first) = last + 1 := by omega
  rw [block, hlen, List.range'_concat, List.map_append]
  simp [block, hlast]

/-- The end of a block above a floor. -/
theorem filter_block (floor : ℕ) (h : first ≤ floor + 1) (hlast : floor ≤ last) :
    (block first last).filter (fun n => decide ((floor : ℤ) < n)) = block (floor + 1) last := by
  have hsplit : List.range' first (last + 1 - first) =
      List.range' first (floor + 1 - first) ++ List.range' (floor + 1) (last - floor) := by
    have hat : first + 1 * (floor + 1 - first) = floor + 1 := by omega
    have hlen : floor + 1 - first + (last - floor) = last + 1 - first := by omega
    rw [← hlen, ← List.range'_append, hat]
  have hlow : (List.range' first (floor + 1 - first)).filter
      (fun n => decide (floor < n)) = [] := by
    rw [List.filter_eq_nil_iff]
    intro n hn
    rw [List.mem_range'_1] at hn
    simp only [decide_eq_true_eq]
    omega
  have hhigh : (List.range' (floor + 1) (last - floor)).filter
      (fun n => decide (floor < n)) = List.range' (floor + 1) (last - floor) := by
    rw [List.filter_eq_self]
    intro n hn
    rw [List.mem_range'_1] at hn
    simp only [decide_eq_true_eq]
    omega
  have hlen : last + 1 - (floor + 1) = last - floor := by omega
  have hcast : ((fun n : ℤ => decide ((floor : ℤ) < n)) ∘ fun n : ℕ => (n : ℤ)) =
      fun n => decide (floor < n) := by
    funext n
    simp
  rw [block, List.filter_map, hcast, hsplit, List.filter_append, hlow, hhigh, block, hlen,
    List.nil_append]

theorem max?_block (h : first ≤ last) : (block first last).max? = some (last : ℤ) := by
  rw [List.max?_eq_some_iff]
  constructor
  · rw [mem_block]
    omega
  · intro n hn
    exact (mem_block.mp hn).2

theorem Retained.nextNumber (h : Retained numbers last) :
    nextNumber numbers = (last + 1 : ℤ) := by
  rcases h with ⟨rfl, rfl⟩ | ⟨first, _, hlast, rfl⟩
  · rfl
  · rw [Base.nextNumber, max?_block hlast, Option.getD_some]

/-- Before pruning a save leaves a longer block. -/
theorem Retained.concat (h : Retained numbers last) :
    ∃ first, 1 ≤ first ∧ first ≤ last + 1 ∧
      numbers ++ [Base.nextNumber numbers] = block first (last + 1) := by
  have hnext := h.nextNumber
  rcases h with ⟨rfl, rfl⟩ | ⟨first, hone, hlast, rfl⟩
  · exact ⟨1, le_rfl, le_rfl, rfl⟩
  · refine ⟨first, hone, by omega, ?_⟩
    rw [block_succ (by omega), hnext]

/-- **A save under any cap** leaves a block that ends at it, no longer than the
cap. -/
theorem Retained.append (h : Retained numbers last) :
    Retained (append cap numbers) (last + 1) ∧
      (0 < cap → (Base.append cap numbers).length ≤ cap) := by
  obtain ⟨first, hone, hlast, hblock⟩ := h.concat
  have hnext := h.nextNumber
  rw [Base.append, hblock, prune, hnext]
  split
  · rename_i hfloor
    refine ⟨.inr ⟨first, hone, hlast, rfl⟩, ?_⟩
    intro hcap
    rw [length_block]
    omega
  · rename_i hfloor
    push Not at hfloor
    by_cases hkept : first ≤ last + 1 - cap + 1
    · have hfilter : (block first (last + 1)).filter
          (fun n => decide (((last + 1 - cap : ℕ) : ℤ) < n)) =
            block (last + 1 - cap + 1) (last + 1) :=
        filter_block (last + 1 - cap) hkept (by omega)
      have hcast : (last + 1 : ℤ) - cap = ((last + 1 - cap : ℕ) : ℤ) := by omega
      rw [hcast, hfilter]
      refine ⟨.inr ⟨last + 1 - cap + 1, by omega, by omega, rfl⟩, ?_⟩
      intro _
      rw [length_block]
      omega
    · have hall : (block first (last + 1)).filter
          (fun n => decide ((last + 1 : ℤ) - cap < n)) = block first (last + 1) := by
        rw [List.filter_eq_self]
        intro n hn
        have := (mem_block.mp hn).1
        simp only [decide_eq_true_eq]
        omega
      rw [hall]
      refine ⟨.inr ⟨first, hone, hlast, rfl⟩, ?_⟩
      intro _
      rw [length_block]
      omega

end Blocks

end Wallermax.Base
