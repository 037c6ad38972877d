import Mathlib.Data.List.Basic
import Mathlib.Tactic.Common

/-!
# Ring logs read by a cursor

A bounded log whose entries are numbered in the order they were written; the oldest are
evicted at capacity. A reader passes a cursor and gets the entries from there on, as many
as it asks for. `since` is what is left to be read behind a cursor.
-/

namespace Wallermax.Base

/-- The entries in writing order; the number of the next one. -/
structure RingLog (α : Type*) where
  lines : List α
  written : ℕ
  capacity : ℕ

namespace RingLog

variable {α : Type*} (seq : α → ℕ)

def empty (capacity : ℕ) : RingLog α := ⟨[], 0, capacity⟩

/-- Drop from the front what is over the capacity. -/
def evict (capacity : ℕ) (lines : List α) : List α := lines.drop (lines.length - capacity)

/-- Write the entry that is made of its number. -/
def push (log : RingLog α) (make : ℕ → α) : RingLog α :=
  { log with
    lines := evict log.capacity (log.lines ++ [make log.written])
    written := log.written + 1 }

/-- The entries from a number on. -/
def since (log : RingLog α) (cursor : ℕ) : List α :=
  log.lines.filter fun line => cursor ≤ seq line

/-- Every entry was written. -/
def Written (log : RingLog α) : Prop := ∀ line ∈ log.lines, seq line < log.written

variable {seq} {log : RingLog α}

theorem written_empty (capacity : ℕ) : Written seq (empty (α := α) capacity) :=
  fun _ h => absurd h List.not_mem_nil

theorem mem_of_mem_evict {capacity : ℕ} {lines : List α} {line : α}
    (h : line ∈ evict capacity lines) : line ∈ lines :=
  (List.drop_sublist _ _).subset h

theorem mem_push {make : ℕ → α} {line : α} (h : line ∈ (log.push make).lines) :
    line ∈ log.lines ∨ line = make log.written := by
  rcases List.mem_append.mp (mem_of_mem_evict h) with h | h
  · exact Or.inl h
  · exact Or.inr (List.mem_singleton.mp h)

/-- The entry just written is there, unless there is no room at all. -/
theorem last_mem_push (hcap : 0 < log.capacity) (make : ℕ → α) :
    make log.written ∈ (log.push make).lines := by
  show make log.written ∈ (log.lines ++ [make log.written]).drop _
  rw [List.drop_append_of_le_length (by simp; omega)]
  exact List.mem_append_right _ (List.mem_singleton_self _)

theorem Written.push (h : Written seq log) {make : ℕ → α} (hmake : ∀ n, seq (make n) = n) :
    Written seq (log.push make) := by
  intro line hline
  show seq line < log.written + 1
  rcases mem_push hline with hold | rfl
  · exact Nat.lt_succ_of_lt (h line hold)
  · rw [hmake]
    exact Nat.lt_succ_self _

/-- Behind the number of the next entry there is nothing to read. -/
theorem Written.since_written (h : Written seq log) : log.since seq log.written = [] := by
  unfold since
  rw [List.filter_eq_nil_iff]
  intro line hline
  simpa using h line hline

/-- A write adds its entry to what is left to be read, and may evict from the front. -/
theorem since_push_sublist (log : RingLog α) (make : ℕ → α) (cursor : ℕ) :
    ((log.push make).since seq cursor).Sublist (log.since seq cursor ++ [make log.written]) := by
  unfold since push evict
  refine ((List.drop_sublist _ _).filter _).trans ?_
  rw [List.filter_append]
  exact List.Sublist.append (List.Sublist.refl _) List.filter_sublist

end RingLog

end Wallermax.Base
