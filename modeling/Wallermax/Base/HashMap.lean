import Mathlib.Data.List.AList

/-!
# Keyed maps

The standard library's hash map, read through its keys: `AList` carries the
proof that no key has two entries. Mathlib has insertion, erasure and lookup;
what is missing is `retain`, the bulk removal every bounded map relies on.
-/

namespace Wallermax.Base

/-- `HashMap<K, V>`; the iteration order is never observed. -/
abbrev HashMap (κ β : Type) : Type := AList fun _ : κ => β

namespace HashMap

variable {κ β : Type}

def len (m : HashMap κ β) : ℕ := m.entries.length

/-- `retain`: keep the entries that pass the test. -/
def retain (m : HashMap κ β) (keep : κ → β → Bool) : HashMap κ β :=
  ⟨m.entries.filter fun e => keep e.1 e.2, m.nodupKeys.sublist List.filter_sublist⟩

theorem len_eq (m : HashMap κ β) : m.len = m.keys.length := by
  show m.entries.length = (m.entries.map Sigma.fst).length
  rw [List.length_map]

variable [DecidableEq κ]

/-- What `retain` keeps is what was there and passes the test. -/
theorem lookup_retain (m : HashMap κ β) (keep : κ → β → Bool) (k : κ) :
    AList.lookup k (m.retain keep) = (m.lookup k).filter (keep k) := by
  ext v
  rw [Option.mem_def.symm, AList.mem_lookup_iff, Option.filter_eq_some_iff,
    Option.mem_def.symm, AList.mem_lookup_iff]
  show (⟨k, v⟩ : Sigma fun _ : κ => β) ∈ m.entries.filter (fun e => keep e.1 e.2) ↔ _
  rw [List.mem_filter]

theorem lookup_retain_some {m : HashMap κ β} {keep : κ → β → Bool} {k : κ} {v : β}
    (h : AList.lookup k (m.retain keep) = some v) : m.lookup k = some v := by
  rw [lookup_retain] at h
  exact (Option.filter_eq_some_iff.mp h).1

theorem len_insert_of_mem {m : HashMap κ β} {k : κ} (h : k ∈ m) (v : β) :
    len (AList.insert k v m) = m.len := by
  have hmem : k ∈ m.keys := h
  have hpos := List.length_pos_of_mem hmem
  rw [len_eq, len_eq, AList.keys_insert, List.length_cons, List.length_erase_of_mem hmem]
  omega

theorem len_insert_of_not_mem {m : HashMap κ β} {k : κ} (h : k ∉ m) (v : β) :
    len (AList.insert k v m) = m.len + 1 := by
  rw [len_eq, len_eq, AList.keys_insert, List.length_cons, List.erase_of_not_mem h]

end HashMap

end Wallermax.Base
