import Mathlib.Data.List.Infix
import Mathlib.Data.List.Pairwise
import Wallermax.Base.Table

/-!
# Tables with a `CHECK` and a `UNIQUE` constraint

A `Constrained` table stores only rows that pass its check, and no two rows
that collide under its uniqueness constraint. The constraints are fields, so a
statement that would break one cannot produce a table: `INSERT` fails and
`INSERT OR IGNORE` skips the row.

A column value a statement computes may be `NULL`. A row with a `NULL` in a
`NOT NULL` column is no row of the table, so the statements take an
`Option ρ`: `none` is the row that violates `NOT NULL`.
-/

namespace Wallermax.Base

/-- A table under `CHECK (check row)` and a uniqueness constraint that two rows
violate when they `collide`. -/
structure Constrained (ρ : Type*) (check : ρ → Bool) (collide : ρ → ρ → Bool)
    extends Table ρ where
  checked : ∀ r ∈ rows, check r.2 = true
  unique : rows.Pairwise fun r q => collide r.2 q.2 = false

namespace Constrained

variable {ρ σ : Type*} {check : ρ → Bool} {collide : ρ → ρ → Bool}

def empty : Constrained ρ check collide where
  toTable := Table.empty
  checked := by simp
  unique := List.Pairwise.nil

/-- The constraints accept a new row under this id. -/
def admits (t : Constrained ρ check collide) (id : ℕ) (v : ρ) : Bool :=
  check v && t.rows.all fun r => r.1 != id && !collide r.2 v

theorem admits_iff {t : Constrained ρ check collide} {id : ℕ} {v : ρ} :
    t.admits id v = true ↔
      check v = true ∧ ∀ r ∈ t.rows, r.1 ≠ id ∧ collide r.2 v = false := by
  simp [admits]

/-- Store a row the constraints accept; the counter follows the largest id. -/
def store (t : Constrained ρ check collide) (id : ℕ) (v : ρ)
    (h : t.admits id v = true) : Constrained ρ check collide where
  rows := t.rows ++ [(id, v)]
  seq := max t.seq id
  ids_nodup := by
    rw [List.map_append, List.nodup_append]
    refine ⟨t.ids_nodup, List.nodup_singleton _, ?_⟩
    intro a ha b hb
    obtain ⟨r, hr, rfl⟩ := List.mem_map.mp ha
    obtain rfl : b = id := by simpa using hb
    exact ((admits_iff.mp h).2 r hr).1
  ids_le_seq := by
    intro r hr
    rcases List.mem_append.mp hr with hr | hr
    · exact Nat.le_trans (t.ids_le_seq r hr) (Nat.le_max_left _ _)
    · rw [List.mem_singleton.mp hr]
      exact Nat.le_max_right _ _
  checked := by
    intro r hr
    rcases List.mem_append.mp hr with hr | hr
    · exact t.checked r hr
    · rw [List.mem_singleton.mp hr]
      exact (admits_iff.mp h).1
  unique := by
    rw [List.pairwise_append]
    refine ⟨t.unique, List.pairwise_singleton _ _, ?_⟩
    intro r hr q hq
    rw [List.mem_singleton.mp hq]
    exact ((admits_iff.mp h).2 r hr).2

/-- `INSERT OR IGNORE INTO t (id, …) VALUES (id, v)`: a row that violates a
`NOT NULL`, `CHECK`, `UNIQUE` or primary key constraint is skipped. -/
def insertOrIgnore (t : Constrained ρ check collide) (id : ℕ) :
    Option ρ → Constrained ρ check collide
  | none => t
  | some v => if h : t.admits id v = true then t.store id v h else t

/-- `INSERT INTO t VALUES (v)` with the next id; `none` when a constraint fails
the statement. -/
def insert? (t : Constrained ρ check collide) :
    Option ρ → Option (Constrained ρ check collide)
  | none => none
  | some v =>
      if h : t.admits t.nextId v = true then some (t.store t.nextId v h) else none

/-- `DELETE FROM t WHERE p`. -/
def delete (t : Constrained ρ check collide) (p : ℕ → ρ → Bool) :
    Constrained ρ check collide where
  toTable := t.toTable.delete p
  checked := fun r hr => t.checked r (List.mem_of_mem_filter hr)
  unique := t.unique.sublist List.filter_sublist

/-- `UPDATE t SET row = f row WHERE p`; `none` when a constraint fails the
statement. -/
def update? (t : Constrained ρ check collide) (p : ℕ → ρ → Bool) (f : ρ → ρ) :
    Option (Constrained ρ check collide) :=
  if h : (∀ r ∈ (t.toTable.update p f).rows, check r.2 = true) ∧
      (t.toTable.update p f).rows.Pairwise fun r q => collide r.2 q.2 = false then
    some
      { toTable := t.toTable.update p f
        checked := h.1
        unique := h.2 }
  else none

/-- An `UPDATE` of columns no constraint reads. -/
def modify (t : Constrained ρ check collide) (p : ℕ → ρ → Bool) (f : ρ → ρ)
    (hcheck : ∀ v, check (f v) = check v)
    (hcollide : ∀ v w, collide (f v) w = collide v w ∧ collide v (f w) = collide v w) :
    Constrained ρ check collide where
  toTable := t.toTable.update p f
  checked := by
    intro r hr
    obtain ⟨q, hq, rfl⟩ := List.mem_map.mp hr
    simp only
    split
    · rw [hcheck]
      exact t.checked q hq
    · exact t.checked q hq
  unique := by
    refine List.pairwise_map.mpr (t.unique.imp fun {r q} h => ?_)
    simp only
    split <;> split <;> simp only [(hcollide _ _).1, (hcollide _ _).2, h]

/-- `INSERT OR IGNORE INTO t SELECT id, f row FROM source`. -/
def copyOrIgnore (t : Constrained ρ check collide) (source : List (ℕ × σ))
    (f : σ → Option ρ) : Constrained ρ check collide :=
  source.foldl (fun t r => t.insertOrIgnore r.1 (f r.2)) t

/-! ## What each statement does to the rows -/

@[simp] theorem rows_empty :
    (empty : Constrained ρ check collide).rows = [] := rfl

theorem rows_insertOrIgnore_of_admits {t : Constrained ρ check collide} {id : ℕ}
    {v : ρ} (h : t.admits id v = true) :
    (t.insertOrIgnore id (some v)).rows = t.rows ++ [(id, v)] := by
  simp [insertOrIgnore, h, store]

theorem rows_insert? {t t' : Constrained ρ check collide} {v : ρ}
    (h : t.insert? (some v) = some t') : t'.rows = t.rows ++ [(t.nextId, v)] := by
  simp only [insert?, Option.dite_none_right_eq_some, Option.some.injEq] at h
  obtain ⟨_, rfl⟩ := h
  rfl

theorem seq_insert? {t t' : Constrained ρ check collide} {v : ρ}
    (h : t.insert? (some v) = some t') : t'.seq = t.nextId := by
  simp only [insert?, Option.dite_none_right_eq_some, Option.some.injEq] at h
  obtain ⟨_, rfl⟩ := h
  exact Nat.max_eq_right (Nat.le_succ _)

theorem admits_of_insert? {t t' : Constrained ρ check collide} {v : ρ}
    (h : t.insert? (some v) = some t') : t.admits t.nextId v = true := by
  simp only [insert?, Option.dite_none_right_eq_some] at h
  exact h.1

/-- Rows that collide are one row. -/
theorem eq_of_collide {t : Constrained ρ check collide}
    (hsymm : ∀ v w, collide v w = collide w v) {i j : ℕ} {v w : ρ}
    (hv : (i, v) ∈ t.rows) (hw : (j, w) ∈ t.rows) (h : collide v w = true) : i = j := by
  have : Std.Symm fun r q : ℕ × ρ => collide r.2 q.2 = false :=
    ⟨fun r q hrq => (hsymm q.2 r.2).trans hrq⟩
  by_contra hne
  have hpair := t.unique.forall hv hw fun heq => hne (congrArg Prod.fst heq)
  simp [h] at hpair

theorem mem_insert? {t t' : Constrained ρ check collide} {v : Option ρ}
    (h : t.insert? v = some t') {r : ℕ × ρ} :
    r ∈ t'.rows ↔ r ∈ t.rows ∨ ∃ w, v = some w ∧ r = (t.nextId, w) := by
  cases v with
  | none => cases h
  | some w => simp [rows_insert? h]

@[simp] theorem mem_delete {t : Constrained ρ check collide} {p : ℕ → ρ → Bool}
    {r : ℕ × ρ} : r ∈ (t.delete p).rows ↔ r ∈ t.rows ∧ p r.1 r.2 = false :=
  Table.mem_delete

theorem update?_some {t t' : Constrained ρ check collide} {p : ℕ → ρ → Bool}
    {f : ρ → ρ} (h : t.update? p f = some t') : t'.toTable = t.toTable.update p f := by
  simp only [update?, Option.dite_none_right_eq_some, Option.some.injEq] at h
  obtain ⟨_, rfl⟩ := h
  rfl

theorem eq_of_toTable {t t' : Constrained ρ check collide} (h : t.toTable = t'.toTable) :
    t = t' := by
  cases t
  cases t'
  obtain rfl := h
  rfl

theorem insert?_eq_none {t : Constrained ρ check collide} {i : ℕ} {v w : ρ}
    (hw : (i, w) ∈ t.rows) (h : collide w v = true) : t.insert? (some v) = none := by
  refine dif_neg fun hadmits => ?_
  have hfree := ((admits_iff.mp hadmits).2 _ hw).2
  rw [h] at hfree
  cases hfree

/-- A row that keeps clear of the others under the constraints is let in. -/
theorem exists_insert? {t : Constrained ρ check collide} {v : ρ} (hcheck : check v = true)
    (hclear : ∀ i w, (i, w) ∈ t.rows → collide w v = false) :
    ∃ t', t.insert? (some v) = some t' := by
  refine ⟨_, dif_pos (admits_iff.mpr ⟨hcheck, ?_⟩)⟩
  rintro ⟨i, w⟩ hw
  refine ⟨?_, hclear i w hw⟩
  rintro rfl
  exact Table.not_mem_nextId hw

@[simp] theorem mem_modify {t : Constrained ρ check collide} {p : ℕ → ρ → Bool} {f : ρ → ρ}
    {hcheck : ∀ v, check (f v) = check v}
    {hcollide : ∀ v w, collide (f v) w = collide v w ∧ collide v (f w) = collide v w}
    {i : ℕ} {v : ρ} : (i, v) ∈ (t.modify p f hcheck hcollide).rows ↔
      ∃ w, (i, w) ∈ t.rows ∧ (if p i w then f w else w) = v :=
  Table.mem_update

theorem modify_eq_self {t : Constrained ρ check collide} {p : ℕ → ρ → Bool} {f : ρ → ρ}
    {hcheck : ∀ v, check (f v) = check v}
    {hcollide : ∀ v w, collide (f v) w = collide v w ∧ collide v (f w) = collide v w}
    (h : ∀ i v, (i, v) ∈ t.rows → p i v = true → f v = v) :
    t.modify p f hcheck hcollide = t :=
  eq_of_toTable (Table.update_eq_self h)

theorem delete_eq_self {t : Constrained ρ check collide} {p : ℕ → ρ → Bool}
    (h : ∀ i v, (i, v) ∈ t.rows → p i v = false) : t.delete p = t :=
  eq_of_toTable (Table.delete_eq_self h)

/-- An `UPDATE` of one row that keeps clear of the other rows is let through. -/
theorem exists_update? {t : Constrained ρ check collide} {p : ℕ → ρ → Bool} {f : ρ → ρ}
    {i : ℕ} {v : ρ} (hsymm : ∀ v w, collide v w = collide w v) (hv : (i, v) ∈ t.rows)
    (hp : ∀ j w, (j, w) ∈ t.rows → p j w = true → j = i) (hcheck : check (f v) = true)
    (hclear : ∀ j w, (j, w) ∈ t.rows → j ≠ i → collide (f v) w = false) :
    ∃ t', t.update? p f = some t' := by
  have hrow : ∀ j w, (j, w) ∈ t.rows → p j w = true → w = v := by
    intro j w hw hpw
    obtain rfl := hp j w hw hpw
    exact Table.eq_of_mem hw hv
  refine ⟨_, dif_pos ⟨?_, ?_⟩⟩
  · intro r hr
    obtain ⟨w, hw, heq⟩ := Table.mem_update.mp (show (r.1, r.2) ∈ _ from hr)
    rw [← heq]
    split
    · rename_i hpw
      rw [hrow _ _ hw hpw]
      exact hcheck
    · exact t.checked _ hw
  · have hids : t.rows.Pairwise fun r q => r.1 ≠ q.1 := List.pairwise_map.mp t.ids_nodup
    refine List.pairwise_map.mpr ((t.unique.and hids).imp_of_mem ?_)
    rintro ⟨j, w⟩ ⟨k, u⟩ hj hk ⟨hfree, hne⟩
    have hne : j ≠ k := hne
    simp only
    split
    · rename_i hpw
      obtain rfl := hp j w hj hpw
      obtain rfl := hrow j w hj hpw
      rw [if_neg fun hpu => hne (hp k u hk hpu).symm]
      exact hclear k u hk hne.symm
    · split
      · rename_i hpu
        obtain rfl := hp k u hk hpu
        obtain rfl := hrow k u hk hpu
        rw [hsymm]
        exact hclear j w hj hne
      · exact hfree

/-- Rows with a `NULL` in a `NOT NULL` column are all skipped. -/
theorem copyOrIgnore_none (t : Constrained ρ check collide) (source : List (ℕ × σ)) :
    t.copyOrIgnore source (fun _ => none) = t := by
  induction source with
  | nil => rfl
  | cons r rs ih => exact ih

/-- **A copy loses nothing** when the target's constraints refuse only what the
source's constraints refuse already. -/
theorem rows_copyOrIgnore_empty {check' : σ → Bool} {collide' : σ → σ → Bool}
    (source : Constrained σ check' collide') (f : σ → ρ)
    (hcheck : ∀ v, check' v = true → check (f v) = true)
    (hcollide : ∀ v w, collide' v w = false → collide (f v) (f w) = false) :
    ((empty : Constrained ρ check collide).copyOrIgnore source.rows
      fun v => some (f v)).rows = source.rows.map fun r => (r.1, f r.2) := by
  -- the rows copied so far are the image of a prefix of the source
  suffices key : ∀ done, done <+: source.rows →
      ((empty : Constrained ρ check collide).copyOrIgnore done
        fun v => some (f v)).rows = done.map fun r => (r.1, f r.2) from
    key source.rows (List.prefix_refl _)
  intro done
  induction done using List.reverseRecOn with
  | nil => intro _; rfl
  | append_singleton done r ih =>
      intro hpre
      have hdone := ih ((List.prefix_append done [r]).trans hpre)
      obtain ⟨rest, hrest⟩ := hpre
      rw [copyOrIgnore, List.foldl_append] at *
      simp only [List.foldl_cons, List.foldl_nil]
      rw [rows_insertOrIgnore_of_admits, hdone, List.map_append]
      · rfl
      · rw [admits_iff, hdone]
        have hids := source.ids_nodup
        have hunique := source.unique
        rw [← hrest, List.append_assoc] at hids hunique
        refine ⟨hcheck _ (source.checked r ?_), ?_⟩
        · rw [← hrest]
          simp
        · intro q hq
          obtain ⟨p, hp, rfl⟩ := List.mem_map.mp hq
          rw [List.map_append, List.nodup_append] at hids
          refine ⟨hids.2.2 _ (List.mem_map_of_mem hp) _ (by simp), ?_⟩
          exact hcollide _ _ ((List.pairwise_append.mp hunique).2.2 p hp r (by simp))

end Constrained

end Wallermax.Base
