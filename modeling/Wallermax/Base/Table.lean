import Mathlib.Data.List.Nodup
import Mathlib.Data.List.Sort

/-!
# SQL tables keyed by an `AUTOINCREMENT` id

A row is its id and the remaining columns. The two facts SQLite guarantees
about an `INTEGER PRIMARY KEY AUTOINCREMENT` column are fields of the type: no
two rows share an id, and no id exceeds the sequence counter, which only
grows. So an id is never reused, not even after its row is deleted.

Statements are the four shapes the repositories issue: `INSERT` of one row,
`UPDATE … SET … WHERE`, `DELETE … WHERE`, and a `SELECT … WHERE` read as the
first match, as a count or as the first rows of an order.
-/

namespace Wallermax.Base

/-- A table: rows in insertion order and the `AUTOINCREMENT` counter. -/
structure Table (ρ : Type*) where
  rows : List (ℕ × ρ)
  seq : ℕ
  ids_nodup : (rows.map Prod.fst).Nodup
  ids_le_seq : ∀ r ∈ rows, r.1 ≤ seq

/-- An `ORDER BY` does not change which row a condition finds first, when the
rows that meet it are tied. -/
theorem find?_insertionSort {α : Type*} {r : α → α → Prop} [DecidableRel r]
    [Std.Total r] [IsTrans α r] {p : α → Bool} {l : List α}
    (htied : ∀ a b, p a = true → p b = true → r a b) :
    (l.insertionSort r).find? p = l.find? p := by
  have hsub : (l.filter p).Sublist ((l.insertionSort r).filter p) := by
    have hpair : (l.filter p).Pairwise r := by
      rw [List.pairwise_iff_forall_sublist]
      intro a b hab
      have ha := List.mem_filter.mp (hab.subset (List.mem_cons_self ..))
      have hb := List.mem_filter.mp
        (hab.subset (List.mem_cons_of_mem _ (List.mem_singleton_self b)))
      exact htied a b ha.2 hb.2
    have hsorted := List.sublist_insertionSort hpair List.filter_sublist
    simpa using hsorted.filter p
  have hperm := (List.perm_insertionSort r l).filter p
  rw [← List.head?_filter, ← List.head?_filter, hsub.eq_of_length hperm.length_eq.symm]

/-- **The first rows of a sort**: those with fewer rows in front of them. -/
theorem mem_take_insertionSort_iff {α : Type*} {r : α → α → Prop} [DecidableRel r]
    [Std.Total r] [IsTrans α r] {l : List α} (hnodup : l.Nodup)
    (hanti : ∀ a ∈ l, ∀ b ∈ l, r a b → r b a → a = b) {a : α} (ha : a ∈ l) {n : ℕ} :
    a ∈ (l.insertionSort r).take n ↔ l.countP (fun b => ¬r a b) < n := by
  have hperm := List.perm_insertionSort r l
  obtain ⟨front, back, hsplit⟩ := List.append_of_mem (hperm.mem_iff.mpr ha)
  have hsorted := List.pairwise_insertionSort r l
  have hnodup' := hperm.nodup_iff.mpr hnodup
  rw [hsplit] at hsorted hnodup'
  have hmem : ∀ b ∈ front, b ∈ l := fun b hb =>
    hperm.mem_iff.mp (hsplit ▸ List.mem_append_left _ hb)
  have hnone : a ∉ front := by
    intro hfront
    exact (List.disjoint_of_nodup_append hnodup') hfront List.mem_cons_self
  have hbefore : ∀ b ∈ front, ¬r a b := by
    intro b hb hab
    have hba := (List.pairwise_append.mp hsorted).2.2 b hb a List.mem_cons_self
    exact hnone (hanti a ha b (hmem b hb) hab hba ▸ hb)
  have hafter : ∀ b ∈ a :: back, r a b := by
    intro b hb
    rcases List.mem_cons.mp hb with rfl | hb
    · exact (Std.Total.total b b).elim id id
    · exact List.rel_of_pairwise_cons (List.pairwise_append.mp hsorted).2.1 hb
  have hcount : l.countP (fun b => ¬r a b) = front.length := by
    rw [← hperm.countP_eq, hsplit, List.countP_append,
      List.countP_eq_length.mpr (by simpa using hbefore),
      List.countP_eq_zero.mpr (by simpa using hafter), Nat.add_zero]
  rw [hcount, hsplit]
  constructor
  · intro htake
    by_contra hle
    rw [List.take_append_of_le_length (by omega)] at htake
    exact hnone (List.mem_of_mem_take htake)
  · intro hlt
    obtain ⟨m, rfl⟩ := Nat.exists_eq_add_of_lt hlt
    have hcut : (front ++ a :: back).take (front.length + m + 1) = front ++ a :: back.take m := by
      rw [Nat.add_assoc, List.take_length_add_append, List.take_succ_cons]
    rw [hcut]
    exact List.mem_append_right _ List.mem_cons_self

namespace Table

variable {ρ : Type*}

/-- The table `CREATE TABLE` makes. -/
def empty : Table ρ where
  rows := []
  seq := 0
  ids_nodup := List.nodup_nil
  ids_le_seq := by simp

/-- The id `last_insert_rowid()` reports for the next insert. -/
def nextId (t : Table ρ) : ℕ := t.seq + 1

/-- `INSERT INTO t VALUES (v)`. -/
def insert (t : Table ρ) (v : ρ) : Table ρ where
  rows := t.rows ++ [(t.nextId, v)]
  seq := t.nextId
  ids_nodup := by
    rw [List.map_append, List.nodup_append]
    refine ⟨t.ids_nodup, List.nodup_singleton _, ?_⟩
    intro a ha b hb
    obtain ⟨r, hr, rfl⟩ := List.mem_map.mp ha
    have hle := t.ids_le_seq r hr
    simp only [List.map_cons, List.map_nil, List.mem_singleton, nextId] at hb
    omega
  ids_le_seq := by
    intro r hr
    rcases List.mem_append.mp hr with hr | hr
    · exact Nat.le_succ_of_le (t.ids_le_seq r hr)
    · obtain rfl := List.mem_singleton.mp hr
      exact Nat.le_refl _

/-- `UPDATE t SET row = f row WHERE p`. -/
def update (t : Table ρ) (p : ℕ → ρ → Bool) (f : ρ → ρ) : Table ρ where
  rows := t.rows.map fun r => (r.1, if p r.1 r.2 then f r.2 else r.2)
  seq := t.seq
  ids_nodup := by
    rw [List.map_map]
    exact t.ids_nodup
  ids_le_seq := by
    intro r hr
    obtain ⟨q, hq, rfl⟩ := List.mem_map.mp hr
    exact t.ids_le_seq q hq

/-- `DELETE FROM t WHERE p`. -/
def delete (t : Table ρ) (p : ℕ → ρ → Bool) : Table ρ where
  rows := t.rows.filter fun r => !p r.1 r.2
  seq := t.seq
  ids_nodup := t.ids_nodup.sublist (List.filter_sublist.map Prod.fst)
  ids_le_seq := fun r hr => t.ids_le_seq r (List.mem_of_mem_filter hr)

/-- `SELECT * FROM t WHERE p`, read by `fetch_optional`. -/
def find? (t : Table ρ) (p : ℕ → ρ → Bool) : Option (ℕ × ρ) :=
  t.rows.find? fun r => p r.1 r.2

/-- `SELECT COUNT(*) FROM t WHERE p`; also the `rows_affected` of an update or
delete with that condition. -/
def count (t : Table ρ) (p : ℕ → ρ → Bool) : ℕ :=
  t.rows.countP fun r => p r.1 r.2

/-! ## What each statement does to the rows -/

@[simp] theorem rows_empty : (empty : Table ρ).rows = [] := rfl

@[simp] theorem mem_insert {t : Table ρ} {v : ρ} {r : ℕ × ρ} :
    r ∈ (t.insert v).rows ↔ r ∈ t.rows ∨ r = (t.nextId, v) := by
  simp [insert]

@[simp] theorem mem_update {t : Table ρ} {p : ℕ → ρ → Bool} {f : ρ → ρ} {i : ℕ}
    {v : ρ} : (i, v) ∈ (t.update p f).rows ↔
      ∃ w, (i, w) ∈ t.rows ∧ (if p i w then f w else w) = v := by
  simp [update, Prod.ext_iff]

@[simp] theorem mem_delete {t : Table ρ} {p : ℕ → ρ → Bool} {r : ℕ × ρ} :
    r ∈ (t.delete p).rows ↔ r ∈ t.rows ∧ p r.1 r.2 = false := by
  simp [delete]

@[simp] theorem seq_insert (t : Table ρ) (v : ρ) :
    (t.insert v).seq = t.nextId := rfl

@[simp] theorem seq_update (t : Table ρ) (p : ℕ → ρ → Bool) (f : ρ → ρ) :
    (t.update p f).seq = t.seq := rfl

@[simp] theorem seq_delete (t : Table ρ) (p : ℕ → ρ → Bool) :
    (t.delete p).seq = t.seq := rfl

/-- An update that finds its rows as it would leave them changes nothing. -/
theorem update_eq_self {t : Table ρ} {p : ℕ → ρ → Bool} {f : ρ → ρ}
    (h : ∀ i v, (i, v) ∈ t.rows → p i v = true → f v = v) : t.update p f = t := by
  have hrows : (t.update p f).rows = t.rows := by
    conv_rhs => rw [← List.map_id t.rows]
    apply List.map_congr_left
    rintro ⟨i, v⟩ hv
    by_cases hp : p i v = true
    · simp [hp, h i v hv hp]
    · simp [hp]
  cases t
  simp only [update, mk.injEq, and_true]
  exact hrows

theorem delete_eq_self {t : Table ρ} {p : ℕ → ρ → Bool}
    (h : ∀ i v, (i, v) ∈ t.rows → p i v = false) : t.delete p = t := by
  have hrows : (t.delete p).rows = t.rows :=
    List.filter_eq_self.mpr fun r hr => by simp [h r.1 r.2 hr]
  cases t
  simp only [delete, mk.injEq, and_true]
  exact hrows

/-! Rows out of a statement's reach. -/

theorem filter_insert {t : Table ρ} {v : ρ} {q : ℕ × ρ → Bool}
    (h : q (t.nextId, v) = false) : (t.insert v).rows.filter q = t.rows.filter q := by
  simp [insert, h]

theorem filter_update {t : Table ρ} {p : ℕ → ρ → Bool} {f : ρ → ρ} {q : ℕ × ρ → Bool}
    (h : ∀ i v, (i, v) ∈ t.rows → p i v = true → q (i, v) = false ∧ q (i, f v) = false) :
    (t.update p f).rows.filter q = t.rows.filter q := by
  simp only [update]
  generalize t.rows = rows at h
  induction rows with
  | nil => rfl
  | cons r rows ih =>
      have ih := ih fun i v hv => h i v (List.mem_cons_of_mem _ hv)
      cases hp : p r.1 r.2 with
      | false => simp [List.filter_cons, hp, ih]
      | true =>
          obtain ⟨hold, hnew⟩ := h r.1 r.2 (List.mem_cons_self ..) hp
          simp [hp, hold, hnew, ih]

theorem filter_delete {t : Table ρ} {p : ℕ → ρ → Bool} {q : ℕ × ρ → Bool}
    (h : ∀ i v, (i, v) ∈ t.rows → p i v = true → q (i, v) = false) :
    (t.delete p).rows.filter q = t.rows.filter q := by
  simp only [delete, List.filter_filter]
  apply List.filter_congr
  intro r hr
  cases hp : p r.1 r.2 with
  | false => simp
  | true => simp [h r.1 r.2 hr hp]

/-- The id is a key. -/
theorem eq_of_mem {t : Table ρ} {i : ℕ} {v w : ρ} (hv : (i, v) ∈ t.rows)
    (hw : (i, w) ∈ t.rows) : v = w :=
  congrArg Prod.snd (List.inj_on_of_nodup_map t.ids_nodup hv hw rfl)

theorem le_seq_of_mem {t : Table ρ} {i : ℕ} {v : ρ} (h : (i, v) ∈ t.rows) :
    i ≤ t.seq :=
  t.ids_le_seq _ h

/-- **Ids are never reused**: the id an insert hands out names no stored row. -/
theorem not_mem_nextId {t : Table ρ} {v : ρ} : (t.nextId, v) ∉ t.rows := by
  intro h
  have := le_seq_of_mem h
  simp only [nextId] at this
  omega

theorem find?_some {t : Table ρ} {p : ℕ → ρ → Bool} {i : ℕ} {v : ρ}
    (h : t.find? p = some (i, v)) : (i, v) ∈ t.rows ∧ p i v = true :=
  ⟨List.mem_of_find?_eq_some h, by simpa using List.find?_some h⟩

theorem exists_of_find?_id {t : Table ρ} {id : ℕ}
    (h : (t.find? fun i _ => i == id).isSome) : ∃ v, (id, v) ∈ t.rows := by
  obtain ⟨⟨i, v⟩, hfind⟩ := Option.isSome_iff_exists.mp h
  obtain ⟨hmem, hid⟩ := find?_some hfind
  obtain rfl : i = id := by simpa using hid
  exact ⟨v, hmem⟩

/-- An update leaves the rows under their ids. -/
theorem find?_update (t : Table ρ) (p : ℕ → ρ → Bool) (f : ρ → ρ) (id : ℕ) :
    ((t.update p f).find? fun i _ => i == id) =
      (t.find? fun i _ => i == id).map fun r => (r.1, if p r.1 r.2 then f r.2 else r.2) := by
  rw [find?, update, List.find?_map]
  rfl

theorem find?_none {t : Table ρ} {p : ℕ → ρ → Bool} (h : t.find? p = none)
    {i : ℕ} {v : ρ} (hv : (i, v) ∈ t.rows) : p i v = false := by
  simpa using List.find?_eq_none.mp h (i, v) hv

/-- A condition at most one row can meet finds that row. -/
theorem find?_eq_some {t : Table ρ} {p : ℕ → ρ → Bool} {i : ℕ} {v : ρ}
    (hv : (i, v) ∈ t.rows) (hp : p i v = true)
    (huniq : ∀ j w, (j, w) ∈ t.rows → p j w = true → j = i) :
    t.find? p = some (i, v) := by
  cases h : t.find? p with
  | none => simp [find?_none h hv] at hp
  | some r =>
      obtain ⟨hr, hpr⟩ := find?_some h
      obtain rfl := huniq r.1 r.2 hr hpr
      rw [eq_of_mem hv hr]

theorem count_pos {t : Table ρ} {p : ℕ → ρ → Bool} :
    0 < t.count p ↔ ∃ i v, (i, v) ∈ t.rows ∧ p i v = true := by
  simp [count, List.countP_pos_iff]

theorem count_eq_zero {t : Table ρ} {p : ℕ → ρ → Bool} :
    t.count p = 0 ↔ ∀ i v, (i, v) ∈ t.rows → p i v = false := by
  simp [count, List.countP_eq_zero]

/-- A `WHERE id = ?` statement affects one row or none. -/
theorem count_id_eq_one {t : Table ρ} {p : ℕ → ρ → Bool} {id : ℕ}
    (hid : ∀ i v, p i v = true → i = id) :
    t.count p = 1 ↔ ∃ v, (id, v) ∈ t.rows ∧ p id v = true := by
  constructor
  · intro h
    obtain ⟨i, v, hv, hp⟩ := count_pos.mp (by omega : 0 < t.count p)
    obtain rfl := hid i v hp
    exact ⟨v, hv, hp⟩
  · rintro ⟨v, hv, hp⟩
    have hpos : 0 < t.count p := count_pos.mpr ⟨id, v, hv, hp⟩
    have hle : t.count p ≤ (t.rows.map Prod.fst).count id := by
      rw [List.count, List.countP_map]
      apply List.countP_mono_left
      intro r _ hr
      simpa using hid r.1 r.2 hr
    have := List.nodup_iff_count_le_one.mp t.ids_nodup id
    omega

/-- A count of two leaves a match with another id. -/
theorem exists_ne_of_two_le_count {t : Table ρ} {p : ℕ → ρ → Bool}
    (h : 2 ≤ t.count p) (id : ℕ) :
    ∃ i v, (i, v) ∈ t.rows ∧ p i v = true ∧ i ≠ id := by
  by_contra hne
  push Not at hne
  have hle : t.count p ≤ (t.rows.map Prod.fst).count id := by
    rw [List.count, List.countP_map]
    apply List.countP_mono_left
    intro r hr hpr
    simpa using hne r.1 r.2 hr hpr
  have := List.nodup_iff_count_le_one.mp t.ids_nodup id
  omega

/-! `ORDER BY id`. -/

/-- Rows in the order of their ids, listed once. -/
theorem eq_of_perm_of_ids {l l' : List (ℕ × ρ)} (hids : (l.map Prod.fst).Nodup)
    (h : l.Perm l') (hl : l.Pairwise fun r q => r.1 ≤ q.1)
    (hl' : l'.Pairwise fun r q => r.1 ≤ q.1) : l = l' := by
  refine List.Perm.eq_of_pairwise ?_ hl hl' h
  intro r q hr hq hle hge
  exact List.inj_on_of_nodup_map hids hr (h.mem_iff.mpr hq) (Nat.le_antisymm hle hge)

theorem sorted_ids (l : List (ℕ × ρ)) :
    (l.insertionSort fun r q => r.1 ≤ q.1).Pairwise fun r q => r.1 ≤ q.1 := by
  have htotal : Std.Total fun r q : ℕ × ρ => r.1 ≤ q.1 := ⟨fun r q => Nat.le_total r.1 q.1⟩
  have htrans : IsTrans (ℕ × ρ) fun r q => r.1 ≤ q.1 := ⟨fun _ _ _ => Nat.le_trans⟩
  exact List.pairwise_insertionSort _ l

theorem orderBy_insert (t : Table ρ) (v : ρ) :
    (t.insert v).rows.insertionSort (fun r q => r.1 ≤ q.1) =
      t.rows.insertionSort (fun r q => r.1 ≤ q.1) ++ [(t.nextId, v)] := by
  have hperm := List.perm_insertionSort (fun r q : ℕ × ρ => r.1 ≤ q.1) t.rows
  refine eq_of_perm_of_ids ?_ ?_ (sorted_ids _) ?_
  · exact ((List.perm_insertionSort _ _).map _).nodup_iff.mpr (t.insert v).ids_nodup
  · exact (List.perm_insertionSort _ _).trans (hperm.symm.append_right _)
  · rw [List.pairwise_append]
    refine ⟨sorted_ids _, List.pairwise_singleton _ _, ?_⟩
    intro r hr q hq
    obtain rfl := List.mem_singleton.mp hq
    exact Nat.le_succ_of_le (t.ids_le_seq r (hperm.mem_iff.mp hr))

theorem orderBy_delete (t : Table ρ) (p : ℕ → ρ → Bool) :
    (t.delete p).rows.insertionSort (fun r q => r.1 ≤ q.1) =
      (t.rows.insertionSort fun r q => r.1 ≤ q.1).filter fun r => !p r.1 r.2 := by
  have hperm := List.perm_insertionSort (fun r q : ℕ × ρ => r.1 ≤ q.1) t.rows
  refine eq_of_perm_of_ids ?_ ?_ (sorted_ids _) ?_
  · exact ((List.perm_insertionSort _ _).map _).nodup_iff.mpr (t.delete p).ids_nodup
  · exact (List.perm_insertionSort _ _).trans (hperm.symm.filter _)
  · exact (sorted_ids _).filter _

end Table

end Wallermax.Base
