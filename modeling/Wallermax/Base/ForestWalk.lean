import Wallermax.Base.ParentTree

/-!
# A depth-first walk over parent links

Nodes with a key, and the key of the parent each names. The walk takes the nodes that name
one parent, in their order, each with its depth and followed by the walk below it. It
reaches a node where the whole chain of parents is among the nodes, and each of them once;
so it is complete exactly where the nodes have their parents with them.
-/

namespace Wallermax.Base

variable {ν ι : Type*} [DecidableEq ι]

section

variable (key : ν → ι) (up : ν → Option ι) (keep : ν → Bool) (nodes : List ν)

/-- The nodes below a parent with their depths, as far down as the fuel. -/
def walk : ℕ → Option ι → ℕ → List (ν × ℕ)
  | 0, _, _ => []
  | fuel + 1, parent, depth =>
      (nodes.filter fun v => up v == parent && keep v).flatMap fun v =>
        (v, depth) :: walk fuel (some (key v)) (depth + 1)

/-- A node this many levels below the children of a parent, all kept on the way. -/
inductive Reached (parent : Option ι) : ℕ → ν → Prop where
  | child {v : ν} (hv : v ∈ nodes) (hkeep : keep v = true) (hup : up v = parent) :
      Reached parent 0 v
  | deeper {u v : ν} {k : ℕ} (hu : Reached parent k u) (hv : v ∈ nodes) (hkeep : keep v = true)
      (hup : up v = some (key u)) : Reached parent (k + 1) v

/-- Every entry but those at the top stands behind its parent, one level further down. -/
def ParentsFirst (entries : List (ν × ℕ)) : Prop :=
  ∀ front back v d i, entries = front ++ (v, d) :: back → up v = some i →
    ∃ u e, (u, e) ∈ front ∧ key u = i ∧ d = e + 1

/-- The nodes have their parents with them. -/
def ParentClosed : Prop := ∀ v ∈ nodes, ∀ i, up v = some i → ∃ u ∈ nodes, key u = i

end

variable {key : ν → ι} {up : ν → Option ι} {keep : ν → Bool} {nodes : List ν}
  {parent parent' : Option ι} {fuel depth k l : ℕ} {u v : ν}

/-! ## What is reached -/

omit [DecidableEq ι] in
theorem Reached.mem (h : Reached key up keep nodes parent k v) : v ∈ nodes ∧ keep v = true := by
  cases h with
  | child hv hkeep => exact ⟨hv, hkeep⟩
  | deeper _ hv hkeep => exact ⟨hv, hkeep⟩

omit [DecidableEq ι] in
/-- From a child of the parent down. -/
theorem Reached.under (hu : u ∈ nodes) (hkeep : keep u = true) (hup : up u = parent)
    (h : Reached key up keep nodes (some (key u)) k v) :
    Reached key up keep nodes parent (k + 1) v := by
  induction h with
  | child hv hkeep' hup' => exact .deeper (.child hu hkeep hup) hv hkeep' hup'
  | deeper _ hv hkeep' hup' ih => exact .deeper ih hv hkeep' hup'

omit [DecidableEq ι] in
theorem reached_succ_iff : Reached key up keep nodes parent (k + 1) v ↔
    ∃ u ∈ nodes, keep u = true ∧ up u = parent ∧ Reached key up keep nodes (some (key u)) k v := by
  constructor
  · intro h
    -- on the distance: the last step stays, the first comes to the front
    induction k generalizing v with
    | zero =>
        cases h with
        | deeper hu hv hkeep hup =>
            cases hu with
            | child hu hkeep' hup' => exact ⟨_, hu, hkeep', hup', .child hv hkeep hup⟩
    | succ k ih =>
        cases h with
        | deeper hw hv hkeep hup =>
            obtain ⟨u, hu, hkeep', hup', hbelow⟩ := ih hw
            exact ⟨u, hu, hkeep', hup', .deeper hbelow hv hkeep hup⟩
  · rintro ⟨u, hu, hkeep, hup, h⟩
    exact h.under hu hkeep hup

/-- **What the walk holds**: what is reached, with its depth. -/
theorem mem_walk {d : ℕ} : (v, d) ∈ walk key up keep nodes fuel parent depth ↔
    ∃ k < fuel, d = depth + k ∧ Reached key up keep nodes parent k v := by
  induction fuel generalizing parent depth with
  | zero => simp [walk]
  | succ fuel ih =>
      simp only [walk, List.mem_flatMap, List.mem_filter, Bool.and_eq_true, beq_iff_eq,
        List.mem_cons, Prod.mk.injEq]
      constructor
      · rintro ⟨u, ⟨hu, hup, hkeep⟩, ⟨rfl, rfl⟩ | hmem⟩
        · exact ⟨0, by omega, rfl, .child hu hkeep hup⟩
        · obtain ⟨k, hk, rfl, h⟩ := ih.mp hmem
          exact ⟨k + 1, by omega, by omega, h.under hu hkeep hup⟩
      · rintro ⟨k, hk, rfl, h⟩
        cases k with
        | zero =>
            cases h with
            | child hv hkeep hup => exact ⟨v, ⟨hv, hup, hkeep⟩, .inl ⟨rfl, rfl⟩⟩
        | succ k =>
            obtain ⟨u, hu, hkeep, hup, h⟩ := reached_succ_iff.mp h
            exact ⟨u, ⟨hu, hup, hkeep⟩, .inr (ih.mpr ⟨k, by omega, by omega, h⟩)⟩

/-! ## Once each -/

section Once

variable (hkeys : ∀ u ∈ nodes, ∀ v ∈ nodes, key u = key v → u = v)

include hkeys

omit [DecidableEq ι] in
/-- A node is below one parent at each distance. -/
theorem Reached.parent_unique (h : Reached key up keep nodes parent k v)
    (h' : Reached key up keep nodes parent' k v) : parent = parent' := by
  induction h with
  | child _ _ hup =>
      cases h' with
      | child _ _ hup' => exact hup.symm.trans hup'
  | deeper hu _ _ hup ih =>
      cases h' with
      | deeper hu' _ _ hup' =>
          have hkey := Option.some.inj (hup.symm.trans hup')
          obtain rfl := hkeys _ hu.mem.1 _ hu'.mem.1 hkey
          exact ih hu'

omit [DecidableEq ι] in
/-- Below the top a node has one depth. -/
theorem Reached.depth_unique (h : Reached key up keep nodes none k v)
    (h' : Reached key up keep nodes none l v) : k = l := by
  induction h generalizing l with
  | child _ _ hup =>
      cases h' with
      | child => rfl
      | deeper _ _ _ hup' => rw [hup] at hup'; cases hup'
  | deeper hu _ _ hup ih =>
      cases h' with
      | child _ _ hup' => rw [hup] at hup'; cases hup'
      | deeper hu' _ _ hup' =>
          have hkey := Option.some.inj (hup.symm.trans hup')
          obtain rfl := hkeys _ hu.mem.1 _ hu'.mem.1 hkey
          rw [ih hu']

/-- No entry is there twice. -/
theorem nodup_walk (hnodup : nodes.Nodup) :
    (walk key up keep nodes fuel parent depth).Nodup := by
  induction fuel generalizing parent depth with
  | zero => exact List.nodup_nil
  | succ fuel ih =>
      rw [walk, List.nodup_flatMap]
      -- an entry below a node is deeper than the node's own
      have hdeeper : ∀ u w d, (w, d) ∈ walk key up keep nodes fuel (some (key u)) (depth + 1) →
          depth < d := by
        intro u w d hmem
        obtain ⟨k, -, rfl, -⟩ := mem_walk.mp hmem
        omega
      constructor
      · intro u hu
        refine List.nodup_cons.mpr ⟨fun hmem => ?_, ih⟩
        exact Nat.lt_irrefl _ (hdeeper u u depth hmem)
      · refine (hnodup.filter _).imp_of_mem ?_
        rintro u u' hu hu' hne
        obtain ⟨hu, -⟩ := List.mem_filter.mp hu
        obtain ⟨hu', -⟩ := List.mem_filter.mp hu'
        rintro ⟨w, d⟩ hmem hmem'
        rcases List.mem_cons.mp hmem with heq | hmem
        · obtain ⟨rfl, rfl⟩ := Prod.mk.inj heq
          rcases List.mem_cons.mp hmem' with heq' | hmem'
          · exact hne (Prod.mk.inj heq').1
          · exact Nat.lt_irrefl _ (hdeeper _ _ _ hmem')
        · rcases List.mem_cons.mp hmem' with heq' | hmem'
          · obtain ⟨rfl, rfl⟩ := Prod.mk.inj heq'
            exact Nat.lt_irrefl _ (hdeeper _ _ _ hmem)
          · -- both subtrees would hold the node at one distance
            obtain ⟨k, -, hk, h⟩ := mem_walk.mp hmem
            obtain ⟨k', -, hk', h'⟩ := mem_walk.mp hmem'
            obtain rfl : k = k' := by omega
            have hkey := Option.some.inj (h.parent_unique hkeys h')
            exact hne (hkeys u hu u' hu' hkey)

/-- **From the top every node is there at most once.** -/
theorem nodup_walk_top (hnodup : nodes.Nodup) :
    ((walk key up keep nodes fuel none depth).map Prod.fst).Nodup := by
  refine (nodup_walk hkeys hnodup).map_on ?_
  rintro ⟨v, d⟩ hmem ⟨v', d'⟩ hmem' heq
  obtain rfl : v = v' := heq
  obtain ⟨k, -, rfl, h⟩ := mem_walk.mp hmem
  obtain ⟨k', -, rfl, h'⟩ := mem_walk.mp hmem'
  rw [h.depth_unique hkeys h']

omit [DecidableEq ι] in
/-- A chain of parents is shorter than the list of the nodes. -/
theorem Reached.lt_length (h : Reached key up keep nodes none k v) : k < nodes.length := by
  -- the chain from the top; by its depths no node is on it twice
  have hchain : ∃ path : List ν, path.length = k + 1 ∧ path.Nodup ∧
      ∀ w ∈ path, ∃ e ≤ k, Reached key up keep nodes none e w := by
    induction h with
    | @child v hv hkeep hup =>
        refine ⟨[v], rfl, List.nodup_singleton _, ?_⟩
        intro w hw
        obtain rfl := List.mem_singleton.mp hw
        exact ⟨0, Nat.le_refl _, .child hv hkeep hup⟩
    | @deeper u v k hu hv hkeep hup ih =>
        obtain ⟨path, hlength, hnodup, hpath⟩ := ih
        have hv := hu.deeper hv hkeep hup
        refine ⟨v :: path, by rw [List.length_cons, hlength], ?_, ?_⟩
        · refine List.nodup_cons.mpr ⟨fun hmem => ?_, hnodup⟩
          obtain ⟨e, he, hreached⟩ := hpath v hmem
          have := hv.depth_unique hkeys hreached
          omega
        · intro w hw
          rcases List.mem_cons.mp hw with rfl | hw
          · exact ⟨k + 1, Nat.le_refl _, hv⟩
          · obtain ⟨e, he, hreached⟩ := hpath w hw
            exact ⟨e, by omega, hreached⟩
  obtain ⟨path, hlength, hnodup, hpath⟩ := hchain
  have hle := hnodup.length_le_of_subset fun w hw => by
    obtain ⟨e, -, hreached⟩ := hpath w hw
    exact hreached.mem.1
  omega

/-- With the fuel of the nodes the walk from the top holds all that is reached. -/
theorem mem_walk_top : v ∈ (walk key up keep nodes nodes.length none 0).map Prod.fst ↔
    ∃ k, Reached key up keep nodes none k v := by
  rw [List.mem_map]
  constructor
  · rintro ⟨⟨v, d⟩, hmem, rfl⟩
    obtain ⟨k, -, -, h⟩ := mem_walk.mp hmem
    exact ⟨k, h⟩
  · rintro ⟨k, h⟩
    exact ⟨(v, 0 + k), mem_walk.mpr ⟨k, h.lt_length hkeys, rfl, h⟩, rfl⟩

end Once

/-! ## Parents first -/

omit [DecidableEq ι] in
/-- Where an entry stands among lists laid end to end. -/
theorem exists_of_flatMap_split {α β : Type*} {f : α → List β} {l : List α} {front back : List β}
    {b : β} (h : l.flatMap f = front ++ b :: back) :
    ∃ a ∈ l, ∃ front' back', f a = front' ++ b :: back' ∧ front' ⊆ front := by
  induction l generalizing front with
  | nil => simp at h
  | cons a l ih =>
      rw [List.flatMap_cons] at h
      rcases List.append_eq_append_iff.mp h with ⟨middle, rfl, hrest⟩ | ⟨middle, ha, hrest⟩
      · obtain ⟨a', ha', front', back', hsplit, hsub⟩ := ih hrest
        exact ⟨a', List.mem_cons_of_mem _ ha', front', back', hsplit,
          fun c hc => List.mem_append_right _ (hsub hc)⟩
      · cases middle with
        | nil =>
            have hrest' : l.flatMap f = [] ++ b :: back := hrest.symm
            obtain ⟨a', ha', front', back', hsplit, hsub⟩ := ih hrest'
            refine ⟨a', List.mem_cons_of_mem _ ha', front', back', hsplit, fun c hc => ?_⟩
            cases hsub hc
        | cons c middle =>
            obtain ⟨rfl, rfl⟩ := List.cons.inj hrest
            exact ⟨a, List.mem_cons_self, front, middle, ha, fun _ hc => hc⟩

/-- An entry is a child of the parent, or stands behind its parent's. -/
theorem walk_parents {front back : List (ν × ℕ)} {d : ℕ}
    (h : walk key up keep nodes fuel parent depth = front ++ (v, d) :: back) :
    (up v = parent ∧ d = depth) ∨ ∃ u e, (u, e) ∈ front ∧ up v = some (key u) ∧ d = e + 1 := by
  induction fuel generalizing parent depth front back with
  | zero => simp [walk] at h
  | succ fuel ih =>
      rw [walk] at h
      obtain ⟨u, hu, front', back', hsplit, hsub⟩ := exists_of_flatMap_split h
      obtain ⟨-, hkept⟩ := List.mem_filter.mp hu
      have hparent : up u = parent := by
        simp only [Bool.and_eq_true, beq_iff_eq] at hkept
        exact hkept.1
      -- at the head of a child's entries is the child, behind it the walk below it
      cases front' with
      | nil =>
          obtain ⟨heq, -⟩ := List.cons.inj hsplit
          obtain ⟨rfl, rfl⟩ := Prod.mk.inj heq
          exact .inl ⟨hparent, rfl⟩
      | cons first front' =>
          obtain ⟨rfl, hrest⟩ := List.cons.inj hsplit
          rcases ih hrest with ⟨hup, rfl⟩ | ⟨w, e, hmem, hup, rfl⟩
          · exact .inr ⟨u, depth, hsub List.mem_cons_self, hup, rfl⟩
          · exact .inr ⟨w, e, hsub (List.mem_cons_of_mem _ hmem), hup, rfl⟩

theorem parentsFirst_walk : ParentsFirst key up (walk key up keep nodes fuel none depth) := by
  intro front back v d i h hup
  rcases walk_parents h with ⟨hnone, -⟩ | ⟨u, e, hmem, hsome, rfl⟩
  · rw [hup] at hnone
    cases hnone
  · rw [hup] at hsome
    exact ⟨u, e, hmem, (Option.some.inj hsome).symm, rfl⟩

/-! ## Complete where closed -/

section Complete

variable {link : ι → Option ι} {kept : ι → Bool}

omit [DecidableEq ι] in
/-- What is reached has no node above it, and is none, that is not kept. -/
theorem Reached.kept_above (hlink : ∀ v ∈ nodes, link (key v) = up v)
    (h : Reached key up (fun v => kept (key v)) nodes none k v) {n : ℕ} {i : ι}
    (hclimb : climb link n (key v) = some i) : kept i = true := by
  induction h generalizing n with
  | child hv hkeep hup =>
      cases n with
      | zero => exact Option.some.inj hclimb ▸ hkeep
      | succ n =>
          rw [climb_succ, hlink _ hv, hup] at hclimb
          cases hclimb
  | deeper hu hv hkeep hup ih =>
      cases n with
      | zero => exact Option.some.inj hclimb ▸ hkeep
      | succ n =>
          rw [climb_succ, hlink _ hv, hup] at hclimb
          exact ih hclimb

omit [DecidableEq ι] in
/-- **All that hangs from the top is reached**, where the nodes have their parents with
them. -/
theorem ParentClosed.reached (hclosed : ParentClosed key up nodes)
    (hlink : ∀ v ∈ nodes, link (key v) = up v) (hv : v ∈ nodes) (hrooted : Rooted link (key v))
    (hkept : ∀ n i, climb link n (key v) = some i → kept i = true) :
    ∃ k, Reached key up (fun v => kept (key v)) nodes none k v := by
  -- on the links to the top: the parent is a node too, and one link nearer
  obtain ⟨n, hn⟩ := hrooted
  induction n generalizing v with
  | zero => cases hn
  | succ n ih =>
      have hself : kept (key v) = true := hkept 0 _ rfl
      cases hup : up v with
      | none => exact ⟨0, .child hv hself hup⟩
      | some i =>
          obtain ⟨u, hu, rfl⟩ := hclosed v hv i hup
          have hstep : ∀ m, climb link (m + 1) (key v) = climb link m (key u) := by
            intro m
            rw [climb_succ, hlink v hv, hup, Option.bind_some]
          obtain ⟨k, h⟩ := ih hu (fun m j hm => hkept (m + 1) j ((hstep m).trans hm))
            ((hstep n).symm.trans hn)
          exact ⟨k + 1, .deeper h hv hself hup⟩

end Complete

end Wallermax.Base
