import Mathlib.Data.List.Range
import Mathlib.Order.MinMax
import Mathlib.Tactic.Common

/-!
# Numbered pages and the links between them

A list cut into pages of one size, and a site whose answers link to the one before and the
one behind. Where each link asks for the neighbouring page, the links lead through all of
them, and the listing is what the pages show, one behind the other.
-/

namespace Wallermax.Base

/-! ## Pages of a list -/

section

variable {α : Type*}

/-- The pages are counted from 1. -/
def pageAt (size : ℕ) (rows : List α) (page : ℕ) : List α :=
  (rows.drop ((page - 1) * size)).take size

/-- How many pages there are; an empty list has one. -/
def pageCount (size n : ℕ) : ℕ := max 1 ((n + size - 1) / size)

theorem flatMap_pageAt (size : ℕ) (rows : List α) (last : ℕ) :
    (List.range' 1 last).flatMap (pageAt size rows) = rows.take (last * size) := by
  induction last with
  | zero => simp
  | succ last ih =>
      have hpage : pageAt size rows (1 + 1 * last) = (rows.drop (last * size)).take size := by
        rw [pageAt, Nat.one_mul, Nat.add_sub_cancel_left]
      rw [List.range'_concat, List.flatMap_append, ih, List.flatMap_singleton, hpage,
        ← List.take_add, Nat.succ_mul]

theorem le_pageCount_mul {size : ℕ} (hsize : 0 < size) (n : ℕ) : n ≤ pageCount size n * size := by
  have hdiv := Nat.div_add_mod (n + size - 1) size
  have hmod := Nat.mod_lt (n + size - 1) hsize
  have hle : (n + size - 1) / size ≤ pageCount size n := Nat.le_max_right _ _
  have hmul := Nat.mul_le_mul_left size hle
  rw [Nat.mul_comm (pageCount size n)]
  omega

/-- **No gap and no row twice**: the pages make up the list. -/
theorem flatMap_pages {size : ℕ} (hsize : 0 < size) (rows : List α) :
    (List.range' 1 (pageCount size rows.length)).flatMap (pageAt size rows) = rows := by
  rw [flatMap_pageAt, List.take_of_length_le (le_pageCount_mul hsize _)]

/-- Before a page that is there, the rows run on. -/
theorem mul_lt_of_le_pageCount {size n page : ℕ} (hpage : 1 < page)
    (h : page ≤ pageCount size n) : (page - 1) * size < n := by
  have hdiv : page ≤ (n + size - 1) / size := by
    rcases le_max_iff.mp h with h | h
    · omega
    · exact h
  have hpos : 0 < size := by
    by_contra hzero
    obtain rfl : size = 0 := by omega
    rw [Nat.div_zero] at hdiv
    omega
  have hmul := (Nat.le_div_iff_mul_le hpos).mp hdiv
  have hge : 2 * size ≤ page * size := Nat.mul_le_mul_right size hpage
  rw [Nat.sub_mul]
  omega

theorem pageCount_le (size n : ℕ) : pageCount size n ≤ max 1 n := by
  rcases Nat.lt_or_ge 1 (pageCount size n) with hmany | hone
  · have hrows := mul_lt_of_le_pageCount hmany (Nat.le_refl (pageCount size n))
    have hpos : 0 < size := by
      by_contra hzero
      obtain rfl : size = 0 := by omega
      rw [pageCount, Nat.div_zero] at hmany
      omega
    have hmul := Nat.le_mul_of_pos_right (pageCount size n - 1) hpos
    omega
  · exact hone.trans (le_max_left 1 n)

end

/-! ## Following a link -/

section

variable {ρ σ β : Type*}

/-- The requests and what they are answered, where the next request is the answer's link;
the last answer has none. The requests are counted, so that a site may know its time. -/
inductive Follows (visit : ℕ → ρ → Option σ) (link : σ → Option ρ) :
    ℕ → ρ → List (ρ × σ) → Prop
  | last {k : ℕ} {r : ρ} {s : σ} :
      visit k r = some s → link s = none → Follows visit link k r [(r, s)]
  | step {k : ℕ} {r r' : ρ} {s : σ} {visited : List (ρ × σ)} :
      visit k r = some s → link s = some r' → Follows visit link (k + 1) r' visited →
      Follows visit link k r ((r, s) :: visited)

variable {visit : ℕ → ρ → Option σ}

/-- There is one way to follow a link. -/
theorem Follows.unique {link : σ → Option ρ} {k : ℕ} {r : ρ} {visited visited' : List (ρ × σ)}
    (h : Follows visit link k r visited) (h' : Follows visit link k r visited') :
    visited = visited' := by
  induction h generalizing visited' with
  | last hvisit hlink =>
      cases h' with
      | last hvisit' _ => rw [Option.some.inj (hvisit.symm.trans hvisit')]
      | step hvisit' hlink' _ =>
          rw [Option.some.inj (hvisit.symm.trans hvisit'), hlink'] at hlink
          cases hlink
  | step hvisit hlink _ ih =>
      cases h' with
      | last hvisit' hlink' =>
          rw [Option.some.inj (hvisit.symm.trans hvisit'), hlink'] at hlink
          cases hlink
      | step hvisit' hlink' hrest =>
          obtain rfl := Option.some.inj (hvisit.symm.trans hvisit')
          obtain rfl := Option.some.inj (hlink.symm.trans hlink')
          rw [ih hrest]

theorem Follows.iff_eq {link : σ → Option ρ} {k : ℕ} {r : ρ} {visited visited' : List (ρ × σ)}
    (h : Follows visit link k r visited) :
    Follows visit link k r visited' ↔ visited' = visited :=
  ⟨fun h' => h'.unique h, fun heq => heq ▸ h⟩

/-- A site of numbered pages: a request that asks for a page is answered with its content,
and with links that ask for its neighbours. -/
structure Numbered (visit : ℕ → ρ → Option σ) (next previous : σ → Option ρ) (last : ℕ)
    (Asks : ℕ → ρ → Prop) (content : ℕ → β) (label : σ → β) : Prop where
  shows : ∀ k page r, 1 ≤ page → page ≤ last → Asks page r → ∃ s, visit k r = some s ∧
    label s = content page ∧
    (page < last → ∃ r', next s = some r' ∧ Asks (page + 1) r') ∧
    (page = last → next s = none) ∧
    (1 < page → ∃ r', previous s = some r' ∧ Asks (page - 1) r') ∧
    (page = 1 → previous s = none)

namespace Numbered

variable {next previous : σ → Option ρ} {last : ℕ} {Asks : ℕ → ρ → Prop} {content : ℕ → β}
  {label : σ → β} {page : ℕ} {r : ρ}

/-- The next links lead on to the last page. -/
theorem exists_forth (h : Numbered visit next previous last Asks content label)
    (hfirst : 1 ≤ page) (hlast : page ≤ last) (hasks : Asks page r) (k : ℕ) :
    ∃ visited, Follows visit next k r visited ∧
      visited.map (fun v => label v.2) =
        (List.range' page (last + 1 - page)).map content ∧
      ∃ v, visited.getLast? = some v ∧ Asks last v.1 := by
  induction hm : last - page generalizing page r k with
  | zero =>
      obtain rfl : page = last := by omega
      obtain ⟨s, hvisit, hlabel, -, hnone, -, -⟩ := h.shows k page r hfirst hlast hasks
      have hone : page + 1 - page = 1 := by omega
      refine ⟨_, .last hvisit (hnone rfl), ?_, _, rfl, hasks⟩
      rw [hone, List.map_singleton, hlabel]
      rfl
  | succ m ih =>
      have hlt : page < last := by omega
      obtain ⟨s, hvisit, hlabel, hnext, -, -, -⟩ := h.shows k page r hfirst hlast hasks
      obtain ⟨r', hlink, hasks'⟩ := hnext hlt
      obtain ⟨visited, hfollows, hlabels, v, hv, hend⟩ :=
        ih (by omega) hlt hasks' (k + 1) (by omega)
      have hrange : last + 1 - page = (last + 1 - (page + 1)) + 1 := by omega
      refine ⟨_, .step hvisit hlink hfollows, ?_, v, ?_, hend⟩
      · rw [List.map_cons, hlabels, hlabel, hrange, List.range'_succ, List.map_cons]
      · rw [List.getLast?_cons, hv]
        rfl

/-- The previous links lead back to the first. -/
theorem exists_back (h : Numbered visit next previous last Asks content label)
    (hfirst : 1 ≤ page) (hlast : page ≤ last) (hasks : Asks page r) (k : ℕ) :
    ∃ visited, Follows visit previous k r visited ∧
      visited.map (fun v => label v.2) = ((List.range' 1 page).map content).reverse := by
  induction page, hfirst using Nat.le_induction generalizing r k with
  | base =>
      obtain ⟨s, hvisit, hlabel, -, -, -, hnone⟩ := h.shows k 1 r (Nat.le_refl 1) hlast hasks
      refine ⟨_, .last hvisit (hnone rfl), ?_⟩
      rw [List.map_singleton, hlabel]
      rfl
  | succ page hfirst ih =>
      obtain ⟨s, hvisit, hlabel, -, -, hprevious, -⟩ :=
        h.shows k (page + 1) r (by omega) hlast hasks
      obtain ⟨r', hlink, hasks'⟩ := hprevious (by omega)
      rw [Nat.add_sub_cancel] at hasks'
      obtain ⟨visited, hfollows, hlabels⟩ := ih (by omega) hasks' (k + 1)
      refine ⟨_, .step hvisit hlink hfollows, ?_⟩
      rw [List.map_cons, hlabels, hlabel, List.range'_concat, List.map_append, List.reverse_append,
        Nat.one_mul, Nat.add_comm 1 page]
      rfl

/-- **All the pages in order**, and from the last of them back again. -/
theorem exists_walk (h : Numbered visit next previous last Asks content label) (hpos : 1 ≤ last)
    (hasks : Asks 1 r) : ∃ forth back, Follows visit next 0 r forth ∧
      forth.map (fun v => label v.2) = (List.range' 1 last).map content ∧
      (∃ v, forth.getLast? = some v ∧ Follows visit previous forth.length v.1 back) ∧
      back.map (fun v => label v.2) = (forth.map fun v => label v.2).reverse := by
  obtain ⟨forth, hforth, hlabels, v, hv, hend⟩ := h.exists_forth (Nat.le_refl 1) hpos hasks 0
  obtain ⟨back, hback, hlabels'⟩ := h.exists_back hpos (Nat.le_refl last) hend forth.length
  rw [Nat.add_sub_cancel] at hlabels
  exact ⟨forth, back, hforth, hlabels, ⟨v, hv, hback⟩, hlabels' ▸ hlabels ▸ rfl⟩

end Numbered

end

end Wallermax.Base
