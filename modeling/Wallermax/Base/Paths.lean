import Mathlib.Data.List.Infix

/-!
# Paths as text

The part of `std::path` and of a file tree without symbolic links that serving
files rests on. A path is its text; what it names is its components, the
segments between slashes without the empty ones and `.`. Joining an absolute
path replaces the base.

`Below root p` says that `p` names something under `root`: the root's
components followed by at least one more and no `..` among them.
-/

namespace Wallermax.Base

/-- The text of a path. -/
abbrev PathText : Type := List Char

/-- One component of a path. -/
abbrev Component : Type := List Char

/-- Named, so that every module decides membership among components with one instance. -/
instance instLawfulBEqComponent : LawfulBEq Component := inferInstance

namespace PathText

def segments (p : PathText) : List Component := p.splitOnP (· == '/')

def kept (s : Component) : Bool := s != [] && s != ['.']

def components (p : PathText) : List Component := (segments p).filter kept

def isAbsolute (p : PathText) : Bool := p.head? == some '/'

/-- `Path::join`. -/
def join (base p : PathText) : PathText :=
  if isAbsolute p then p
  else if base.getLast?.all (· == '/') then base ++ p
  else base ++ '/' :: p

/-- `str::trim_matches('/')`. -/
def trimSlashes (p : PathText) : PathText :=
  ((p.dropWhile (· == '/')).reverse.dropWhile (· == '/')).reverse

def endsWith (suffix p : PathText) : Bool := suffix.isSuffixOf p

def Below (root p : PathText) : Prop :=
  ∃ rest, rest ≠ [] ∧ ['.', '.'] ∉ rest ∧ components p = components root ++ rest

/-! ## Components of composed paths -/

@[simp] theorem components_nil : components [] = [] := rfl

theorem components_append_slash (xs ys : PathText) :
    components (xs ++ '/' :: ys) = components xs ++ components ys := by
  rw [components, segments, List.splitOnP_append_cons xs ys (by rfl), List.filter_append]
  rfl

theorem components_slash_cons (p : PathText) : components ('/' :: p) = components p :=
  components_append_slash [] p

theorem components_append_singleton_slash (p : PathText) :
    components (p ++ ['/']) = components p := by
  rw [components_append_slash]
  simp

theorem components_join (base p : PathText) :
    components (join base p) =
      if isAbsolute p then components p else components base ++ components p := by
  unfold join
  split
  · rfl
  · split
    · rename_i hlast
      rcases List.eq_nil_or_concat' base with rfl | ⟨init, c, rfl⟩
      · rfl
      · obtain rfl : c = '/' := by simpa using hlast
        rw [List.append_assoc, List.singleton_append, components_append_slash,
          components_append_singleton_slash]
    · exact components_append_slash base p

theorem components_join_relative {base p : PathText} (h : isAbsolute p = false) :
    components (join base p) = components base ++ components p := by
  rw [components_join, h]
  rfl

theorem isAbsolute_join {base p : PathText} (h : isAbsolute base = true) :
    isAbsolute (join base p) = true := by
  unfold join
  split
  · assumption
  · cases base with
    | nil => cases h
    | cons c base => split <;> exact h

theorem isAbsolute_join_relative {base p : PathText} (h : isAbsolute p = false) :
    isAbsolute (join base p) = isAbsolute base := by
  unfold join
  rw [if_neg (by simp [h])]
  cases base with
  | nil => exact h
  | cons c base => split <;> rfl

theorem components_dropWhile_slash (p : PathText) :
    components (p.dropWhile (· == '/')) = components p := by
  induction p with
  | nil => rfl
  | cons c p ih =>
      rw [List.dropWhile_cons]
      split
      · rename_i hc
        obtain rfl := beq_iff_eq.mp hc
        rw [ih, components_slash_cons]
      · rfl

theorem components_rdropWhile_slash (p : PathText) :
    components (p.reverse.dropWhile (· == '/')).reverse = components p := by
  induction p using List.reverseRecOn with
  | nil => rfl
  | append_singleton p c ih =>
      rw [List.reverse_append, List.reverse_singleton, List.singleton_append,
        List.dropWhile_cons]
      split
      · rename_i hc
        obtain rfl := beq_iff_eq.mp hc
        rw [ih, components_append_singleton_slash]
      · simp

theorem components_trimSlashes (p : PathText) : components (trimSlashes p) = components p := by
  rw [trimSlashes, components_rdropWhile_slash, components_dropWhile_slash]

/-- What is left after trimming is relative. -/
theorem isAbsolute_trimSlashes (p : PathText) : isAbsolute (trimSlashes p) = false := by
  have hfront : ∀ q : PathText, isAbsolute (q.dropWhile (· == '/')) = false := by
    intro q
    induction q with
    | nil => rfl
    | cons c q ih =>
        rw [List.dropWhile_cons]
        split
        · exact ih
        · rename_i hc
          simpa [isAbsolute] using hc
  have hback : ∀ q : PathText, isAbsolute q = false →
      isAbsolute (q.reverse.dropWhile (· == '/')).reverse = false := by
    intro q hq
    induction q using List.reverseRecOn with
    | nil => rfl
    | append_singleton q c ih =>
        rw [List.reverse_append, List.reverse_singleton, List.singleton_append,
          List.dropWhile_cons]
        split
        · cases q with
          | nil => rfl
          | cons d q => exact ih hq
        · simpa using hq
  exact hback _ (hfront p)

/-- Every character other than a slash is in some segment. -/
theorem mem_segments_of_mem {c : Char} {p : PathText} (hc : c ∈ p) (hne : c ≠ '/') :
    ∃ s ∈ segments p, c ∈ s := by
  induction p with
  | nil => cases hc
  | cons d p ih =>
      rw [segments, List.splitOnP_cons_eq_if_modifyHead]
      split
      · rename_i hd
        have hcp : c ∈ p := by
          rcases List.mem_cons.mp hc with rfl | h
          · exact absurd (beq_iff_eq.mp hd) hne
          · exact h
        obtain ⟨s, hs, hcs⟩ := ih hcp
        exact ⟨s, List.mem_cons_of_mem _ hs, hcs⟩
      · obtain ⟨first, rest, hsplit⟩ := List.exists_cons_of_ne_nil
          (List.splitOnP_ne_nil (fun c => c == '/') p)
        rw [hsplit, List.modifyHead_cons]
        rcases List.mem_cons.mp hc with rfl | h
        · exact ⟨c :: first, List.mem_cons_self .., List.mem_cons_self ..⟩
        · obtain ⟨s, hs, hcs⟩ := ih h
          rw [segments, hsplit] at hs
          rcases List.mem_cons.mp hs with rfl | hs
          · exact ⟨d :: s, List.mem_cons_self .., List.mem_cons_of_mem _ hcs⟩
          · exact ⟨s, List.mem_cons_of_mem _ hs, hcs⟩

/-- A path with a letter in it has a component. -/
theorem components_ne_nil_of_mem {c : Char} {p : PathText} (hc : c ∈ p) (hslash : c ≠ '/')
    (hdot : c ≠ '.') : components p ≠ [] := by
  obtain ⟨s, hs, hcs⟩ := mem_segments_of_mem hc hslash
  refine List.ne_nil_of_mem (a := s) (List.mem_filter.mpr ⟨hs, ?_⟩)
  rw [kept, Bool.and_eq_true, bne_iff_ne, bne_iff_ne]
  constructor
  · rintro rfl
    cases hcs
  · rintro rfl
    exact hdot (List.mem_singleton.mp hcs)

/-- Appending text without a slash extends the last segment. -/
theorem segments_append {p t : PathText} (ht : '/' ∉ t) :
    ∃ init last, segments p = init ++ [last] ∧ segments (p ++ t) = init ++ [last ++ t] := by
  induction p with
  | nil =>
      refine ⟨[], [], rfl, List.splitOnP_eq_singleton fun c hc => ?_⟩
      rw [beq_eq_false_iff_ne]
      exact fun heq => ht (heq ▸ hc)
  | cons c p ih =>
      obtain ⟨init, last, hp, hpt⟩ := ih
      simp only [segments, List.cons_append, List.splitOnP_cons_eq_if_modifyHead] at hp hpt ⊢
      rw [hp, hpt]
      split
      · exact ⟨[] :: init, last, rfl, rfl⟩
      · cases init with
        | nil => exact ⟨[], c :: last, rfl, rfl⟩
        | cons a init => exact ⟨(c :: a) :: init, last, rfl, rfl⟩

theorem mem_components {s : Component} {p : PathText} :
    s ∈ components p ↔ s ∈ segments p ∧ kept s = true :=
  List.mem_filter

end PathText

end Wallermax.Base
