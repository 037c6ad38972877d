import Wallermax.Templates.Containment

/-!
# The panel's views

`view_candidate` is never to route to `views/admin`: its guard compares the decoded path
as it came with `/admin`, and the candidates are made of the path without the slashes at
its ends, which the file system reads by its components. A path that spells the directory
in another way passes the guard.
-/

namespace Wallermax.Templates

open Wallermax.Base
open Wallermax.Base.PathText

def admin : Component := ['a', 'd', 'm', 'i', 'n']

def adminJhs : Component := admin ++ jhs

/-- The file is below `views/admin`, or it is `views/admin.jhs`. -/
def InPanel (views_dir : Root) (file : PathText) : Prop :=
  (∃ rest, rest ≠ [] ∧ components file = components views_dir.path ++ admin :: rest) ∨
    components file = components views_dir.path ++ [adminJhs]

/-- No panel view is routed to. -/
def HidesPanel (tree : FileTree) (views_dir : Root) (decoded : PathText) : Prop :=
  ∀ file, viewCandidate tree views_dir decoded = some file → ¬InPanel views_dir file

/-- The guard of `view_candidate` stops the path. -/
def Guarded (decoded : PathText) : Prop :=
  decoded = adminPath ∨ (adminPath ++ ['/']).isPrefixOf decoded

/-- By its components the path is the panel's. -/
def NamesPanel (decoded : PathText) : Prop :=
  (∃ rest, components decoded = admin :: rest) ∨
    (components decoded = [adminJhs] ∧ endsWith jhs (trimSlashes decoded) = true)

/-- A candidate of the path is a file. -/
def HasView (tree : FileTree) (views_dir : Root) (decoded : PathText) : Prop :=
  ∃ file ∈ viewCandidates views_dir (trimSlashes decoded), tree.isFile (components file) = true

section

variable {views_dir : Root} {p decoded file : PathText}

/-- In the panel by what follows the views directory. -/
theorem inPanel_iff {rest : List Component}
    (h : components file = components views_dir.path ++ rest) : InPanel views_dir file ↔
      (∃ below, below ≠ [] ∧ rest = admin :: below) ∨ rest = [adminJhs] := by
  unfold InPanel
  rw [h]
  simp only [List.append_cancel_left_eq]

/-- The extension lengthens the last segment, which is then a component. -/
theorem components_append_jhs (p : PathText) : ∃ init last,
    components p = init ++ [last].filter kept ∧ components (p ++ jhs) = init ++ [last ++ jhs] := by
  obtain ⟨init, last, hp, happ⟩ := segments_append (p := p) (t := jhs) (by decide)
  refine ⟨init.filter kept, last, ?_, ?_⟩
  · rw [components, hp, List.filter_append]
  · have hkept : kept (last ++ jhs) = true := by
      have hlong : ∀ s : Component, s.length ≤ 1 → last ++ jhs ≠ s := by
        rintro s hs rfl
        simp [jhs] at hs
      rw [kept, Bool.and_eq_true, bne_iff_ne, bne_iff_ne]
      exact ⟨hlong _ (by decide), hlong _ (by decide)⟩
    rw [components, happ, List.filter_append, List.filter_singleton, hkept]
    rfl

theorem components_of_endsWith (h : endsWith jhs p = true) :
    ∃ init last, components p = init ++ [last ++ jhs] := by
  obtain ⟨q, rfl⟩ := List.isSuffixOf_iff_suffix.mp h
  obtain ⟨init, last, -, happ⟩ := components_append_jhs q
  exact ⟨init, last, happ⟩

/-- A path that names a `.jhs` file is the panel's where the file is. -/
theorem inPanel_named (h : endsWith jhs p = true) :
    ((∃ below, below ≠ [] ∧ components p = admin :: below) ∨ components p = [adminJhs]) ↔
      (∃ rest, components p = admin :: rest) ∨ components p = [adminJhs] := by
  obtain ⟨init, last, hcomponents⟩ := components_of_endsWith h
  refine or_congr_left ⟨fun ⟨below, _, heq⟩ => ⟨below, heq⟩, ?_⟩
  rintro ⟨rest, heq⟩
  refine ⟨rest, ?_, heq⟩
  rintro rfl
  -- the one component would be `admin`, without the extension
  have hlast : last ++ jhs ∈ [admin] := by
    rw [← heq, hcomponents]
    exact List.mem_append_right _ (List.mem_singleton_self _)
  have hsuffix := congrArg List.getLast? (List.mem_singleton.mp hlast)
  rw [List.getLast?_append_of_ne_nil _ (by decide)] at hsuffix
  revert hsuffix
  decide

/-- The flat view of a path is in the panel where the path is `admin` or below it. -/
theorem inPanel_flat :
    ((∃ below, below ≠ [] ∧ components (p ++ jhs) = admin :: below) ∨
      components (p ++ jhs) = [adminJhs]) ↔ ∃ rest, components p = admin :: rest := by
  obtain ⟨init, last, hp, hflat⟩ := components_append_jhs p
  rw [hp, hflat]
  cases init with
  | nil =>
      have hkept : kept admin = true := by decide
      constructor
      · rintro (⟨below, hne, heq⟩ | heq)
        · exact absurd (List.cons.inj heq).2.symm hne
        · obtain rfl : last = admin :=
            List.append_cancel_right (List.cons.inj heq).1
          exact ⟨[], by simp [hkept]⟩
      · rintro ⟨rest, heq⟩
        obtain rfl : last = admin := by
          have hmem : admin ∈ [last].filter kept := by
            rw [show [last].filter kept = admin :: rest from heq]
            exact List.mem_cons_self
          exact (List.mem_singleton.mp (List.mem_filter.mp hmem).1).symm
        exact .inr rfl
  | cons first init =>
      constructor
      · rintro (⟨below, _, heq⟩ | heq)
        · exact ⟨_, by rw [List.cons_append, (List.cons.inj heq).1]⟩
        · have hlength := congrArg List.length heq
          simp at hlength
      · rintro ⟨rest, heq⟩
        refine .inl ⟨init ++ [last ++ jhs], by simp, ?_⟩
        rw [List.cons_append, (List.cons.inj heq).1]

/-- The directory's index is in the panel where the path is `admin` or below it. -/
theorem inPanel_index {rest : List Component} :
    ((∃ below, below ≠ [] ∧ rest ++ [indexJhs] = admin :: below) ∨
      rest ++ [indexJhs] = [adminJhs]) ↔ ∃ more, rest = admin :: more := by
  cases rest with
  | nil =>
      refine iff_of_false ?_ (by simp)
      rintro (⟨below, _, heq⟩ | heq)
      · revert heq
        simp [indexJhs, admin]
      · revert heq
        decide
  | cons first rest =>
      simp only [List.cons_append, List.cons.injEq, List.append_eq_nil_iff, List.cons_ne_nil,
        and_false, or_false]
      constructor
      · rintro ⟨below, _, rfl, _⟩
        exact ⟨rest, rfl, rfl⟩
      · rintro ⟨more, rfl, rfl⟩
        exact ⟨_, by simp, rfl, rfl⟩

/-- **Every candidate of a path is the panel's where the path is**, by its components. -/
theorem inPanel_viewCandidates (hfile : file ∈ viewCandidates views_dir (trimSlashes decoded)) :
    InPanel views_dir file ↔ NamesPanel decoded := by
  have hrel := isAbsolute_trimSlashes decoded
  unfold NamesPanel
  rw [← components_trimSlashes decoded]
  generalize trimSlashes decoded = relative at hrel hfile
  unfold viewCandidates at hfile
  split at hfile
  · rename_i hnil
    obtain rfl := List.mem_singleton.mp hfile
    rw [inPanel_iff (components_join_relative (by decide)), hnil, components_indexJhs]
    have hindex : ∀ tail, [indexJhs] ≠ admin :: tail := by
      intro tail heq
      exact absurd (List.cons.inj heq).1 (by decide)
    refine iff_of_false ?_ ?_
    · rintro (⟨below, _, heq⟩ | heq)
      · exact hindex _ heq
      · revert heq
        decide
    · simp
  · rename_i hne
    split at hfile
    · rename_i hjhs
      obtain rfl := List.mem_singleton.mp hfile
      rw [inPanel_iff (components_join_relative hrel), inPanel_named hjhs, and_iff_left hjhs]
    · rename_i hjhs
      have hnamed : ¬(components relative = [adminJhs] ∧ endsWith jhs relative = true) :=
        fun hboth => hjhs hboth.2
      rw [or_iff_left hnamed]
      simp only [List.mem_cons, List.not_mem_nil, or_false] at hfile
      rcases hfile with rfl | rfl
      · have hflat : isAbsolute (relative ++ jhs) = false := by
          cases relative with
          | nil => exact absurd rfl hne
          | cons c relative => exact hrel
        rw [inPanel_iff (components_join_relative hflat), inPanel_flat]
      · have hindex : components (join (join views_dir.path relative) indexJhs) =
            components views_dir.path ++ (components relative ++ [indexJhs]) := by
          rw [components_join_relative (by decide), components_join_relative hrel,
            components_indexJhs, List.append_assoc]
        rw [inPanel_iff hindex, inPanel_index]

end

/-- **The panel's views are hidden** from a path exactly where the guard stops it, its
components are not the panel's, or there is no such file. -/
theorem hidesPanel_iff (tree : FileTree) (views_dir : Root) (decoded : PathText) :
    HidesPanel tree views_dir decoded ↔
      Guarded decoded ∨ ¬NamesPanel decoded ∨ ¬HasView tree views_dir decoded := by
  constructor
  · intro hhides
    by_contra hnot
    simp only [not_or, not_not] at hnot
    obtain ⟨hguard, hnames, file, hfile, hthere⟩ := hnot
    have hfound : ((viewCandidates views_dir (trimSlashes decoded)).find? fun c =>
        tree.isFile (components c)).isSome := by
      rw [List.find?_isSome]
      exact ⟨file, hfile, hthere⟩
    obtain ⟨found, hfind⟩ := Option.isSome_iff_exists.mp hfound
    refine hhides found ?_ ((inPanel_viewCandidates (List.mem_of_find?_eq_some hfind)).mpr hnames)
    exact (if_neg hguard).trans hfind
  · rintro hcondition file hfile hpanel
    have hmem := mem_of_viewCandidate hfile
    unfold viewCandidate at hfile
    split at hfile
    · cases hfile
    · rename_i hguard
      have hnames := (inPanel_viewCandidates hmem).mp hpanel
      rcases hcondition with hguarded | hother | hnone
      · exact hguard hguarded
      · exact hother hnames
      · exact hnone ⟨file, hmem, by simpa using List.find?_some hfile⟩

/-- The panel's list of users. -/
def usersView : List Component :=
  [['s', 'r', 'v'], ['v', 'i', 'e', 'w', 's'], admin, ['u', 's', 'e', 'r', 's', '.', 'j', 'h', 's']]

/-- With a second slash the path passes the guard. -/
theorem slashes_reach_panel :
    isSafeRelative "//admin/users".toList = true ∧
      ¬HidesPanel (.single usersView) viewsRoot "//admin/users".toList := by
  refine ⟨by decide, ?_⟩
  intro hhides
  have hfile : viewCandidate (.single usersView) viewsRoot "//admin/users".toList =
      some "/srv/views/admin/users.jhs".toList := by decide
  refine hhides _ hfile (.inl ⟨[['u', 's', 'e', 'r', 's', '.', 'j', 'h', 's']], by simp, ?_⟩)
  decide

end Wallermax.Templates
