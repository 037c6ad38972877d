import Wallermax.Templates.Middleware

/-!
# What the middleware renders

Every file handed to the renderer lies below its branch's root, one kind of
request apart: a path that starts with two slashes (plain or percent-encoded)
leaves the explicit branch with an absolute path, and joining that to the root
replaces the root.
-/

namespace Wallermax.Templates

open Wallermax.Base
open Wallermax.Base.PathText

/-- The root a branch renders from. -/
def sourceRoot (engine : TemplateEngine) (host : HostClass) : Source → Option Root
  | .view => some engine.views_dir
  | _ => renderRoot engine host

theorem renderPath_of_absolute {engine : TemplateEngine} {path : PathText}
    (h : isAbsolute path = true) : renderPath engine path = path :=
  if_pos h

section Candidates

variable {tree : FileTree} {engine : TemplateEngine} {host : HostClass} {vhosts : Bool}
  {decoded file : PathText}

theorem explicitCandidate_some :
    explicitCandidate tree engine host decoded = some file ↔
      ∃ root, renderRoot engine host = some root ∧ endsWith jhs decoded = true ∧
        host.isCms = false ∧ file = join root.path (trimLeadingSlash decoded) ∧
        tree.isFile (components file) = true := by
  simp only [explicitCandidate, Option.bind_eq_some_iff, Option.ite_none_right_eq_some,
    Option.some.injEq, Bool.and_eq_true, Bool.not_eq_true']
  constructor
  · rintro ⟨root, hroot, ⟨⟨hjhs, hcms⟩, hfile⟩, rfl⟩
    exact ⟨root, hroot, hjhs, hcms, rfl, hfile⟩
  · rintro ⟨root, hroot, hjhs, hcms, rfl, hfile⟩
    exact ⟨root, hroot, ⟨⟨hjhs, hcms⟩, hfile⟩, rfl⟩

theorem directoryCandidate_some :
    directoryCandidate tree engine vhosts host decoded = some file ↔
      ∃ root, renderRoot engine host = some root ∧ decoded.getLast? = some '/' ∧
        (vhosts = false ∨ host.isCms = false) ∧ file = directoryIndexJhs root decoded ∧
        tree.isFile (components file) = true := by
  simp only [directoryCandidate, Option.bind_eq_some_iff, Option.ite_none_right_eq_some,
    Option.some.injEq, Bool.or_eq_true, Bool.not_eq_true']
  constructor
  · rintro ⟨root, hroot, ⟨hlast, hhost, hfile⟩, rfl⟩
    exact ⟨root, hroot, hlast, hhost, rfl, hfile⟩
  · rintro ⟨root, hroot, hlast, hhost, rfl, hfile⟩
    exact ⟨root, hroot, ⟨hlast, hhost, hfile⟩, rfl⟩

theorem isAbsolute_directoryIndexJhs (root : Root) (decoded : PathText) :
    isAbsolute (directoryIndexJhs root decoded) = true := by
  simp only [directoryIndexJhs]
  split
  · exact isAbsolute_join root.absolute
  · exact isAbsolute_join (isAbsolute_join root.absolute)

theorem isAbsolute_viewCandidates {views_dir : Root} {relative : PathText}
    (h : file ∈ viewCandidates views_dir relative) : isAbsolute file = true := by
  unfold viewCandidates at h
  split at h
  · obtain rfl := List.mem_singleton.mp h
    exact isAbsolute_join views_dir.absolute
  · split at h
    · obtain rfl := List.mem_singleton.mp h
      exact isAbsolute_join views_dir.absolute
    · simp only [List.mem_cons, List.not_mem_nil, or_false] at h
      rcases h with rfl | rfl
      · exact isAbsolute_join views_dir.absolute
      · exact isAbsolute_join (isAbsolute_join views_dir.absolute)

theorem mem_of_viewCandidate {views_dir : Root}
    (h : viewCandidate tree views_dir decoded = some file) :
    file ∈ viewCandidates views_dir (trimSlashes decoded) := by
  unfold viewCandidate at h
  split at h
  · cases h
  · exact List.mem_of_find?_eq_some h

end Candidates

section Run

variable {tree : FileTree} {engine : TemplateEngine} {bindings : List Binding}
  {default_page : Bool} {request : Request} {next : Answer}

/-- **The three ways to be rendered.** -/
theorem run_rendered {source : Source} {file : PathText}
    (h : run tree (some engine) bindings default_page request next =
      .rendered source file) :
    request.method ≠ .other ∧ isSafeRelative (percentText request.path) = true ∧
      ((source = .explicit ∧ explicitCandidate tree engine
          (classify request.host bindings) (percentText request.path) = some file) ∨
        (source = .directory ∧ directoryCandidate tree engine (!bindings.isEmpty)
          (classify request.host bindings) (percentText request.path) = some file) ∨
        (source = .view ∧
          viewCandidate tree engine.views_dir (percentText request.path) = some file)) := by
  simp only [run] at h
  split at h
  · cases h
  · rename_i hmethod
    split at h
    · cases h
    · rename_i hsafe
      refine ⟨hmethod, by simpa using hsafe, ?_⟩
      split at h
      · rename_i candidate hc
        cases h
        obtain ⟨root, _, _, _, rfl, _⟩ := explicitCandidate_some.mp hc
        rw [renderPath_of_absolute (isAbsolute_join root.absolute)]
        exact .inl ⟨rfl, hc⟩
      · split at h
        · cases h
        · split at h
          · rename_i candidate hc
            cases h
            obtain ⟨root, _, _, _, rfl, _⟩ := directoryCandidate_some.mp hc
            rw [renderPath_of_absolute (isAbsolute_directoryIndexJhs root _)]
            exact .inr (.inl ⟨rfl, hc⟩)
          · split at h
            · split at h
              · rename_i candidate hc
                cases h
                rw [renderPath_of_absolute
                  (isAbsolute_viewCandidates (mem_of_viewCandidate hc))]
                exact .inr (.inr ⟨rfl, hc⟩)
              · cases h
            · cases h

/-- The explicit branch takes an absolute path that names a file outside the
root. -/
def Escapes (tree : FileTree) (engine : TemplateEngine) (bindings : List Binding)
    (request : Request) : Prop :=
  let decoded := percentText request.path
  let host := classify request.host bindings
  let path := trimLeadingSlash decoded
  request.method ≠ .other ∧ isSafeRelative decoded = true ∧ host.isCms = false ∧
    endsWith jhs decoded = true ∧ isAbsolute path = true ∧
    tree.isFile (components path) = true ∧
    ∃ root, renderRoot engine host = some root ∧ ¬ Below root.path path

/-- An escaping request is rendered from where its path points. -/
theorem run_of_escapes (h : Escapes tree engine bindings request) :
    run tree (some engine) bindings default_page request next =
      .rendered .explicit (trimLeadingSlash (percentText request.path)) := by
  obtain ⟨hmethod, hsafe, hcms, hjhs, habs, hfile, root, hroot, _⟩ := h
  have hjoin : join root.path (trimLeadingSlash (percentText request.path)) =
      trimLeadingSlash (percentText request.path) := if_pos habs
  have hc : explicitCandidate tree engine (classify request.host bindings)
      (percentText request.path) = some (trimLeadingSlash (percentText request.path)) :=
    explicitCandidate_some.mpr ⟨root, hroot, hjhs, hcms, hjoin.symm, hfile⟩
  simp only [run, if_neg hmethod, hsafe, hc]
  rw [renderPath_of_absolute habs]
  rfl

/-- **When rendering stays inside its roots.** Every file handed to the renderer
is below its branch's root exactly when the request does not escape. -/
theorem rendered_below_iff (tree : FileTree) (engine : TemplateEngine)
    (bindings : List Binding) (default_page : Bool) (request : Request) (next : Answer) :
    (∀ source file, run tree (some engine) bindings default_page request next =
        .rendered source file →
      ∃ root, sourceRoot engine (classify request.host bindings) source = some root ∧
        Below root.path file) ↔
      ¬ Escapes tree engine bindings request := by
  constructor
  · intro hall hesc
    obtain ⟨root, hroot, hbelow⟩ := hall _ _ (run_of_escapes hesc)
    obtain ⟨_, _, _, _, _, _, root', hroot', hout⟩ := hesc
    change renderRoot engine _ = some root at hroot
    rw [hroot'] at hroot
    cases hroot
    exact hout hbelow
  · intro hstay source file hrun
    obtain ⟨hmethod, hsafe, hcase⟩ := run_rendered hrun
    rcases hcase with ⟨rfl, hc⟩ | ⟨rfl, hc⟩ | ⟨rfl, hc⟩
    · obtain ⟨root, hroot, hjhs, hcms, rfl, hfile⟩ := explicitCandidate_some.mp hc
      refine ⟨root, hroot, ?_⟩
      by_cases habs : isAbsolute (trimLeadingSlash (percentText request.path)) = true
      · have hjoin : join root.path (trimLeadingSlash (percentText request.path)) =
            trimLeadingSlash (percentText request.path) := if_pos habs
        rw [hjoin] at hfile ⊢
        by_contra hout
        exact hstay ⟨hmethod, hsafe, hcms, hjhs, habs, hfile, root, hroot, hout⟩
      · -- a relative path with an extension has a component, and none is `..`
        refine ⟨components (percentText request.path),
          components_ne_nil_of_mem (mem_of_endsWith_jhs hjhs) (by decide) (by decide),
          not_mem_components_of_safe hsafe, ?_⟩
        rw [components_join_relative (by simpa using habs), components_trimLeadingSlash]
    · obtain ⟨root, hroot, _, _, rfl, _⟩ := directoryCandidate_some.mp hc
      exact ⟨root, hroot, below_directoryIndexJhs hsafe⟩
    · exact ⟨engine.views_dir, rfl, below_viewCandidates hsafe (mem_of_viewCandidate hc)⟩

end Run

/-! ## Two slashes -/

/-- A tree whose only file is `/etc/x.jhs`. -/
def etcTree : FileTree := FileTree.single [['e', 't', 'c'], ['x', '.', 'j', 'h', 's']]

def publicRoot : Root where
  path := ['/', 's', 'r', 'v', '/', 'p', 'u', 'b', 'l', 'i', 'c']
  absolute := by decide

def viewsRoot : Root where
  path := ['/', 's', 'r', 'v', '/', 'v', 'i', 'e', 'w', 's']
  absolute := by decide

def publicEngine : TemplateEngine where
  static_root := some publicRoot
  views_dir := viewsRoot

/-- `GET //etc/x.jhs` on a server without host bindings. -/
def twoSlashes : Request where
  method := .get
  host := none
  path := ['/', '/', 'e', 't', 'c', '/', 'x', '.', 'j', 'h', 's']
  rooted := by decide

/-- The file `/etc/x.jhs` is executed as a template. -/
theorem etc_rendered :
    ¬ ∀ source file, run etcTree (some publicEngine) [] false twoSlashes .notFound =
        .rendered source file →
      ∃ root, sourceRoot publicEngine (classify twoSlashes.host []) source = some root ∧
        Below root.path file := by
  intro hall
  have hrun : run etcTree (some publicEngine) [] false twoSlashes .notFound =
      .rendered .explicit ['/', 'e', 't', 'c', '/', 'x', '.', 'j', 'h', 's'] := by
    decide +kernel
  obtain ⟨root, hroot, rest, _, _, hcomp⟩ := hall _ _ hrun
  cases hroot
  have hetc : (components ['/', 'e', 't', 'c', '/', 'x', '.', 'j', 'h', 's']).head? =
      some ['e', 't', 'c'] := by decide
  have hsrv : (components publicRoot.path ++ rest).head? = some ['s', 'r', 'v'] := by
    rw [show components publicRoot.path = [['s', 'r', 'v'], ['p', 'u', 'b', 'l', 'i', 'c']]
      from by decide]
    rfl
  rw [hcomp, hsrv] at hetc
  cases hetc

end Wallermax.Templates
