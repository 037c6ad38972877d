import Wallermax.Base.Runs
import Wallermax.Templates.Require

/-!
# What `require()` can load

The jail is a check on the file that was found: whatever the specifier and the base
are, a source comes from a file below the modules root. The banner is a check on
the spelling: it says which names may be asked for, and what it says about the
file holds of plain names in a tree without links only.
-/

namespace Wallermax.Templates

open Wallermax.Base PathText LinkTree

/-! ## The jail -/

section Jail

variable {tree : ModuleTree} {manifestMain : ManifestMain} {options : RequireOptions}

/-- The content of a file at a canonical path. -/
def Holds (tree : ModuleTree) (path : List Component) (source : List Char) : Prop :=
  ∃ file, tree.fileAt path = some file ∧ file.content = .ok source

/-- The loader of these options, and every cached source is its file's content. -/
structure Loader (tree : ModuleTree) (options : RequireOptions) (state : RequireState) : Prop where
  modules_root : state.modules_root = options.modules_dir
  forbidden : state.forbidden = options.forbidden
  honest : ∀ cache, state.source_cache = some cache → ∀ path hit, cache path = some hit →
    Holds tree path hit.source

theorem readFile_ok {path : List Component} {source : List Char}
    (h : readFile tree path = .ok source) : Holds tree path source := by
  unfold readFile at h
  cases hfile : tree.fileAt path with
  | none =>
      rw [hfile] at h
      cases h
  | some file =>
      rw [hfile] at h
      cases hcontent : file.content with
      | error failure =>
          simp only [hcontent] at h
          cases h
      | ok text =>
          simp only [hcontent] at h
          cases h
          exact ⟨file, hfile, hcontent⟩

/-- **What is read is a file's content**, from the cache or from the disk. -/
theorem readSource_spec {state : RequireState} (h : Loader tree options state)
    (path : List Component) :
    (∀ source, (readSource tree state path).1 = .ok source → Holds tree path source) ∧
      Loader tree options (readSource tree state path).2 := by
  unfold readSource
  cases hcache : state.source_cache with
  | none => exact ⟨fun source hsource => readFile_ok hsource, h⟩
  | some cache =>
      cases hhit : (cache path).filter fun hit =>
          decide (hit.mtime = (tree.fileAt path).bind SourceFile.mtime) with
      | some hit =>
          simp only [hhit]
          refine ⟨fun source hsource => ?_, h⟩
          cases hsource
          exact h.honest cache hcache path hit (Option.filter_eq_some_iff.mp hhit).1
      | none =>
          simp only [hhit]
          cases hread : readFile tree path with
          | error e =>
              refine ⟨fun source hsource => ?_, h⟩
              cases hsource
          | ok text =>
              have htext := readFile_ok hread
              refine ⟨fun source hsource => ?_, ?_⟩
              · cases hsource
                exact htext
              · refine ⟨h.modules_root, h.forbidden, fun cache' hcache' path' hit' hhit' => ?_⟩
                cases hcache'
                by_cases hpath : path' = path
                · subst hpath
                  rw [Function.update_self] at hhit'
                  cases hhit'
                  exact htext
                · rw [Function.update_of_ne hpath] at hhit'
                  exact h.honest cache hcache path' hit' hhit'

/-- What the jail says of a module: its source is the content of a file below the
canonical root. A root that is a file itself is the only other file there is. -/
def Jailed (tree : ModuleTree) (modules_dir : PathText) (path : List Component)
    (source : List Char) : Prop :=
  ∃ root rest, tree.canonicalize modules_dir = some root ∧ path = root ++ rest ∧
    (tree.node root = some .dir → rest ≠ []) ∧ Holds tree path source

theorem jailed_of_prefix {modules_dir : PathText} {root path : List Component}
    {source : List Char} (hroot : tree.canonicalize modules_dir = some root)
    (hpre : root <+: path) (hholds : Holds tree path source) :
    Jailed tree modules_dir path source := by
  obtain ⟨rest, rfl⟩ := hpre
  refine ⟨root, rest, hroot, rfl, ?_, hholds⟩
  rintro hdir rfl
  obtain ⟨file, hfile, -⟩ := hholds
  rw [List.append_nil, fileAt, hdir] at hfile
  cases hfile

/-- **The jail**: a local module is a file below the root, found at its candidate. -/
theorem resolveLocalModule_spec {state : RequireState} (h : Loader tree options state)
    (spec name : List Char) (base : Option (List Char)) :
    (∀ d, (resolveLocalModule tree manifestMain state spec name base).1 = .ok d →
      ∃ m, d = .module m ∧ Jailed tree options.modules_dir m.key m.source ∧
        tree.canonicalize m.file = some m.key ∧
        ∃ dir ∈ searchRoots options.modules_dir name base,
          resolveModuleFile tree manifestMain (join dir name) = some m.file) ∧
      Loader tree options (resolveLocalModule tree manifestMain state spec name base).2 := by
  rw [resolveLocalModule, h.modules_root]
  cases hroot : tree.canonicalize options.modules_dir with
  | none => exact ⟨by simp, h⟩
  | some root =>
      dsimp only
      cases hfound : (searchRoots options.modules_dir name base).findSome? fun dir =>
          resolveModuleFile tree manifestMain (join dir name) with
      | none => exact ⟨by simp, h⟩
      | some candidate =>
          dsimp only
          cases hcanonical : tree.canonicalize candidate with
          | none => exact ⟨by simp, h⟩
          | some canonical =>
              dsimp only
              by_cases hpre : root <+: canonical
              · rw [if_pos hpre, moduleDescriptor]
                obtain ⟨hok, hloader⟩ := readSource_spec h canonical
                cases hread : readSource tree state canonical with
                | mk result state' =>
                    rw [hread] at hok hloader
                    cases result with
                    | error e => exact ⟨by simp, hloader⟩
                    | ok source =>
                        dsimp only
                        have hloader' : Loader tree options
                            { state' with budget := state'.budget + byteLength source } :=
                          ⟨hloader.modules_root, hloader.forbidden, hloader.honest⟩
                        split
                        · exact ⟨by simp, hloader'⟩
                        · refine ⟨fun d hd => ?_, hloader'⟩
                          cases hd
                          refine ⟨_, rfl, jailed_of_prefix hroot hpre (hok source rfl),
                            hcanonical, ?_⟩
                          obtain ⟨dir, hdir, hdirfound⟩ := List.exists_of_findSome?_eq_some hfound
                          exact ⟨dir, hdir, hdirfound⟩
              · rw [if_neg hpre]
                exact ⟨by simp, h⟩

/-- The name a specifier asks for is not a banned package's. -/
def Allowed (forbidden : List (List Char)) (spec : Option (List Char)) : Prop :=
  ∃ text, spec = some text ∧ packageOf (moduleName text) ∉ forbidden

theorem resolveImpl_spec {state : RequireState} (h : Loader tree options state)
    (spec base : Option (List Char)) :
    (∀ d, (resolveImpl tree manifestMain state spec base).1 = .ok d →
      Allowed options.forbidden spec ∧ ∀ m, d = .module m →
        Jailed tree options.modules_dir m.key m.source ∧
        tree.canonicalize m.file = some m.key ∧
        ∃ text dir, spec = some text ∧
          dir ∈ searchRoots options.modules_dir (moduleName text) base ∧
          resolveModuleFile tree manifestMain (join dir (moduleName text)) = some m.file) ∧
      Loader tree options (resolveImpl tree manifestMain state spec base).2 := by
  fun_cases resolveImpl tree manifestMain state spec base with
  | case1 => exact ⟨by simp, h⟩
  | case2 text hnul => exact ⟨by simp, h⟩
  | case3 text hnul hslash => exact ⟨by simp, h⟩
  | case4 text hnul hslash hempty => exact ⟨by simp, h⟩
  | case5 text hnul hslash hempty hforbidden => exact ⟨by simp, h⟩
  | case6 text hnul hslash hempty hforbidden hbuiltin hcrypto =>
      refine ⟨fun d hd => ?_, h⟩
      cases hd
      rw [h.forbidden] at hforbidden
      exact ⟨⟨text, rfl, hforbidden⟩, fun m hm => nomatch hm⟩
  | case7 text hnul hslash hempty hforbidden hbuiltin hcrypto => exact ⟨by simp, h⟩
  | case8 text hnul hslash hempty hforbidden hbuiltin =>
      obtain ⟨hok, hloader⟩ :=
        @resolveLocalModule_spec tree manifestMain options state h text (moduleName text) base
      refine ⟨fun d hd => ?_, hloader⟩
      obtain ⟨m, rfl, hjail, hcanonical, dir, hdir, hfound⟩ := hok d hd
      rw [h.forbidden] at hforbidden
      refine ⟨⟨text, rfl, hforbidden⟩, fun m' hm' => ?_⟩
      cases hm'
      exact ⟨hjail, hcanonical, text, dir, rfl, hdir, hfound⟩

theorem install_loader (options : RequireOptions) (cache : Bool) :
    Loader tree options (install options cache) where
  modules_root := rfl
  forbidden := rfl
  honest := by
    intro table htable path hit hhit
    cases cache with
    | false => cases htable
    | true =>
        cases htable
        cases hhit

theorem run_loader {calls : List Call} {cache : Bool} {state : RequireState}
    (h : run (callStep tree manifestMain) (install options cache) calls = some state) :
    Loader tree options state := by
  refine run_invariant (callStep tree manifestMain) (I := Loader tree options) ?_
    (install_loader options cache) h
  intro s call t hs hstep
  cases call with
  | render =>
      cases hstep
      exact ⟨hs.modules_root, hs.forbidden, hs.honest⟩
  | require spec base =>
      cases hstep
      exact (resolveImpl_spec hs spec base).2

end Jail

end Wallermax.Templates
