import Wallermax.Templates.ModuleJail

/-!
# The sidecar worker's `require`

`render-worker.mjs`: the bridge's twin on Node. Its paths are joined and normalised
by `path.join`, its built-ins are Node's own, and a module's base is its own
directory, not an argument. The banner and the jail are the same two checks.
-/

namespace Wallermax.Templates

open Wallermax.Base PathText LinkTree

/-! ## `node:path` -/

/-- One segment of `path.normalize`. -/
def normalizeStep (above : Bool) (out : List Component) (s : Component) : List Component :=
  if s = ['.', '.'] then
    if out ≠ [] ∧ out.getLast? ≠ some ['.', '.'] then out.dropLast
    else if above then out ++ [s] else out
  else out ++ [s]

/-- `path.normalize`. -/
def nodeNormalize (p : PathText) : PathText :=
  let out := ['/'].intercalate ((components p).foldl (normalizeStep !isAbsolute p) [])
  let trailing := if p.getLast? = some '/' then ['/'] else []
  if isAbsolute p then (if out = [] then ['/'] else '/' :: out ++ trailing)
  else if out = [] then '.' :: trailing
  else out ++ trailing

/-- `path.join`. -/
def nodeJoin (base p : PathText) : PathText :=
  if base = [] then (if p = [] then ['.'] else nodeNormalize p)
  else if p = [] then nodeNormalize base
  else nodeNormalize (base ++ '/' :: p)

/-- The characters `String.prototype.trim` removes. -/
def isJsWhitespace (c : Char) : Bool :=
  (Tenants.isWhitespace c && c.toNat != 0x85) || c.toNat == 0xFEFF

def jsTrim (text : List Char) : List Char :=
  ((text.dropWhile isJsWhitespace).reverse.dropWhile isJsWhitespace).reverse

/-! ## `makeRequire` -/

structure Worker : Type where
  modulesDir : PathText
  forbidden : List (List Char)
  isBuiltin : List Char → Bool

/-- The modules of one render by canonical path; an instance stands for its source. -/
abbrev ModuleCache : Type := List Component → Option (List Char)

inductive Loaded : Type where
  | builtin (name : List Char)
  | module (key : List Component) (source : List Char)

def workerName (spec : List Char) : List Char :=
  (stripPrefix nodeScheme (jsTrim spec)).getD (jsTrim spec)

/-- `resolveModuleFile`. -/
def Worker.resolveModuleFile (tree : ModuleTree) (manifestMain : ManifestMain)
    (target : PathText) : Option PathText :=
  if tree.isFile target then some target
  else if tree.isFile (target ++ jsSuffix) then some (target ++ jsSuffix)
  else if tree.isDir target then
    if tree.isFile (nodeJoin target indexJs) then some (nodeJoin target indexJs)
    else
      match (tree.canonicalize (nodeJoin target packageJson)).bind tree.fileAt with
      | none => none
      | some file =>
        match file.content.toOption.bind manifestMain with
        | none => none
        | some main =>
          if main ≠ [] ∧ tree.isFile (nodeJoin target main) then some (nodeJoin target main)
          else none
  else none

/-- `evaluateModule`, up to the source it evaluates. -/
def evaluateModule (tree : ModuleTree) (cache : ModuleCache) (canonical : List Component) :
    Except RequireError Loaded × ModuleCache :=
  match cache canonical with
  | some source => (.ok (.module canonical source), cache)
  | none =>
    match readFile tree canonical with
    | .error e   => (.error e, cache)
    | .ok source => (.ok (.module canonical source), Function.update cache canonical (some source))

/-- `canonical !== root && !canonical.startsWith(root + path.sep)`, negated: the
root directory of the file system ends with the separator itself. -/
def insideRoot (root canonical : List Component) : Bool :=
  canonical == root || (root != [] && root.isPrefixOf canonical)

/-- `loadLocalModule`. -/
def loadLocalModule (tree : ModuleTree) (manifestMain : ManifestMain) (worker : Worker)
    (cache : ModuleCache) (spec name base : List Char) : Except RequireError Loaded × ModuleCache :=
  match tree.canonicalize worker.modulesDir with
  | none => (.error (.noModulesDir spec), cache)
  | some root =>
    let baseDir := if base = [] then worker.modulesDir else nodeJoin worker.modulesDir base
    let searchRoots := [if isRelativeName name then baseDir else worker.modulesDir,
      nodeJoin worker.modulesDir nodeModules]
    match searchRoots.findSome? fun dir =>
        Worker.resolveModuleFile tree manifestMain (nodeJoin dir name) with
    | none => (.error (.notFound spec searchRoots), cache)
    | some candidate =>
      match tree.canonicalize candidate with
      | none => (.error (.unresolved spec candidate), cache)
      | some canonical =>
        if insideRoot root canonical then evaluateModule tree cache canonical
        else (.error (.escapes spec), cache)

/-- `jhsRequire`. -/
def jhsRequire (tree : ModuleTree) (manifestMain : ManifestMain) (worker : Worker)
    (cache : ModuleCache) (base : List Char) (spec : Option (List Char)) :
    Except RequireError Loaded × ModuleCache :=
  match spec with
  | none => (.error .notString, cache)
  | some spec =>
    if Char.ofNat 0 ∈ spec then (.error (.nul spec), cache)
    else if '\\' ∈ spec then (.error (.backslash spec), cache)
    else if workerName spec = [] then (.error .empty, cache)
    else if packageOf (workerName spec) ∈ worker.forbidden then
      (.error (.forbidden spec (packageOf (workerName spec))), cache)
    else if worker.isBuiltin (workerName spec) then (.ok (.builtin (workerName spec)), cache)
    else loadLocalModule tree manifestMain worker cache spec (workerName spec) base

/-! ## The same two checks -/

section Jail

variable {tree : ModuleTree} {manifestMain : ManifestMain} {worker : Worker}

/-- Every module of the render was evaluated from its file. -/
def FromFiles (tree : ModuleTree) (cache : ModuleCache) : Prop :=
  ∀ path source, cache path = some source → Holds tree path source

theorem evaluateModule_spec {cache : ModuleCache} (h : FromFiles tree cache)
    (canonical : List Component) :
    (∀ loaded, (evaluateModule tree cache canonical).1 = .ok loaded →
      ∃ source, loaded = .module canonical source ∧ Holds tree canonical source) ∧
      FromFiles tree (evaluateModule tree cache canonical).2 := by
  unfold evaluateModule
  cases hcached : cache canonical with
  | some source =>
      refine ⟨fun loaded hloaded => ?_, h⟩
      cases hloaded
      exact ⟨source, rfl, h canonical source hcached⟩
  | none =>
      cases hread : readFile tree canonical with
      | error e => exact ⟨by simp, h⟩
      | ok source =>
          have hholds := readFile_ok hread
          refine ⟨fun loaded hloaded => ?_, fun path source' hpath => ?_⟩
          · cases hloaded
            exact ⟨source, rfl, hholds⟩
          · by_cases heq : path = canonical
            · subst heq
              change Function.update cache path (some source) path = some source' at hpath
              rw [Function.update_self] at hpath
              cases hpath
              exact hholds
            · change Function.update cache canonical (some source) path = some source' at hpath
              rw [Function.update_of_ne heq] at hpath
              exact h path source' hpath

theorem prefix_of_insideRoot {root canonical : List Component}
    (h : insideRoot root canonical = true) : root <+: canonical := by
  simp only [insideRoot, Bool.or_eq_true, beq_iff_eq, Bool.and_eq_true,
    List.isPrefixOf_iff_prefix] at h
  rcases h with rfl | ⟨-, hpre⟩
  · exact List.prefix_rfl
  · exact hpre

theorem loadLocalModule_spec {cache : ModuleCache} (h : FromFiles tree cache)
    (spec name base : List Char) :
    (∀ loaded, (loadLocalModule tree manifestMain worker cache spec name base).1 = .ok loaded →
      ∃ key source, loaded = .module key source ∧ Jailed tree worker.modulesDir key source) ∧
      FromFiles tree (loadLocalModule tree manifestMain worker cache spec name base).2 := by
  unfold loadLocalModule
  cases hroot : tree.canonicalize worker.modulesDir with
  | none => exact ⟨by simp, h⟩
  | some root =>
      dsimp only
      split
      · exact ⟨by simp, h⟩
      · split
        · exact ⟨by simp, h⟩
        · rename_i canonical _
          split
          · rename_i hinside
            obtain ⟨hok, hcache⟩ := evaluateModule_spec h canonical
            refine ⟨fun loaded hloaded => ?_, hcache⟩
            obtain ⟨source, rfl, hholds⟩ := hok loaded hloaded
            exact ⟨canonical, source, rfl,
              jailed_of_prefix hroot (prefix_of_insideRoot hinside) hholds⟩
          · exact ⟨by simp, h⟩

/-- **The twin keeps the jail and the banner.** -/
theorem jhsRequire_spec {cache : ModuleCache} (h : FromFiles tree cache) (base : List Char)
    (spec : Option (List Char)) :
    (∀ loaded, (jhsRequire tree manifestMain worker cache base spec).1 = .ok loaded →
      (∃ text, spec = some text ∧ packageOf (workerName text) ∉ worker.forbidden) ∧
      ∀ key source, loaded = .module key source → Jailed tree worker.modulesDir key source) ∧
      FromFiles tree (jhsRequire tree manifestMain worker cache base spec).2 := by
  fun_cases jhsRequire tree manifestMain worker cache base spec with
  | case1 => exact ⟨by simp, h⟩
  | case2 text hnul => exact ⟨by simp, h⟩
  | case3 text hnul hslash => exact ⟨by simp, h⟩
  | case4 text hnul hslash hempty => exact ⟨by simp, h⟩
  | case5 text hnul hslash hempty hforbidden => exact ⟨by simp, h⟩
  | case6 text hnul hslash hempty hforbidden hbuiltin =>
      refine ⟨fun loaded hloaded => ?_, h⟩
      cases hloaded
      exact ⟨⟨text, rfl, hforbidden⟩, fun key source heq => nomatch heq⟩
  | case7 text hnul hslash hempty hforbidden hbuiltin =>
      obtain ⟨hok, hcache⟩ :=
        @loadLocalModule_spec tree manifestMain worker cache h text (workerName text) base
      refine ⟨fun loaded hloaded => ⟨⟨text, rfl, hforbidden⟩, fun key source heq => ?_⟩, hcache⟩
      obtain ⟨key', source', hloaded', hjail⟩ := hok loaded hloaded
      cases hloaded'.symm.trans heq
      exact hjail

end Jail

end Wallermax.Templates
