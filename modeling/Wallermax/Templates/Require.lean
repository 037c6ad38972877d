import Wallermax.Base.Symlinks
import Wallermax.Templates.Engine

/-!
# The `require()` bridge

`require_bridge.rs`: what a specifier and a base a template passes resolve to. The
banner looks at the specifier's first segment, the jail at the canonical path of
the file that was found. Both arguments are the template's own.

The file tree does not change. What `serde_json` finds under a manifest's `main`
is a parameter.
-/

namespace Wallermax.Templates

open Wallermax.Base PathText LinkTree

/-- A file as the loader sees it. -/
structure SourceFile : Type where
  content : Except (List Char) (List Char)
  mtime : Stamp

abbrev ModuleTree : Type := LinkTree SourceFile

/-- `value.get("main")?.as_str()` of a manifest's text. -/
abbrev ManifestMain : Type := List Char → Option (List Char)

structure RequireOptions : Type where
  modules_dir : PathText
  forbidden : List (List Char)

structure ModuleSource : Type where
  source : List Char
  mtime : Stamp

/-- The loader's state: the cache is the engine's, the budget the render's. -/
structure RequireState : Type where
  modules_root : PathText
  forbidden : List (List Char)
  source_cache : Option (List Component → Option ModuleSource)
  budget : ℕ

/-- A module as the sandbox gets it; paths other than `file` are components. -/
structure ModuleDescriptor : Type where
  key : List Component
  file : PathText
  dir : List Component
  base : List Component
  source : List Char

inductive Descriptor : Type where
  | crypto
  | module (m : ModuleDescriptor)

/-- Why nothing is returned, with what the message names. -/
inductive RequireError : Type where
  | notString
  | nul (spec : List Char)
  | backslash (spec : List Char)
  | empty
  | forbidden (spec package : List Char)
  | builtin (spec package : List Char)
  | noModulesDir (spec : List Char)
  | unresolved (spec : List Char) (candidate : PathText)
  | escapes (spec : List Char)
  | notFound (spec : List Char) (tried : List PathText)
  | unreadable (path : List Component) (failure : List Char)
  | overBudget (spec : List Char)
deriving DecidableEq

def REQUIRE_MAX_TOTAL_BYTES : ℕ := 8388608

def BUILTIN_MODULES : List (List Char) :=
  ["assert", "async_hooks", "buffer", "child_process", "cluster", "console", "constants",
    "crypto", "dgram", "diagnostics_channel", "dns", "domain", "events", "fs", "http", "http2",
    "https", "inspector", "module", "net", "os", "path", "perf_hooks", "process", "punycode",
    "querystring", "readline", "repl", "stream", "string_decoder", "sys", "test", "timers",
    "tls", "trace_events", "tty", "url", "util", "v8", "vm", "wasi", "worker_threads",
    "zlib"].map String.toList

/-! ## The specifier -/

def nodeScheme : List Char := ['n', 'o', 'd', 'e', ':']

/-- The trimmed specifier without its `node:`. -/
def moduleName (spec : List Char) : List Char :=
  (stripPrefix nodeScheme (trimChars spec)).getD (trimChars spec)

/-- `name.split('/').next()`. -/
def packageOf (name : List Char) : List Char := name.takeWhile (· != '/')

def isRelativeName (name : List Char) : Bool :=
  ['.', '/'].isPrefixOf name || ['.', '.', '/'].isPrefixOf name

/-! ## The lookup ladder -/

def jsSuffix : List Char := ['.', 'j', 's']

def indexJs : Component := "index.js".toList

def packageJson : Component := "package.json".toList

def nodeModules : Component := "node_modules".toList

/-- `read_package_main`. -/
def readPackageMain (tree : ModuleTree) (manifestMain : ManifestMain) (manifest : PathText) :
    Option (List Char) := do
  let file ← (tree.canonicalize manifest).bind tree.fileAt
  let raw ← file.content.toOption
  let main ← manifestMain raw
  if main = [] ∨ ['.', '.'] <:+: main ∨ '\\' ∈ main then none else some main

/-- What a manifest's `main` resolves to. -/
def resolveMain (tree : ModuleTree) (target : PathText) (main : List Char) : Option PathText :=
  let main_path := join target main
  if tree.isFile main_path then some main_path
  else
    match fileName main_path with
    | none => none
    | some main_name =>
      if tree.isFile (withFileName main_path (main_name ++ jsSuffix)) then
        some (withFileName main_path (main_name ++ jsSuffix))
      else if tree.isFile (join main_path indexJs) then some (join main_path indexJs)
      else none

/-- `resolve_module_file`. -/
def resolveModuleFile (tree : ModuleTree) (manifestMain : ManifestMain) (target : PathText) :
    Option PathText :=
  if tree.isFile target then some target
  else
    match fileName target with
    | none => none
    | some file_name =>
      if tree.isFile (withFileName target (file_name ++ jsSuffix)) then
        some (withFileName target (file_name ++ jsSuffix))
      else if tree.isDir target then
        if tree.isFile (join target indexJs) then some (join target indexJs)
        else if tree.isFile (join target packageJson) then
          (readPackageMain tree manifestMain (join target packageJson)).bind
            (resolveMain tree target)
        else none
      else none

/-! ## Reading -/

/-- `read_file`. -/
def readFile (tree : ModuleTree) (path : List Component) : Except RequireError (List Char) :=
  match tree.fileAt path with
  | none      => .error (.unreadable path [])
  | some file => file.content.mapError (.unreadable path)

/-- `read_source`: the cache is keyed by the canonical path. -/
def readSource (tree : ModuleTree) (state : RequireState) (path : List Component) :
    Except RequireError (List Char) × RequireState :=
  let mtime := (tree.fileAt path).bind SourceFile.mtime
  match state.source_cache with
  | none => (readFile tree path, state)
  | some cache =>
    match (cache path).filter fun hit => hit.mtime = mtime with
    | some hit => (.ok hit.source, state)
    | none =>
      match readFile tree path with
      | .error e   => (.error e, state)
      | .ok source =>
        (.ok source,
          { state with source_cache := some (Function.update cache path (some ⟨source, mtime⟩)) })

/-- `module_descriptor`. -/
def moduleDescriptor (tree : ModuleTree) (state : RequireState) (spec : List Char)
    (root canonical : List Component) (candidate : PathText) :
    Except RequireError Descriptor × RequireState :=
  match readSource tree state canonical with
  | (.error e, state) => (.error e, state)
  | (.ok source, state) =>
    let state := { state with budget := state.budget + byteLength source }
    if state.budget > REQUIRE_MAX_TOTAL_BYTES then (.error (.overBudget spec), state)
    else
      (.ok (.module
        { key := canonical
          file := candidate
          dir := (components candidate).dropLast
          base := if root <+: canonical.dropLast then canonical.dropLast.drop root.length else []
          source := source }), state)

/-- The directories a name is looked up in, in order. -/
def searchRoots (root : PathText) (name : List Char) (base : Option (List Char)) :
    List PathText :=
  let base_dir :=
    match base.filter (· ≠ []) with
    | some base => join root base
    | none      => root
  [if isRelativeName name then base_dir else root, join root nodeModules]

/-- `resolve_local_module`: the first file found decides. -/
def resolveLocalModule (tree : ModuleTree) (manifestMain : ManifestMain) (state : RequireState)
    (spec name : List Char) (base : Option (List Char)) :
    Except RequireError Descriptor × RequireState :=
  match tree.canonicalize state.modules_root with
  | none => (.error (.noModulesDir spec), state)
  | some root =>
    match (searchRoots state.modules_root name base).findSome? fun dir =>
        resolveModuleFile tree manifestMain (join dir name) with
    | none => (.error (.notFound spec (searchRoots state.modules_root name base)), state)
    | some candidate =>
      match tree.canonicalize candidate with
      | none => (.error (.unresolved spec candidate), state)
      | some canonical =>
        if root <+: canonical then moduleDescriptor tree state spec root canonical candidate
        else (.error (.escapes spec), state)

/-- `resolve_impl`; `none` stands for an argument that is not a string. -/
def resolveImpl (tree : ModuleTree) (manifestMain : ManifestMain) (state : RequireState)
    (spec base : Option (List Char)) : Except RequireError Descriptor × RequireState :=
  match spec with
  | none => (.error .notString, state)
  | some spec =>
    if Char.ofNat 0 ∈ spec then (.error (.nul spec), state)
    else if '\\' ∈ spec then (.error (.backslash spec), state)
    else if moduleName spec = [] then (.error .empty, state)
    -- the banner wins over polyfills and files
    else if packageOf (moduleName spec) ∈ state.forbidden then
      (.error (.forbidden spec (packageOf (moduleName spec))), state)
    else if packageOf (moduleName spec) ∈ BUILTIN_MODULES then
      if packageOf (moduleName spec) = "crypto".toList then (.ok .crypto, state)
      else (.error (.builtin spec (packageOf (moduleName spec))), state)
    else resolveLocalModule tree manifestMain state spec (moduleName spec) base

/-! ## Renders -/

/-- What happens to the loader over time. -/
inductive Call : Type where
  /-- A new render: a fresh budget over the engine's cache. -/
  | render
  | require (spec base : Option (List Char))

/-- `install`, for the first render. -/
def install (options : RequireOptions) (cache : Bool) : RequireState where
  modules_root := options.modules_dir
  forbidden := options.forbidden
  source_cache := if cache then some fun _ => none else none
  budget := 0

def callStep (tree : ModuleTree) (manifestMain : ManifestMain) (state : RequireState) :
    Call → Option RequireState
  | .render            => some { state with budget := 0 }
  | .require spec base => some (resolveImpl tree manifestMain state spec base).2

end Wallermax.Templates
