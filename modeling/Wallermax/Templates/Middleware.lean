import Wallermax.Base.Paths
import Wallermax.Base.PercentEncoding
import Wallermax.Tenants.Routing

/-!
# The templates middleware

`templates::run`: which `.jhs` file, if any, a request renders. Three branches
build a candidate path from the decoded request path and render it when the
file exists: the path itself (`explicit`), the directory's `index.jhs`
(`directory`), and after a 404 of the pipeline a file of the views directory
(`view`). A safe path has no `..` segment, yet joining it onto a root keeps it
there only while it is relative: the explicit branch strips one leading slash,
the other two strip all.
-/

namespace Wallermax.Templates

open Wallermax.Base
open Wallermax.Base.PathText
open Wallermax.Accounts

/-- A file tree without symbolic links, by components from the root. -/
structure FileTree : Type where
  isFile : List Component → Bool
  isDir : List Component → Bool
  disjoint : ∀ p, isFile p = true → isDir p = false
  parents : ∀ p q, isFile (p ++ q) = true → q ≠ [] → isDir p = true

/-- Nothing is below a file. -/
theorem FileTree.leaf (tree : FileTree) {p q : List Component} (hp : tree.isFile p = true)
    (hq : tree.isFile (p ++ q) = true) : q = [] := by
  by_contra hne
  have hdir := tree.parents p q hq hne
  rw [tree.disjoint p hp] at hdir
  cases hdir

/-- The tree that holds one file. -/
def FileTree.single (file : List Component) : FileTree where
  isFile p := p == file
  isDir p := p.isPrefixOf file && p != file
  disjoint := by
    intro p hp
    simp [beq_iff_eq.mp hp]
  parents := by
    intro p q hpq hq
    obtain rfl := beq_iff_eq.mp hpq
    simp [hq]

/-- A serving root, resolved to an absolute path at boot. -/
structure Root : Type where
  path : PathText
  absolute : isAbsolute path = true
deriving DecidableEq

/-- A host binding of the live snapshot, its document root absolute. -/
structure Binding : Type extends Tenants.HostBinding where
  absolute : isAbsolute document_root.toList = true

def Binding.root (b : Binding) : Root where
  path := b.document_root.toList
  absolute := b.absolute

/-! ## The host -/

inductive HostClass : Type where
  | cms
  | main
  | tenant (root : Root)
deriving DecidableEq

/-- `host_name`: the name without port, an IPv6 literal with its brackets. -/
def hostName (raw : String) : List Char :=
  let raw := (Tenants.trim raw).toList
  if raw.contains ']' then raw.takeWhile (· != ']') ++ [']']
  else if raw.contains ':' then (raw.reverse.dropWhile (· != ':')).tail.reverse
  else raw

/-- `eq_ignore_ascii_case`. -/
def eqIgnoreAsciiCase (s t : List Char) : Bool := s.map Char.toLower == t.map Char.toLower

/-- `vhosts::classify`; no host for a missing or duplicated header. -/
def classify (host : Option String) (bindings : List Binding) : HostClass :=
  match host with
  | none => .main
  | some raw =>
    match bindings.find? fun b => eqIgnoreAsciiCase b.hostname.toList (hostName raw) with
    | none => .main
    | some b =>
        if b.organization = cmsOrganizationKey then .cms
        else if b.organization = mainOrganizationKey then .main
        else .tenant b.root

def HostClass.isCms : HostClass → Bool
  | .cms => true
  | _ => false

/-- A host with the visitor surface: the CMS host or a tenant's. -/
def HostClass.isVisitor : HostClass → Bool
  | .main => false
  | _ => true

/-! ## Candidates -/

inductive Method : Type where
  | get
  | head
  | other
deriving DecidableEq

/-- The request's path starts with a slash. -/
structure Request : Type where
  method : Method
  host : Option String
  path : PathText
  rooted : isAbsolute path = true

structure TemplateEngine : Type where
  static_root : Option Root
  views_dir : Root

/-- The file name extension, dot included. -/
def jhs : PathText := ['.', 'j', 'h', 's']

def indexJhs : PathText := ['i', 'n', 'd', 'e', 'x', '.', 'j', 'h', 's']

def isSafeRelative (path : PathText) : Bool :=
  !path.contains '\\' && (segments path).all fun segment => segment != ['.', '.']

def trimLeadingSlash : PathText → PathText
  | '/' :: path => path
  | path => path

def directoryIndexJhs (static_root : Root) (decoded : PathText) : PathText :=
  let relative := trimSlashes decoded
  if relative = [] then join static_root.path indexJhs
  else join (join static_root.path relative) indexJhs

def adminPath : PathText := ['/', 'a', 'd', 'm', 'i', 'n']

def viewCandidates (views_dir : Root) (relative : PathText) : List PathText :=
  if relative = [] then [join views_dir.path indexJhs]
  else if endsWith jhs relative then [join views_dir.path relative]
  else [join views_dir.path (relative ++ jhs), join (join views_dir.path relative) indexJhs]

/-- The panel's own views never auto-route. -/
def viewCandidate (tree : FileTree) (views_dir : Root) (decoded : PathText) :
    Option PathText :=
  if decoded = adminPath ∨ (adminPath ++ ['/']).isPrefixOf decoded then none
  else (viewCandidates views_dir (trimSlashes decoded)).find? fun c =>
    tree.isFile (components c)

/-! ## The middleware -/

/-- What the pipeline behind the middleware answers. -/
inductive Answer : Type where
  | file (path : List Component)
  | redirect
  | notFound
  | other
deriving DecidableEq

inductive Source : Type where
  | explicit
  | directory
  | view
deriving DecidableEq

inductive Response : Type where
  | rendered (source : Source) (file : PathText)
  | defaultPage
  | passed (answer : Answer)
deriving DecidableEq

/-- `render_root`: where the host's `.jhs` files are rendered from. -/
def renderRoot (engine : TemplateEngine) : HostClass → Option Root
  | .tenant root => some root
  | _ => engine.static_root

/-- `JhsEngine::render` takes an absolute path as it is. -/
def renderPath (engine : TemplateEngine) (path : PathText) : PathText :=
  if isAbsolute path then path else join engine.views_dir.path path

/-- The explicit branch: the path names a `.jhs` file. -/
def explicitCandidate (tree : FileTree) (engine : TemplateEngine) (host : HostClass)
    (decoded : PathText) : Option PathText :=
  (renderRoot engine host).bind fun root =>
    let candidate := join root.path (trimLeadingSlash decoded)
    if endsWith jhs decoded && !host.isCms && tree.isFile (components candidate)
    then some candidate else none

/-- The directory branch: the path names a directory with an `index.jhs`. -/
def directoryCandidate (tree : FileTree) (engine : TemplateEngine) (vhosts : Bool)
    (host : HostClass) (decoded : PathText) : Option PathText :=
  (renderRoot engine host).bind fun root =>
    let candidate := directoryIndexJhs root decoded
    if decoded.getLast? = some '/' ∧ (!vhosts || !host.isCms) ∧
        tree.isFile (components candidate)
    then some candidate else none

/-- `templates::run`. `default_page` tells whether the configured page is there
to be served. -/
def run (tree : FileTree) (engine : Option TemplateEngine) (bindings : List Binding)
    (default_page : Bool) (request : Request) (next : Answer) : Response :=
  match engine with
  | none => .passed next
  | some engine =>
    let decoded := percentText request.path
    let vhosts := !bindings.isEmpty
    let host := classify request.host bindings
    if request.method = .other then .passed next
    -- what is unsafe is left to the pipeline
    else if !isSafeRelative decoded then .passed next
    else match explicitCandidate tree engine host decoded with
    | some file => .rendered .explicit (renderPath engine file)
    | none =>
      -- the configured homepage comes before the pipeline
      if decoded = ['/'] ∧ (!vhosts || host.isCms) ∧ default_page then .defaultPage
      else match directoryCandidate tree engine vhosts host decoded with
      | some file => .rendered .directory (renderPath engine file)
      | none =>
        -- the visitor hosts' misses auto-route to the views
        if next = .notFound ∧ (!vhosts || host.isVisitor) then
          match viewCandidate tree engine.views_dir decoded with
          | some file => .rendered .view (renderPath engine file)
          | none => .passed next
        else .passed next

/-! ## Where the candidates are -/

theorem not_mem_components_of_safe {path : PathText} (h : isSafeRelative path = true) :
    ['.', '.'] ∉ components path := by
  intro hmem
  rw [isSafeRelative, Bool.and_eq_true, List.all_eq_true] at h
  simpa using h.2 _ (mem_components.mp hmem).1

theorem components_trimLeadingSlash (path : PathText) :
    components (trimLeadingSlash path) = components path := by
  unfold trimLeadingSlash
  split
  · rw [components_slash_cons]
  · rfl

theorem components_indexJhs : components indexJhs = [indexJhs] := by decide

/-- The directory's `index.jhs` is inside the root. -/
theorem components_directoryIndexJhs (root : Root) (decoded : PathText) :
    components (directoryIndexJhs root decoded) =
      components root.path ++ components decoded ++ [indexJhs] := by
  have htrim : components (trimSlashes decoded) = components decoded :=
    components_trimSlashes decoded
  simp only [directoryIndexJhs]
  split
  · rename_i hnil
    rw [hnil, components_nil] at htrim
    rw [components_join_relative (by decide), components_indexJhs, ← htrim,
      List.append_nil]
  · rw [components_join_relative (by decide),
      components_join_relative (isAbsolute_trimSlashes decoded), htrim, components_indexJhs]

theorem not_mem_indexJhs : ['.', '.'] ∉ [indexJhs] := by decide

theorem below_directoryIndexJhs {root : Root} {decoded : PathText}
    (h : isSafeRelative decoded = true) : Below root.path (directoryIndexJhs root decoded) := by
  refine ⟨components decoded ++ [indexJhs], by simp, ?_, ?_⟩
  · rw [List.mem_append, not_or]
    exact ⟨not_mem_components_of_safe h, not_mem_indexJhs⟩
  · rw [components_directoryIndexJhs, List.append_assoc]

/-- A relative name with a letter in it, joined to a root, is inside the root. -/
theorem below_join {root : Root} {p : PathText} {c : Char} (hp : isAbsolute p = false)
    (hc : c ∈ p) (hslash : c ≠ '/') (hdot : c ≠ '.') (hup : ['.', '.'] ∉ components p) :
    Below root.path (join root.path p) :=
  ⟨components p, components_ne_nil_of_mem hc hslash hdot, hup, components_join_relative hp⟩

theorem mem_of_endsWith_jhs {p : PathText} (h : endsWith jhs p = true) : 'j' ∈ p :=
  (List.isSuffixOf_iff_suffix.mp h).subset (by decide)

/-- The extension makes no component `..`. -/
theorem not_mem_components_append_jhs {p : PathText} (h : ['.', '.'] ∉ components p) :
    ['.', '.'] ∉ components (p ++ jhs) := by
  obtain ⟨init, last, hp, happ⟩ := segments_append (p := p) (t := jhs) (by decide)
  intro hmem
  obtain ⟨hseg, hkept⟩ := mem_components.mp hmem
  rw [happ, List.mem_append] at hseg
  rcases hseg with hinit | hlast
  · refine h (mem_components.mpr ⟨?_, hkept⟩)
    rw [hp]
    exact List.mem_append_left _ hinit
  · -- the last component has at least the four characters of the extension
    have hlen := congrArg List.length (List.mem_singleton.mp hlast)
    simp [jhs] at hlen

/-- Every view candidate of a safe path is inside the views directory. -/
theorem below_viewCandidates {views_dir : Root} {decoded file : PathText}
    (h : isSafeRelative decoded = true)
    (hfile : file ∈ viewCandidates views_dir (trimSlashes decoded)) :
    Below views_dir.path file := by
  have hrel := isAbsolute_trimSlashes decoded
  have hup : ['.', '.'] ∉ components (trimSlashes decoded) := by
    rw [components_trimSlashes]
    exact not_mem_components_of_safe h
  unfold viewCandidates at hfile
  split at hfile
  · obtain rfl := List.mem_singleton.mp hfile
    exact below_join (c := 'i') (by decide) (by decide) (by decide) (by decide)
      (by decide)
  · split at hfile
    · rename_i hjhs
      obtain rfl := List.mem_singleton.mp hfile
      exact below_join hrel (mem_of_endsWith_jhs hjhs) (by decide) (by decide) hup
    · rename_i hne _
      simp only [List.mem_cons, List.not_mem_nil, or_false] at hfile
      rcases hfile with rfl | rfl
      · refine below_join (c := 'j') ?_ (List.mem_append_right _ (by decide)) (by decide)
          (by decide) (not_mem_components_append_jhs hup)
        cases htrim : trimSlashes decoded with
        | nil => exact absurd htrim hne
        | cons c rest =>
            rw [htrim] at hrel
            exact hrel
      · refine ⟨components (trimSlashes decoded) ++ [indexJhs], by simp, ?_, ?_⟩
        · rw [List.mem_append, not_or]
          exact ⟨hup, not_mem_indexJhs⟩
        · rw [components_join_relative (by decide), components_join_relative hrel,
            components_indexJhs, List.append_assoc]

end Wallermax.Templates
