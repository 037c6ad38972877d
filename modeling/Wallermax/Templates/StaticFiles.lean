import Wallermax.Templates.Containment

/-!
# The static services behind the middleware

The main tree, the CMS host's shared assets and a tenant's tree, each built on
`ServeDir` and `ServeFile`, which are parameters here: what is used of them is
their documented mapping of a request path to a file (`Documented`). The
middleware decides on the decoded text of a path that it names a template;
`ServeDir` maps the same path to a file by its components. Where the two
disagree, a template's source is served as it is.
-/

namespace Wallermax.Templates

open Wallermax.Base
open Wallermax.Base.PathText
open Wallermax.Accounts

/-! ## The file services -/

inductive Served : Type where
  | file (path : List Component)
  | redirect
  | miss
deriving DecidableEq

def Served.answer : Served → Answer
  | .file path => .file path
  | .redirect => .redirect
  | .miss => .notFound

def indexHtml : Component := ['i', 'n', 'd', 'e', 'x', '.', 'h', 't', 'm', 'l']

/-- `ServeDir` decodes the path, ignores empty and `.` segments, and rejects
`..` and text that is not UTF-8. -/
def dirPath (path : PathText) : Option (List Component) :=
  (percentText? path).bind fun decoded =>
    if ['.', '.'] ∈ segments decoded then none else some (components decoded)

/-- The documented behaviour of `ServeDir` and `ServeFile`. -/
structure Documented (serveDir : FileTree → Root → PathText → Served)
    (serveFile : FileTree → List Component → Served) : Prop where
  rejected : ∀ tree root path, dirPath path = none → serveDir tree root path = .miss
  file : ∀ tree root path names, dirPath path = some names →
    tree.isFile (components root.path ++ names) = true →
    serveDir tree root path = .file (components root.path ++ names)
  directory : ∀ tree root path names, dirPath path = some names →
    tree.isDir (components root.path ++ names) = true →
    serveDir tree root path =
      if path.getLast? = some '/' then
        if tree.isFile (components root.path ++ names ++ [indexHtml]) then
          .file (components root.path ++ names ++ [indexHtml])
        else .miss
      else .redirect
  missing : ∀ tree root path names, dirPath path = some names →
    tree.isFile (components root.path ++ names) = false →
    tree.isDir (components root.path ++ names) = false → serveDir tree root path = .miss
  single : ∀ tree path, serveFile tree path = if tree.isFile path then .file path else .miss

/-! ## The trees -/

/-- The `[static]` section, its root the main organization's. -/
structure StaticConfig : Type where
  enabled : Bool
  root : Root
  index_file : Component

def favicon : PathText := ['/', 'f', 'a', 'v', 'i', 'c', 'o', 'n', '.', 'i', 'c', 'o']

def robots : PathText := ['/', 'r', 'o', 'b', 'o', 't', 's', '.', 't', 'x', 't']

def assets : PathText := ['/', 'a', 's', 's', 'e', 't', 's', '/']

/-- `is_shared_asset_path`: on the path as it was sent. -/
def isSharedAssetPath (path : PathText) : Bool :=
  !endsWith jhs path && (path == favicon || path == robots || assets.isPrefixOf path)

section Trees

variable (serveDir : FileTree → Root → PathText → Served)
  (serveFile : FileTree → List Component → Served)

/-- The main tree; without `[static]`, `GET /` is the service index. -/
def mainTree (config : StaticConfig) (tree : FileTree) (path : PathText) : Answer :=
  if !config.enabled then if path = ['/'] then .other else .notFound
  else if path = ['/'] then
    (serveFile tree (components config.root.path ++ [config.index_file])).answer
  else (serveDir tree config.root path).answer

/-- The CMS tree borrows the shared assets. -/
def cmsTree (config : StaticConfig) (tree : FileTree) (path : PathText) : Answer :=
  if config.enabled && isSharedAssetPath path then (serveDir tree config.root path).answer
  else .notFound

/-- A tenant's tree; its misses fall through to the shared assets. -/
def tenantTree (config : StaticConfig) (root : Root) (tree : FileTree) (path : PathText) :
    Answer :=
  if path = ['/'] then
    (serveFile tree (components root.path ++ [config.index_file])).answer
  else match serveDir tree root path with
  | .miss =>
      -- the shared layer follows the `[static]` switch
      if isSharedAssetPath path && config.enabled then
        (serveDir tree config.root path).answer
      else .notFound
  | served => served.answer

/-- A server: which of the two route trees it was booted with. -/
structure Server : Type where
  single_host : Bool
  files : StaticConfig
  views_dir : Root

def Server.engine (server : Server) : TemplateEngine where
  static_root := if server.files.enabled then some server.files.root else none
  views_dir := server.views_dir

/-- The tree behind the middleware. -/
def dispatch (server : Server) (tree : FileTree) (host : HostClass) (path : PathText) :
    Answer :=
  if server.single_host then mainTree serveDir serveFile server.files tree path
  else match host with
  | .cms => cmsTree serveDir server.files tree path
  | .main => mainTree serveDir serveFile server.files tree path
  | .tenant root => tenantTree serveDir serveFile server.files root tree path

/-- The composed stack. -/
def respond (server : Server) (tree : FileTree) (bindings : List Binding)
    (default_page : Bool) (request : Request) : Response :=
  run tree (some server.engine) bindings default_page request
    (dispatch serveDir serveFile server tree (classify request.host bindings) request.path)

end Trees

/-- The file's name ends in `.jhs`. -/
def isSource (path : List Component) : Bool := path.getLast?.any (endsWith jhs)

/-! ## Which requests the middleware takes -/

/-- The middleware renders a file under `root` for this decoded path. -/
def TakenUnder (tree : FileTree) (root : Root) (decoded : PathText) : Prop :=
  '\\' ∉ decoded ∧
    ((endsWith jhs decoded = true ∧
        tree.isFile (components (join root.path (trimLeadingSlash decoded))) = true) ∨
      (decoded.getLast? = some '/' ∧
        tree.isFile (components root.path ++ components decoded ++ [indexJhs]) = true))

/-- The spelling the middleware recognises: no backslash, the extension at the
very end, and one leading slash (or a file where the absolute path points). -/
def Spelled (tree : FileTree) (decoded : PathText) : Prop :=
  '\\' ∉ decoded ∧ endsWith jhs decoded = true ∧
    (isAbsolute (trimLeadingSlash decoded) = true →
      tree.isFile (components decoded) = true)

/-- `ServeDir` maps the path to a template under `root`. -/
def SourceAt (tree : FileTree) (root : Root) (path : PathText) : Prop :=
  ∃ names, dirPath path = some names ∧
    tree.isFile (components root.path ++ names) = true ∧
    isSource (components root.path ++ names) = true

theorem dirPath_some {path : PathText} {names : List Component}
    (h : dirPath path = some names) :
    names = components (percentText path) ∧ ['.', '.'] ∉ segments (percentText path) := by
  simp only [dirPath, Option.bind_eq_some_iff, Option.ite_none_left_eq_some,
    Option.some.injEq] at h
  obtain ⟨decoded, hdecoded, hup, rfl⟩ := h
  rw [percentText_of_strict hdecoded]
  exact ⟨rfl, hup⟩

theorem not_mem_backslash {decoded : PathText} (h : isSafeRelative decoded = true) :
    '\\' ∉ decoded := by
  rw [isSafeRelative, Bool.and_eq_true] at h
  simpa using h.1

theorem isSafeRelative_iff {decoded : PathText} (h : ['.', '.'] ∉ segments decoded) :
    isSafeRelative decoded = true ↔ '\\' ∉ decoded := by
  have hall : ((segments decoded).all fun segment => segment != ['.', '.']) = true := by
    rw [List.all_eq_true]
    intro s hs
    rw [bne_iff_ne]
    rintro rfl
    exact h hs
  simp [isSafeRelative, hall]

/-- **Agreement of the two readings.** Where `ServeDir` finds a template under a
root, the middleware renders from that root exactly the paths it recognises. -/
theorem takenUnder_iff_spelled {tree : FileTree} {root : Root} {path : PathText}
    (h : SourceAt tree root path) :
    TakenUnder tree root (percentText path) ↔ Spelled tree (percentText path) := by
  obtain ⟨names, hnames, hfile, _⟩ := h
  obtain ⟨rfl, _⟩ := dirPath_some hnames
  -- a file has no `index.jhs` below it
  have hindex : tree.isFile (components root.path ++ components (percentText path) ++
      [indexJhs]) = false := by
    rw [← Bool.not_eq_true]
    intro hbelow
    cases tree.leaf hfile hbelow
  simp only [TakenUnder, Spelled, hindex, Bool.false_eq_true, and_false, or_false]
  refine and_congr_right fun _ => and_congr_right fun _ => ?_
  rw [components_join, components_trimLeadingSlash]
  split
  · rename_i habs
    simp [habs]
  · rename_i hrel
    simp [hrel, hfile]

/-- A bootstrap-less host table classifies nothing. -/
theorem classify_nil (host : Option String) : classify host [] = .main := by
  cases host <;> rfl

/-- The middleware answers the request itself. -/
def Intercepted (tree : FileTree) (engine : TemplateEngine) (bindings : List Binding)
    (default_page : Bool) (request : Request) : Prop :=
  let decoded := percentText request.path
  let host := classify request.host bindings
  isSafeRelative decoded = true ∧
    ((host.isCms = false ∧
        ∃ root, renderRoot engine host = some root ∧ TakenUnder tree root decoded) ∨
      (decoded = ['/'] ∧ (bindings = [] ∨ host.isCms = true) ∧ default_page = true))

section Run

variable {tree : FileTree} {engine : TemplateEngine} {bindings : List Binding}
  {default_page : Bool} {request : Request}

theorem explicitCandidate_none {host : HostClass} {decoded : PathText}
    (h : explicitCandidate tree engine host decoded = none) {root : Root}
    (hroot : renderRoot engine host = some root) (hcms : host.isCms = false)
    (hjhs : endsWith jhs decoded = true) :
    tree.isFile (components (join root.path (trimLeadingSlash decoded))) = false := by
  rw [← Bool.not_eq_true]
  intro hfile
  have hsome := explicitCandidate_some.mpr ⟨root, hroot, hjhs, hcms, rfl, hfile⟩
  rw [h] at hsome
  cases hsome

theorem directoryCandidate_none {vhosts : Bool} {host : HostClass} {decoded : PathText}
    (h : directoryCandidate tree engine vhosts host decoded = none) {root : Root}
    (hroot : renderRoot engine host = some root) (hcms : host.isCms = false)
    (hlast : decoded.getLast? = some '/') :
    tree.isFile (components root.path ++ components decoded ++ [indexJhs]) = false := by
  rw [← Bool.not_eq_true, ← components_directoryIndexJhs]
  intro hfile
  have hsome : directoryCandidate tree engine vhosts host decoded = some _ :=
    directoryCandidate_some.mpr ⟨root, hroot, hlast, .inr hcms, rfl, hfile⟩
  rw [h] at hsome
  cases hsome

/-- What is passed on is what the pipeline answered. -/
theorem run_passed {next answer : Answer}
    (h : run tree (some engine) bindings default_page request next = .passed answer) :
    next = answer := by
  simp only [run] at h
  repeat' split at h
  all_goals first | exact Response.passed.inj h | cases h

/-- What the middleware answers itself is not passed on. -/
theorem not_passed_of_intercepted (hmethod : request.method ≠ .other) {next answer : Answer}
    (h : Intercepted tree engine bindings default_page request) :
    run tree (some engine) bindings default_page request next ≠ .passed answer := by
  obtain ⟨hsafe, hcase⟩ := h
  intro hrun
  simp only [run, if_neg hmethod] at hrun
  rw [hsafe] at hrun
  simp only [Bool.not_true, Bool.false_eq_true, if_false] at hrun
  split at hrun
  · cases hrun
  · rename_i hexplicit
    rcases hcase with ⟨hcms, root, hroot, _, hjhs | hlast⟩ | ⟨hslash, hhost, hpage⟩
    · have hmissing := explicitCandidate_none hexplicit hroot hcms hjhs.1
      rw [hjhs.2] at hmissing
      cases hmissing
    · split at hrun
      · cases hrun
      · split at hrun
        · cases hrun
        · rename_i hdirectory
          have hmissing := directoryCandidate_none hdirectory hroot hcms hlast.1
          rw [hlast.2] at hmissing
          cases hmissing
    · rw [if_pos ⟨hslash, by simpa using hhost, hpage⟩] at hrun
      cases hrun

section NotIntercepted

variable (hnot : ¬ Intercepted tree engine bindings default_page request)
  (hsafe : isSafeRelative (percentText request.path) = true)

include hnot hsafe

theorem explicitCandidate_of_not : explicitCandidate tree engine
    (classify request.host bindings) (percentText request.path) = none := by
  have hslash := not_mem_backslash hsafe
  rw [Option.eq_none_iff_forall_ne_some]
  intro candidate hc
  obtain ⟨root, hroot, hjhs, hcms, rfl, hfile⟩ := explicitCandidate_some.mp hc
  exact hnot ⟨hsafe, .inl ⟨hcms, root, hroot, hslash, .inl ⟨hjhs, hfile⟩⟩⟩

theorem directoryCandidate_of_not : directoryCandidate tree engine (!bindings.isEmpty)
    (classify request.host bindings) (percentText request.path) = none := by
  have hslash := not_mem_backslash hsafe
  rw [Option.eq_none_iff_forall_ne_some]
  intro candidate hc
  obtain ⟨root, hroot, hlast, hhost, rfl, hfile⟩ := directoryCandidate_some.mp hc
  rw [components_directoryIndexJhs] at hfile
  -- without bindings no host is the CMS host
  have hcms : (classify request.host bindings).isCms = false := by
    rcases hhost with hempty | hcms
    · obtain rfl : bindings = [] := by simpa using hempty
      rw [classify_nil]
      rfl
    · exact hcms
  exact hnot ⟨hsafe, .inl ⟨hcms, root, hroot, hslash, .inr ⟨hlast, hfile⟩⟩⟩

end NotIntercepted

/-- **A served file gets past the middleware** exactly when the middleware does
not answer the request itself. -/
theorem run_file_iff (hget : request.method = .get) (file : List Component) :
    run tree (some engine) bindings default_page request (.file file) =
        .passed (.file file) ↔
      ¬ Intercepted tree engine bindings default_page request := by
  have hmethod : request.method ≠ .other := by
    rw [hget]
    decide
  constructor
  · intro hrun hintercepted
    exact not_passed_of_intercepted hmethod hintercepted hrun
  · intro hnot
    simp only [run, if_neg hmethod]
    by_cases hsafe : isSafeRelative (percentText request.path) = true
    · have hexplicit := explicitCandidate_of_not hnot hsafe
      have hdirectory := directoryCandidate_of_not hnot hsafe
      rw [hsafe, hexplicit, hdirectory]
      simp only [Bool.not_true, Bool.false_eq_true, if_false, reduceCtorEq, false_and]
      rw [if_neg]
      rintro ⟨hroot, hhost, hpage⟩
      exact hnot ⟨hsafe, .inr ⟨hroot, by simpa using hhost, hpage⟩⟩
    · rw [if_pos (by simpa using hsafe)]

end Run

/-! ## Which requests find a template -/

/-- The tree's answer is a template's source. -/
def Answer.IsSource (answer : Answer) : Prop :=
  ∃ file, answer = .file file ∧ isSource file = true

/-- The index file is there and is a template. -/
def IndexAt (tree : FileTree) (root : Root) (index_file : Component) : Prop :=
  tree.isFile (components root.path ++ [index_file]) = true ∧ endsWith jhs index_file = true

/-- `ServeDir` finds nothing under the root: no file, and no directory either,
unless it is asked for with its slash and holds no `index.html`. -/
def Missed (tree : FileTree) (root : Root) (path : PathText) : Prop :=
  ∀ names, dirPath path = some names →
    tree.isFile (components root.path ++ names) = false ∧
    (tree.isDir (components root.path ++ names) = true →
      path.getLast? = some '/' ∧
      tree.isFile (components root.path ++ names ++ [indexHtml]) = false)

theorem isSource_append_singleton (names : List Component) (name : Component) :
    isSource (names ++ [name]) = endsWith jhs name := by
  simp [isSource]

@[simp] theorem isSource_indexHtml (names : List Component) :
    isSource (names ++ [indexHtml]) = false := by
  rw [isSource_append_singleton]
  decide

@[simp] theorem answer_eq_file {served : Served} {file : List Component} :
    served.answer = .file file ↔ served = .file file := by
  cases served <;> simp [Served.answer]

section Found

variable {serveDir : FileTree → Root → PathText → Served}
  {serveFile : FileTree → List Component → Served}

theorem serveDir_source (h : Documented serveDir serveFile) (tree : FileTree) (root : Root)
    (path : PathText) :
    (serveDir tree root path).answer.IsSource ↔ SourceAt tree root path := by
  simp only [Answer.IsSource, answer_eq_file]
  cases hnames : dirPath path with
  | none =>
      rw [h.rejected tree root path hnames]
      simp [SourceAt, hnames]
  | some names =>
      by_cases hfile : tree.isFile (components root.path ++ names) = true
      · rw [h.file tree root path names hnames hfile]
        simp [SourceAt, hnames, hfile]
      · have hnot : ¬ SourceAt tree root path := by
          rintro ⟨names', hnames', hfile', _⟩
          rw [hnames] at hnames'
          cases hnames'
          exact hfile hfile'
        simp only [hnot, iff_false]
        rintro ⟨file, hserved, hsource⟩
        rw [Bool.not_eq_true] at hfile
        cases hdir : tree.isDir (components root.path ++ names) with
        | true =>
            -- a directory's file is its `index.html`
            rw [h.directory tree root path names hnames hdir] at hserved
            repeat' split at hserved
            all_goals cases hserved
            rw [isSource_indexHtml] at hsource
            cases hsource
        | false =>
            rw [h.missing tree root path names hnames hfile hdir] at hserved
            cases hserved

theorem serveFile_source (h : Documented serveDir serveFile) (tree : FileTree) (root : Root)
    (index_file : Component) :
    (serveFile tree (components root.path ++ [index_file])).answer.IsSource ↔
      IndexAt tree root index_file := by
  simp only [Answer.IsSource, answer_eq_file, h.single, IndexAt]
  split
  · rename_i hfile
    simp [hfile, isSource_append_singleton]
  · rename_i hfile
    simp [hfile]

theorem serveDir_miss (h : Documented serveDir serveFile) (tree : FileTree) (root : Root)
    (path : PathText) : serveDir tree root path = .miss ↔ Missed tree root path := by
  cases hnames : dirPath path with
  | none => simp [Missed, hnames, h.rejected tree root path hnames]
  | some names =>
      simp only [Missed, hnames, Option.some.injEq, forall_eq']
      cases hfile : tree.isFile (components root.path ++ names) with
      | true => simp [h.file tree root path names hnames hfile]
      | false =>
          cases hdir : tree.isDir (components root.path ++ names) with
          | true =>
              rw [h.directory tree root path names hnames hdir]
              split
              · rename_i hlast
                simp [hlast]
              · rename_i hlast
                simp [hlast]
          | false => simp [h.missing tree root path names hnames hfile hdir]

@[simp] theorem not_isSource_notFound : ¬ Answer.IsSource .notFound := by
  rintro ⟨_, h, _⟩
  cases h

theorem mainTree_source (h : Documented serveDir serveFile) (config : StaticConfig)
    (tree : FileTree) (path : PathText) :
    (mainTree serveDir serveFile config tree path).IsSource ↔
      config.enabled = true ∧
        if path = ['/'] then IndexAt tree config.root config.index_file
        else SourceAt tree config.root path := by
  cases henabled : config.enabled with
  | false =>
      simp only [mainTree, henabled, Bool.not_false, if_true, Bool.false_eq_true, false_and,
        iff_false]
      rintro ⟨_, heq, _⟩
      split at heq <;> cases heq
  | true =>
      simp only [mainTree, henabled, Bool.not_true, Bool.false_eq_true, if_false, true_and]
      split
      · exact serveFile_source h tree config.root config.index_file
      · exact serveDir_source h tree config.root path

theorem cmsTree_source (h : Documented serveDir serveFile) (config : StaticConfig)
    (tree : FileTree) (path : PathText) :
    (cmsTree serveDir config tree path).IsSource ↔
      config.enabled = true ∧ isSharedAssetPath path = true ∧
        SourceAt tree config.root path := by
  rw [cmsTree]
  split
  · rename_i hshared
    rw [Bool.and_eq_true] at hshared
    rw [serveDir_source h]
    simp [hshared]
  · rename_i hshared
    rw [Bool.and_eq_true] at hshared
    simp only [not_isSource_notFound, false_iff]
    rintro ⟨henabled, hpath, _⟩
    exact hshared ⟨henabled, hpath⟩

theorem tenantTree_source (h : Documented serveDir serveFile) (config : StaticConfig)
    (root : Root) (tree : FileTree) (path : PathText) :
    (tenantTree serveDir serveFile config root tree path).IsSource ↔
      if path = ['/'] then IndexAt tree root config.index_file
      else SourceAt tree root path ∨
        (Missed tree root path ∧ config.enabled = true ∧ isSharedAssetPath path = true ∧
          SourceAt tree config.root path) := by
  rw [tenantTree]
  split
  · exact serveFile_source h tree root config.index_file
  · rw [← serveDir_source h tree root path, ← serveDir_miss h tree root path]
    split
    · rename_i hmiss
      have hcms := cmsTree_source h config tree path
      rw [cmsTree, Bool.and_comm] at hcms
      rw [hmiss, hcms]
      simp [Served.answer]
    · rename_i hserved
      constructor
      · exact .inl
      · rintro (hsource | ⟨hmiss, _⟩)
        · exact hsource
        · exact absurd hmiss hserved

end Found

/-! ## Raw sources -/

section Intercept

variable {tree : FileTree} {engine : TemplateEngine} {bindings : List Binding}
  {default_page : Bool} {request : Request}

/-- Only `/` decodes to `/`. -/
theorem decoded_slash_iff (request : Request) :
    percentText request.path = ['/'] ↔ request.path = ['/'] := by
  obtain ⟨rest, hpath⟩ : ∃ rest, request.path = '/' :: rest := by
    have hrooted := request.rooted
    cases hpath : request.path with
    | nil =>
        rw [hpath] at hrooted
        cases hrooted
    | cons c rest =>
        rw [hpath] at hrooted
        obtain rfl : c = '/' := by simpa [isAbsolute] using hrooted
        exact ⟨rest, rfl⟩
  simp only [hpath, percentText_slash, List.cons.injEq, true_and]
  constructor
  · intro hrest
    by_contra hne
    exact percentText_ne_nil hne hrest
  · rintro rfl
    rfl

theorem takenUnder_slash (tree : FileTree) (root : Root) :
    TakenUnder tree root ['/'] ↔
      tree.isFile (components root.path ++ [indexJhs]) = true := by
  have hcomp : components ['/'] = [] := by decide
  have hjhs : endsWith jhs ['/'] = false := by decide
  simp [TakenUnder, hjhs, hcomp]

theorem intercepted_slash (h : request.path = ['/']) :
    Intercepted tree engine bindings default_page request ↔
      ((classify request.host bindings).isCms = false ∧
        ∃ root, renderRoot engine (classify request.host bindings) = some root ∧
          tree.isFile (components root.path ++ [indexJhs]) = true) ∨
      ((bindings = [] ∨ (classify request.host bindings).isCms = true) ∧
        default_page = true) := by
  have hsafe : isSafeRelative ['/'] = true := by decide
  simp only [Intercepted, (decoded_slash_iff request).mpr h, hsafe, true_and,
    takenUnder_slash]

/-- Off the homepage the middleware answers what it takes under the host's root. -/
theorem intercepted_iff (h : request.path ≠ ['/']) {root : Root}
    (hsource : SourceAt tree root request.path) :
    Intercepted tree engine bindings default_page request ↔
      (classify request.host bindings).isCms = false ∧
        ∃ root, renderRoot engine (classify request.host bindings) = some root ∧
          TakenUnder tree root (percentText request.path) := by
  obtain ⟨names, hnames, _⟩ := hsource
  have hup := (dirPath_some hnames).2
  simp only [Intercepted, decoded_slash_iff, h, false_and, or_false]
  constructor
  · exact And.right
  · rintro ⟨hcms, root, hroot, htaken⟩
    exact ⟨(isSafeRelative_iff hup).mpr htaken.1, hcms, root, hroot, htaken⟩

end Intercept

/-- A template's source reaches the client. One case per route tree and host. -/
def Exposed (server : Server) (tree : FileTree) (bindings : List Binding)
    (default_page : Bool) (request : Request) : Prop :=
  let path := request.path
  let decoded := percentText path
  let files := server.files
  match server.single_host, classify request.host bindings with
  | false, .cms =>
      -- the shared assets are guarded on the path as sent
      files.enabled = true ∧ isSharedAssetPath path = true ∧ SourceAt tree files.root path
  | false, .tenant root =>
      if path = ['/'] then
        IndexAt tree root files.index_file ∧
          tree.isFile (components root.path ++ [indexJhs]) = false
      else
        (SourceAt tree root path ∧ ¬ Spelled tree decoded) ∨
        (Missed tree root path ∧ files.enabled = true ∧ isSharedAssetPath path = true ∧
          SourceAt tree files.root path ∧ ¬ TakenUnder tree root decoded)
  | true, .cms =>
      files.enabled = true ∧
        if path = ['/'] then IndexAt tree files.root files.index_file ∧ default_page = false
        else SourceAt tree files.root path
  | true, .tenant root =>
      -- rendered from one root, served from another
      files.enabled = true ∧
        if path = ['/'] then
          IndexAt tree files.root files.index_file ∧
            tree.isFile (components root.path ++ [indexJhs]) = false
        else SourceAt tree files.root path ∧ ¬ TakenUnder tree root decoded
  | _, .main =>
      files.enabled = true ∧
        if path = ['/'] then
          IndexAt tree files.root files.index_file ∧
            tree.isFile (components files.root.path ++ [indexJhs]) = false ∧
            ¬ (bindings = [] ∧ default_page = true)
        else SourceAt tree files.root path ∧ ¬ Spelled tree decoded

section Theorem

variable {serveDir : FileTree → Root → PathText → Served}
  {serveFile : FileTree → List Component → Served}

theorem respond_source (server : Server) (tree : FileTree) (bindings : List Binding)
    (default_page : Bool) {request : Request} (hget : request.method = .get) :
    (∃ file, respond serveDir serveFile server tree bindings default_page request =
        .passed (.file file) ∧ isSource file = true) ↔
      (dispatch serveDir serveFile server tree (classify request.host bindings)
        request.path).IsSource ∧
      ¬ Intercepted tree server.engine bindings default_page request := by
  constructor
  · rintro ⟨file, hresp, hsource⟩
    have hnext := run_passed hresp
    refine ⟨⟨file, hnext, hsource⟩, ?_⟩
    rw [respond, hnext] at hresp
    exact (run_file_iff hget file).mp hresp
  · rintro ⟨⟨file, hnext, hsource⟩, hnot⟩
    refine ⟨file, ?_, hsource⟩
    rw [respond, hnext]
    exact (run_file_iff hget file).mpr hnot

theorem renderRoot_main {server : Server} (h : server.files.enabled = true) (root : Root) :
    renderRoot server.engine .main = some root ↔ server.files.root = root := by
  simp [renderRoot, Server.engine, h]

/-- The homepage's source. -/
theorem exposed_home (h : Documented serveDir serveFile) (server : Server) (tree : FileTree)
    (bindings : List Binding) (default_page : Bool) {request : Request}
    (hpath : request.path = ['/']) :
    (dispatch serveDir serveFile server tree (classify request.host bindings)
        request.path).IsSource ∧
      ¬ Intercepted tree server.engine bindings default_page request ↔
      Exposed server tree bindings default_page request := by
  have hshared : isSharedAssetPath ['/'] = false := by decide
  rw [intercepted_slash hpath]
  cases hhost : classify request.host bindings with
  | cms =>
      cases hsingle : server.single_host with
      | true =>
          simp [Exposed, dispatch, hhost, hsingle, hpath, mainTree_source h, HostClass.isCms,
            and_assoc]
      | false =>
          simp [Exposed, dispatch, hhost, hsingle, hpath, cmsTree_source h, hshared]
  | main =>
      have hdispatch : dispatch serveDir serveFile server tree .main request.path =
          mainTree serveDir serveFile server.files tree request.path := by
        simp [dispatch]
      rw [hdispatch, mainTree_source h, and_assoc]
      simp only [Exposed, hhost, hpath, if_true]
      refine and_congr_right fun henabled => and_congr_right fun _ => ?_
      simp [HostClass.isCms, renderRoot_main henabled]
  | tenant root =>
      have hne : bindings ≠ [] := by
        rintro rfl
        rw [classify_nil] at hhost
        cases hhost
      cases hsingle : server.single_host with
      | true =>
          simp [Exposed, dispatch, hhost, hsingle, hpath, mainTree_source h, HostClass.isCms,
            renderRoot, hne, and_assoc]
      | false =>
          simp [Exposed, dispatch, hhost, hsingle, hpath, tenantTree_source h,
            HostClass.isCms, renderRoot, hne]

/-- The source of any other path. -/
theorem exposed_off_home (h : Documented serveDir serveFile) (server : Server)
    (tree : FileTree) (bindings : List Binding) (default_page : Bool) {request : Request}
    (hpath : request.path ≠ ['/']) :
    (dispatch serveDir serveFile server tree (classify request.host bindings)
        request.path).IsSource ∧
      ¬ Intercepted tree server.engine bindings default_page request ↔
      Exposed server tree bindings default_page request := by
  have hpassed : ∀ {root : Root}, SourceAt tree root request.path →
      (¬ Intercepted tree server.engine bindings default_page request ↔ _) :=
    fun hsource => not_congr (intercepted_iff hpath hsource)
  cases hhost : classify request.host bindings with
  | cms =>
      -- nothing is rendered for a path of the CMS host
      rw [hhost] at hpassed
      cases hsingle : server.single_host with
      | true =>
          simp only [Exposed, dispatch, hhost, hsingle, hpath, if_true, if_false,
            mainTree_source h, and_assoc]
          refine and_congr_right fun _ => and_iff_left_of_imp fun hsource => ?_
          simp [hpassed hsource, HostClass.isCms]
      | false =>
          simp only [Exposed, dispatch, hhost, hsingle, Bool.false_eq_true, if_false,
            cmsTree_source h, and_assoc]
          refine and_congr_right fun _ => and_congr_right fun _ =>
            and_iff_left_of_imp fun hsource => ?_
          simp [hpassed hsource, HostClass.isCms]
  | main =>
      rw [hhost] at hpassed
      have hdispatch : dispatch serveDir serveFile server tree .main request.path =
          mainTree serveDir serveFile server.files tree request.path := by
        simp [dispatch]
      rw [hdispatch, mainTree_source h, and_assoc]
      simp only [Exposed, hhost, hpath, if_false]
      refine and_congr_right fun henabled => and_congr_right fun hsource => ?_
      rw [hpassed hsource, ← takenUnder_iff_spelled hsource]
      simp [HostClass.isCms, renderRoot_main henabled]
  | tenant root =>
      rw [hhost] at hpassed
      have htaken : ∀ {served : Root}, SourceAt tree served request.path →
          (¬ Intercepted tree server.engine bindings default_page request ↔
            ¬ TakenUnder tree root (percentText request.path)) := by
        intro served hsource
        rw [hpassed hsource]
        simp [HostClass.isCms, renderRoot]
      cases hsingle : server.single_host with
      | true =>
          simp only [Exposed, dispatch, hhost, hsingle, hpath, if_true, if_false,
            mainTree_source h, and_assoc]
          exact and_congr_right fun _ => and_congr_right htaken
      | false =>
          simp only [Exposed, dispatch, hhost, hsingle, hpath, Bool.false_eq_true, if_false,
            tenantTree_source h, or_and_right, and_assoc]
          refine or_congr (and_congr_right fun hsource => ?_)
            (and_congr_right fun _ => and_congr_right fun _ => and_congr_right fun _ =>
              and_congr_right htaken)
          rw [htaken hsource, takenUnder_iff_spelled hsource]

/-- **Where a source reaches the client.** No response carries a template's
source exactly when the request does not expose one. -/
theorem no_raw_source_iff (h : Documented serveDir serveFile) (server : Server)
    (tree : FileTree) (bindings : List Binding) (default_page : Bool) (request : Request)
    (hget : request.method = .get) :
    (∀ file, respond serveDir serveFile server tree bindings default_page request =
        .passed (.file file) → isSource file = false) ↔
      ¬ Exposed server tree bindings default_page request := by
  have hexposed : Exposed server tree bindings default_page request ↔
      ∃ file, respond serveDir serveFile server tree bindings default_page request =
        .passed (.file file) ∧ isSource file = true := by
    rw [respond_source server tree bindings default_page hget]
    by_cases hpath : request.path = ['/']
    · exact (exposed_home h server tree bindings default_page hpath).symm
    · exact (exposed_off_home h server tree bindings default_page hpath).symm
  rw [hexposed]
  push Not
  simp

end Theorem

/-! ## The services as documented -/

def serveDir (tree : FileTree) (root : Root) (path : PathText) : Served :=
  match dirPath path with
  | none => .miss
  | some names =>
    let file := components root.path ++ names
    if tree.isFile file then .file file
    else if tree.isDir file then
      if path.getLast? = some '/' then
        if tree.isFile (file ++ [indexHtml]) then .file (file ++ [indexHtml]) else .miss
      else .redirect
    else .miss

def serveFile (tree : FileTree) (path : List Component) : Served :=
  if tree.isFile path then .file path else .miss

theorem documented : Documented serveDir serveFile where
  rejected tree root path h := by simp [serveDir, h]
  file tree root path names h hfile := by simp [serveDir, h, hfile]
  directory tree root path names h hdir := by
    have hfile : tree.isFile (components root.path ++ names) = false := by
      rw [← Bool.not_eq_true]
      intro hfile
      rw [tree.disjoint _ hfile] at hdir
      cases hdir
    simp [serveDir, h, hfile, hdir]
  missing tree root path names h hfile hdir := by simp [serveDir, h, hfile, hdir]
  single _ _ := rfl

/-- The static server over `/srv/public`, with or without host bindings. -/
def publicServer (single_host : Bool) : Server where
  single_host := single_host
  files := { enabled := true, root := publicRoot, index_file := indexHtml }
  views_dir := viewsRoot

def helloJhs : Component := ['h', 'e', 'l', 'l', 'o', '.', 'j', 'h', 's']

def helloTree : FileTree := FileTree.single (components publicRoot.path ++ [helloJhs])

/-- `GET //hello.jhs`: the middleware looks for `/hello.jhs` in the file system,
`ServeDir` for `hello.jhs` under the root. -/
def twoSlashHello : Request where
  method := .get
  host := none
  path := ['/', '/'] ++ helloJhs
  rooted := by decide

theorem hello_served_raw :
    Documented serveDir serveFile ∧
      ¬ ∀ file, respond serveDir serveFile (publicServer true) helloTree [] false
          twoSlashHello = .passed (.file file) → isSource file = false := by
  refine ⟨documented, fun hall => ?_⟩
  have hraw : respond serveDir serveFile (publicServer true) helloTree [] false
      twoSlashHello = .passed (.file (components publicRoot.path ++ [helloJhs])) := by
    decide +kernel
  have hsource := hall _ hraw
  rw [isSource_append_singleton] at hsource
  exact absurd hsource (by decide)

/-- The CMS organization's host. -/
def cmsBinding : Binding where
  hostname := "cms.test"
  organization := cmsOrganizationKey
  document_root := "/srv/cms"
  absolute := by decide

/-- `GET /assets/x%2Ejhs` on the CMS host. -/
def encodedDot : Request where
  method := .get
  host := some "cms.test"
  path := assets ++ ['x', '%', '2', 'E', 'j', 'h', 's']
  rooted := by decide

def assetTree : FileTree :=
  FileTree.single (components (publicRoot.path ++ assets) ++ [['x', '.', 'j', 'h', 's']])

/-- The guard of the shared assets sees no extension in `x%2Ejhs`. -/
theorem no_raw_source_encodedDot :
    ¬ ∀ file, respond serveDir serveFile (publicServer false) assetTree [cmsBinding] false
        encodedDot = .passed (.file file) → isSource file = false := by
  rw [no_raw_source_iff documented (publicServer false) assetTree [cmsBinding] false
    encodedDot rfl, not_not]
  have hhost : classify encodedDot.host [cmsBinding] = .cms := by
    decide +kernel
  have hnames : dirPath encodedDot.path =
      some [['a', 's', 's', 'e', 't', 's'], ['x', '.', 'j', 'h', 's']] := by
    decide +kernel
  simp only [Exposed, hhost, publicServer]
  exact ⟨trivial, by decide, _, hnames, by decide +kernel, by decide⟩

end Wallermax.Templates
