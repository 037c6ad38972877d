import Wallermax.Base.Paths

/-!
# A file tree with symbolic links

Resolving a path walks its segments from the root or the working directory.
Every segment, also an empty one or `.`, asks that what was reached so far is a
directory; a link is replaced by its target, and a path may pass 40 of them.
The canonical path is where the walk ends.
-/

namespace Wallermax.Base

inductive LinkNode (α : Type) : Type where
  | file (content : α)
  | dir
  | link (target : PathText)

structure LinkTree (α : Type) : Type where
  node : List Component → Option (LinkNode α)
  cwd : List Component

namespace LinkTree

open PathText

variable {α : Type} (tree : LinkTree α)

/-- The walk along the segments, given how it goes on behind a link. -/
def walkWith (onLink : List Component → List Component → Option (List Component)) :
    List Component → List Component → Option (List Component)
  | here, [] => some here
  | here, s :: rest =>
    match tree.node here with
    | some .dir =>
      if kept s = false then walkWith onLink here rest
      else if s = ['.', '.'] then walkWith onLink here.dropLast rest
      else
        match tree.node (here ++ [s]) with
        | none                => none
        | some (.link target) =>
          onLink (if isAbsolute target then [] else here) (segments target ++ rest)
        | some _              => walkWith onLink (here ++ [s]) rest
    | _ => none

def walk : ℕ → List Component → List Component → Option (List Component)
  | 0         => walkWith tree fun _ _ => none
  | links + 1 => walkWith tree (walk links)

/-- Where a path begins. -/
def origin (path : PathText) : List Component := if isAbsolute path then [] else tree.cwd

/-- `Path::canonicalize`. -/
def canonicalize (path : PathText) : Option (List Component) :=
  if path = [] then none else tree.walk 40 (tree.origin path) (segments path)

def fileAt (p : List Component) : Option α :=
  match tree.node p with
  | some (.file content) => some content
  | _                    => none

/-- `Path::is_file`, behind links. -/
def isFile (path : PathText) : Bool := ((tree.canonicalize path).bind tree.fileAt).isSome

def isDir (path : PathText) : Bool :=
  (tree.canonicalize path).any fun p =>
    match tree.node p with
    | some .dir => true
    | _         => false

theorem isFile_iff {path : PathText} :
    tree.isFile path = true ↔
      ∃ p content, tree.canonicalize path = some p ∧ tree.node p = some (.file content) := by
  rw [isFile, Option.isSome_iff_exists]
  constructor
  · rintro ⟨content, h⟩
    obtain ⟨p, hp, hfile⟩ := Option.bind_eq_some_iff.mp h
    refine ⟨p, content, hp, ?_⟩
    unfold fileAt at hfile
    split at hfile
    · cases hfile
      assumption
    · cases hfile
  · rintro ⟨p, content, hp, hnode⟩
    refine ⟨content, Option.bind_eq_some_iff.mpr ⟨p, hp, ?_⟩⟩
    simp only [fileAt, hnode]

/-! ## Trees without links -/

/-- One component taken by its spelling. -/
def descend (here : List Component) (s : Component) : List Component :=
  if s = ['.', '.'] then here.dropLast else here ++ [s]

/-- Where a path leads when nothing on it is a link. -/
def lexical (here : List Component) (cs : List Component) : List Component :=
  cs.foldl descend here

theorem lexical_append (here cs cs' : List Component) :
    lexical here (cs ++ cs') = lexical (lexical here cs) cs' :=
  List.foldl_append ..

theorem lexical_of_no_dotdot {here cs : List Component} (h : ['.', '.'] ∉ cs) :
    lexical here cs = here ++ cs := by
  induction cs generalizing here with
  | nil => exact (List.append_nil here).symm
  | cons s cs ih =>
      have hs : s ≠ ['.', '.'] := fun heq => h (heq ▸ List.mem_cons_self ..)
      have hcs : ['.', '.'] ∉ cs := fun hmem => h (List.mem_cons_of_mem _ hmem)
      rw [lexical, List.foldl_cons, descend, if_neg hs]
      have htail : lexical (here ++ [s]) cs = here ++ [s] ++ cs := ih hcs
      rw [← lexical, htail, List.append_assoc]
      rfl

/-- No node is a link. -/
def Linkless : Prop := ∀ p target, tree.node p ≠ some (.link target)

theorem walkWith_linkless (h : tree.Linkless)
    {onLink : List Component → List Component → Option (List Component)}
    {here segs p : List Component} (hwalk : tree.walkWith onLink here segs = some p) :
    p = lexical here (segs.filter kept) := by
  induction segs generalizing here with
  | nil =>
      cases hwalk
      rfl
  | cons s segs ih =>
      rw [walkWith] at hwalk
      split at hwalk
      · by_cases hkept : kept s = false
        · rw [if_pos hkept] at hwalk
          rw [ih hwalk, List.filter_cons_of_neg (by simp [hkept])]
        · rw [if_neg hkept] at hwalk
          rw [List.filter_cons_of_pos (by simpa using hkept), lexical, List.foldl_cons, ← lexical,
            descend]
          by_cases hup : s = ['.', '.']
          · rw [if_pos hup] at hwalk ⊢
            exact ih hwalk
          · rw [if_neg hup] at hwalk ⊢
            split at hwalk
            · cases hwalk
            · rename_i target hlink
              exact absurd hlink (h _ target)
            · exact ih hwalk
      · cases hwalk

/-- **Without links the canonical path is the spelled one.** -/
theorem canonicalize_linkless (h : tree.Linkless) {path : PathText} {p : List Component}
    (hpath : tree.canonicalize path = some p) :
    p = lexical (tree.origin path) (components path) := by
  rw [canonicalize] at hpath
  split at hpath
  · cases hpath
  · exact walkWith_linkless tree h hpath

end LinkTree

/-! ## Changing the last component -/

namespace PathText

/-- `Path::file_name`. -/
def fileName (p : PathText) : Option Component :=
  match (components p).getLast? with
  | some s => if s = ['.', '.'] then none else some s
  | none   => none

/-- `Path::with_file_name`, for a path that has one. -/
def withFileName (p : PathText) (name : Component) : PathText :=
  (if isAbsolute p then ['/'] else []) ++ ['/'].intercalate ((components p).dropLast ++ [name])

theorem slash_not_mem_segment {p : PathText} {s : Component} (h : s ∈ segments p) : '/' ∉ s := by
  induction p generalizing s with
  | nil =>
      rw [List.mem_singleton.mp h]
      exact List.not_mem_nil
  | cons c p ih =>
      rw [segments, List.splitOnP_cons_eq_if_modifyHead] at h
      split at h
      · rcases List.mem_cons.mp h with rfl | h
        · exact List.not_mem_nil
        · exact ih h
      · rename_i hc
        obtain ⟨first, rest, hsplit⟩ := List.exists_cons_of_ne_nil
          (List.splitOnP_ne_nil (fun c => c == '/') p)
        rw [hsplit, List.modifyHead_cons] at h
        rcases List.mem_cons.mp h with rfl | h
        · intro hmem
          rcases List.mem_cons.mp hmem with rfl | hmem
          · exact hc rfl
          · exact ih (by rw [segments, hsplit]; exact List.mem_cons_self ..) hmem
        · exact ih (by rw [segments, hsplit]; exact List.mem_cons_of_mem _ h)

theorem components_withFileName (p : PathText) {name : Component} (hslash : '/' ∉ name)
    (hkept : kept name = true) :
    components (withFileName p name) = (components p).dropLast ++ [name] := by
  have hsegs : ∀ s ∈ (components p).dropLast ++ [name], '/' ∉ s := by
    intro s hs
    rcases List.mem_append.mp hs with hold | hnew
    · exact slash_not_mem_segment (List.mem_of_mem_filter (List.mem_of_mem_dropLast hold))
    · rwa [List.mem_singleton.mp hnew]
  have hsplit : segments (['/'].intercalate ((components p).dropLast ++ [name])) =
      (components p).dropLast ++ [name] :=
    List.splitOn_intercalate '/' hsegs (by simp)
  have hcomps : components (['/'].intercalate ((components p).dropLast ++ [name])) =
      (components p).dropLast ++ [name] := by
    rw [components, hsplit, List.filter_append, List.filter_eq_self.mpr]
    · simp [hkept]
    · intro s hs
      exact List.of_mem_filter (List.mem_of_mem_dropLast hs)
  unfold withFileName
  split
  · rw [List.singleton_append, components_slash_cons, hcomps]
  · exact hcomps

end PathText

end Wallermax.Base
