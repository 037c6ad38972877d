import Mathlib.Algebra.GroupWithZero.Nat
import Wallermax.Base.FilePrograms
import Wallermax.Base.Paths
import Wallermax.Templates.Parser

/-!
# Loading a template

`engine.rs` from the path of a template to its program: the partials that
standalone include blocks name are read and embedded, and the result is compiled.
`load_program` keeps what it compiled with the stamps it saw. The file system is
asked one file at a time, so that loading is a program over files.

A path is its components, which is how `PathBuf` compares.
-/

namespace Wallermax.Templates

open Wallermax.Base

abbrev PathBuf : Type := List Component

abbrev SystemTime : Type := ℤ

/-- `metadata(path).and_then(modified).ok()`. -/
abbrev Stamp : Type := Option SystemTime

/-- `fs::read_to_string`, an error by its display. -/
abbrev ReadResult : Type := Except (List Char) (List Char)

/-- The errors of loading; a text is the message. -/
inductive JhsError : Type where
  | io (error : List Char)
  | include (message : List Char)
deriving DecidableEq

abbrev Load (α : Type) : Type := FileProgram PathBuf Stamp ReadResult JhsError α

abbrev Disk : Type := Files PathBuf Stamp ReadResult

structure JhsOptions : Type where
  views_path : PathBuf
  cache : Bool
  tags : TagOptions

def INCLUDE_MAX_DEPTH : ℕ := 8

def INCLUDE_MAX_BYTES : ℕ := 1048576

def INCLUDE_MAX_NAME_LEN : ℕ := 64

/-- `str::len`. -/
def byteLength (text : List Char) : ℕ := (text.map Char.utf8Size).sum

/-! ## Include names -/

def stripPrefix (pat text : List Char) : Option (List Char) :=
  if pat <+: text then some (text.drop pat.length) else none

/-- `str::trim_start`. -/
def trimStart (text : List Char) : List Char := text.dropWhile Tenants.isWhitespace

def isQuote (c : Char) : Bool := c == '"' || c == '\''

/-- The target of a block whose whole body is one `include("name")`. -/
def standaloneInclude (body : List Char) : Option (List Char) := do
  let rest ← stripPrefix "include".toList (trimChars body)
  let rest ← stripPrefix ['('] (trimStart rest)
  let rest ← (stripPrefix ['"'] (trimStart rest)).or (stripPrefix ['\''] (trimStart rest))
  let name := rest.takeWhile (!isQuote ·)
  match rest.dropWhile (!isQuote ·) with
  | [] => none
  | _ :: tail => if trimChars tail ≠ [')'] ∨ name = [] then none else some name

def jhsSuffix : List Char := ['.', 'j', 'h', 's']

/-- `name.strip_suffix(".jhs").unwrap_or(name)`. -/
def includeBase (name : List Char) : List Char :=
  if jhsSuffix <:+ name then name.take (name.length - jhsSuffix.length) else name

def isNameChar (c : Char) : Bool := c.isAlphanum || c == '-' || c == '_' || c == '/'

def invalidName (name : List Char) (reason : String) : JhsError :=
  .include (['`'] ++ name ++ "` is not a valid include name (".toList ++ reason.toList ++ [')'])

/-- The partial's path inside the views directory, or why the name is refused. -/
def includePath (views_dir : PathBuf) (name : List Char) : Except JhsError PathBuf :=
  let base := includeBase name
  if byteLength base > INCLUDE_MAX_NAME_LEN then .error (invalidName name "too long")
  else if base = [] then .error (invalidName name "empty name")
  else if '\\' ∈ base ∨ base.head? = some '/' ∨ base.getLast? = some '/' ∨
      ['/', '/'] <:+: base ∨ base.any (!isNameChar ·) then
    .error (invalidName name "expected relative `[A-Za-z0-9_-]` segments joined by `/`")
  else if (PathText.segments base).any fun segment =>
      segment == [] || segment == ['.'] || segment == ['.', '.'] then
    .error (invalidName name "`..` and `.` segments are not allowed")
  else .ok (views_dir ++ PathText.segments (base ++ jhsSuffix))

/-! ## Embedding partials -/

/-- What one resolution pass carries along: the bytes embedded so far, and the
partials with the stamps they had. -/
structure Tracking : Type where
  budget : ℕ
  tracked : List (PathBuf × Stamp)

/-- `resolve_includes`, given how a partial of the next level is read. An unclosed
tag keeps the remainder as it is. -/
def resolveIncludes (tags : TagOptions)
    (readInclude : List Char → Tracking → Load (List Char × Tracking))
    (source : List Char) (acc : Tracking) : Load (List Char × Tracking) :=
  match _hopen : splitFirst tags.open_tag source with
  | none => .done (source, acc)
  | some (before, after) =>
    match _hclose : splitFirst tags.close_tag after with
    | none => .done (source, acc)
    | some (body, rest) =>
        let block : Load (List Char × Tracking) :=
          match standaloneInclude body with
          | some name => readInclude name acc
          | none      => .done (tags.open_tag ++ (body ++ tags.close_tag), acc)
        block.bind fun (embedded, acc) =>
          (resolveIncludes tags readInclude rest acc).bind fun (out, acc) =>
            .done (before ++ (embedded ++ out), acc)
termination_by source.length
decreasing_by exact length_block_lt _hopen _hclose

theorem resolveIncludes_of_none {tags : TagOptions}
    {rd : List Char → Tracking → Load (List Char × Tracking)} {source : List Char}
    (h : splitFirst tags.open_tag source = none) (acc : Tracking) :
    resolveIncludes tags rd source acc = .done (source, acc) := by
  unfold resolveIncludes
  split
  · rfl
  · rename_i heq
    rw [h] at heq
    cases heq

def tooDeep (name : List Char) : JhsError :=
  .include (['`'] ++ name ++ "` exceeds the maximum include nesting depth (8)".toList)

def unreadable (name error : List Char) : JhsError :=
  .include (['`'] ++ name ++ "` could not be read from the views directory (".toList ++ error ++
    [')'])

def tooLarge (name : List Char) : JhsError :=
  .include ("embedding `".toList ++ name ++
    "` exceeds the total include size budget (1048576 bytes)".toList)

/-- `read_include`, with the levels that are left of the nesting depth. -/
def readInclude (options : JhsOptions) :
    ℕ → List Char → Tracking → Load (List Char × Tracking)
  | 0, name, _ => .fail (tooDeep name)
  | levels + 1, name, acc =>
    match includePath options.views_path name with
    | .error e => .fail e
    | .ok path =>
      -- the stamp is asked for before the text
      .stat path fun mtime => .read path fun
        | .error error => .fail (unreadable name error)
        | .ok source =>
          if acc.budget + byteLength source > INCLUDE_MAX_BYTES then .fail (tooLarge name)
          else resolveIncludes options.tags (readInclude options levels) source
            ⟨acc.budget + byteLength source, acc.tracked ++ [(path, mtime)]⟩

/-- Reading and expanding the template itself. -/
def loadSource (options : JhsOptions) (path : PathBuf) : Load (List Char × Tracking) :=
  .read path fun
    | .error error => .fail (.io error)
    | .ok source =>
      resolveIncludes options.tags (readInclude options INCLUDE_MAX_DEPTH) source ⟨0, []⟩

/-- The program of a template over one state of the files. -/
def programOver (options : JhsOptions) (disk : Disk) (path : PathBuf) :
    Except JhsError (List Char) :=
  ((loadSource options path).eval disk).map fun (resolved, _) => compile resolved options.tags

/-! ## Every text is read behind its stamp -/

/-- The rule for one pass: when reading a partial keeps the log guarded, so does
expanding a source. -/
theorem resolveIncludes_guarded {tags : TagOptions}
    {rd : List Char → Tracking → Load (List Char × Tracking)} {main : PathBuf × Stamp}
    (hrd : ∀ name acc log, Guarded (main :: acc.tracked) log →
      (rd name acc).Sat (fun log' r => Guarded (main :: r.2.tracked) log') log)
    (source : List Char) (acc : Tracking) (log : List (Observation PathBuf Stamp ReadResult))
    (hlog : Guarded (main :: acc.tracked) log) :
    (resolveIncludes tags rd source acc).Sat
      (fun log' r => Guarded (main :: r.2.tracked) log') log := by
  fun_induction resolveIncludes tags rd source acc generalizing log with
  | case1 source acc hopen => exact hlog
  | case2 source acc before after hopen hclose => exact hlog
  | case3 source acc before after hopen body rest hclose block ih =>
      have hblock : block.Sat (fun log' r => Guarded (main :: r.2.tracked) log') log := by
        show FileProgram.Sat _ log (match standaloneInclude body with
          | some name => rd name acc
          | none      => .done (tags.open_tag ++ (body ++ tags.close_tag), acc))
        split
        · exact hrd _ acc log hlog
        · exact hlog
      refine hblock.bind fun log' r hr => ?_
      exact (ih r.2 log' hr).bind fun log'' r' hr' => hr'

theorem readInclude_guarded (options : JhsOptions) {main : PathBuf × Stamp} (levels : ℕ)
    (name : List Char) (acc : Tracking) (log : List (Observation PathBuf Stamp ReadResult))
    (hlog : Guarded (main :: acc.tracked) log) :
    (readInclude options levels name acc).Sat
      (fun log' r => Guarded (main :: r.2.tracked) log') log := by
  induction levels generalizing name acc log with
  | zero => trivial
  | succ levels ih =>
      rw [readInclude]
      split
      · trivial
      · rename_i path _
        intro mtime text
        have hmem : (path, mtime) ∈ main :: (acc.tracked ++ [(path, mtime)]) := by simp
        have hsub : main :: acc.tracked ⊆ main :: (acc.tracked ++ [(path, mtime)]) := by
          intro x hx
          simp only [List.mem_cons, List.mem_append] at hx ⊢
          tauto
        cases text with
        | error error => trivial
        | ok source =>
            show FileProgram.Sat _ _ (if _ then _ else _)
            split
            · trivial
            · refine resolveIncludes_guarded ih source _ _ ⟨⟨mtime, ?_⟩, hmem, hlog.mono hsub⟩
              exact List.mem_cons_self ..

/-- **A load whose template was stamped first ends guarded** by that stamp and by
those of the partials it tracked. -/
theorem loadSource_guarded (options : JhsOptions) (path : PathBuf) (mtime : Stamp) :
    (loadSource options path).Sat (fun log r => Guarded ((path, mtime) :: r.2.tracked) log)
      [.stamp path mtime] := by
  intro text
  cases text with
  | error error => trivial
  | ok source =>
      refine resolveIncludes_guarded (readInclude_guarded options INCLUDE_MAX_DEPTH) source _ _ ?_
      exact ⟨⟨mtime, List.mem_cons_self ..⟩, List.mem_cons_self .., trivial⟩

end Wallermax.Templates
