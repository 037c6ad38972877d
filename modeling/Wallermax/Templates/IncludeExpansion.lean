import Wallermax.Templates.WorkerIncludes

/-!
# What includes expand to

The textual expansion of a source, which knows no limits: each include block is replaced by
the expansion of the partial it names, and a graph of partials with a cycle below the source
has none. The engine's pass computes it or meets an obstacle; the nesting is bounded, and
the bytes embedded so far are shared by all branches. The pass is total: its loop goes down
the rest of the source, and reading a partial goes down the levels that are left.
-/

namespace Wallermax.Templates

open Wallermax.Base

section

variable (options : JhsOptions) (disk : Disk)

/-- The partial a name stands for can be read. -/
def Reads (name : List Char) (path : PathBuf) (text : List Char) : Prop :=
  includePath options.views_path name = .ok path ∧ (disk path).text = .ok text

/-- The expansion of a source, with the partials it embeds, once for each embedding. -/
inductive Expands : List Char → List Char → List PathBuf → Prop where
  | verbatim {source : List Char}
      (hnone : ∀ before body rest, ¬ClosedBlock options.tags source before body rest) :
      Expands source source []
  | code {source before body rest out : List Char} {files : List PathBuf}
      (hblock : ClosedBlock options.tags source before body rest)
      (hbody : standaloneInclude body = none) (hrest : Expands rest out files) :
      Expands source
        (before ++ (options.tags.open_tag ++ (body ++ options.tags.close_tag) ++ out)) files
  | embed {source before body rest name text inner out : List Char} {path : PathBuf}
      {files files' : List PathBuf} (hblock : ClosedBlock options.tags source before body rest)
      (hname : standaloneInclude body = some name) (hread : Reads options disk name path text)
      (htext : Expands text inner files) (hrest : Expands rest out files') :
      Expands source (before ++ (inner ++ out)) (path :: (files ++ files'))

/-- The size of a file that can be read. -/
def fileBytes (path : PathBuf) : ℕ :=
  match (disk path).text with
  | .ok text => byteLength text
  | .error _ => 0

def embeddedBytes (files : List PathBuf) : ℕ := (files.map (fileBytes disk)).sum

/-- What stops the embedding of a name in a source at this depth, with so many bytes
embedded before. -/
inductive Obstacle (depth used : ℕ) (name : List Char) : Prop where
  | tooDeep (h : INCLUDE_MAX_DEPTH < depth + 1)
  | invalid {e : JhsError} (h : includePath options.views_path name = .error e)
  | unreadable {path : PathBuf} {error : List Char}
      (hpath : includePath options.views_path name = .ok path)
      (h : (disk path).text = .error error)
  | tooLarge {path : PathBuf} {text : List Char} (hread : Reads options disk name path text)
      (h : INCLUDE_MAX_BYTES < used + byteLength text)

/-- The expansion of a source comes to an obstacle: in front, inside a partial, or behind
what has been expanded. -/
inductive Meets : ℕ → ℕ → List Char → Prop where
  | here {depth used : ℕ} {source before body rest name : List Char}
      (hblock : ClosedBlock options.tags source before body rest)
      (hname : standaloneInclude body = some name)
      (hobstacle : Obstacle options disk depth used name) : Meets depth used source
  | inside {depth used : ℕ} {source before body rest name text : List Char} {path : PathBuf}
      (hblock : ClosedBlock options.tags source before body rest)
      (hname : standaloneInclude body = some name) (hread : Reads options disk name path text)
      (htext : Meets (depth + 1) (used + byteLength text) text) : Meets depth used source
  | behindCode {depth used : ℕ} {source before body rest : List Char}
      (hblock : ClosedBlock options.tags source before body rest)
      (hbody : standaloneInclude body = none) (hrest : Meets depth used rest) :
      Meets depth used source
  | behind {depth used : ℕ} {source before body rest name text inner : List Char}
      {path : PathBuf} {files : List PathBuf}
      (hblock : ClosedBlock options.tags source before body rest)
      (hname : standaloneInclude body = some name) (hread : Reads options disk name path text)
      (htext : Expands options disk text inner files)
      (hrest : Meets depth (used + embeddedBytes disk (path :: files)) rest) :
      Meets depth used source

/-- The source has a standalone include block. -/
inductive HasInclude (tags : TagOptions) : List Char → Prop where
  | here {source before body rest name : List Char}
      (hblock : ClosedBlock tags source before body rest)
      (hname : standaloneInclude body = some name) : HasInclude tags source
  | behind {source before body rest : List Char}
      (hblock : ClosedBlock tags source before body rest) (hrest : HasInclude tags rest) :
      HasInclude tags source

/-- The partials with the stamps they have. -/
def stamped (files : List PathBuf) : List (PathBuf × Stamp) :=
  files.map fun path => (path, (disk path).stamp)

/-- What a pass carries along once these are embedded. -/
def Tracking.embed (acc : Tracking) (files : List PathBuf) : Tracking where
  budget := acc.budget + embeddedBytes disk files
  tracked := acc.tracked ++ stamped disk files

/-- `resolve_includes` at a depth, over one state of the files. -/
def resolveAt (depth : ℕ) (source : List Char) (acc : Tracking) :
    Except JhsError (List Char × Tracking) :=
  (resolveIncludes options.tags (readInclude options (INCLUDE_MAX_DEPTH - depth)) source
    acc).eval disk

/-- The pass computes the one expansion there is, and fails where that meets an obstacle. -/
structure ExpandsIncludes (depth : ℕ) (source : List Char) (acc : Tracking) : Prop where
  result : ∀ out acc', resolveAt options disk depth source acc = .ok (out, acc') →
    ∃ files, Expands options disk source out files ∧
      (∀ out' files', Expands options disk source out' files' → out' = out ∧ files' = files) ∧
      acc' = acc.embed disk files ∧ byteLength out ≤ byteLength source + INCLUDE_MAX_BYTES
  fails : (∃ e, resolveAt options disk depth source acc = .error e) ↔
    Meets options disk depth acc.budget source
  unchanged : ¬HasInclude options.tags source →
    resolveAt options disk depth source acc = .ok (source, acc)

end

variable {options : JhsOptions} {disk : Disk} {depth used : ℕ}
  {source before body rest name text out : List Char} {path : PathBuf}
  {files files' : List PathBuf} {acc : Tracking}

/-! ## Bytes -/

theorem byteLength_append (front back : List Char) :
    byteLength (front ++ back) = byteLength front + byteLength back := by
  rw [byteLength, List.map_append, List.sum_append]
  rfl

theorem embeddedBytes_cons :
    embeddedBytes disk (path :: files) = fileBytes disk path + embeddedBytes disk files := rfl

theorem embeddedBytes_append : embeddedBytes disk (files ++ files') =
    embeddedBytes disk files + embeddedBytes disk files' := by
  rw [embeddedBytes, List.map_append, List.sum_append]
  rfl

theorem Reads.fileBytes (h : Reads options disk name path text) :
    fileBytes disk path = byteLength text := by
  rw [Templates.fileBytes, h.2]

theorem Reads.unique {path' : PathBuf} {text' : List Char}
    (h : Reads options disk name path text) (h' : Reads options disk name path' text') :
    path = path' ∧ text = text' := by
  obtain rfl := Except.ok.inj (h.1.symm.trans h'.1)
  exact ⟨rfl, Except.ok.inj (h.2.symm.trans h'.2)⟩

@[simp] theorem Tracking.embed_nil : acc.embed disk [] = acc := by
  simp [Tracking.embed, embeddedBytes, stamped]

theorem Tracking.embed_embed :
    (acc.embed disk files).embed disk files' = acc.embed disk (files ++ files') := by
  simp [Tracking.embed, embeddedBytes_append, stamped, Nat.add_assoc]

/-! ## The expansion -/

theorem ClosedBlock.source_eq {tags : TagOptions} (h : ClosedBlock tags source before body rest) :
    source = before ++ (tags.open_tag ++ (body ++ (tags.close_tag ++ rest))) := by
  obtain ⟨after, hopen, hclose⟩ := h
  rw [splitFirst_some hopen, splitFirst_some hclose]

/-- **One expansion**, and one list of partials. -/
theorem Expands.unique {out' : List Char} (h : Expands options disk source out files)
    (h' : Expands options disk source out' files') : out' = out ∧ files' = files := by
  induction h generalizing out' files' with
  | verbatim hnone =>
      cases h' with
      | verbatim => exact ⟨rfl, rfl⟩
      | code hblock => exact absurd hblock (hnone _ _ _)
      | embed hblock => exact absurd hblock (hnone _ _ _)
  | code hblock hbody _ ih =>
      cases h' with
      | verbatim hnone => exact absurd hblock (hnone _ _ _)
      | code hblock' _ hrest' =>
          obtain ⟨rfl, rfl, rfl⟩ := hblock.unique hblock'
          obtain ⟨rfl, rfl⟩ := ih hrest'
          exact ⟨rfl, rfl⟩
      | embed hblock' hname' =>
          obtain ⟨-, rfl, -⟩ := hblock.unique hblock'
          cases hbody.symm.trans hname'
  | embed hblock hname hread _ _ ihtext ihrest =>
      cases h' with
      | verbatim hnone => exact absurd hblock (hnone _ _ _)
      | code hblock' hbody' =>
          obtain ⟨-, rfl, -⟩ := hblock.unique hblock'
          cases hbody'.symm.trans hname
      | embed hblock' hname' hread' htext' hrest' =>
          obtain ⟨rfl, rfl, rfl⟩ := hblock.unique hblock'
          obtain rfl := Option.some.inj (hname.symm.trans hname')
          obtain ⟨rfl, rfl⟩ := hread.unique hread'
          obtain ⟨rfl, rfl⟩ := ihtext htext'
          obtain ⟨rfl, rfl⟩ := ihrest hrest'
          exact ⟨rfl, rfl⟩

/-- An expansion is as long as the source and what it embeds, at most. -/
theorem Expands.length_le (h : Expands options disk source out files) :
    byteLength out ≤ byteLength source + embeddedBytes disk files := by
  induction h with
  | verbatim => exact Nat.le_add_right _ _
  | code hblock _ _ ih =>
      rw [hblock.source_eq]
      simp only [byteLength_append]
      omega
  | embed hblock _ hread _ _ ihtext ihrest =>
      rw [hblock.source_eq, embeddedBytes_cons, embeddedBytes_append, hread.fileBytes]
      simp only [byteLength_append]
      omega

/-- What is embedded without an obstacle fits. -/
theorem Expands.bytes_le (h : Expands options disk source out files)
    (hfree : ¬Meets options disk depth used source) :
    files = [] ∨ used + embeddedBytes disk files ≤ INCLUDE_MAX_BYTES := by
  induction h generalizing depth used with
  | verbatim => exact .inl rfl
  | code hblock hbody _ ih => exact ih fun hmeets => hfree (.behindCode hblock hbody hmeets)
  | @embed _ _ _ _ _ _ _ _ path files files' hblock hname hread htext _ ihtext ihrest =>
      right
      have hfits : used + fileBytes disk path ≤ INCLUDE_MAX_BYTES := by
        rw [hread.fileBytes]
        by_contra hlarge
        exact hfree (.here hblock hname (.tooLarge hread (Nat.lt_of_not_le hlarge)))
      have hinner := ihtext fun hmeets => hfree (.inside hblock hname hread hmeets)
      have houter := ihrest fun hmeets => hfree (.behind hblock hname hread htext hmeets)
      rw [← hread.fileBytes] at hinner
      rw [embeddedBytes_cons] at houter ⊢
      rw [embeddedBytes_append]
      rcases houter with rfl | houter
      · rcases hinner with rfl | hinner
        · simpa [embeddedBytes] using hfits
        · simpa [embeddedBytes, Nat.add_assoc] using hinner
      · omega

/-! ## How a pass ends -/

section Outcomes

variable (options disk)

/-- With the expansion, or at an obstacle. -/
def Outcome (depth : ℕ) (source : List Char) (acc : Tracking) :
    Except JhsError (List Char × Tracking) → Prop
  | .ok (out, acc') => ∃ files, Expands options disk source out files ∧ acc' = acc.embed disk files
  | .error _ => Meets options disk depth acc.budget source

/-- Reading a partial. -/
def ReadOutcome (depth : ℕ) (name : List Char) (acc : Tracking) :
    Except JhsError (List Char × Tracking) → Prop
  | .ok (inner, acc') => ∃ path text files, Reads options disk name path text ∧
      Expands options disk text inner files ∧ acc' = acc.embed disk (path :: files)
  | .error _ => Obstacle options disk depth acc.budget name ∨ ∃ path text,
      Reads options disk name path text ∧
        Meets options disk (depth + 1) (acc.budget + byteLength text) text

end Outcomes

/-- The rule for one pass over a source. -/
theorem outcome_resolveIncludes {rd : List Char → Tracking → Load (List Char × Tracking)}
    (hrd : ∀ name acc, ReadOutcome options disk depth name acc ((rd name acc).eval disk))
    (source : List Char) (acc : Tracking) :
    Outcome options disk depth source acc
      ((resolveIncludes options.tags rd source acc).eval disk) := by
  induction hlength : source.length using Nat.strong_induction_on generalizing source acc with
  | _ n ih =>
      subst hlength
      rw [resolveIncludes_eq]
      by_cases hblock : ∃ before body rest, ClosedBlock options.tags source before body rest
      · obtain ⟨before, body, rest, hblock⟩ := hblock
        have ih := fun acc => ih rest.length hblock.length_lt rest acc rfl
        simp only [resolveIncludes_eq] at ih
        rw [eval_resolveWith_block hblock]
        cases hbody : standaloneInclude body with
        | none =>
            have ih := ih acc
            simp only [blockProgram, hbody, FileProgram.eval, Except.bind]
            cases hrest : (resolveWith options.tags standaloneInclude rd rest acc).eval disk with
            | error e =>
                rw [hrest] at ih
                exact .behindCode hblock hbody ih
            | ok r =>
                rw [hrest] at ih
                obtain ⟨files, hfiles, hacc⟩ := ih
                exact ⟨files, .code hblock hbody hfiles, hacc⟩
        | some name =>
            -- the partial is read and expanded first, then what is behind the block
            have hread := hrd name acc
            simp only [blockProgram, hbody]
            cases hfile : (rd name acc).eval disk with
            | error e =>
                rw [hfile] at hread
                rcases hread with hobstacle | ⟨path, text, hread, hmeets⟩
                · exact .here hblock hbody hobstacle
                · exact .inside hblock hbody hread hmeets
            | ok r =>
                rw [hfile] at hread
                obtain ⟨path, text, files, hread, htext, hacc⟩ := hread
                have ih := ih r.2
                simp only [Except.bind]
                cases hrest : (resolveWith options.tags standaloneInclude rd rest r.2).eval
                    disk with
                | error e =>
                    rw [hrest, hacc] at ih
                    exact .behind hblock hbody hread htext ih
                | ok r' =>
                    rw [hrest] at ih
                    obtain ⟨files', hfiles', hacc'⟩ := ih
                    refine ⟨path :: (files ++ files'), .embed hblock hbody hread htext hfiles', ?_⟩
                    rw [hacc', hacc, Tracking.embed_embed, List.cons_append]
      · rw [resolveWith_verbatim fun before body rest h => hblock ⟨before, body, rest, h⟩]
        exact ⟨[], .verbatim fun before body rest h => hblock ⟨before, body, rest, h⟩, by simp⟩

/-- The rule for one level of partials. -/
theorem readOutcome_readInclude (options : JhsOptions) (disk : Disk) (depth : ℕ)
    (name : List Char) (acc : Tracking) :
    ReadOutcome options disk depth name acc
      ((readInclude options (INCLUDE_MAX_DEPTH - depth) name acc).eval disk) := by
  induction hlevels : INCLUDE_MAX_DEPTH - depth generalizing depth name acc with
  | zero => exact .inl (.tooDeep (by omega))
  | succ levels ih =>
      rw [readInclude]
      cases hpath : includePath options.views_path name with
      | error e => exact .inl (.invalid hpath)
      | ok path =>
          simp only [FileProgram.eval]
          cases htext : (disk path).text with
          | error error => exact .inl (.unreadable hpath htext)
          | ok text =>
              have hread : Reads options disk name path text := ⟨hpath, htext⟩
              simp only
              split
              next hlarge => exact .inl (.tooLarge hread hlarge)
              next =>
                -- the file counts before its own includes are resolved
                have hone : acc.embed disk [path] =
                    ⟨acc.budget + byteLength text, acc.tracked ++ [(path, (disk path).stamp)]⟩ := by
                  simp [Tracking.embed, embeddedBytes, stamped, hread.fileBytes]
                rw [← hone]
                have houtcome : Outcome options disk (depth + 1) text (acc.embed disk [path]) _ :=
                  outcome_resolveIncludes (fun name acc => ih (depth + 1) name acc (by omega)) text
                    (acc.embed disk [path])
                cases hresult : (resolveIncludes options.tags (readInclude options levels) text
                    (acc.embed disk [path])).eval disk with
                | error e =>
                    rw [hresult, hone] at houtcome
                    exact .inr ⟨path, text, hread, houtcome⟩
                | ok r =>
                    rw [hresult] at houtcome
                    obtain ⟨files, hfiles, hacc⟩ := houtcome
                    refine ⟨path, text, files, hread, hfiles, ?_⟩
                    rw [hacc, Tracking.embed_embed]
                    rfl

theorem outcome_resolveAt (options : JhsOptions) (disk : Disk) (depth : ℕ)
    (source : List Char) (acc : Tracking) :
    Outcome options disk depth source acc (resolveAt options disk depth source acc) :=
  outcome_resolveIncludes (readOutcome_readInclude options disk depth) source acc

/-! ## Obstacles stop the pass -/

theorem eval_resolveAt_block (hblock : ClosedBlock options.tags source before body rest)
    (acc : Tracking) : resolveAt options disk depth source acc =
      ((blockProgram options.tags standaloneInclude
          (readInclude options (INCLUDE_MAX_DEPTH - depth)) body acc).eval disk).bind fun r =>
        (resolveAt options disk depth rest r.2).bind fun r' =>
          .ok (before ++ (r.1 ++ r'.1), r'.2) := by
  simp only [resolveAt, resolveIncludes_eq]
  exact eval_resolveWith_block hblock disk acc

/-- A partial that can be read is too large or expanded one level further down. -/
theorem eval_readInclude (hdepth : depth < INCLUDE_MAX_DEPTH)
    (hread : Reads options disk name path text) (acc : Tracking) :
    (readInclude options (INCLUDE_MAX_DEPTH - depth) name acc).eval disk =
      if acc.budget + byteLength text > INCLUDE_MAX_BYTES then .error (tooLarge name)
      else resolveAt options disk (depth + 1) text (acc.embed disk [path]) := by
  obtain ⟨levels, hlevels⟩ : ∃ levels, INCLUDE_MAX_DEPTH - depth = levels + 1 :=
    ⟨INCLUDE_MAX_DEPTH - depth - 1, by omega⟩
  have hnext : INCLUDE_MAX_DEPTH - (depth + 1) = levels := by omega
  have hone : acc.embed disk [path] =
      ⟨acc.budget + byteLength text, acc.tracked ++ [(path, (disk path).stamp)]⟩ := by
    simp [Tracking.embed, embeddedBytes, stamped, hread.fileBytes]
  rw [hlevels, readInclude, hread.1, resolveAt, hnext, hone]
  simp only [FileProgram.eval, hread.2]
  split <;> rfl

/-- No partial is read beyond the depth. -/
theorem eval_readInclude_deep (hdepth : INCLUDE_MAX_DEPTH ≤ depth) (acc : Tracking) :
    (readInclude options (INCLUDE_MAX_DEPTH - depth) name acc).eval disk =
      .error (tooDeep name) := by
  rw [Nat.sub_eq_zero_of_le hdepth]
  rfl

theorem Obstacle.error (h : Obstacle options disk depth acc.budget name) :
    ∃ e, (readInclude options (INCLUDE_MAX_DEPTH - depth) name acc).eval disk = .error e := by
  rcases Nat.lt_or_ge depth INCLUDE_MAX_DEPTH with hlt | hge
  · obtain ⟨levels, hlevels⟩ : ∃ levels, INCLUDE_MAX_DEPTH - depth = levels + 1 :=
      ⟨INCLUDE_MAX_DEPTH - depth - 1, by omega⟩
    cases h with
    | tooDeep h => omega
    | invalid h =>
        rw [hlevels, readInclude, h]
        exact ⟨_, rfl⟩
    | unreadable hpath h =>
        rw [hlevels, readInclude, hpath]
        simp only [FileProgram.eval, h]
        exact ⟨_, rfl⟩
    | tooLarge hread h =>
        rw [eval_readInclude hlt hread, if_pos h]
        exact ⟨_, rfl⟩
  · exact ⟨_, eval_readInclude_deep hge acc⟩

/-- Inside a partial or in front of it. -/
theorem error_of_inside (hread : Reads options disk name path text)
    (htext : ∃ e, resolveAt options disk (depth + 1) text (acc.embed disk [path]) = .error e) :
    ∃ e, (readInclude options (INCLUDE_MAX_DEPTH - depth) name acc).eval disk = .error e := by
  rcases Nat.lt_or_ge depth INCLUDE_MAX_DEPTH with hlt | hge
  · rw [eval_readInclude hlt hread]
    split
    · exact ⟨_, rfl⟩
    · exact htext
  · exact ⟨_, eval_readInclude_deep hge acc⟩

/-- **An obstacle the expansion meets ends the pass.** -/
theorem Meets.error (h : Meets options disk depth used source) (acc : Tracking)
    (hacc : acc.budget = used) : ∃ e, resolveAt options disk depth source acc = .error e := by
  induction h generalizing acc with
  | here hblock hname hobstacle =>
      subst hacc
      obtain ⟨e, he⟩ := hobstacle.error
      rw [eval_resolveAt_block hblock]
      simp only [blockProgram, hname, he]
      exact ⟨e, rfl⟩
  | inside hblock hname hread _ ih =>
      have htext := ih (acc.embed disk [_]) (by
        rw [← hacc, Tracking.embed, embeddedBytes_cons, hread.fileBytes]
        rfl)
      obtain ⟨e, he⟩ := error_of_inside hread htext
      rw [eval_resolveAt_block hblock]
      simp only [blockProgram, hname, he]
      exact ⟨e, rfl⟩
  | behindCode hblock hbody _ ih =>
      obtain ⟨e, he⟩ := ih acc hacc
      rw [eval_resolveAt_block hblock]
      simp only [blockProgram, hbody, FileProgram.eval, Except.bind, he]
      exact ⟨e, rfl⟩
  | @behind depth used source before body rest name text inner path files hblock hname hread
      htext _ ih =>
      have hfile := readOutcome_readInclude options disk depth name acc
      rw [eval_resolveAt_block hblock]
      simp only [blockProgram, hname]
      cases hresult : (readInclude options (INCLUDE_MAX_DEPTH - depth) name acc).eval disk with
      | error e => exact ⟨e, rfl⟩
      | ok r =>
          rw [hresult] at hfile
          obtain ⟨path', text', files', hread', htext', hr⟩ := hfile
          obtain ⟨rfl, rfl⟩ := hread.unique hread'
          obtain ⟨-, rfl⟩ := htext.unique htext'
          obtain ⟨e, he⟩ := ih r.2 (by rw [hr, ← hacc]; rfl)
          simp only [Except.bind, he]
          exact ⟨e, rfl⟩

/-- Code blocks stay where they are. -/
theorem resolveAt_of_no_include (hnone : ¬HasInclude options.tags source) (acc : Tracking) :
    resolveAt options disk depth source acc = .ok (source, acc) := by
  induction hlength : source.length using Nat.strong_induction_on generalizing source acc with
  | _ n ih =>
      subst hlength
      by_cases hblock : ∃ before body rest, ClosedBlock options.tags source before body rest
      · obtain ⟨before, body, rest, hblock⟩ := hblock
        have hrest := ih rest.length hblock.length_lt (fun h => hnone (.behind hblock h)) acc rfl
        cases hbody : standaloneInclude body with
        | some name => exact absurd (.here hblock hbody) hnone
        | none =>
            rw [eval_resolveAt_block hblock]
            simp only [blockProgram, hbody, FileProgram.eval, Except.bind, hrest]
            rw [List.append_assoc, List.append_assoc, ← hblock.source_eq]
      · rw [resolveAt, resolveIncludes_eq,
          resolveWith_verbatim fun before body rest h => hblock ⟨before, body, rest, h⟩]
        rfl

/-- **Includes are expanded in full**, for every graph of partials. -/
theorem resolveIncludes_expands (options : JhsOptions) (disk : Disk) (depth : ℕ)
    (source : List Char) (acc : Tracking) :
    ExpandsIncludes options disk depth source acc := by
  have houtcome := outcome_resolveAt options disk depth source acc
  refine ⟨?_, ?_, fun hnone => resolveAt_of_no_include hnone acc⟩
  · intro out acc' hok
    rw [hok] at houtcome
    obtain ⟨files, hfiles, hacc⟩ := houtcome
    have hfree : ¬Meets options disk depth acc.budget source := by
      intro hmeets
      obtain ⟨e, he⟩ := hmeets.error acc rfl
      rw [hok] at he
      cases he
    refine ⟨files, hfiles, fun out' files' h' => hfiles.unique h', hacc, ?_⟩
    have hlength := hfiles.length_le
    rcases hfiles.bytes_le hfree with rfl | hbytes
    · exact Nat.le_trans hlength (Nat.add_le_add_left (Nat.zero_le _) _)
    · omega
  · constructor
    · rintro ⟨e, he⟩
      rw [he] at houtcome
      exact houtcome
    · exact fun hmeets => hmeets.error acc rfl

end Wallermax.Templates
