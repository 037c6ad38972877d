import Mathlib.Logic.Relation
import Wallermax.Base.Ascii
import Wallermax.Templates.IncludeCalls

/-!
# The two include resolvers

`resolveIncludes` of the sidecar's worker beside that of the engine, over the same views
directory. The worker counts UTF-16 units where the engine counts bytes, and it reads some
blocks otherwise; a resolution that meets none of these ends alike in both.
-/

namespace Wallermax.Templates

open Wallermax.Base

/-! ## The worker's resolver -/

/-- `String.prototype.length`. -/
def utf16Length (text : List Char) : ℕ :=
  (text.map fun c => if c.toNat < 0x10000 then 1 else 2).sum

/-- `includePath` of `render-worker.mjs`. -/
def workerIncludePath (views_dir : PathBuf) (name : List Char) : Except JhsError PathBuf :=
  let base := includeBase name
  if utf16Length base > INCLUDE_MAX_NAME_LEN then .error (invalidName name "too long")
  else if base = [] then .error (invalidName name "empty name")
  else if '\\' ∈ base ∨ base.head? = some '/' ∨ base.getLast? = some '/' ∨
      ['/', '/'] <:+: base ∨ base.any (!isNameChar ·) then
    .error (invalidName name "expected relative `[A-Za-z0-9_-]` segments joined by `/`")
  else if (PathText.segments base).any fun segment =>
      segment == [] || segment == ['.'] || segment == ['.', '.'] then
    .error (invalidName name "`..` and `.` segments are not allowed")
  else .ok (views_dir ++ PathText.segments (base ++ jhsSuffix))

/-- What a block comes to, given how its target is read. -/
def blockProgram (tags : TagOptions) (target : List Char → Option (List Char))
    (readInclude : List Char → Tracking → Load (List Char × Tracking)) (body : List Char)
    (acc : Tracking) : Load (List Char × Tracking) :=
  match target body with
  | some name => readInclude name acc
  | none      => .done (tags.open_tag ++ (body ++ tags.close_tag), acc)

/-- The loop of both resolvers. -/
def resolveWith (tags : TagOptions) (target : List Char → Option (List Char))
    (readInclude : List Char → Tracking → Load (List Char × Tracking))
    (source : List Char) (acc : Tracking) : Load (List Char × Tracking) :=
  match _hopen : splitFirst tags.open_tag source with
  | none => .done (source, acc)
  | some (before, after) =>
    match _hclose : splitFirst tags.close_tag after with
    | none => .done (source, acc)
    | some (body, rest) =>
        (blockProgram tags target readInclude body acc).bind fun (embedded, acc) =>
          (resolveWith tags target readInclude rest acc).bind fun (out, acc) =>
            .done (before ++ (embedded ++ out), acc)
termination_by source.length
decreasing_by exact length_block_lt _hopen _hclose

/-- `resolveIncludes` of `render-worker.mjs`; its tags are fixed. -/
def workerResolveIncludes
    (readInclude : List Char → Tracking → Load (List Char × Tracking))
    (source : List Char) (acc : Tracking) : Load (List Char × Tracking) :=
  resolveWith TagOptions.default workerStandaloneInclude readInclude source acc

/-- `readInclude` of `render-worker.mjs`: a file without a stamp is not read. -/
def workerReadInclude (views_dir : PathBuf) (statMessage : PathBuf → List Char) :
    ℕ → List Char → Tracking → Load (List Char × Tracking)
  | 0, name, _ => .fail (tooDeep name)
  | levels + 1, name, acc =>
    match workerIncludePath views_dir name with
    | .error e => .fail e
    | .ok path =>
      .stat path fun mtime =>
        if mtime = none then .fail (unreadable name (statMessage path))
        else .read path fun
          | .error error => .fail (unreadable name error)
          | .ok source =>
            if acc.budget + utf16Length source > INCLUDE_MAX_BYTES then .fail (tooLarge name)
            else workerResolveIncludes (workerReadInclude views_dir statMessage levels) source
              ⟨acc.budget + utf16Length source, acc.tracked ++ [(path, mtime)]⟩

/-! ## A views directory -/

/-- Files of well-formed text; what can be read has a stamp. -/
structure Views : Type where
  dir : PathBuf
  stamp : PathBuf → Stamp
  text : PathBuf → Option (List Char)
  stamped : ∀ path, text path ≠ none → stamp path ≠ none

namespace Views

def options (views : Views) : JhsOptions := ⟨views.dir, true, TagOptions.default⟩

/-- The directory as one of the two sees it, with its own words for what cannot be read. -/
def disk (views : Views) (message : PathBuf → List Char) : Disk := fun path =>
  ⟨views.stamp path, (views.text path).elim (.error (message path)) .ok⟩

theorem disk_text_none (views : Views) (message : PathBuf → List Char) {path : PathBuf}
    (h : views.text path = none) : (views.disk message path).text = .error (message path) := by
  unfold disk
  rw [h]
  rfl

theorem disk_text_some (views : Views) (message : PathBuf → List Char) {path : PathBuf}
    {text : List Char} (h : views.text path = some text) :
    (views.disk message path).text = .ok text := by
  unfold disk
  rw [h]
  rfl

end Views

/-! ## What the two end with -/

/-- The same failure, but for the words of the operating system and for the reason why a name
is refused. -/
inductive SameKind : JhsError → JhsError → Prop where
  | invalid (name : List Char) (reason reason' : String) :
      SameKind (invalidName name reason) (invalidName name reason')
  | unreadable (name error error' : List Char) :
      SameKind (unreadable name error) (unreadable name error')
  | depth (name : List Char) : SameKind (tooDeep name) (tooDeep name)
  | size (name : List Char) : SameKind (tooLarge name) (tooLarge name)

inductive SameOutcome : Except JhsError (List Char × Tracking) →
    Except JhsError (List Char × Tracking) → Prop where
  | ok (text : List Char) (acc acc' : Tracking) : SameOutcome (.ok (text, acc)) (.ok (text, acc'))
  | error {e e' : JhsError} (kind : SameKind e e') : SameOutcome (.error e) (.error e')

/-! ## Names -/

theorem isNameChar_lt {c : Char} (h : isNameChar c = true) : c.toNat < 128 := by
  simp only [isNameChar, Bool.or_eq_true, beq_iff_eq] at h
  rcases h with ((halnum | rfl) | rfl) | rfl
  · have hrange := toNat_of_isAlphanum halnum
    omega
  · decide
  · decide
  · decide

theorem byteLength_of_nameChars {base : List Char} (h : ∀ c ∈ base, isNameChar c = true) :
    byteLength base = utf16Length base := by
  have heach : base.map Char.utf8Size = base.map fun c => if c.toNat < 0x10000 then 1 else 2 := by
    refine List.map_congr_left fun c hc => ?_
    have hascii := isNameChar_lt (h c hc)
    have hbytes : c.utf8Size = 1 :=
      Char.utf8Size_eq_one_iff.mpr (UInt32.le_iff_toNat_le.mpr (Nat.le_of_lt_succ hascii))
    rw [hbytes, if_pos (hascii.trans (by decide))]
  exact congrArg List.sum heach

theorem includePath_forms (views_dir : PathBuf) (name : List Char) :
    (∃ path, includePath views_dir name = .ok path) ∨
      ∃ reason, includePath views_dir name = .error (invalidName name reason) := by
  unfold includePath
  dsimp only
  split_ifs
  · exact Or.inr ⟨_, rfl⟩
  · exact Or.inr ⟨_, rfl⟩
  · exact Or.inr ⟨_, rfl⟩
  · exact Or.inr ⟨_, rfl⟩
  · exact Or.inl ⟨_, rfl⟩

/-- Of names with other characters the two measure different lengths, and refuse them. -/
theorem includePath_refused {views_dir : PathBuf} {name : List Char}
    (h : (includeBase name).any (!isNameChar ·) = true) :
    (∃ reason, includePath views_dir name = .error (invalidName name reason)) ∧
      ∃ reason, workerIncludePath views_dir name = .error (invalidName name reason) := by
  unfold includePath workerIncludePath
  dsimp only
  constructor
  · split
    · exact ⟨_, rfl⟩
    · split
      · exact ⟨_, rfl⟩
      · rw [if_pos (by simp only [h, or_true])]
        exact ⟨_, rfl⟩
  · split
    · exact ⟨_, rfl⟩
    · split
      · exact ⟨_, rfl⟩
      · rw [if_pos (by simp only [h, or_true])]
        exact ⟨_, rfl⟩

/-- **A name** leads to one path in both, or is refused by both. -/
theorem includePath_cases (views_dir : PathBuf) (name : List Char) :
    (∃ path, includePath views_dir name = .ok path ∧
      workerIncludePath views_dir name = .ok path) ∨
    ∃ reason reason', includePath views_dir name = .error (invalidName name reason) ∧
      workerIncludePath views_dir name = .error (invalidName name reason') := by
  by_cases hchars : ∀ c ∈ includeBase name, isNameChar c = true
  · have hsame : includePath views_dir name = workerIncludePath views_dir name := by
      unfold includePath workerIncludePath
      dsimp only
      rw [byteLength_of_nameChars hchars]
    rcases includePath_forms views_dir name with ⟨path, hpath⟩ | ⟨reason, hreason⟩
    · exact Or.inl ⟨path, hpath, hsame.symm.trans hpath⟩
    · exact Or.inr ⟨reason, reason, hreason, hsame.symm.trans hreason⟩
  · obtain ⟨⟨reason, hengine⟩, reason', hworker⟩ :=
      @includePath_refused views_dir name (by simpa using hchars)
    exact Or.inr ⟨reason, reason', hengine, hworker⟩

/-! ## The loop -/

theorem resolveIncludes_eq (tags : TagOptions)
    (rd : List Char → Tracking → Load (List Char × Tracking)) (source : List Char)
    (acc : Tracking) :
    resolveIncludes tags rd source acc = resolveWith tags standaloneInclude rd source acc := by
  fun_induction resolveIncludes tags rd source acc with
  | case1 source acc hopen =>
      unfold resolveWith
      split
      · rfl
      · rename_i heq
        cases hopen.symm.trans heq
  | case2 source acc before after hopen hclose =>
      unfold resolveWith
      split
      · rfl
      · rename_i heq
        cases hopen.symm.trans heq
        split
        · rfl
        · rename_i heq
          cases hclose.symm.trans heq
  | case3 source acc before after hopen body rest hclose block ih =>
      rw [resolveWith]
      split
      · rename_i heq
        cases hopen.symm.trans heq
      · rename_i heq
        cases hopen.symm.trans heq
        split
        · rename_i heq
          cases hclose.symm.trans heq
        · rename_i heq
          cases hclose.symm.trans heq
          simp only [ih]
          rfl

/-- A closed block of a source under these tags, and what stands around it. -/
def ClosedBlock (tags : TagOptions) (source before body rest : List Char) : Prop :=
  ∃ after, splitFirst tags.open_tag source = some (before, after) ∧
    splitFirst tags.close_tag after = some (body, rest)

/-- A closed block of a source, and what stands around it. -/
def Block (source before body rest : List Char) : Prop :=
  ∃ after, splitFirst TagOptions.default.open_tag source = some (before, after) ∧
    splitFirst TagOptions.default.close_tag after = some (body, rest)

section Loop

variable {tags : TagOptions} {target : List Char → Option (List Char)}
  {rd : List Char → Tracking → Load (List Char × Tracking)}

theorem ClosedBlock.unique {source before before' body body' rest rest' : List Char}
    (h : ClosedBlock tags source before body rest)
    (h' : ClosedBlock tags source before' body' rest') :
    before = before' ∧ body = body' ∧ rest = rest' := by
  obtain ⟨after, hopen, hclose⟩ := h
  obtain ⟨after', hopen', hclose'⟩ := h'
  cases hopen.symm.trans hopen'
  cases hclose.symm.trans hclose'
  exact ⟨rfl, rfl, rfl⟩

theorem ClosedBlock.length_lt {source before body rest : List Char}
    (h : ClosedBlock tags source before body rest) : rest.length < source.length := by
  obtain ⟨after, hopen, hclose⟩ := h
  exact length_block_lt hopen hclose

/-- Without a closed block the source is kept as it is. -/
theorem resolveWith_verbatim {source : List Char}
    (h : ∀ before body rest, ¬ ClosedBlock tags source before body rest) (acc : Tracking) :
    resolveWith tags target rd source acc = .done (source, acc) := by
  unfold resolveWith
  split
  · rfl
  · rename_i hopen
    split
    · rfl
    · rename_i hclose
      exact absurd ⟨_, hopen, hclose⟩ (h _ _ _)

/-- **One block**: its outcome, then the rest of the source. -/
theorem eval_resolveWith_block {source before body rest : List Char}
    (h : ClosedBlock tags source before body rest) (disk : Disk) (acc : Tracking) :
    (resolveWith tags target rd source acc).eval disk =
      ((blockProgram tags target rd body acc).eval disk).bind fun r =>
        ((resolveWith tags target rd rest r.2).eval disk).bind fun r' =>
          .ok (before ++ (r.1 ++ r'.1), r'.2) := by
  obtain ⟨after, hopen, hclose⟩ := h
  rw [resolveWith]
  split
  · rename_i heq
    cases hopen.symm.trans heq
  · rename_i heq
    cases hopen.symm.trans heq
    split
    · rename_i heq
      cases hclose.symm.trans heq
    · rename_i heq
      cases hclose.symm.trans heq
      rw [FileProgram.eval_bind]
      refine congrArg _ (funext fun r => ?_)
      exact FileProgram.eval_bind disk _ _

end Loop

theorem SameOutcome.bind {x y : Except JhsError (List Char × Tracking)}
    {f g : List Char × Tracking → Except JhsError (List Char × Tracking)} (h : SameOutcome x y)
    (hnext : ∀ text acc acc', x = .ok (text, acc) → y = .ok (text, acc') →
      SameOutcome (f (text, acc)) (g (text, acc'))) : SameOutcome (x.bind f) (y.bind g) := by
  cases h with
  | ok text acc acc' => exact hnext text acc acc' rfl rfl
  | error kind => exact SameOutcome.error kind

/-! ## Resolutions -/

/-- Where both resolvers are: in front of what is left of a source, with the levels that its
partials still have, and with what was embedded before. -/
structure Situation : Type where
  levels : ℕ
  source : List Char
  bytes : Tracking
  units : Tracking

section Resolution

variable (views : Views) (message message' statMessage : PathBuf → List Char)

def Situation.engine (s : Situation) : Except JhsError (List Char × Tracking) :=
  (resolveIncludes views.options.tags (readInclude views.options s.levels) s.source s.bytes).eval
    (views.disk message)

def Situation.worker (s : Situation) : Except JhsError (List Char × Tracking) :=
  (workerResolveIncludes (workerReadInclude views.dir statMessage s.levels) s.source
    s.units).eval (views.disk message')

/-- The two begin to resolve a template. -/
def Situation.start (template : List Char) : Situation :=
  ⟨INCLUDE_MAX_DEPTH, template, ⟨0, []⟩, ⟨0, []⟩⟩

/-- What both have once the text of a partial is embedded. -/
def Situation.enter (s : Situation) (levels : ℕ) (path : PathBuf) (text : List Char) :
    Situation :=
  ⟨levels, text,
    ⟨s.bytes.budget + byteLength text, s.bytes.tracked ++ [(path, views.stamp path)]⟩,
    ⟨s.units.budget + utf16Length text, s.units.tracked ++ [(path, views.stamp path)]⟩⟩

/-- The next block is behind them, or they enter the partial that it names. -/
inductive Situation.Next (s : Situation) : Situation → Prop where
  | verbatim {before body rest : List Char} (hblock : Block s.source before body rest)
      (hbody : standaloneInclude body = none) :
      Next s { s with
        source := rest }
  | enter {before body rest name text : List Char} {levels : ℕ} {path : PathBuf}
      (hblock : Block s.source before body rest) (hbody : standaloneInclude body = some name)
      (hlevels : s.levels = levels + 1) (hpath : includePath views.dir name = .ok path)
      (htext : views.text path = some text)
      (hbudget : s.bytes.budget + byteLength text ≤ INCLUDE_MAX_BYTES) :
      Next s (s.enter views levels path text)
  | leave {before body rest name text : List Char} {bytes units : Tracking}
      (hblock : Block s.source before body rest) (hbody : standaloneInclude body = some name)
      (hengine : (readInclude views.options s.levels name s.bytes).eval (views.disk message) =
        .ok (text, bytes))
      (hworker : (workerReadInclude views.dir statMessage s.levels name s.units).eval
        (views.disk message') = .ok (text, units)) :
      Next s ⟨s.levels, rest, bytes, units⟩

/-- The next block is not odd, and with the partial that it names the two are on the same side
of the budget. -/
def Situation.Plain (s : Situation) : Prop :=
  ∀ before body rest, Block s.source before body rest → ¬ Odd body ∧
    ∀ name path text, standaloneInclude body = some name → includePath views.dir name = .ok path →
      views.text path = some text → s.levels ≠ 0 →
      (s.bytes.budget + byteLength text ≤ INCLUDE_MAX_BYTES ↔
        s.units.budget + utf16Length text ≤ INCLUDE_MAX_BYTES)

/-- Every situation that a resolution from here comes to is plain. -/
def Situation.AllPlain (s : Situation) : Prop :=
  ∀ s', Relation.ReflTransGen (Situation.Next views message message' statMessage) s s' →
    s'.Plain views

variable {views message message' statMessage}

theorem Situation.AllPlain.next {s s' : Situation}
    (h : s.AllPlain views message message' statMessage)
    (hnext : s.Next views message message' statMessage s') :
    s'.AllPlain views message message' statMessage := fun s'' hreach =>
  h s'' (Relation.ReflTransGen.head hnext hreach)

/-- **One partial**, given that what it embeds is resolved alike. -/
theorem readInclude_same {s : Situation} {name : List Char}
    (hbudget : ∀ path text, includePath views.dir name = .ok path →
      views.text path = some text → s.levels ≠ 0 →
      (s.bytes.budget + byteLength text ≤ INCLUDE_MAX_BYTES ↔
        s.units.budget + utf16Length text ≤ INCLUDE_MAX_BYTES))
    (henter : ∀ levels path text, s.levels = levels + 1 → includePath views.dir name = .ok path →
      views.text path = some text → s.bytes.budget + byteLength text ≤ INCLUDE_MAX_BYTES →
      SameOutcome ((s.enter views levels path text).engine views message)
        ((s.enter views levels path text).worker views message' statMessage)) :
    SameOutcome ((readInclude views.options s.levels name s.bytes).eval (views.disk message))
      ((workerReadInclude views.dir statMessage s.levels name s.units).eval
        (views.disk message')) := by
  cases hlevels : s.levels with
  | zero => exact SameOutcome.error (SameKind.depth name)
  | succ levels =>
      rw [readInclude, workerReadInclude]
      have hstamp (message : PathBuf → List Char) (path : PathBuf) :
          (views.disk message path).stamp = views.stamp path := rfl
      rcases includePath_cases views.options.views_path name with
        ⟨path, hpath, hpath'⟩ | ⟨reason, reason', hreason, hreason'⟩
      · have hworker : workerIncludePath views.dir name = .ok path := hpath'
        rw [hpath, hworker]
        simp only [FileProgram.eval, hstamp]
        cases htext : views.text path with
        | none =>
            rw [views.disk_text_none message htext]
            by_cases hnone : views.stamp path = none
            · rw [if_pos hnone]
              exact SameOutcome.error (SameKind.unreadable name _ _)
            · rw [if_neg hnone]
              simp only [FileProgram.eval, views.disk_text_none message' htext]
              exact SameOutcome.error (SameKind.unreadable name _ _)
        | some text =>
            have hstamped := views.stamped path (by simp [htext])
            rw [if_neg hstamped, views.disk_text_some message htext]
            simp only [FileProgram.eval, views.disk_text_some message' htext]
            have hside := hbudget path text hpath htext (by simp [hlevels])
            by_cases hfits : s.bytes.budget + byteLength text ≤ INCLUDE_MAX_BYTES
            · rw [if_neg (not_lt.mpr hfits), if_neg (not_lt.mpr (hside.mp hfits))]
              exact henter levels path text hlevels hpath htext hfits
            · rw [if_pos (not_le.mp hfits), if_pos (not_le.mp (mt hside.mpr hfits))]
              exact SameOutcome.error (SameKind.size name)
      · have hworker : workerIncludePath views.dir name = .error (invalidName name reason') :=
          hreason'
        rw [hreason, hworker]
        exact SameOutcome.error (SameKind.invalid name reason reason')

/-- **A resolution whose situations are plain** ends alike in both: by the levels that are left,
and then by what is left of the source. -/
theorem Situation.same (s : Situation) (h : s.AllPlain views message message' statMessage) :
    SameOutcome (s.engine views message) (s.worker views message' statMessage) := by
  unfold Situation.engine Situation.worker workerResolveIncludes
  rw [resolveIncludes_eq]
  show SameOutcome ((resolveWith TagOptions.default _ _ _ _).eval _) _
  by_cases hblocks : ∃ before body rest, Block s.source before body rest
  · obtain ⟨before, body, rest, hblock⟩ := hblocks
    obtain ⟨hodd, hbudget⟩ := h s Relation.ReflTransGen.refl before body rest hblock
    have hread := (standaloneInclude_eq_worker_iff body).mpr hodd
    rw [eval_resolveWith_block hblock, eval_resolveWith_block hblock]
    have hblockSame : SameOutcome
        ((blockProgram TagOptions.default standaloneInclude (readInclude views.options s.levels)
          body s.bytes).eval (views.disk message))
        ((blockProgram TagOptions.default workerStandaloneInclude
          (workerReadInclude views.dir statMessage s.levels) body s.units).eval
          (views.disk message')) := by
      unfold blockProgram
      rw [← hread]
      cases hbody : standaloneInclude body with
      | none => exact SameOutcome.ok _ _ _
      | some name =>
          refine readInclude_same (fun path text => hbudget name path text hbody) ?_
          intro levels path text hlevels hpath htext hfits
          exact Situation.same _ (h.next (.enter hblock hbody hlevels hpath htext hfits))
    refine hblockSame.bind fun text bytes units hengine hworker => ?_
    have hnext : s.Next views message message' statMessage ⟨s.levels, rest, bytes, units⟩ := by
      unfold blockProgram at hengine hworker
      rw [← hread] at hworker
      cases hbody : standaloneInclude body with
      | none =>
          rw [hbody] at hengine hworker
          cases hengine
          cases hworker
          exact Situation.Next.verbatim hblock hbody
      | some name =>
          rw [hbody] at hengine hworker
          exact Situation.Next.leave hblock hbody hengine hworker
    have hrest := Situation.same _ (h.next hnext)
    unfold Situation.engine Situation.worker workerResolveIncludes at hrest
    rw [resolveIncludes_eq] at hrest
    exact hrest.bind fun out bytes' units' _ _ => SameOutcome.ok _ _ _
  · have hnone : ∀ before body rest, ¬ Block s.source before body rest :=
      fun before body rest hblock => hblocks ⟨before, body, rest, hblock⟩
    rw [resolveWith_verbatim hnone, resolveWith_verbatim hnone]
    exact SameOutcome.ok _ _ _
termination_by (s.levels, s.source.length)
decreasing_by
  · exact Prod.Lex.left _ _ (hlevels ▸ Nat.lt_succ_self levels)
  · exact Prod.Lex.right _ (ClosedBlock.length_lt hblock)

end Resolution

/-- **The two include resolvers.** A block is read alike by both exactly if it is not odd, and a
resolution that meets no odd block, and no partial that is within the budget for one of them
only, ends in both with the same text or with the same kind of failure. -/
theorem resolvers_agree (body : List Char) (views : Views)
    (message message' statMessage : PathBuf → List Char) (template : List Char) :
    (standaloneInclude body = workerStandaloneInclude body ↔ ¬ Odd body) ∧
    ((Situation.start template).AllPlain views message message' statMessage →
      SameOutcome ((Situation.start template).engine views message)
        ((Situation.start template).worker views message' statMessage)) :=
  ⟨standaloneInclude_eq_worker_iff body, (Situation.start template).same⟩

/-- `a.jhs`, with the text `x`. -/
def onePartial : Views where
  dir := []
  stamp := fun path => if path = [['a', '.', 'j', 'h', 's']] then some 0 else none
  text := fun path => if path = [['a', '.', 'j', 'h', 's']] then some ['x'] else none
  stamped := by
    intro path h
    split_ifs at h ⊢ <;> simp_all

theorem onePartial_text {path : PathBuf} {text : List Char}
    (h : onePartial.text path = some text) : text = ['x'] := by
  have hif : (if path = [['a', '.', 'j', 'h', 's']] then some ['x'] else none) = some text := h
  split_ifs at hif
  exact (Option.some.inj hif).symm

theorem no_block_of_not_open {source : List Char}
    (h : splitFirst TagOptions.default.open_tag source = none) (before body rest : List Char) :
    ¬ Block source before body rest := by
  rintro ⟨after, hopen, -⟩
  cases h.symm.trans hopen

/-- A template that includes the partial, with one or the other closing quote. -/
def includeA (closing : Char) : List Char :=
  "<?jhs include(\"a".toList ++ (closing :: ") ?>".toList)

def includeBody (closing : Char) : List Char :=
  " include(\"a".toList ++ (closing :: ") ".toList)

theorem situations_includeA {message message' statMessage : PathBuf → List Char} {s : Situation}
    (h : Relation.ReflTransGen (Situation.Next onePartial message message' statMessage)
      (Situation.start (includeA '"')) s) :
    s = Situation.start (includeA '"') ∨
      splitFirst TagOptions.default.open_tag s.source = none := by
  have hblock : Block (includeA '"') [] (includeBody '"') [] := ⟨_, rfl, rfl⟩
  have hrest : ∀ {before body rest : List Char}, Block (includeA '"') before body rest →
      rest = [] := fun h' => (ClosedBlock.unique h' hblock).2.2
  induction h with
  | refl => exact Or.inl rfl
  | tail _ hnext ih =>
      rcases ih with rfl | hopen
      · right
        cases hnext with
        | verbatim hblock' _ =>
            show splitFirst _ _ = none
            rw [hrest hblock']
            rfl
        | enter _ _ _ _ htext _ =>
            show splitFirst _ _ = none
            rw [onePartial_text htext]
            rfl
        | leave hblock' _ _ _ =>
            show splitFirst _ _ = none
            rw [hrest hblock']
            rfl
      · cases hnext with
        | verbatim hblock' _ => exact absurd hblock' (no_block_of_not_open hopen _ _ _)
        | enter hblock' _ _ _ _ _ => exact absurd hblock' (no_block_of_not_open hopen _ _ _)
        | leave hblock' _ _ _ => exact absurd hblock' (no_block_of_not_open hopen _ _ _)

/-- A partial that both embed. -/
theorem resolvers_agree_partial :
    SameOutcome ((Situation.start (includeA '"')).engine onePartial fun _ => [])
      ((Situation.start (includeA '"')).worker onePartial (fun _ => []) fun _ => []) := by
  refine (resolvers_agree [] onePartial _ _ _ _).2 fun s hs before body rest hblock => ?_
  rcases situations_includeA hs with rfl | hopen
  · have hknown : Block (includeA '"') [] (includeBody '"') [] := ⟨_, rfl, rfl⟩
    obtain ⟨-, rfl, -⟩ := ClosedBlock.unique hblock hknown
    refine ⟨(standaloneInclude_eq_worker_iff _).mp (by decide), ?_⟩
    intro name path text _ _ htext _
    rw [onePartial_text htext]
    exact iff_of_true (by decide) (by decide)
  · exact absurd hblock (no_block_of_not_open hopen _ _ _)

theorem engine_embeds : ∃ acc, (Situation.start (includeA '\'')).engine onePartial (fun _ => []) =
    .ok (['x'], acc) := by
  have hblock : Block (includeA '\'') [] (includeBody '\'') [] := ⟨_, rfl, rfl⟩
  have hread : standaloneInclude (includeBody '\'') = some ['a'] := by decide
  have hpath : includePath onePartial.options.views_path ['a'] =
      .ok [['a', '.', 'j', 'h', 's']] := rfl
  have htext : onePartial.text [['a', '.', 'j', 'h', 's']] = some ['x'] := rfl
  unfold Situation.engine
  rw [resolveIncludes_eq]
  show ∃ acc, (resolveWith TagOptions.default _ (readInclude onePartial.options (7 + 1))
    (includeA '\'') _).eval _ = _
  rw [eval_resolveWith_block hblock]
  unfold blockProgram
  rw [hread]
  simp only [readInclude, hpath, FileProgram.eval, onePartial.disk_text_some _ htext]
  rw [if_neg (by decide), resolveIncludes_of_none rfl]
  simp only [FileProgram.eval, Except.bind]
  rw [resolveWith_verbatim (no_block_of_not_open rfl)]
  exact ⟨_, rfl⟩

theorem worker_keeps : ∃ acc, (Situation.start (includeA '\'')).worker onePartial (fun _ => [])
    (fun _ => []) = .ok (includeA '\'', acc) := by
  have hblock : Block (includeA '\'') [] (includeBody '\'') [] := ⟨_, rfl, rfl⟩
  have hread : workerStandaloneInclude (includeBody '\'') = none := by decide
  unfold Situation.worker workerResolveIncludes
  show ∃ acc, (resolveWith TagOptions.default _ _ (includeA '\'') _).eval _ = _
  rw [eval_resolveWith_block hblock]
  unfold blockProgram
  rw [hread]
  simp only [FileProgram.eval, Except.bind]
  rw [resolveWith_verbatim (no_block_of_not_open rfl)]
  exact ⟨_, rfl⟩

/-- `include("a')` is an include for the engine only. -/
theorem mixed_quotes_differ :
    ¬ SameOutcome ((Situation.start (includeA '\'')).engine onePartial fun _ => [])
      ((Situation.start (includeA '\'')).worker onePartial (fun _ => []) fun _ => []) := by
  obtain ⟨acc, hengine⟩ := engine_embeds
  obtain ⟨acc', hworker⟩ := worker_keeps
  rw [hengine, hworker]
  intro h
  cases h

end Wallermax.Templates
