import Mathlib.Data.List.Chain
import Mathlib.Data.List.DropRight
import Wallermax.Base.Trim
import Wallermax.Templates.Literals

/-!
# What a template compiles to

A page is read as an alternation of segments: runs of text, echo tags and code
tags. The two passes are followed one segment at a time. The echo pass copies
everything but the echo tags; the code pass cuts what the first one wrote at the
same places, so that every segment is left as one line of the program.
-/

namespace Wallermax.Templates

open Wallermax.Base

/-! ## Segments -/

inductive Segment : Type where
  | text (run : List Char)
  | echo (body : List Char)
  | code (body : List Char)

namespace Segment

def isText : Segment → Bool
  | text _ => true
  | _      => false

/-- A text run is not empty and opens no tag; a tag's body neither closes it nor
opens an echo tag. A text may hold a closing tag, a body a code tag's opener. -/
def Proper : Segment → Prop
  | text run  => run ≠ [] ∧ ¬ TagOptions.default.open_tag <:+: run ∧
      ¬ TagOptions.default.echo_tag <:+: run
  | echo body => ¬ TagOptions.default.close_tag <:+: body ∧
      ¬ TagOptions.default.echo_tag <:+: body
  | code body => ¬ TagOptions.default.close_tag <:+: body ∧
      ¬ TagOptions.default.echo_tag <:+: body

def source : Segment → List Char
  | text run  => run
  | echo body => TagOptions.default.echo_tag ++ (body ++ TagOptions.default.close_tag)
  | code body => TagOptions.default.open_tag ++ (body ++ TagOptions.default.close_tag)

/-- The program's line for the segment. -/
def line : Segment → List Char
  | text run  => pushText run
  | echo body => echoCall body ++ ['\n']
  | code body => body ++ ['\n']

/-- What the echo pass leaves of the segment. -/
def rewritten : Segment → List Char
  | echo body => TagOptions.default.open_tag ++ (echoCall body ++ TagOptions.default.close_tag)
  | s         => s.source

end Segment

/-- A page as segments, no two text runs side by side. -/
structure Page : Type where
  segments : List Segment
  proper : ∀ s ∈ segments, s.Proper
  alternating : segments.IsChain fun s s' => ¬ (s.isText ∧ s'.isText)

def sourceOf (segments : List Segment) : List Char := segments.flatMap Segment.source
def rewrittenOf (segments : List Segment) : List Char := segments.flatMap Segment.rewritten
def linesOf (segments : List Segment) : List Char := segments.flatMap Segment.line

/-! ## Where a tag can begin

`Ahead b`: what follows a text, which is nothing or the next tag. -/

def Ahead (b : List Char) : Prop := ∀ c ∈ b.head?, c = '<'

theorem ahead_nil : Ahead [] := by
  intro c hc
  cases hc

theorem ahead_open (b : List Char) : Ahead (TagOptions.default.open_tag ++ b) := by
  intro c hc
  cases hc
  rfl

theorem ahead_echo (b : List Char) : Ahead (TagOptions.default.echo_tag ++ b) := by
  intro c hc
  cases hc
  rfl

/-- The tags share their first letters, yet none begins inside a text that has none
of them. -/
theorem clear_open_text {run b : List Char} (h : ¬ TagOptions.default.open_tag <:+: run)
    (hb : Ahead b) : Clear TagOptions.default.open_tag run b := by
  refine clear_of_head h fun c hc => ?_
  rw [hb c hc]
  decide

theorem clear_echo_text {run b : List Char} (h : ¬ TagOptions.default.echo_tag <:+: run)
    (hb : Ahead b) : Clear TagOptions.default.echo_tag run b := by
  refine clear_of_head h fun c hc => ?_
  rw [hb c hc]
  decide

theorem clear_echo_open (b : List Char) :
    Clear TagOptions.default.echo_tag TagOptions.default.open_tag b := by
  simp [TagOptions.default, clear_cons, clear_nil]

theorem clear_open_echo (b : List Char) :
    Clear TagOptions.default.open_tag TagOptions.default.echo_tag b := by
  simp [TagOptions.default, clear_cons, clear_nil]

theorem clear_echo_body {body : List Char} (h : ¬ TagOptions.default.echo_tag <:+: body)
    (b : List Char) : Clear TagOptions.default.echo_tag (body ++ TagOptions.default.close_tag) b := by
  refine clear_append.mpr ⟨clear_of_tails h ?_, ?_⟩
  · simp [TagOptions.default, List.tails]
  · exact clear_of_not_mem (by decide) b

theorem clear_close_body {body : List Char} (h : ¬ TagOptions.default.close_tag <:+: body)
    (b : List Char) :
    Clear TagOptions.default.close_tag body (TagOptions.default.close_tag ++ b) := by
  refine clear_of_head h fun c hc => ?_
  cases hc
  decide

theorem trimChars_isInfix (text : List Char) : trimChars text <:+: text :=
  trimBy_isInfix _ text

/-- What the echo pass wrote around an expression does not close its block early. -/
theorem clear_close_echoCall {body : List Char} (h : ¬ TagOptions.default.close_tag <:+: body)
    (b : List Char) :
    Clear TagOptions.default.close_tag (echoCall body) (TagOptions.default.close_tag ++ b) := by
  refine clear_append.mpr ⟨clear_append.mpr ⟨?_, ?_⟩, ?_⟩
  · exact clear_of_not_mem (by decide) _
  · refine clear_of_head (fun hin => h (hin.trans (trimChars_isInfix body))) fun c hc => ?_
    cases hc
    decide
  · exact clear_of_not_mem (by decide) _

/-! ## The echo pass -/

theorem rewriteEchoTags_segment {s : Segment} (hs : s.Proper) {b : List Char}
    (hb : s.isText → Ahead b) :
    rewriteEchoTags .default (s.source ++ b) = s.rewritten ++ rewriteEchoTags .default b := by
  cases s with
  | text run =>
      obtain ⟨-, -, hecho⟩ := hs
      exact rewriteEchoTags_clear (clear_echo_text hecho (hb rfl))
  | echo body =>
      obtain ⟨hclose, -⟩ := hs
      have hcut : splitFirst TagOptions.default.echo_tag ((Segment.echo body).source ++ b) =
          some ([], body ++ (TagOptions.default.close_tag ++ b)) := by
        simp only [Segment.source, List.append_assoc]
        exact splitFirst_append _ _
      rw [rewriteEchoTags_tag hcut (clear_close_body hclose b).splitFirst_append]
      simp only [Segment.rewritten, List.append_assoc, List.nil_append]
  | code body =>
      obtain ⟨-, hecho⟩ := hs
      refine rewriteEchoTags_clear (clear_append.mpr ⟨clear_echo_open _, ?_⟩)
      exact clear_echo_body hecho b

theorem ahead_source {s : Segment} (hs : s.isText = false) (b : List Char) :
    Ahead (s.source ++ b) := by
  cases s with
  | text run => cases hs
  | echo body =>
      show Ahead (TagOptions.default.echo_tag ++ _ ++ b)
      rw [List.append_assoc]
      exact ahead_echo _
  | code body =>
      show Ahead (TagOptions.default.open_tag ++ _ ++ b)
      rw [List.append_assoc]
      exact ahead_open _

/-- **The echo pass, segment by segment.** -/
theorem rewriteEchoTags_sourceOf {segments : List Segment}
    (hproper : ∀ s ∈ segments, s.Proper)
    (halt : segments.IsChain fun s s' => ¬ (s.isText ∧ s'.isText))
    {b : List Char} (hb : Ahead b) :
    rewriteEchoTags .default (sourceOf segments ++ b) =
      rewrittenOf segments ++ rewriteEchoTags .default b := by
  induction segments with
  | nil => rfl
  | cons s segments ih =>
      have hnext : s.isText → Ahead (sourceOf segments ++ b) := by
        intro hs
        cases segments with
        | nil => exact hb
        | cons s' segments =>
            have hs' : s'.isText = false := by
              have hpair := (List.isChain_cons_cons.mp halt).1
              simpa [hs] using hpair
            show Ahead (s'.source ++ sourceOf segments ++ b)
            rw [List.append_assoc]
            exact ahead_source hs' _
      have hrest := ih (fun s' hs' => hproper s' (List.mem_cons_of_mem _ hs')) halt.of_cons
      calc rewriteEchoTags .default (sourceOf (s :: segments) ++ b)
          = rewriteEchoTags .default (s.source ++ (sourceOf segments ++ b)) := by
            rw [← List.append_assoc]
            rfl
        _ = s.rewritten ++ (rewrittenOf segments ++ rewriteEchoTags .default b) := by
            rw [rewriteEchoTags_segment (hproper s (List.mem_cons_self ..)) hnext, hrest]
        _ = rewrittenOf (s :: segments) ++ rewriteEchoTags .default b := by
            rw [← List.append_assoc]
            rfl

/-! ## The code pass -/

/-- After the echo pass every tag is a block, and its line is the block's body. -/
theorem tag_block {s : Segment} (hs : s.Proper) (htext : s.isText = false) :
    ∃ body, s.rewritten = TagOptions.default.open_tag ++ (body ++ TagOptions.default.close_tag) ∧
      s.line = body ++ ['\n'] ∧
      ∀ b, Clear TagOptions.default.close_tag body (TagOptions.default.close_tag ++ b) := by
  cases s with
  | text run  => cases htext
  | echo body => exact ⟨echoCall body, rfl, rfl, clear_close_echoCall hs.1⟩
  | code body => exact ⟨body, rfl, rfl, clear_close_body hs.1⟩

theorem compileCodeBlocks_segment {s : Segment} (hs : s.Proper) (htext : s.isText = false)
    (b : List Char) :
    compileCodeBlocks .default (s.rewritten ++ b) = s.line ++ compileCodeBlocks .default b := by
  obtain ⟨body, hrew, hline, hclear⟩ := tag_block hs htext
  rw [hrew, hline]
  simp only [List.append_assoc]
  exact compileCodeBlocks_block (hclear b)

/-- A text in front of a tag. -/
theorem compileCodeBlocks_text_segment {s s' : Segment} (hs : s.Proper) (htext : s.isText)
    (hs' : s'.Proper) (htext' : s'.isText = false) (b : List Char) :
    compileCodeBlocks .default (s.rewritten ++ (s'.rewritten ++ b)) =
      s.line ++ compileCodeBlocks .default (s'.rewritten ++ b) := by
  obtain ⟨body, hrew, -, hclear⟩ := tag_block hs' htext'
  cases s with
  | text run =>
      obtain ⟨hne, hopen, -⟩ := hs
      rw [hrew]
      simp only [List.append_assoc]
      exact compileCodeBlocks_text (clear_open_text hopen (ahead_open _)) hne (hclear b)
  | echo body => cases htext
  | code body => cases htext

/-- **The code pass, segment by segment**, up to the last tag. -/
theorem compileCodeBlocks_rewrittenOf {segments : List Segment}
    (hproper : ∀ s ∈ segments, s.Proper)
    (halt : segments.IsChain fun s s' => ¬ (s.isText ∧ s'.isText))
    (hlast : ∀ s ∈ segments.getLast?, s.isText = false) (b : List Char) :
    compileCodeBlocks .default (rewrittenOf segments ++ b) =
      linesOf segments ++ compileCodeBlocks .default b := by
  induction segments with
  | nil => rfl
  | cons s segments ih =>
      have hs : s.Proper := hproper s (List.mem_cons_self ..)
      have htail : ∀ s' ∈ segments, s'.Proper :=
        fun s' hs' => hproper s' (List.mem_cons_of_mem _ hs')
      have hlast' : ∀ s' ∈ segments.getLast?, s'.isText = false := by
        intro s' hs'
        refine hlast s' ?_
        rw [List.getLast?_cons]
        simp [Option.mem_def.mp hs']
      have hrest := ih htail halt.of_cons hlast'
      have hstep : compileCodeBlocks .default (s.rewritten ++ (rewrittenOf segments ++ b)) =
          s.line ++ compileCodeBlocks .default (rewrittenOf segments ++ b) := by
        cases htext : s.isText with
        | false => exact compileCodeBlocks_segment hs htext _
        | true =>
            cases segments with
            | nil =>
                have := hlast s rfl
                rw [htext] at this
                cases this
            | cons s' segments =>
                have hs' : s'.isText = false := by
                  have hpair := (List.isChain_cons_cons.mp halt).1
                  simpa [htext] using hpair
                show compileCodeBlocks .default (s.rewritten ++
                    (s'.rewritten ++ rewrittenOf segments ++ b)) =
                  s.line ++ compileCodeBlocks .default (s'.rewritten ++ rewrittenOf segments ++ b)
                rw [List.append_assoc]
                exact compileCodeBlocks_text_segment hs htext (htail s' (List.mem_cons_self ..))
                  hs' _
      calc compileCodeBlocks .default (rewrittenOf (s :: segments) ++ b)
          = compileCodeBlocks .default (s.rewritten ++ (rewrittenOf segments ++ b)) := by
            rw [← List.append_assoc]
            rfl
        _ = s.line ++ (linesOf segments ++ compileCodeBlocks .default b) := by
            rw [hstep, hrest]
        _ = linesOf (s :: segments) ++ compileCodeBlocks .default b := by
            rw [← List.append_assoc]
            rfl

/-! ## The last text run -/

namespace Page

/-- The segments up to the last tag. -/
def closed (page : Page) : List Segment := page.segments.rdropWhile Segment.isText

/-- The text behind it, which is one run or none. -/
def trailing (page : Page) : List Segment := page.segments.rtakeWhile Segment.isText

variable (page : Page)

theorem closed_append_trailing : page.closed ++ page.trailing = page.segments :=
  List.rdropWhile_append_rtakeWhile

theorem closed_proper : ∀ s ∈ page.closed, s.Proper := fun s hs =>
  page.proper s (page.closed_append_trailing ▸ List.mem_append_left _ hs)

theorem trailing_proper : ∀ s ∈ page.trailing, s.Proper := fun s hs =>
  page.proper s (page.closed_append_trailing ▸ List.mem_append_right _ hs)

theorem closed_alternating : page.closed.IsChain fun s s' => ¬ (s.isText ∧ s'.isText) :=
  page.alternating.infix (List.rdropWhile_prefix _ _).isInfix

theorem closed_getLast? : ∀ s ∈ page.closed.getLast?, s.isText = false := by
  intro s hs
  obtain ⟨hne, rfl⟩ := List.mem_getLast?_eq_getLast hs
  exact Bool.eq_false_iff.mpr (List.rdropWhile_last_not _ _ hne)

theorem trailing_alternating : page.trailing.IsChain fun s s' => ¬ (s.isText ∧ s'.isText) :=
  page.alternating.infix (List.rtakeWhile_suffix _ _).isInfix

theorem trailing_cases : page.trailing = [] ∨ ∃ run, page.trailing = [.text run] := by
  have htext : ∀ s ∈ page.trailing, s.isText := fun s hs => List.mem_rtakeWhile_imp hs
  have halt := page.trailing_alternating
  generalize page.trailing = segments at htext halt ⊢
  cases segments with
  | nil => exact .inl rfl
  | cons s rest =>
      have hs : s.isText := htext s (List.mem_cons_self ..)
      cases rest with
      | nil =>
          cases s with
          | text run  => exact .inr ⟨run, rfl⟩
          | echo body => cases hs
          | code body => cases hs
      | cons s' rest =>
          have hs' : s'.isText := htext s' (by simp)
          exact absurd ⟨hs, hs'⟩ (List.isChain_cons_cons.mp halt).1

/-- The code pass over a page, with whatever stands behind its last tag. -/
theorem compileCodeBlocks_append (b : List Char) :
    compileCodeBlocks .default (rewrittenOf page.segments ++ b) =
      linesOf page.closed ++ compileCodeBlocks .default (rewrittenOf page.trailing ++ b) := by
  have hsplit : rewrittenOf page.segments = rewrittenOf page.closed ++ rewrittenOf page.trailing := by
    rw [← closed_append_trailing, rewrittenOf, List.flatMap_append]
    rfl
  rw [hsplit, List.append_assoc]
  exact compileCodeBlocks_rewrittenOf page.closed_proper page.closed_alternating
    page.closed_getLast? _

theorem compileCodeBlocks_trailing :
    compileCodeBlocks .default (rewrittenOf page.trailing) = linesOf page.trailing := by
  rcases page.trailing_cases with hnil | ⟨run, hrun⟩
  · rw [hnil]
    exact compileCodeBlocks_nil .default (by decide)
  · obtain ⟨hne, hopen, -⟩ := page.trailing_proper (.text run) (by simp [hrun])
    have hsingle : rewrittenOf page.trailing = run := by
      rw [hrun]
      exact List.append_nil run
    rw [hsingle, compileCodeBlocks_of_none (splitFirst_eq_none.mpr hopen) hne, hrun]
    exact (List.append_nil _).symm

/-- The trailing text opens no code tag, and the echo pass left it alone. -/
theorem trailing_text : rewrittenOf page.trailing = sourceOf page.trailing ∧
    ¬ TagOptions.default.open_tag <:+: sourceOf page.trailing := by
  rcases page.trailing_cases with hnil | ⟨run, hrun⟩
  · rw [hnil]
    exact ⟨rfl, by decide⟩
  · obtain ⟨-, hopen, -⟩ := page.trailing_proper (.text run) (by simp [hrun])
    rw [hrun]
    refine ⟨rfl, ?_⟩
    show ¬ TagOptions.default.open_tag <:+: run ++ []
    rwa [List.append_nil]

/-- A page that is all tags and text. -/
theorem compile_source :
    compile (sourceOf page.segments) .default = wrap (linesOf page.segments) := by
  have hpass := rewriteEchoTags_sourceOf page.proper page.alternating ahead_nil
  have hnil : rewriteEchoTags .default [] = [] := rewriteEchoTags_of_none rfl
  rw [hnil, List.append_nil, List.append_nil] at hpass
  have hcode := page.compileCodeBlocks_append []
  simp only [List.append_nil] at hcode
  rw [compile, hpass, hcode, compileCodeBlocks_trailing]
  conv_rhs => rw [← page.closed_append_trailing]
  rw [linesOf, linesOf, linesOf, List.flatMap_append]

/-- A page with an unclosed tag behind it. -/
theorem compile_unclosed {opener tail : List Char}
    (hopener : opener = TagOptions.default.echo_tag ∨ opener = TagOptions.default.open_tag)
    (htail : ¬ TagOptions.default.close_tag <:+: tail) :
    compile (sourceOf page.segments ++ (opener ++ tail)) .default =
      wrap (linesOf page.closed ++ pushText (sourceOf page.trailing ++ (opener ++ tail))) := by
  obtain ⟨hsame, hopen⟩ := page.trailing_text
  have hahead : Ahead (opener ++ tail) := by
    rcases hopener with rfl | rfl
    · exact ahead_echo tail
    · exact ahead_open tail
  have hecho : rewriteEchoTags .default (opener ++ tail) = opener ++ tail := by
    rcases hopener with rfl | rfl
    · exact rewriteEchoTags_unclosed (splitFirst_append _ _) (splitFirst_eq_none.mpr htail)
    · exact rewriteEchoTags_of_no_close (clear_echo_open tail) htail
  have hpass := rewriteEchoTags_sourceOf page.proper page.alternating hahead
  rw [hecho] at hpass
  rw [compile, hpass, page.compileCodeBlocks_append, hsame]
  congr 2
  have hclear := clear_open_text hopen hahead
  rcases hopener with rfl | rfl
  · rw [← List.append_assoc]
    exact compileCodeBlocks_of_no_close (clear_append.mpr ⟨hclear, clear_open_echo tail⟩) htail
      (by simp [TagOptions.default])
  · exact compileCodeBlocks_unclosed hclear.splitFirst_append (splitFirst_eq_none.mpr htail)

end Page

/-- **The compiler loses nothing**: a page compiles to one line a segment, every
literal reads back as its text, and an unclosed tag makes what is left one text. -/
theorem compile_lossless (page : Page) :
    compile (sourceOf page.segments) .default = wrap (linesOf page.segments) ∧
    (∀ text rest, (jsonStringify text ++ rest).head? = some '"' ∧
      readLiteral ((jsonStringify text ++ rest).drop 1) = some (text, rest)) ∧
    (∀ text, ∀ c ∈ jsonStringify text, 0x20 ≤ c.toNat) ∧
    ∀ opener tail,
      (opener = TagOptions.default.echo_tag ∨ opener = TagOptions.default.open_tag) →
      ¬ TagOptions.default.close_tag <:+: tail →
      compile (sourceOf page.segments ++ (opener ++ tail)) .default =
        wrap (linesOf page.closed ++ pushText (sourceOf page.trailing ++ (opener ++ tail))) :=
  ⟨page.compile_source, readLiteral_jsonStringify, fun _ _ => jsonStringify_printable,
    fun _ _ => page.compile_unclosed⟩

/-- A page with all three kinds of segments, a closing tag in its text and a code tag's
opener inside an echo tag. -/
def greeting : Page where
  segments := [.text ['a', '?', '>', '"'], .echo [' ', '<', '?', 'j', 'h', 's', ' '],
    .code ['x', '?'], .text ['!', '<']]
  proper := by
    intro s hs
    simp only [List.mem_cons, List.not_mem_nil, or_false] at hs
    rcases hs with rfl | rfl | rfl | rfl
    · exact ⟨by decide, by decide, by decide⟩
    · exact ⟨by decide, by decide⟩
    · exact ⟨by decide, by decide⟩
    · exact ⟨by decide, by decide, by decide⟩
  alternating := by simp [Segment.isText]

theorem compile_lossless_greeting :
    compile "a?>\"<?= <?jhs ?><?jhsx??>!<".toList .default =
      wrap ("__output += \"a?>\\\"\";\n__output += __escape(<?jhs);\nx?\n" ++
        "__output += \"!<\";\n").toList ∧
    compile "a?>\"<?= <?jhs ?><?jhsx??>!<<?= b".toList .default =
      wrap ("__output += \"a?>\\\"\";\n__output += __escape(<?jhs);\nx?\n" ++
        "__output += \"!<<?= b\";\n").toList := by
  obtain ⟨hpage, -, -, hunclosed⟩ := compile_lossless greeting
  have hopen := hunclosed _ [' ', 'b'] (.inl rfl) (by decide)
  have hsource : sourceOf greeting.segments = "a?>\"<?= <?jhs ?><?jhsx??>!<".toList := by decide
  have hlines : linesOf greeting.segments =
      ("__output += \"a?>\\\"\";\n__output += __escape(<?jhs);\nx?\n" ++
        "__output += \"!<\";\n").toList := by decide
  have hlast : linesOf greeting.closed ++ pushText (sourceOf greeting.trailing ++
      (TagOptions.default.echo_tag ++ [' ', 'b'])) =
      ("__output += \"a?>\\\"\";\n__output += __escape(<?jhs);\nx?\n" ++
        "__output += \"!<<?= b\";\n").toList := by decide
  rw [hsource, hlines] at hpage
  rw [hsource, hlast] at hopen
  exact ⟨hpage, hopen⟩

end Wallermax.Templates
