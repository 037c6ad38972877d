import Wallermax.Base.Occurrence
import Wallermax.Tenants.Forms

/-!
# The template compiler

`parser::compile`: the echo pass rewrites `<?= … ?>` into a code block, the code
pass turns `<?jhs … ?>` blocks into code and the text around them into string
literals, and the result is wrapped into one program. The second pass scans what
the first one wrote. Texts are lists of characters: every cut is made at a tag.
-/

namespace Wallermax.Templates

open Wallermax.Base

/-! ## String literals -/

/-- `{:04x}`. -/
def hex4 (n : ℕ) : List Char :=
  [Nat.digitChar (n / 4096 % 16), Nat.digitChar (n / 256 % 16), Nat.digitChar (n / 16 % 16),
    Nat.digitChar (n % 16)]

/-- One character of `json_stringify`. -/
def jsonEscape (c : Char) : List Char :=
  if c = '"' then ['\\', '"']
  else if c = '\\' then ['\\', '\\']
  else if c = '\n' then ['\\', 'n']
  else if c = '\r' then ['\\', 'r']
  else if c = '\t' then ['\\', 't']
  else if c.toNat = 0x08 then ['\\', 'b']
  else if c.toNat = 0x0C then ['\\', 'f']
  else if c.toNat < 0x20 then ['\\', 'u'] ++ hex4 c.toNat
  else [c]

def jsonStringify (text : List Char) : List Char :=
  ['"'] ++ text.flatMap jsonEscape ++ ['"']

/-! ## The two passes -/

/-- The tags. With an empty closing tag and an empty opener a pass would not
advance; the engine never has one. -/
structure TagOptions : Type where
  open_tag : List Char
  close_tag : List Char
  echo_tag : List Char
  close_ne : close_tag ≠ []

def TagOptions.default : TagOptions where
  open_tag := ['<', '?', 'j', 'h', 's']
  close_tag := ['?', '>']
  echo_tag := ['<', '?', '=']
  close_ne := by simp

/-- `str::trim`. -/
def trimChars (text : List Char) : List Char :=
  ((text.dropWhile Tenants.isWhitespace).reverse.dropWhile Tenants.isWhitespace).reverse

/-- What an echo tag becomes between the tags of a code block. -/
def echoCall (expression : List Char) : List Char :=
  "__output += __escape(".toList ++ trimChars expression ++ ");".toList

theorem length_block_lt {tags : TagOptions} {opener s before after body rest : List Char}
    (hopen : splitFirst opener s = some (before, after))
    (hclose : splitFirst tags.close_tag after = some (body, rest)) : rest.length < s.length := by
  have hpos : 0 < tags.close_tag.length := List.length_pos_iff.mpr tags.close_ne
  have := length_splitFirst hopen
  have := length_splitFirst hclose
  omega

/-- Pass one. -/
def rewriteEchoTags (tags : TagOptions) (source : List Char) : List Char :=
  match _hopen : splitFirst tags.echo_tag source with
  | none => source
  | some (before, after) =>
    match _hclose : splitFirst tags.close_tag after with
    -- no later echo tag can close either
    | none => before ++ (tags.echo_tag ++ after)
    | some (expression, rest) =>
        before ++ (tags.open_tag ++ (echoCall expression ++ (tags.close_tag ++
          rewriteEchoTags tags rest)))
termination_by source.length
decreasing_by exact length_block_lt _hopen _hclose

theorem rewriteEchoTags_of_none {tags : TagOptions} {s : List Char}
    (h : splitFirst tags.echo_tag s = none) : rewriteEchoTags tags s = s := by
  unfold rewriteEchoTags
  split
  · rfl
  · rename_i heq
    rw [h] at heq
    cases heq

theorem rewriteEchoTags_unclosed {tags : TagOptions} {s before after : List Char}
    (h : splitFirst tags.echo_tag s = some (before, after))
    (hclose : splitFirst tags.close_tag after = none) : rewriteEchoTags tags s = s := by
  unfold rewriteEchoTags
  split
  · rfl
  · rename_i heq
    cases h.symm.trans heq
    split
    · exact (splitFirst_some h).symm
    · rename_i heq'
      rw [hclose] at heq'
      cases heq'

theorem rewriteEchoTags_tag {tags : TagOptions} {s before after expression rest : List Char}
    (h : splitFirst tags.echo_tag s = some (before, after))
    (hclose : splitFirst tags.close_tag after = some (expression, rest)) :
    rewriteEchoTags tags s = before ++ (tags.open_tag ++ (echoCall expression ++
      (tags.close_tag ++ rewriteEchoTags tags rest))) := by
  rw [rewriteEchoTags]
  split
  · rename_i heq
    rw [h] at heq
    cases heq
  · rename_i heq
    cases h.symm.trans heq
    split
    · rename_i heq'
      rw [hclose] at heq'
      cases heq'
    · rename_i heq'
      cases hclose.symm.trans heq'
      rfl

/-- The echo pass copies a stretch in which no echo tag begins. -/
theorem rewriteEchoTags_clear {tags : TagOptions} {a b : List Char}
    (h : Clear tags.echo_tag a b) :
    rewriteEchoTags tags (a ++ b) = a ++ rewriteEchoTags tags b := by
  have hsplit := h.splitFirst
  cases hb : splitFirst tags.echo_tag b with
  | none =>
      rw [hb] at hsplit
      rw [rewriteEchoTags_of_none hb, rewriteEchoTags_of_none hsplit]
  | some cut =>
      obtain ⟨before, after⟩ := cut
      rw [hb] at hsplit
      cases hclose : splitFirst tags.close_tag after with
      | none => rw [rewriteEchoTags_unclosed hb hclose, rewriteEchoTags_unclosed hsplit hclose]
      | some cut =>
          rw [rewriteEchoTags_tag hb hclose, rewriteEchoTags_tag hsplit hclose,
            List.append_assoc]

/-- Nor does it change anything when no tag can close behind the stretch. -/
theorem rewriteEchoTags_of_no_close {tags : TagOptions} {a b : List Char}
    (ha : Clear tags.echo_tag a b) (hb : ¬ tags.close_tag <:+: b) :
    rewriteEchoTags tags (a ++ b) = a ++ b := by
  rw [rewriteEchoTags_clear ha]
  cases hsplit : splitFirst tags.echo_tag b with
  | none => rw [rewriteEchoTags_of_none hsplit]
  | some cut =>
      obtain ⟨before, after⟩ := cut
      have hafter : ¬ tags.close_tag <:+: after := fun h =>
        hb (h.trans (splitFirst_suffix hsplit).isInfix)
      rw [rewriteEchoTags_unclosed hsplit (splitFirst_eq_none.mpr hafter)]

/-- An output line for a literal text. -/
def pushText (text : List Char) : List Char :=
  "__output += ".toList ++ jsonStringify text ++ [';', '\n']

/-- Pass two. An unclosed tag makes the remainder, tag and all, one text. -/
def compileCodeBlocks (tags : TagOptions) (source : List Char) : List Char :=
  match _hopen : splitFirst tags.open_tag source with
  | none => if source = [] then [] else pushText source
  | some (before, after) =>
    match _hclose : splitFirst tags.close_tag after with
    | none => pushText source
    | some (body, rest) =>
        (if before = [] then [] else pushText before) ++ (body ++ ('\n' ::
          compileCodeBlocks tags rest))
termination_by source.length
decreasing_by exact length_block_lt _hopen _hclose

theorem compileCodeBlocks_nil (tags : TagOptions) (hopen : tags.open_tag ≠ []) :
    compileCodeBlocks tags [] = [] := by
  unfold compileCodeBlocks
  split
  · rfl
  · rename_i heq
    simp [splitFirst, hopen] at heq

theorem compileCodeBlocks_of_none {tags : TagOptions} {s : List Char}
    (h : splitFirst tags.open_tag s = none) (hs : s ≠ []) :
    compileCodeBlocks tags s = pushText s := by
  unfold compileCodeBlocks
  split
  · rw [if_neg hs]
  · rename_i heq
    rw [h] at heq
    cases heq

theorem compileCodeBlocks_unclosed {tags : TagOptions} {s before after : List Char}
    (h : splitFirst tags.open_tag s = some (before, after))
    (hclose : splitFirst tags.close_tag after = none) :
    compileCodeBlocks tags s = pushText s := by
  unfold compileCodeBlocks
  split
  · rename_i heq
    rw [h] at heq
    cases heq
  · rename_i heq
    cases h.symm.trans heq
    split
    · rfl
    · rename_i heq'
      rw [hclose] at heq'
      cases heq'

theorem compileCodeBlocks_tag {tags : TagOptions} {s before after body rest : List Char}
    (h : splitFirst tags.open_tag s = some (before, after))
    (hclose : splitFirst tags.close_tag after = some (body, rest)) :
    compileCodeBlocks tags s = (if before = [] then [] else pushText before) ++ (body ++ ('\n' ::
      compileCodeBlocks tags rest)) := by
  rw [compileCodeBlocks]
  split
  · rename_i heq
    rw [h] at heq
    cases heq
  · rename_i heq
    cases h.symm.trans heq
    split
    · rename_i heq'
      rw [hclose] at heq'
      cases heq'
    · rename_i heq'
      cases hclose.symm.trans heq'
      rfl

/-- A block closes at the first closing tag in it. -/
theorem compileCodeBlocks_block {tags : TagOptions} {body rest : List Char}
    (hbody : Clear tags.close_tag body (tags.close_tag ++ rest)) :
    compileCodeBlocks tags (tags.open_tag ++ (body ++ (tags.close_tag ++ rest))) =
      body ++ ('\n' :: compileCodeBlocks tags rest) :=
  compileCodeBlocks_tag (splitFirst_append _ _) hbody.splitFirst_append

/-- A text in front of a block is one line. -/
theorem compileCodeBlocks_text {tags : TagOptions} {text body rest : List Char}
    (htext : Clear tags.open_tag text (tags.open_tag ++ (body ++ (tags.close_tag ++ rest))))
    (hne : text ≠ []) (hbody : Clear tags.close_tag body (tags.close_tag ++ rest)) :
    compileCodeBlocks tags (text ++ (tags.open_tag ++ (body ++ (tags.close_tag ++ rest)))) =
      pushText text ++
        compileCodeBlocks tags (tags.open_tag ++ (body ++ (tags.close_tag ++ rest))) := by
  rw [compileCodeBlocks_block hbody,
    compileCodeBlocks_tag htext.splitFirst_append hbody.splitFirst_append, if_neg hne]

/-- When no block can close behind the stretch, all of it is one text. -/
theorem compileCodeBlocks_of_no_close {tags : TagOptions} {a b : List Char}
    (ha : Clear tags.open_tag a b) (hb : ¬ tags.close_tag <:+: b) (hne : a ++ b ≠ []) :
    compileCodeBlocks tags (a ++ b) = pushText (a ++ b) := by
  have hsplit := ha.splitFirst
  cases hcut : splitFirst tags.open_tag b with
  | none =>
      rw [hcut] at hsplit
      exact compileCodeBlocks_of_none hsplit hne
  | some cut =>
      obtain ⟨before, after⟩ := cut
      rw [hcut] at hsplit
      have hafter : ¬ tags.close_tag <:+: after := fun h =>
        hb (h.trans (splitFirst_suffix hcut).isInfix)
      exact compileCodeBlocks_unclosed hsplit (splitFirst_eq_none.mpr hafter)

/-- `wrap`: the flat function around the code. -/
def wrap (code : List Char) : List Char :=
  ("\n(function() \x7b\n" ++ "  let __output = \"\";\n\n" ++
    "  // echo() — writes escaped output directly from code blocks\n" ++
    "  function echo(...args) \x7b\n" ++
    "    __output += args.map(__jhsEchoPart).join('');\n" ++ "  \x7d\n\n").toList ++ code ++
  ("\n  return __output;\n" ++ "\x7d)()").toList

theorem wrap_injective : Function.Injective wrap := by
  intro code code' h
  exact List.append_cancel_left (List.append_cancel_right h)

def compile (source : List Char) (tags : TagOptions) : List Char :=
  wrap (compileCodeBlocks tags (rewriteEchoTags tags source))

/-- A source without tags is one text. -/
theorem compile_plain {tags : TagOptions} {source : List Char}
    (hecho : ¬ tags.echo_tag <:+: source) (hopen : ¬ tags.open_tag <:+: source)
    (hne : source ≠ []) : compile source tags = wrap (pushText source) := by
  rw [compile, rewriteEchoTags_of_none (splitFirst_eq_none.mpr hecho),
    compileCodeBlocks_of_none (splitFirst_eq_none.mpr hopen) hne]

end Wallermax.Templates
