import Wallermax.Base.Ascii
import Wallermax.Base.Uri
import Wallermax.Base.Xml

/-!
# Writing XML

A tree of elements written with the five special characters escaped. Escaping adds no
character that XML does not allow and takes none away, and it leaves the line ends alone:
reading the lines of a document is reading those of its texts and attribute values.
-/

namespace Wallermax.Base.Xml

/-! ## The writer -/

def escapeChar (c : Char) : List Char :=
  if c = '&' then "&amp;".toList
  else if c = '<' then "&lt;".toList
  else if c = '>' then "&gt;".toList
  else if c = '"' then "&quot;".toList
  else if c = Char.ofNat 39 then "&apos;".toList
  else [c]

def escape (text : List Char) : List Char := text.flatMap escapeChar

/-- A start tag, without its angle brackets. -/
def startTag (name : List Char) (attributes : Attributes) : List Char :=
  name ++ attributes.flatMap fun a => ' ' :: (a.1 ++ ('=' :: '"' :: (escape a.2 ++ ['"'])))

def Content.isEmpty : Content → Bool
  | .text [] => true
  | _ => false

mutual

/-- The tags of an element with the texts between them, behind a text as it is written. -/
def Element.chunks (before : List Char) : Element → List Chunk
  | .mk name attributes content =>
    if content.isEmpty then [(before, startTag name attributes ++ ['/'])]
    else (before, startTag name attributes) :: content.chunks ('/' :: name)

def Content.chunks (closing : List Char) : Content → List Chunk
  | .text text => [(escape text, closing)]
  | .child text element rest => element.chunks (escape text) ++ rest.chunks closing

end

/-- The characters of a cut document. -/
def written (chunks : List Chunk) (last : List Char) : List Char :=
  chunks.flatMap (fun c => c.1 ++ ('<' :: (c.2 ++ ['>']))) ++ last

def declaration : List Char := "?xml version=\"1.0\" encoding=\"UTF-8\"?".toList

/-- The document with this root, on lines of its own. -/
def document (root : Element) : List Char :=
  written (([], declaration) :: root.chunks ['\n']) ['\n']

mutual

/-- The characters of an element. -/
def Element.write : Element → List Char
  | .mk name attributes content =>
    if content.isEmpty then '<' :: (startTag name attributes ++ ['/', '>'])
    else '<' :: (startTag name attributes ++
      '>' :: (content.write ++ '<' :: '/' :: (name ++ ['>'])))

def Content.write : Content → List Char
  | .text text => escape text
  | .child text element rest => escape text ++ (element.write ++ rest.write)

end

/-! ## What is asked of a tree, and what is read of it -/

mutual

/-- Names are names, and no attribute is given twice. -/
def Element.Named : Element → Prop
  | .mk name attributes content =>
    isName name = true ∧ (∀ a ∈ attributes, isName a.1 = true) ∧
      (attributes.map Prod.fst).Nodup ∧ content.Named

def Content.Named : Content → Prop
  | .text _ => True
  | .child _ element rest => element.Named ∧ rest.Named

end

mutual

/-- The texts and the attribute values have such characters only. -/
def Element.all (p : Char → Bool) : Element → Bool
  | .mk _ attributes content => attributes.all (fun a => a.2.all p) && content.all p

def Content.all (p : Char → Bool) : Content → Bool
  | .text text => text.all p
  | .child text element rest => text.all p && element.all p && rest.all p

end

mutual

/-- Other texts and other attribute values. -/
def Element.map (f g : List Char → List Char) : Element → Element
  | .mk name attributes content =>
    .mk name (attributes.map fun a => (a.1, g a.2)) (content.map f g)

def Content.map (f g : List Char → List Char) : Content → Content
  | .text text => .text (f text)
  | .child text element rest => .child (f text) (element.map f g) (rest.map f g)

end

/-- The lines of a text. -/
def lines (text : List Char) : List Char := normalizeLines false text

/-- The tree that is read where this one was written. -/
def Element.read (e : Element) : Element := (e.map lines lines).map id (List.map toSpace)

/-! ## The characters of a document -/

theorem written_cons (chunk : Chunk) (chunks : List Chunk) (last : List Char) :
    written (chunk :: chunks) last =
      chunk.1 ++ '<' :: (chunk.2 ++ '>' :: written chunks last) := by
  simp [written]

mutual

theorem written_elementChunks (before last : List Char) (chunks : List Chunk) : ∀ e : Element,
    written (e.chunks before ++ chunks) last = before ++ (e.write ++ written chunks last)
  | .mk name attributes content => by
      rw [Element.chunks, Element.write]
      split
      · rw [List.singleton_append, written_cons]
        simp only [List.append_assoc, List.cons_append, List.nil_append]
      · rw [List.cons_append, written_cons, written_contentChunks]
        simp only [List.append_assoc, List.cons_append, List.nil_append]

theorem written_contentChunks (closing last : List Char) (chunks : List Chunk) : ∀ c : Content,
    written (c.chunks closing ++ chunks) last =
      c.write ++ '<' :: (closing ++ '>' :: written chunks last)
  | .text text => by rw [Content.chunks, Content.write, List.singleton_append, written_cons]
  | .child text element rest => by
      rw [Content.chunks, Content.write, List.append_assoc, written_elementChunks,
        written_contentChunks]
      simp only [List.append_assoc]

end

theorem document_eq (root : Element) : document root =
    '<' :: (declaration ++ '>' :: '\n' :: (root.write ++ ['\n'])) := by
  have hroot := written_elementChunks ['\n'] ['\n'] [] root
  rw [List.append_nil] at hroot
  rw [document, written_cons, hroot]
  rfl

/-! ## Escaping -/

variable {c : Char} {text raw doc name closing last : List Char} {attributes : Attributes}

theorem escapeChar_cases (c : Char) : escapeChar c = [c] ∧ c ≠ '&' ∧ c ≠ '<' ∧ c ≠ '>' ∧
      c ≠ '"' ∧ c ≠ Char.ofNat 39 ∨
    ∃ entity ∈ ["amp", "lt", "gt", "quot", "apos"],
      escapeChar c = '&' :: (entity.toList ++ [';']) ∧ reference entity.toList = some c := by
  unfold escapeChar
  split_ifs with hamp hlt hgt hquot hapos
  · exact .inr ⟨"amp", by simp, rfl, by rw [hamp]; rfl⟩
  · exact .inr ⟨"lt", by simp, rfl, by rw [hlt]; rfl⟩
  · exact .inr ⟨"gt", by simp, rfl, by rw [hgt]; rfl⟩
  · exact .inr ⟨"quot", by simp, rfl, by rw [hquot]; rfl⟩
  · exact .inr ⟨"apos", by simp, rfl, by rw [hapos]; rfl⟩
  · exact .inl ⟨rfl, hamp, hlt, hgt, hquot, hapos⟩

theorem escape_cons (c : Char) (text : List Char) :
    escape (c :: text) = escapeChar c ++ escape text := rfl

/-- An escaped text has none of the characters that end a text or a value. -/
theorem mem_escape (h : c ∈ escape text) :
    c ≠ '<' ∧ c ≠ '>' ∧ c ≠ '"' ∧ c ≠ Char.ofNat 39 := by
  obtain ⟨d, -, hc⟩ := List.mem_flatMap.mp h
  rcases escapeChar_cases d with ⟨heq, -, hlt, hgt, hquot, hapos⟩ | ⟨entity, hentity, heq, -⟩
  · rw [heq, List.mem_singleton] at hc
    subst hc
    exact ⟨hlt, hgt, hquot, hapos⟩
  · rw [heq] at hc
    have hchars : ∀ entity ∈ ["amp", "lt", "gt", "quot", "apos"],
        ('&' :: (entity.toList ++ [';'])).all
          (fun c => decide (c ≠ '<' ∧ c ≠ '>' ∧ c ≠ '"' ∧ c ≠ Char.ofNat 39)) = true := by
      decide
    exact forall_mem_of_all (hchars entity hentity) c hc

/-- **The references of an escaped text** give it back. -/
theorem decode_escape (text : List Char) : decode none (escape text) = some text := by
  induction text with
  | nil => rfl
  | cons c text ih =>
      rw [escape_cons]
      rcases escapeChar_cases c with ⟨heq, hamp, hlt, -⟩ | ⟨entity, hentity, heq, href⟩
      · rw [heq, List.singleton_append, decode, if_neg hamp, if_neg hlt, ih]
        rfl
      · -- the name of the reference is read character by character
        have hname : ∀ (entity : List Char) name, ';' ∉ entity →
            decode (some name) (entity ++ ';' :: escape text) =
              (reference (name ++ entity)).bind fun d =>
                (decode none (escape text)).map (d :: ·) := by
          intro entity
          induction entity with
          | nil => intro name _; rw [List.nil_append, decode, if_pos rfl, List.append_nil]
          | cons d entity ih =>
              intro name hnot
              rw [List.mem_cons, not_or] at hnot
              rw [List.cons_append, decode, if_neg (Ne.symm hnot.1), ih _ hnot.2,
                List.append_assoc]
              rfl
        have hnot : ∀ entity ∈ ["amp", "lt", "gt", "quot", "apos"], ';' ∉ entity.toList := by
          decide
        rw [heq, List.cons_append, List.append_assoc, decode, if_pos rfl, List.singleton_append,
          hname _ _ (hnot entity hentity), List.nil_append, href, ih]
        rfl

theorem readText_escape (text : List Char) : readText (escape text) = some text := by
  have hnone : ¬"]]>".toList <:+: escape text := by
    intro hinfix
    have hmem : '>' ∈ escape text := hinfix.subset (by decide)
    exact (mem_escape hmem).2.1 rfl
  rw [readText, if_neg hnone, decode_escape]

theorem map_toSpace_escape (text : List Char) :
    (escape text).map toSpace = escape (text.map toSpace) := by
  induction text with
  | nil => rfl
  | cons c text ih =>
      rw [List.map_cons, escape_cons, escape_cons, List.map_append, ih]
      have hc : (escapeChar c).map toSpace = escapeChar (toSpace c) := by
        rcases escapeChar_cases c with ⟨heq, hamp, hlt, hgt, hquot, hapos⟩ | ⟨e, he, heq, href⟩
        · rw [heq, List.map_singleton]
          unfold toSpace
          split
          · rfl
          · exact heq.symm
        · have hspecial : ∀ e ∈ ["amp", "lt", "gt", "quot", "apos"],
              (reference e.toList).all (fun d => decide (escapeChar d = '&' :: (e.toList ++ [';']) ∧
                toSpace d = d ∧ ('&' :: (e.toList ++ [';'])).map toSpace =
                  '&' :: (e.toList ++ [';']))) = true := by
            decide
          have hc := hspecial e he
          rw [href, Option.all_some, decide_eq_true_eq] at hc
          obtain ⟨hd, hsame, hmap⟩ := hc
          rw [heq, hsame, hd, hmap]
      rw [hc]

theorem readValue_escape (text : List Char) :
    readValue (escape text) = some (text.map toSpace) := by
  rw [readValue, map_toSpace_escape, decode_escape]

theorem all_escape (text : List Char) : (escape text).all isChar = text.all isChar := by
  induction text with
  | nil => rfl
  | cons c text ih =>
      rw [escape_cons, List.all_append, List.all_cons, ih]
      have hc : (escapeChar c).all isChar = isChar c := by
        rcases escapeChar_cases c with ⟨heq, -⟩ | ⟨e, he, heq, href⟩
        · rw [heq, List.all_cons, List.all_nil, Bool.and_true]
        · have hspecial : ∀ e ∈ ["amp", "lt", "gt", "quot", "apos"],
              (reference e.toList).map isChar = some (('&' :: (e.toList ++ [';'])).all isChar) := by
            decide
          have hc := hspecial e he
          rw [href, Option.map_some, Option.some_inj] at hc
          rw [heq, hc]
      rw [hc]

/-! ## Names -/

theorem not_isNameChar (h : isNameChar c = true) :
    c ∉ ['<', '>', '"', Char.ofNat 39, ' ', '\t', '\n', '\r', '/', '='] := by
  intro hmem
  have hnone : ∀ d ∈ ['<', '>', '"', Char.ofNat 39, ' ', '\t', '\n', '\r', '/', '='],
      isNameChar d = false := forall_mem_of_all (by decide)
  rw [hnone c hmem] at h
  cases h

theorem isChar_of_isNameChar (h : isNameChar c = true) : isChar c = true := by
  have hrange : (0x20 ≤ c.toNat ∧ c.toNat ≤ 0xFFFD) ∨ 0x10000 ≤ c.toNat := by
    simp only [isNameChar, isNameStart, inRanges, List.any_cons, List.any_nil, Bool.or_eq_true,
      Bool.and_eq_true, decide_eq_true_eq, beq_iff_eq, Bool.or_false, isAlpha_iff,
      isUpper_iff_toNat, isLower_iff_toNat, isDigit_iff_range, ← Char.toNat_inj,
      Char.reduceToNat] at h
    omega
  simp only [isChar, Bool.or_eq_true, Bool.and_eq_true, decide_eq_true_eq]
  grind

theorem nameChars_of_isName (h : isName name = true) :
    name ≠ [] ∧ ∀ c ∈ name, isNameChar c = true := by
  cases name with
  | nil => cases h
  | cons c name =>
      simp only [isName, Bool.and_eq_true, List.all_eq_true] at h
      refine ⟨List.cons_ne_nil _ _, fun d hd => ?_⟩
      rcases List.mem_cons.mp hd with rfl | hd
      · simp [isNameChar, h.1]
      · exact h.2 d hd

/-! ## Line ends -/

theorem normalizeLines_cons {b : Bool} (hc : c ≠ '\r') (hc' : c ≠ '\n') (text : List Char) :
    normalizeLines b (c :: text) = c :: normalizeLines false text := by
  rw [normalizeLines, if_neg hc, if_neg fun h => hc' h.2]

/-- A character that is no part of a line end separates what is before it. -/
theorem normalizeLines_append {b : Bool} (hc : c ≠ '\r') (hc' : c ≠ '\n')
    (text rest : List Char) : normalizeLines b (text ++ c :: rest) =
      normalizeLines b text ++ c :: normalizeLines false rest := by
  induction text generalizing b with
  | nil => exact normalizeLines_cons hc hc' rest
  | cons d text ih =>
      rw [List.cons_append, normalizeLines, normalizeLines]
      split
      · rw [ih, List.cons_append]
      · split
        · exact ih
        · rw [ih, List.cons_append]

theorem normalizeLines_plain {b : Bool} (h : ∀ c ∈ text, c ≠ '\r' ∧ c ≠ '\n') (hne : text ≠ [])
    (rest : List Char) :
    normalizeLines b (text ++ rest) = text ++ normalizeLines false rest := by
  induction text generalizing b with
  | nil => exact absurd rfl hne
  | cons c text ih =>
      obtain ⟨hc, hc'⟩ := h c List.mem_cons_self
      rw [List.cons_append, normalizeLines_cons hc hc']
      by_cases htext : text = []
      · rw [htext]
        rfl
      · rw [ih (fun d hd => h d (List.mem_cons_of_mem _ hd)) htext]
        rfl

theorem lines_eq_nil : lines text = [] ↔ text = [] := by
  cases text with
  | nil => exact iff_of_true rfl rfl
  | cons c text =>
      refine iff_of_false ?_ (List.cons_ne_nil _ _)
      rw [lines, normalizeLines]
      split
      · exact List.cons_ne_nil _ _
      · rw [if_neg (by simp)]
        exact List.cons_ne_nil _ _

theorem normalizeLines_escape {b : Bool} (text : List Char) :
    normalizeLines b (escape text) = escape (normalizeLines b text) := by
  induction text generalizing b with
  | nil => rfl
  | cons c text ih =>
      rw [escape_cons, normalizeLines]
      rcases escapeChar_cases c with ⟨heq, -⟩ | ⟨e, he, heq, href⟩
      · rw [heq, List.singleton_append, normalizeLines]
        split
        · rw [ih]
          rfl
        · split
          · exact ih
          · rw [ih, escape_cons, heq]
            rfl
      · -- neither a special character nor its reference is a line end
        have hspecial : ∀ e ∈ ["amp", "lt", "gt", "quot", "apos"],
            (reference e.toList).all (fun d => decide (d ≠ '\r' ∧ d ≠ '\n')) = true ∧
              ('&' :: (e.toList ++ [';'])).all (fun d => decide (d ≠ '\r' ∧ d ≠ '\n')) = true := by
          decide
        obtain ⟨hc, hchars⟩ := hspecial e he
        rw [href, Option.all_some, decide_eq_true_eq] at hc
        obtain ⟨hreturn, hnewline⟩ := hc
        rw [if_neg hreturn, if_neg fun h => hnewline h.2, escape_cons, heq,
          normalizeLines_plain (forall_mem_of_all hchars) (List.cons_ne_nil _ _), ih]

theorem lines_written (chunks : List Chunk) (last : List Char) :
    lines (written chunks last) =
      written (chunks.map fun c => (lines c.1, lines c.2)) (lines last) := by
  induction chunks with
  | nil => rfl
  | cons chunk chunks ih =>
      rw [written_cons, List.map_cons, written_cons, ← ih]
      unfold lines
      rw [normalizeLines_append (by decide) (by decide),
        normalizeLines_append (by decide) (by decide)]

theorem plain_of_isName (h : isName name = true) : ∀ c ∈ name, c ≠ '\r' ∧ c ≠ '\n' := by
  intro c hc
  have hnot := not_isNameChar ((nameChars_of_isName h).2 c hc)
  simp only [List.mem_cons, not_or] at hnot
  grind

theorem lines_startTag (hname : isName name = true)
    (hnames : ∀ a ∈ attributes, isName a.1 = true) :
    lines (startTag name attributes) =
      startTag name (attributes.map fun a => (a.1, lines a.2)) := by
  have hrest : lines (attributes.flatMap fun a =>
        ' ' :: (a.1 ++ ('=' :: '"' :: (escape a.2 ++ ['"'])))) =
      (attributes.map fun a => (a.1, lines a.2)).flatMap fun a =>
        ' ' :: (a.1 ++ ('=' :: '"' :: (escape a.2 ++ ['"']))) := by
    induction attributes with
    | nil => rfl
    | cons a attributes ih =>
        have ha := hnames a List.mem_cons_self
        have ih := ih fun b hb => hnames b (List.mem_cons_of_mem _ hb)
        unfold lines at ih ⊢
        simp only [List.map_cons, List.flatMap_cons, List.cons_append, List.append_assoc,
          List.nil_append]
        rw [normalizeLines_cons (by decide) (by decide),
          normalizeLines_plain (plain_of_isName ha) (nameChars_of_isName ha).1,
          normalizeLines_cons (by decide) (by decide), normalizeLines_cons (by decide) (by decide),
          normalizeLines_append (by decide) (by decide), normalizeLines_escape, ih]
  rw [startTag, startTag, ← hrest]
  exact normalizeLines_plain (plain_of_isName hname) (nameChars_of_isName hname).1 _

theorem isEmpty_map_lines (content : Content) :
    (content.map lines lines).isEmpty = content.isEmpty := by
  cases content with
  | text text =>
      cases text with
      | nil => rfl
      | cons c text =>
          obtain ⟨d, rest, heq⟩ := List.exists_cons_of_ne_nil
            (mt lines_eq_nil.mp (List.cons_ne_nil c text))
          rw [Content.map, heq]
          rfl
  | child => rfl

mutual

/-- The lines of what is written are those of the texts and values. -/
theorem lines_elementChunks (before : List Char) : ∀ {e : Element}, e.Named →
    (e.chunks before).map (fun c => (lines c.1, lines c.2)) =
      (e.map lines lines).chunks (lines before)
  | .mk name attributes content, ⟨hname, hnames, _, hcontent⟩ => by
      have htag := lines_startTag hname hnames
      rw [Element.map, Element.chunks, Element.chunks, isEmpty_map_lines]
      split
      · have hslash : lines (startTag name attributes ++ ['/']) =
            lines (startTag name attributes) ++ ['/'] :=
          normalizeLines_append (by decide) (by decide) _ _
        rw [List.map_singleton, hslash, htag]
      · have hclose : lines ('/' :: name) = '/' :: name := by
          have hplain := normalizeLines_plain (b := false) (plain_of_isName hname)
            (nameChars_of_isName hname).1 []
          rw [List.append_nil, normalizeLines, List.append_nil] at hplain
          rw [lines, normalizeLines_cons (by decide) (by decide), hplain]
        rw [List.map_cons, htag, lines_contentChunks hclose hcontent]

theorem lines_contentChunks {closing : List Char} (hclosing : lines closing = closing) :
    ∀ {c : Content}, c.Named →
      (c.chunks closing).map (fun c => (lines c.1, lines c.2)) =
        (c.map lines lines).chunks closing
  | .text text, _ => by
      rw [Content.chunks, Content.map, Content.chunks, List.map_singleton, hclosing]
      exact congrArg (fun t => [(t, closing)]) (normalizeLines_escape text)
  | .child text element rest, ⟨helement, hrest⟩ => by
      have htext : lines (escape text) = escape (lines text) := normalizeLines_escape text
      rw [Content.chunks, Content.map, Content.chunks, List.map_append,
        lines_elementChunks _ helement, lines_contentChunks hclosing hrest, htext]

end

theorem lines_document {e : Element} (h : e.Named) :
    lines (document e) = document (e.map lines lines) := by
  rw [document, lines_written, List.map_cons, lines_elementChunks _ h]
  rfl

/-! ## Allowed characters -/

theorem all_written (chunks : List Chunk) (last : List Char) :
    (written chunks last).all isChar =
      (chunks.all (fun c => c.1.all isChar && c.2.all isChar) && last.all isChar) := by
  have hangles : isChar '<' = true ∧ isChar '>' = true := by decide
  induction chunks with
  | nil => rfl
  | cons chunk chunks ih =>
      rw [written_cons]
      simp only [List.all_append, List.all_cons, ih, hangles, Bool.true_and, Bool.and_assoc]

theorem all_name (h : isName name = true) : name.all isChar = true := by
  rw [List.all_eq_true]
  exact fun c hc => isChar_of_isNameChar ((nameChars_of_isName h).2 c hc)

theorem all_startTag (hname : isName name = true)
    (hnames : ∀ a ∈ attributes, isName a.1 = true) :
    (startTag name attributes).all isChar = attributes.all fun a => a.2.all isChar := by
  have hfixed : isChar ' ' = true ∧ isChar '=' = true ∧ isChar '"' = true := by decide
  rw [startTag, List.all_append, all_name hname, Bool.true_and]
  induction attributes with
  | nil => rfl
  | cons a attributes ih =>
      rw [List.flatMap_cons, List.all_append, List.all_cons, ih fun b hb =>
        hnames b (List.mem_cons_of_mem _ hb)]
      simp only [List.all_append, List.all_cons, List.all_nil, hfixed, all_escape,
        all_name (hnames a List.mem_cons_self), Bool.true_and, Bool.and_true]

mutual

theorem all_elementChunks (before : List Char) : ∀ {e : Element}, e.Named →
    (e.chunks before).all (fun c => c.1.all isChar && c.2.all isChar) =
      (before.all isChar && e.all isChar)
  | .mk name attributes content, ⟨hname, hnames, _, hcontent⟩ => by
      have htag := all_startTag hname hnames
      have hslash : isChar '/' = true := by decide
      rw [Element.chunks, Element.all]
      split
      next hempty =>
        have hnone : content.all isChar = true := by
          cases content with
          | text text =>
              cases text with
              | nil => rfl
              | cons => cases hempty
          | child => cases hempty
        simp [htag, hslash, hnone]
      next =>
        have hclose : ('/' :: name).all isChar = true := by
          rw [List.all_cons, all_name hname, hslash]
          rfl
        rw [List.all_cons, all_contentChunks hclose hcontent, htag, Bool.and_assoc]

theorem all_contentChunks {closing : List Char} (hclosing : closing.all isChar = true) :
    ∀ {c : Content}, c.Named →
      (c.chunks closing).all (fun c => c.1.all isChar && c.2.all isChar) = c.all isChar
  | .text text, _ => by
      rw [Content.chunks, Content.all, List.all_cons, List.all_nil, hclosing, all_escape]
      simp
  | .child text element rest, ⟨helement, hrest⟩ => by
      rw [Content.chunks, Content.all, List.all_append, all_elementChunks _ helement,
        all_contentChunks hclosing hrest, all_escape]

end

theorem all_document {e : Element} (h : e.Named) :
    (document e).all isChar = e.all isChar := by
  have hfixed : ['\n'].all isChar = true ∧ declaration.all isChar = true := by decide
  rw [document, all_written, List.all_cons, all_elementChunks _ h]
  simp [hfixed]

end Wallermax.Base.Xml
