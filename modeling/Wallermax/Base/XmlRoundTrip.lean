import Wallermax.Base.XmlWriting

/-!
# Reading what was written

The tree comes back where every character is one that XML allows, with the line ends of its
texts and the white space of its attribute values as XML reads them. A document with a
forbidden character is refused, however it is escaped.
-/

namespace Wallermax.Base.Xml

variable {text raw name last : List Char} {attributes : Attributes}

/-! ## Cutting -/

/-- The tag ends at the angle bracket behind it, and not before. -/
def Shut (tag : List Char) : Prop :=
  ∀ text doc, cut text (some ([], none)) (tag ++ '>' :: doc) =
    (cut [] none doc).map fun r => ((text, tag) :: r.1, r.2)

theorem cut_text (h : '<' ∉ raw) (text doc : List Char) :
    cut text none (raw ++ doc) = cut (text ++ raw) none doc := by
  induction raw generalizing text with
  | nil => rw [List.nil_append, List.append_nil]
  | cons c raw ih =>
      rw [List.mem_cons, not_or] at h
      rw [List.cons_append, cut, if_neg (Ne.symm h.1), ih h.2, List.append_assoc]
      rfl

theorem cut_plain (h : ∀ c ∈ raw, c ≠ '>' ∧ isQuote c = false) (text tag doc : List Char) :
    cut text (some (tag, none)) (raw ++ doc) = cut text (some (tag ++ raw, none)) doc := by
  induction raw generalizing tag with
  | nil => rw [List.nil_append, List.append_nil]
  | cons c raw ih =>
      obtain ⟨hc, hquote⟩ := h c List.mem_cons_self
      rw [List.cons_append, cut, if_neg hc, hquote, if_neg (by simp),
        ih fun d hd => h d (List.mem_cons_of_mem _ hd), List.append_assoc]
      rfl

theorem cut_quoted {quote : Char} (h : quote ∉ raw) (text tag doc : List Char) :
    cut text (some (tag, some quote)) (raw ++ doc) =
      cut text (some (tag ++ raw, some quote)) doc := by
  induction raw generalizing tag with
  | nil => rw [List.nil_append, List.append_nil]
  | cons c raw ih =>
      rw [List.mem_cons, not_or] at h
      rw [List.cons_append, cut, if_neg (Ne.symm h.1), ih h.2, List.append_assoc]
      rfl

theorem plain_name (h : isName name = true) : ∀ c ∈ name, c ≠ '>' ∧ isQuote c = false := by
  intro c hc
  have hnot := not_isNameChar ((nameChars_of_isName h).2 c hc)
  simp only [List.mem_cons, not_or] at hnot
  refine ⟨hnot.2.1, ?_⟩
  rw [isQuote, Bool.or_eq_false_iff, beq_eq_false_iff_ne, beq_eq_false_iff_ne]
  exact ⟨hnot.2.2.1, hnot.2.2.2.1⟩

theorem cut_startTag (hname : isName name = true)
    (hnames : ∀ a ∈ attributes, isName a.1 = true) (text doc : List Char) :
    cut text (some ([], none)) (startTag name attributes ++ doc) =
      cut text (some (startTag name attributes, none)) doc := by
  have hattributes : ∀ tag, cut text (some (tag, none)) (attributes.flatMap (fun a =>
        ' ' :: (a.1 ++ ('=' :: '"' :: (escape a.2 ++ ['"'])))) ++ doc) =
      cut text (some (tag ++ attributes.flatMap fun a =>
        ' ' :: (a.1 ++ ('=' :: '"' :: (escape a.2 ++ ['"']))), none)) doc := by
    induction attributes with
    | nil => simp
    | cons a attributes ih =>
        intro tag
        have ha := hnames a List.mem_cons_self
        have ih := ih fun b hb => hnames b (List.mem_cons_of_mem _ hb)
        have hspace : ∀ c ∈ [' '], c ≠ '>' ∧ isQuote c = false := forall_mem_of_all (by decide)
        have hequals : ∀ c ∈ ['='], c ≠ '>' ∧ isQuote c = false := forall_mem_of_all (by decide)
        have hvalue : '"' ∉ escape a.2 := fun hmem => (mem_escape hmem).2.2.1 rfl
        have hopen : ∀ tag doc, cut text (some (tag, none)) ('"' :: doc) =
            cut text (some (tag ++ ['"'], some '"')) doc := fun _ _ => rfl
        have hclose : ∀ tag doc, cut text (some (tag, some '"')) ('"' :: doc) =
            cut text (some (tag ++ ['"'], none)) doc := fun _ _ => rfl
        -- a space, the name, the equals sign, and the value in its quotes
        have hsplit : (a :: attributes).flatMap (fun a =>
              ' ' :: (a.1 ++ ('=' :: '"' :: (escape a.2 ++ ['"'])))) ++ doc =
            [' '] ++ (a.1 ++ (['='] ++ ('"' :: (escape a.2 ++ '"' ::
              (attributes.flatMap (fun a =>
                ' ' :: (a.1 ++ ('=' :: '"' :: (escape a.2 ++ ['"'])))) ++ doc))))) := by
          simp
        rw [hsplit, cut_plain hspace, cut_plain (plain_name ha), cut_plain hequals, hopen,
          cut_quoted hvalue, hclose, ih]
        simp
  rw [startTag, List.append_assoc, cut_plain (plain_name hname), hattributes]
  rfl

theorem shut_startTag (hname : isName name = true)
    (hnames : ∀ a ∈ attributes, isName a.1 = true) : Shut (startTag name attributes) := by
  intro text doc
  rw [cut_startTag hname hnames, cut, if_pos rfl]

theorem shut_emptyTag (hname : isName name = true)
    (hnames : ∀ a ∈ attributes, isName a.1 = true) :
    Shut (startTag name attributes ++ ['/']) := by
  intro text doc
  have hslash : ∀ c ∈ ['/'], c ≠ '>' ∧ isQuote c = false := forall_mem_of_all (by decide)
  rw [List.append_assoc, cut_startTag hname hnames, cut_plain hslash, cut, if_pos rfl]

theorem shut_closeTag (hname : isName name = true) : Shut ('/' :: name) := by
  intro text doc
  have hslash : ∀ c ∈ '/' :: name, c ≠ '>' ∧ isQuote c = false := by
    intro c hc
    rcases List.mem_cons.mp hc with rfl | hc
    · decide
    · exact plain_name hname c hc
  rw [cut_plain hslash, cut, if_pos rfl]
  rfl

/-- **A document is cut where it was put together.** -/
theorem cut_written {chunks : List Chunk} (h : ∀ c ∈ chunks, '<' ∉ c.1 ∧ Shut c.2)
    (hlast : '<' ∉ last) : cut [] none (written chunks last) = some (chunks, last) := by
  induction chunks with
  | nil =>
      have htext := cut_text hlast [] []
      rw [List.append_nil] at htext
      exact htext
  | cons chunk chunks ih =>
      obtain ⟨htext, hshut⟩ := h chunk List.mem_cons_self
      rw [written_cons, cut_text htext, List.nil_append, cut, if_pos rfl, hshut,
        ih fun c hc => h c (List.mem_cons_of_mem _ hc)]
      rfl

mutual

theorem shut_elementChunks {before : List Char} (hbefore : '<' ∉ before) :
    ∀ {e : Element}, e.Named → ∀ c ∈ e.chunks before, '<' ∉ c.1 ∧ Shut c.2
  | .mk name attributes content, ⟨hname, hnames, _, hcontent⟩ => by
      rw [Element.chunks]
      split
      · intro c hc
        obtain rfl := List.mem_singleton.mp hc
        exact ⟨hbefore, shut_emptyTag hname hnames⟩
      · intro c hc
        rcases List.mem_cons.mp hc with rfl | hc
        · exact ⟨hbefore, shut_startTag hname hnames⟩
        · exact shut_contentChunks (shut_closeTag hname) hcontent c hc

theorem shut_contentChunks {closing : List Char} (hclosing : Shut closing) :
    ∀ {c : Content}, c.Named → ∀ chunk ∈ c.chunks closing, '<' ∉ chunk.1 ∧ Shut chunk.2
  | .text text, _ => by
      intro c hc
      rw [Content.chunks] at hc
      obtain rfl := List.mem_singleton.mp hc
      exact ⟨fun hmem => (mem_escape hmem).1 rfl, hclosing⟩
  | .child text element rest, ⟨helement, hrest⟩ => by
      intro c hc
      rw [Content.chunks] at hc
      rcases List.mem_append.mp hc with hc | hc
      · exact shut_elementChunks (fun hmem => (mem_escape hmem).1 rfl) helement c hc
      · exact shut_contentChunks hclosing hrest c hc

end

theorem cut_document {e : Element} (h : e.Named) :
    cut [] none (document e) = some (([], declaration) :: e.chunks ['\n'], ['\n']) := by
  refine cut_written ?_ (by decide)
  intro c hc
  rcases List.mem_cons.mp hc with rfl | hc
  · exact ⟨by simp, fun _ _ => rfl⟩
  · exact shut_elementChunks (by decide) h c hc

/-! ## Tags -/

theorem readAttributes_startTag (hnames : ∀ a ∈ attributes, isName a.1 = true) (seen : Bool) :
    readAttributes (.gap seen) (attributes.flatMap fun a =>
        ' ' :: (a.1 ++ ('=' :: '"' :: (escape a.2 ++ ['"'])))) =
      some (attributes.map fun a => (a.1, a.2.map toSpace)) := by
  induction attributes generalizing seen with
  | nil => rfl
  | cons a attributes ih =>
      have hname := hnames a List.mem_cons_self
      have ih := ih (fun b hb => hnames b (List.mem_cons_of_mem _ hb)) false
      obtain ⟨first, name, hsplit⟩ := List.exists_cons_of_ne_nil (nameChars_of_isName hname).1
      have hfirst : isNameStart first = true := by
        rw [hsplit] at hname
        simp only [isName, Bool.and_eq_true] at hname
        exact hname.1
      have hchars := (nameChars_of_isName hname).2
      rw [hsplit] at hchars
      have hfirstSpace : isSpace first = false := by
        have hnot := not_isNameChar (hchars first List.mem_cons_self)
        simp only [List.mem_cons, not_or] at hnot
        simp [isSpace, hnot]
      have hread : ∀ name' : List Char, (∀ c ∈ name', isNameChar c = true) → ∀ start rest,
          readAttributes (.name start) (name' ++ '=' :: rest) =
            readAttributes (.quote (start ++ name')) rest := by
        intro name'
        induction name' with
        | nil =>
            intro _ start rest
            rw [List.nil_append, List.append_nil, readAttributes, if_neg (by decide), if_pos rfl]
        | cons c name' ih =>
            intro hc start rest
            rw [List.cons_append, readAttributes, if_pos (hc c List.mem_cons_self),
              ih (fun d hd => hc d (List.mem_cons_of_mem _ hd)), List.append_assoc]
            rfl
      have hvalue : ∀ value : List Char, '"' ∉ value → ∀ start rest,
          readAttributes (.value a.1 '"' start) (value ++ '"' :: rest) =
            (readValue (start ++ value)).bind fun value =>
              (readAttributes (.gap false) rest).map ((a.1, value) :: ·) := by
        intro value
        induction value with
        | nil =>
            intro _ start rest
            rw [List.nil_append, List.append_nil, readAttributes, if_pos rfl]
        | cons c value ih =>
            intro hc start rest
            rw [List.mem_cons, not_or] at hc
            rw [List.cons_append, readAttributes, if_neg (Ne.symm hc.1), ih hc.2,
              List.append_assoc]
            rfl
      have hquote : '"' ∉ escape a.2 := fun hmem => (mem_escape hmem).2.2.1 rfl
      rw [List.flatMap_cons, List.cons_append, readAttributes, if_pos (by decide)]
      simp only [List.append_assoc, List.cons_append, List.nil_append]
      rw [hsplit, List.cons_append, readAttributes, hfirstSpace, if_neg (by simp), hfirst,
        Bool.true_and, if_pos rfl,
        hread name (fun c hc => hchars c (List.mem_cons_of_mem _ hc)), List.singleton_append,
        ← hsplit, readAttributes, if_neg (by decide), if_pos (by decide), hvalue _ hquote,
        List.nil_append, readValue_escape, Option.bind_some, ih]
      rfl

/-- Where the name of a tag ends. -/
theorem readTag_name (hname : isName name = true) {rest : List Char}
    (hrest : ∀ c ∈ rest.head?, isNameChar c = false) :
    readTag (name ++ rest) =
      if rest.getLast? = some '/' then
        ((readAttributes (.gap false) rest.dropLast).bind distinct).map (.empty name)
      else ((readAttributes (.gap false) rest).bind distinct).map (.start name) := by
  obtain ⟨hne, hchars⟩ := nameChars_of_isName hname
  obtain ⟨first, tail, rfl⟩ := List.exists_cons_of_ne_nil hne
  have hslash : ¬(first :: tail ++ rest).head? = some '/' := by
    intro hfirst
    have hnot := not_isNameChar (hchars first List.mem_cons_self)
    rw [Option.some.inj hfirst] at hnot
    exact hnot (by decide)
  have htake : (first :: tail ++ rest).takeWhile isNameChar = first :: tail := by
    rw [List.takeWhile_append_of_pos hchars]
    cases rest with
    | nil => exact List.append_nil _
    | cons c rest =>
        rw [List.takeWhile_cons_of_neg (by simp [hrest c rfl]), List.append_nil]
  have hdrop : (first :: tail ++ rest).dropWhile isNameChar = rest := by
    rw [List.dropWhile_append_of_pos hchars]
    cases rest with
    | nil => rfl
    | cons c rest => exact List.dropWhile_cons_of_neg (by simp [hrest c rfl])
  rw [readTag, if_neg hslash]
  simp only [htake, hdrop, hname, Bool.true_eq_false, if_false]

section StartTag

variable (hname : isName name = true) (hnames : ∀ a ∈ attributes, isName a.1 = true)
  (hnodup : (attributes.map Prod.fst).Nodup)

include hnames hnodup in
theorem readAttributes_distinct :
    (readAttributes (.gap false) (attributes.flatMap fun a =>
        ' ' :: (a.1 ++ ('=' :: '"' :: (escape a.2 ++ ['"']))))).bind distinct =
      some (attributes.map fun a => (a.1, a.2.map toSpace)) := by
  have hnodup' : ((attributes.map fun a => (a.1, a.2.map toSpace)).map Prod.fst).Nodup := by
    rw [List.map_map]
    exact hnodup
  rw [readAttributes_startTag hnames, Option.bind_some, distinct, if_pos hnodup']

include hname hnames hnodup

theorem readTag_startTag : readTag (startTag name attributes) =
    some (.start name (attributes.map fun a => (a.1, a.2.map toSpace))) := by
  rw [startTag, readTag_name hname, readAttributes_distinct hnames hnodup]
  · rw [if_neg]
    · rfl
    · rcases List.eq_nil_or_concat attributes with rfl | ⟨init, a, rfl⟩
      · simp
      · have hquote : (init.concat a).flatMap (fun a =>
              ' ' :: (a.1 ++ ('=' :: '"' :: (escape a.2 ++ ['"'])))) =
            (init.flatMap (fun a => ' ' :: (a.1 ++ ('=' :: '"' :: (escape a.2 ++ ['"'])))) ++
              ' ' :: (a.1 ++ ('=' :: '"' :: escape a.2))) ++ ['"'] := by
          simp
        rw [hquote, List.getLast?_concat]
        decide
  · intro c hc
    cases attributes with
    | nil => cases hc
    | cons a attributes =>
        obtain rfl : ' ' = c := Option.some.inj hc
        decide

theorem readTag_emptyTag : readTag (startTag name attributes ++ ['/']) =
    some (.empty name (attributes.map fun a => (a.1, a.2.map toSpace))) := by
  rw [startTag, List.append_assoc, readTag_name hname, if_pos (by simp), List.dropLast_concat,
    readAttributes_distinct hnames hnodup]
  · rfl
  · intro c hc
    cases attributes with
    | nil =>
        obtain rfl : '/' = c := Option.some.inj hc
        decide
    | cons a attributes =>
        obtain rfl : ' ' = c := Option.some.inj hc
        decide

end StartTag

theorem readTag_closeTag (hname : isName name = true) :
    readTag ('/' :: name) = some (.close name) := by
  have hchars := (nameChars_of_isName hname).2
  have htake : name.takeWhile isNameChar = name := List.takeWhile_eq_self_iff.mpr hchars
  have hdrop : name.dropWhile isNameChar = [] := List.dropWhile_eq_nil_iff.mpr hchars
  rw [readTag, if_pos (List.head?_cons ..)]
  simp [htake, hdrop, hname]

/-! ## The tree -/

mutual

/-- **A written element is built again**, in front of whatever follows. -/
theorem build_elementChunks {before read : List Char} {current : Open}
    {around : List (Open × List Char)}
    (hbefore : readBetween around.isEmpty before = some read) (chunks : List Chunk) :
    ∀ {e : Element}, e.Named → build current around (e.chunks before ++ chunks) last =
      build (current.add read (e.map id (List.map toSpace))) around chunks last
  | .mk name attributes content, ⟨hname, hnames, hnodup, hcontent⟩ => by
      rw [Element.chunks]
      split
      next hempty =>
        obtain rfl : content = .text [] := by
          cases content with
          | text text =>
              cases text with
              | nil => rfl
              | cons => cases hempty
          | child => cases hempty
        rw [List.singleton_append, build, hbefore, Option.bind_some,
          readTag_emptyTag hname hnames hnodup]
        rfl
      next =>
        rw [List.cons_append, build, hbefore, Option.bind_some,
          readTag_startTag hname hnames hnodup]
        exact build_contentChunks hname chunks hcontent

theorem build_contentChunks {name before : List Char} {attributes : Attributes}
    {children : List (List Char × Element)} {outer : Open} {around : List (Open × List Char)}
    (hname : isName name = true) (chunks : List Chunk) :
    ∀ {c : Content}, c.Named →
      build ⟨name, attributes, children⟩ ((outer, before) :: around)
          (c.chunks ('/' :: name) ++ chunks) last =
        build (outer.add before (.mk name attributes
          (.behind children (c.map id (List.map toSpace))))) around chunks last
  | .text text, _ => by
      rw [Content.chunks, List.singleton_append, build, List.isEmpty_cons, readBetween,
        if_neg (by simp), readText_escape, Option.bind_some, readTag_closeTag hname]
      exact if_pos rfl
  | .child text element rest, ⟨helement, hrest⟩ => by
      have htext : readBetween (List.isEmpty ((outer, before) :: around)) (escape text) =
          some text := readText_escape text
      have hbehind : Content.behind (children ++ [(text, element.map id (List.map toSpace))])
            (rest.map id (List.map toSpace)) =
          .behind children (.child text (element.map id (List.map toSpace))
            (rest.map id (List.map toSpace))) := by
        rw [Content.behind, List.foldr_append]
        rfl
      rw [Content.chunks, List.append_assoc, build_elementChunks htext _ helement]
      show build ⟨name, attributes, children ++ [(text, element.map id (List.map toSpace))]⟩ _ _ _
        = _
      rw [build_contentChunks hname chunks hrest, hbehind]
      rfl

end

mutual

theorem Element.Named.map {f g : List Char → List Char} : ∀ {e : Element}, e.Named →
    (e.map f g).Named
  | .mk name attributes content, ⟨hname, hnames, hnodup, hcontent⟩ => by
      refine ⟨hname, ?_, ?_, hcontent.map⟩
      · intro a ha
        obtain ⟨b, hb, rfl⟩ := List.mem_map.mp ha
        exact hnames b hb
      · rw [List.map_map]
        exact hnodup

theorem Content.Named.map {f g : List Char → List Char} : ∀ {c : Content}, c.Named →
    (c.map f g).Named
  | .text _, _ => trivial
  | .child _ _ _, ⟨helement, hrest⟩ => ⟨helement.map, hrest.map⟩

end

/-- **Reading what was written**: the tree, as XML reads it, or nothing where a character
is not allowed. -/
theorem parse_document {e : Element} (h : e.Named) :
    parse (document e) = if e.all isChar then some e.read else none := by
  have hlines : (e.map lines lines).Named := h.map
  rw [parse, all_document h]
  refine if_congr Iff.rfl ?_ rfl
  rw [← lines, lines_document h, cut_document hlines, Option.bind_some]
  have hdeclared : behindDeclaration (([], declaration) ::
      (e.map lines lines).chunks ['\n']) = (e.map lines lines).chunks ['\n'] := by
    have hdeclaration : isDeclaration declaration = true := by decide
    rw [behindDeclaration, if_pos hdeclaration]
  -- the root stands behind the line end of the declaration
  have hspace : readBetween (List.isEmpty ([] : List (Open × List Char))) ['\n'] =
      some ['\n'] := by decide
  have hbuild : build ⟨[], [], []⟩ [] ((e.map lines lines).chunks ['\n'] ++ []) ['\n'] = _ :=
    build_elementChunks hspace [] hlines
  rw [List.append_nil] at hbuild
  rw [hdeclared, hbuild, build]
  rfl

end Wallermax.Base.Xml
