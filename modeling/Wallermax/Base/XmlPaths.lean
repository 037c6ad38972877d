import Wallermax.Base.XmlRoundTrip

/-!
# The elements at a path

What a program takes from a document: the elements it reaches by name, their texts and the
values of their attributes. Reading a tree changes texts and values and no name, so it
reaches the elements that were written.
-/

namespace Wallermax.Base.Xml

variable {f f' g g' : List Char → List Char} {p : Char → Bool}

/-! ## Paths -/

def Element.name : Element → List Char
  | .mk name _ _ => name

def Element.attributes : Element → Attributes
  | .mk _ attributes _ => attributes

def Element.content : Element → Content
  | .mk _ _ content => content

def Content.elements : Content → List Element
  | .text _ => []
  | .child _ element rest => element :: rest.elements

/-- The text of the content, without that of its elements. -/
def Content.ownText : Content → List Char
  | .text last => last
  | .child before _ rest => before ++ rest.ownText

/-- The elements below this one with these names, each in the one before it. -/
def Element.descend : List String → Element → List Element
  | [], e => [e]
  | name :: path, e =>
    (e.content.elements.filter fun child => child.name = name.toList).flatMap (Element.descend path)

/-- The elements of a document, the root among them, with these names. -/
def Element.select : List String → Element → List Element
  | [], _ => []
  | name :: path, e => if e.name = name.toList then e.descend path else []

def Element.texts (e : Element) (path : List String) : List (List Char) :=
  (e.descend path).map fun child => child.content.ownText

def Element.values (e : Element) (path : List String) (key : String) : List (List Char) :=
  (e.descend path).filterMap fun child => child.attributes.lookup key.toList

theorem name_mk (name : List Char) (attributes : Attributes) (content : Content) :
    (Element.mk name attributes content).name = name := rfl

theorem attributes_mk (name : List Char) (attributes : Attributes) (content : Content) :
    (Element.mk name attributes content).attributes = attributes := rfl

theorem content_mk (name : List Char) (attributes : Attributes) (content : Content) :
    (Element.mk name attributes content).content = content := rfl

/-! ## Other texts and values -/

theorem name_map (e : Element) : (e.map f g).name = e.name := by
  cases e
  rfl

theorem content_map (e : Element) : (e.map f g).content = e.content.map f g := by
  cases e
  rfl

theorem elements_map (c : Content) :
    (c.map f g).elements = c.elements.map fun e => e.map f g := by
  cases c with
  | text => rfl
  | child text element rest =>
      rw [Content.map, Content.elements, elements_map rest]
      rfl

/-- **The same elements are reached** in a tree of other texts. -/
theorem descend_map (path : List String) (e : Element) :
    (e.map f g).descend path = (e.descend path).map fun child => child.map f g := by
  induction path generalizing e with
  | nil => rfl
  | cons name path ih =>
      rw [Element.descend, Element.descend, content_map, elements_map, List.filter_map,
        List.flatMap_map, List.map_flatMap]
      have hnames : ((fun child : Element => decide (child.name = name.toList)) ∘
          fun child : Element => child.map f g) =
            fun child : Element => decide (child.name = name.toList) := by
        funext child
        exact congrArg (fun n => decide (n = name.toList)) (name_map child)
      rw [hnames]
      exact List.flatMap_congr fun child _ => ih child

theorem texts_map (e : Element) (path : List String) :
    (e.map f g).texts path =
      (e.descend path).map fun child => (child.content.map f g).ownText := by
  rw [Element.texts, descend_map, List.map_map]
  exact List.map_congr_left fun child _ => congrArg Content.ownText (content_map child)

theorem select_map (path : List String) (e : Element) :
    (e.map f g).select path = (e.select path).map fun child => child.map f g := by
  cases path with
  | nil => rfl
  | cons name path =>
      rw [Element.select, Element.select, name_map]
      split
      · exact descend_map path e
      · rfl

theorem lookup_map (attributes : Attributes) (name : List Char) :
    (attributes.map fun a => (a.1, g a.2)).lookup name = (attributes.lookup name).map g := by
  induction attributes with
  | nil => rfl
  | cons a attributes ih =>
      rw [List.map_cons, List.lookup_cons, List.lookup_cons, ih]
      cases name == a.1 <;> rfl

theorem values_map (e : Element) (path : List String) (key : String) :
    (e.map f g).values path key = (e.values path key).map g := by
  rw [Element.values, Element.values, descend_map, List.filterMap_map, List.map_filterMap]
  refine List.filterMap_congr fun child _ => ?_
  cases child
  exact lookup_map _ _

mutual

theorem Element.map_map : ∀ e : Element,
    (e.map f g).map f' g' = e.map (f' ∘ f) (g' ∘ g)
  | .mk name attributes content => by
      rw [Element.map, Element.map, Element.map, Content.map_map content, List.map_map]
      rfl

theorem Content.map_map : ∀ c : Content,
    (c.map f g).map f' g' = c.map (f' ∘ f) (g' ∘ g)
  | .text _ => rfl
  | .child text element rest => by
      rw [Content.map, Content.map, Content.map, Element.map_map element, Content.map_map rest]
      rfl

end

theorem read_eq (e : Element) : e.read = e.map lines (List.map toSpace ∘ lines) :=
  e.map_map

/-! ## Elements behind each other -/

section

variable (children : List (List Char × Element)) (rest : Content)

theorem elements_behind :
    (Content.behind children rest).elements = children.map Prod.snd ++ rest.elements := by
  induction children with
  | nil => rfl
  | cons child children ih => exact congrArg (child.2 :: ·) ih

theorem all_behind : (Content.behind children rest).all p =
    (children.all (fun child => child.1.all p && child.2.all p) && rest.all p) := by
  induction children with
  | nil => rfl
  | cons child children ih =>
      rw [List.all_cons, Bool.and_assoc, ← ih]
      rfl

theorem named_behind : (Content.behind children rest).Named ↔
    (∀ child ∈ children, child.2.Named) ∧ rest.Named := by
  induction children with
  | nil => exact ⟨fun h => ⟨fun _ hc => absurd hc List.not_mem_nil, h⟩, And.right⟩
  | cons child children ih =>
      rw [List.forall_mem_cons, and_assoc, ← ih]
      rfl

theorem write_behind : (Content.behind children rest).write =
    children.flatMap (fun child => escape child.1 ++ child.2.write) ++ rest.write := by
  induction children with
  | nil => rfl
  | cons child children ih =>
      show escape child.1 ++ (child.2.write ++ (Content.behind children rest).write) = _
      rw [ih, List.flatMap_cons, List.append_assoc, List.append_assoc]

/-- An element that ends with a text. -/
theorem write_mk {last : List Char} (name : List Char) (attributes : Attributes)
    (h : last ≠ []) : (Element.mk name attributes (.behind children (.text last))).write =
      '<' :: (startTag name attributes ++ '>' ::
        (children.flatMap (fun child => escape child.1 ++ child.2.write) ++
          (escape last ++ '<' :: '/' :: (name ++ ['>'])))) := by
  have hempty : (Content.behind children (.text last)).isEmpty = false := by
    cases children with
    | nil =>
        obtain ⟨c, last, rfl⟩ := List.exists_cons_of_ne_nil h
        rfl
    | cons => rfl
  rw [Element.write, if_neg (by simp [hempty]), write_behind, List.append_assoc]
  rfl

end

/-- An element with a text only. -/
theorem write_text {text : List Char} (name : List Char) (attributes : Attributes)
    (h : text ≠ []) : (Element.mk name attributes (.text text)).write =
      '<' :: (startTag name attributes ++ '>' ::
        (escape text ++ '<' :: '/' :: (name ++ ['>']))) :=
  write_mk [] name attributes h

theorem write_text_cons (name : List Char) (attributes : Attributes) (c : Char)
    (text : List Char) : (Element.mk name attributes (.text (c :: text))).write =
      '<' :: (startTag name attributes ++ '>' ::
        (escape (c :: text) ++ '<' :: '/' :: (name ++ ['>']))) :=
  write_text name attributes (List.cons_ne_nil c text)

theorem write_empty (name : List Char) (attributes : Attributes) :
    (Element.mk name attributes (.text [])).write =
      '<' :: (startTag name attributes ++ ['/', '>']) := by
  rw [Element.write]
  exact if_pos rfl

/-! ## Texts that are read as they are -/

theorem escape_append (front back : List Char) :
    escape (front ++ back) = escape front ++ escape back :=
  List.flatMap_append

theorem escape_nil : escape [] = [] := rfl

theorem escape_cons_self {c : Char} (h : escapeChar c = [c]) (text : List Char) :
    escape (c :: text) = c :: escape text := by
  rw [escape_cons, h]
  rfl

theorem escape_eq_self {text : List Char} (h : ∀ c ∈ text, escapeChar c = [c]) :
    escape text = text := by
  induction text with
  | nil => rfl
  | cons c text ih =>
      rw [List.forall_mem_cons] at h
      rw [escape_cons_self h.1, ih h.2]

theorem lines_eq_self_iff {text : List Char} : lines text = text ↔ '\r' ∉ text := by
  constructor
  · intro h hmem
    -- no carriage return is left by the lines
    have hnone : ∀ (b : Bool) (text : List Char), '\r' ∉ normalizeLines b text := by
      intro b text
      induction text generalizing b with
      | nil => exact List.not_mem_nil
      | cons c text ih =>
          rw [normalizeLines]
          split_ifs with hc
          · rw [List.mem_cons, not_or]
            exact ⟨by decide, ih true⟩
          · exact ih false
          · rw [List.mem_cons, not_or]
            exact ⟨Ne.symm hc, ih false⟩
    exact hnone false text (by rwa [← lines, h])
  · intro h
    rw [lines]
    induction text with
    | nil => rfl
    | cons c text ih =>
        rw [List.mem_cons, not_or] at h
        rw [normalizeLines, if_neg (Ne.symm h.1), if_neg (by simp), ih h.2]

theorem map_toSpace_eq_self_iff {text : List Char} : text.map toSpace = text ↔
    ∀ c ∈ text, c ∉ ['\t', '\n', '\r'] := by
  have hspace : ∀ c, toSpace c = c ↔ c ∉ ['\t', '\n', '\r'] := by
    intro c
    unfold toSpace isSpace
    simp only [List.mem_cons, List.not_mem_nil, or_false, not_or, Bool.or_eq_true, beq_iff_eq]
    split
    next h =>
      rcases h with ((rfl | rfl) | rfl) | rfl <;> decide
    next h =>
      simp only [not_or] at h
      exact iff_of_true rfl ⟨h.1.1.2, h.1.2, h.2⟩
  rw [← forall₂_congr fun c _ => hspace c]
  refine ⟨fun h => ?_, fun h => (List.map_congr_left h).trans text.map_id⟩
  exact List.map_eq_map_iff.mp (h.trans text.map_id.symm)

/-- An attribute value is read as it is where it has no white space but spaces. -/
theorem value_eq_self_iff {text : List Char} : (lines text).map toSpace = text ↔
    ∀ c ∈ text, c ∉ ['\t', '\n', '\r'] := by
  constructor
  · intro h
    have htext : text.map toSpace = text := by
      -- what is a space already stays one
      have hidem : ∀ c, toSpace (toSpace c) = toSpace c := by
        intro c
        by_cases hc : isSpace c = true
        · rw [toSpace, toSpace, if_pos hc]
          rfl
        · rw [toSpace, toSpace, if_neg hc, if_neg hc]
      rw [← h, List.map_map]
      exact List.map_congr_left fun c _ => hidem c
    exact map_toSpace_eq_self_iff.mp htext
  · intro h
    have hlines : lines text = text := lines_eq_self_iff.mpr fun hmem => h '\r' hmem (by simp)
    rw [hlines]
    exact map_toSpace_eq_self_iff.mpr h

end Wallermax.Base.Xml
