import Mathlib.Data.List.DropRight
import Mathlib.Data.List.Infix
import Mathlib.Data.Option.Basic
import Mathlib.Data.Nat.Notation
import Mathlib.Tactic.Common

/-!
# Reading XML

XML 1.0 documents without a document type, CDATA sections, comments and processing
instructions. A document holds only the characters of the production `Char`. Line ends are
turned into newlines before anything else is read. What is left is cut at its tags; the
references in the text between them and in attribute values are replaced, and the white
space of an attribute value is turned into spaces; every element that is opened is closed,
and one is the root.
-/

namespace Wallermax.Base.Xml

/-! ## Characters -/

/-- `Char`. -/
def isChar (c : Char) : Bool :=
  c == '\t' || c == '\n' || c == '\r' || (0x20 ≤ c.toNat && c.toNat ≤ 0xFFFD) ||
    0x10000 ≤ c.toNat

/-- `S`. -/
def isSpace (c : Char) : Bool := c == ' ' || c == '\t' || c == '\n' || c == '\r'

def inRanges (ranges : List (ℕ × ℕ)) (c : Char) : Bool :=
  ranges.any fun r => r.1 ≤ c.toNat && c.toNat ≤ r.2

/-- `NameStartChar`. -/
def isNameStart (c : Char) : Bool :=
  c.isAlpha || c == ':' || c == '_' ||
    inRanges [(0xC0, 0xD6), (0xD8, 0xF6), (0xF8, 0x2FF), (0x370, 0x37D), (0x37F, 0x1FFF),
      (0x200C, 0x200D), (0x2070, 0x218F), (0x2C00, 0x2FEF), (0x3001, 0xD7FF),
      (0xF900, 0xFDCF), (0xFDF0, 0xFFFD), (0x10000, 0xEFFFF)] c

/-- `NameChar`. -/
def isNameChar (c : Char) : Bool :=
  isNameStart c || c.isDigit || c == '-' || c == '.' || c.toNat == 0xB7 ||
    inRanges [(0x300, 0x36F), (0x203F, 0x2040)] c

/-- `Name`. -/
def isName : List Char → Bool
  | [] => false
  | c :: name => isNameStart c && name.all isNameChar

/-- Line ends as newlines: a carriage return is one, and a newline behind it none. -/
def normalizeLines : Bool → List Char → List Char
  | _, [] => []
  | behindReturn, c :: text =>
    if c = '\r' then '\n' :: normalizeLines true text
    else if behindReturn = true ∧ c = '\n' then normalizeLines false text
    else c :: normalizeLines false text

/-- White space in an attribute value. -/
def toSpace (c : Char) : Char := if isSpace c then ' ' else c

/-! ## References -/

/-- The value of a digit up to the base. -/
def digit (base : ℕ) (c : Char) : Option ℕ :=
  let n :=
    if c.isDigit then c.toNat - '0'.toNat
    else if c.isLower then c.toNat - 'a'.toNat + 10
    else if c.isUpper then c.toNat - 'A'.toNat + 10
    else base
  if n < base then some n else none

/-- The value of a run of digits. -/
def number (base : ℕ) (digits : List Char) : Option ℕ :=
  if digits = [] then none
  else digits.foldlM (fun n c => (digit base c).map (base * n + ·)) 0

/-- A `CharRef` names a character of `Char`. -/
def charRef (n : Option ℕ) : Option Char :=
  n.bind fun n =>
    if n.isValidChar ∧ isChar (Char.ofNat n) = true then some (Char.ofNat n) else none

/-- What stands between an ampersand and a semicolon. -/
def reference (name : List Char) : Option Char :=
  if name = "amp".toList then some '&'
  else if name = "lt".toList then some '<'
  else if name = "gt".toList then some '>'
  else if name = "quot".toList then some '"'
  else if name = "apos".toList then some (Char.ofNat 39)
  else match name with
    | '#' :: 'x' :: digits => charRef (number 16 digits)
    | '#' :: digits => charRef (number 10 digits)
    | _ => none

/-- The references of a text replaced; with the name of the one that is being read. -/
def decode : Option (List Char) → List Char → Option (List Char)
  | none, [] => some []
  | some _, [] => none
  | none, c :: raw =>
    if c = '&' then decode (some []) raw
    else if c = '<' then none
    else (decode none raw).map (c :: ·)
  | some name, c :: raw =>
    if c = ';' then (reference name).bind fun d => (decode none raw).map (d :: ·)
    else decode (some (name ++ [c])) raw

/-- `CharData` and references. -/
def readText (raw : List Char) : Option (List Char) :=
  if "]]>".toList <:+: raw then none else decode none raw

/-- `AttValue`, without its quotes. -/
def readValue (raw : List Char) : Option (List Char) := decode none (raw.map toSpace)

/-! ## Tags -/

/-- Attributes with their values. -/
abbrev Attributes : Type := List (List Char × List Char)

/-- Where a list of attributes is being read. -/
inductive Attribute : Type where
  /-- Between two, with white space seen. -/
  | gap (seen : Bool)
  | name (name : List Char)
  | equals (name : List Char)
  | quote (name : List Char)
  | value (name : List Char) (quote : Char) (raw : List Char)

def isQuote (c : Char) : Bool := c == '"' || c == Char.ofNat 39

def readAttributes : Attribute → List Char → Option Attributes
  | .gap _, [] => some []
  | _, [] => none
  | .gap seen, c :: raw =>
    if isSpace c then readAttributes (.gap true) raw
    else if seen && isNameStart c then readAttributes (.name [c]) raw
    else none
  | .name name, c :: raw =>
    if isNameChar c then readAttributes (.name (name ++ [c])) raw
    else if c = '=' then readAttributes (.quote name) raw
    else if isSpace c then readAttributes (.equals name) raw
    else none
  | .equals name, c :: raw =>
    if isSpace c then readAttributes (.equals name) raw
    else if c = '=' then readAttributes (.quote name) raw
    else none
  | .quote name, c :: raw =>
    if isSpace c then readAttributes (.quote name) raw
    else if isQuote c then readAttributes (.value name c []) raw
    else none
  | .value name quote value, c :: raw =>
    if c = quote then
      (readValue value).bind fun value =>
        (readAttributes (.gap false) raw).map ((name, value) :: ·)
    else readAttributes (.value name quote (value ++ [c])) raw

inductive Tag : Type where
  | start (name : List Char) (attributes : Attributes)
  | empty (name : List Char) (attributes : Attributes)
  | close (name : List Char)

/-- No attribute is given twice. -/
def distinct (attributes : Attributes) : Option Attributes :=
  if (attributes.map Prod.fst).Nodup then some attributes else none

/-- A tag, without its angle brackets. -/
def readTag (raw : List Char) : Option Tag :=
  if raw.head? = some '/' then
    let name := raw.tail.takeWhile isNameChar
    if isName name && (raw.tail.dropWhile isNameChar).all isSpace then some (.close name) else none
  else
    let name := raw.takeWhile isNameChar
    let rest := raw.dropWhile isNameChar
    if isName name = false then none
    else if rest.getLast? = some '/' then
      ((readAttributes (.gap false) rest.dropLast).bind distinct).map (.empty name)
    else ((readAttributes (.gap false) rest).bind distinct).map (.start name)

/-! ## Elements -/

mutual

/-- An element of a document. -/
inductive Element : Type where
  | mk (name : List Char) (attributes : Attributes) (content : Content)

/-- Text, with elements in it. -/
inductive Content : Type where
  | text (text : List Char)
  | child (text : List Char) (element : Element) (rest : Content)

end

/-- The content of these elements, each behind a text, and of what follows them. -/
def Content.behind (children : List (List Char × Element)) (rest : Content) : Content :=
  children.foldr (fun child rest => .child child.1 child.2 rest) rest

/-- What a document is cut into: a text and the tag behind it. -/
abbrev Chunk : Type := List Char × List Char

/-- Inside a tag, with the quotation mark a value is closed by. -/
abbrev InTag : Type := Option (List Char × Option Char)

/-- The tags of a document with the texts before them, and the last text. -/
def cut : List Char → InTag → List Char → Option (List Chunk × List Char)
  | text, none, [] => some ([], text)
  | _, some _, [] => none
  | text, none, c :: doc =>
    if c = '<' then cut text (some ([], none)) doc else cut (text ++ [c]) none doc
  | text, some (tag, none), c :: doc =>
    if c = '>' then (cut [] none doc).map fun r => ((text, tag) :: r.1, r.2)
    else cut text (some (tag ++ [c], if isQuote c then some c else none)) doc
  | text, some (tag, some quote), c :: doc =>
    cut text (some (tag ++ [c], if c = quote then none else some quote)) doc

/-- An element that is open, with the children read so far. -/
structure Open : Type where
  name : List Char
  attributes : Attributes
  children : List (List Char × Element)

def Open.add (parent : Open) (text : List Char) (element : Element) : Open :=
  { parent with children := parent.children ++ [(text, element)] }

def Open.close (parent : Open) (last : List Char) : Element :=
  .mk parent.name parent.attributes (.behind parent.children (.text last))

/-- Outside the root there is white space, and in an element text. -/
def readBetween (outside : Bool) (raw : List Char) : Option (List Char) :=
  if outside then if raw.all isSpace then some raw else none
  else readText raw

/-- The innermost open element, and those around it with the text before what is open
inside. -/
def build : Open → List (Open × List Char) → List Chunk → List Char → Option Open
  | current, [], [], last => (readBetween true last).map fun _ => current
  | _, _ :: _, [], _ => none
  | current, around, (raw, tag) :: chunks, last =>
    (readBetween around.isEmpty raw).bind fun text => (readTag tag).bind fun
      | .start name attributes =>
          build ⟨name, attributes, []⟩ ((current, text) :: around) chunks last
      | .empty name attributes =>
          build (current.add text (.mk name attributes (.text []))) around chunks last
      | .close name =>
        match around with
        | [] => none
        | (outer, before) :: around =>
          if current.name = name then
            build (outer.add before (current.close text)) around chunks last
          else none

/-- `XMLDecl`: the version, with an encoding or none. -/
def isDeclaration (tag : List Char) : Bool :=
  "?xml".toList.isPrefixOf tag && tag.getLast? == some '?' &&
    (match readAttributes (.gap false) (tag.drop 4).dropLast with
    | some [version] => version == ("version".toList, "1.0".toList)
    | some [version, encoding] =>
        version == ("version".toList, "1.0".toList) &&
          encoding == ("encoding".toList, "UTF-8".toList)
    | _ => false)

/-- The chunks behind a declaration that the document starts with. -/
def behindDeclaration : List Chunk → List Chunk
  | ([], tag) :: chunks => if isDeclaration tag then chunks else ([], tag) :: chunks
  | chunks => chunks

/-- `document`: its root element. -/
def parse (doc : List Char) : Option Element :=
  if doc.all isChar then
    (cut [] none (normalizeLines false doc)).bind fun r =>
      (build ⟨[], [], []⟩ [] (behindDeclaration r.1) r.2).bind fun top =>
        match top.children with
        | [(_, root)] => some root
        | _ => none
  else none

end Wallermax.Base.Xml
