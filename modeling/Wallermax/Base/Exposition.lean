import Mathlib.Data.List.Basic
import Mathlib.Tactic.Common
import Wallermax.Base.Uri

/-!
# The text exposition format

Samples as a metrics endpoint writes them: a metric name, label pairs in braces with
their values quoted, and a value token, one sample a line, among comments and blank
lines. The reading of a value token is a parameter.
-/

namespace Wallermax.Base.Exposition

/-! ## Names and tokens -/

def isLetter (c : Char) : Bool := ('a' ≤ c && c ≤ 'z') || ('A' ≤ c && c ≤ 'Z')

def isMetricStart (c : Char) : Bool := isLetter c || c == '_' || c == ':'

def isMetricChar (c : Char) : Bool := isMetricStart c || c.isDigit

def isLabelStart (c : Char) : Bool := isLetter c || c == '_'

def isLabelChar (c : Char) : Bool := isLabelStart c || c.isDigit

/-- Spaces and tabs. -/
def isBlank (c : Char) : Bool := c == ' ' || c == '\t'

structure MetricName : Type where
  text : Text
  start : ∃ c ∈ text.head?, isMetricStart c = true
  all : ∀ c ∈ text, isMetricChar c = true

structure LabelName : Type where
  text : Text
  start : ∃ c ∈ text.head?, isLabelStart c = true
  all : ∀ c ∈ text, isLabelChar c = true

/-- A character a token may have: no white space and no control. -/
def isTokenChar (c : Char) : Bool := 0x21 ≤ c.toNat && c.toNat ≤ 0x7E

/-- A sample: its label names are distinct, and its token reads as its value. -/
structure Sample {ν : Type*} (read : Text → Option ν) where
  name : MetricName
  labels : List (LabelName × Text)
  distinct : (labels.map fun label => label.1.text).Nodup
  token : Text
  token_ne : token ≠ []
  token_all : ∀ c ∈ token, isTokenChar c = true
  value : ν
  reads : read token = some value

inductive Line {ν : Type*} (read : Text → Option ν) where
  | sample (sample : Sample read)
  | comment (front rest : Text) (blank : ∀ c ∈ front, isBlank c = true) (inLine : '\n' ∉ rest)
  | blank (text : Text) (blank : ∀ c ∈ text, isBlank c = true)

/-! ## Writing -/

/-- Backslash, double quote and newline are escaped. -/
def escapeChar (c : Char) : Text :=
  if c = '\\' then ['\\', '\\'] else if c = '"' then ['\\', '"']
  else if c = '\n' then ['\\', 'n'] else [c]

def escape (t : Text) : Text := t.flatMap escapeChar

def labelText (label : LabelName × Text) : Text :=
  label.1.text ++ '=' :: '"' :: (escape label.2 ++ ['"'])

section

variable {ν : Type*} {read : Text → Option ν}

def Sample.block (sample : Sample read) : Text := [','].intercalate (sample.labels.map labelText)

/-- Braces only where there are labels. -/
def Sample.text (sample : Sample read) : Text :=
  sample.name.text ++
    (if sample.labels.isEmpty then [] else '{' :: (sample.block ++ ['}'])) ++ ' ' :: sample.token

def Line.text : Line read → Text
  | sample s => s.text
  | comment front rest _ _ => front ++ '#' :: rest
  | blank text _ => text

def text (lines : List (Line read)) : Text := ['\n'].intercalate (lines.map Line.text)

/-- The samples of a name, in order. -/
def samplesOf (lines : List (Line read)) (name : Text) : List (Sample read) :=
  lines.filterMap fun line =>
    match line with
    | .sample s => if s.name.text = name then some s else none
    | _ => none

/-- What the labels map a name to. -/
def Sample.labelMap (sample : Sample read) (key : Text) : Option Text :=
  (sample.labels.map fun label => (label.1.text, label.2)).lookup key

end

/-! ## Escaping -/

theorem escape_cons (c : Char) (t : Text) : escape (c :: t) = escapeChar c ++ escape t :=
  List.flatMap_cons

theorem newline_not_mem_escape (t : Text) : '\n' ∉ escape t := by
  intro h
  obtain ⟨c, -, hc⟩ := List.mem_flatMap.mp h
  unfold escapeChar at hc
  split at hc
  · exact absurd hc (by decide)
  · split at hc
    · exact absurd hc (by decide)
    · split at hc
      · exact absurd hc (by decide)
      · rename_i hnewline
        exact hnewline (List.mem_singleton.mp hc).symm

/-- Escaping adds no comma. -/
theorem comma_mem_escape {t : Text} : ',' ∈ escape t → ',' ∈ t := by
  intro h
  obtain ⟨c, hmem, hc⟩ := List.mem_flatMap.mp h
  unfold escapeChar at hc
  split at hc
  · exact absurd hc (by decide)
  · split at hc
    · exact absurd hc (by decide)
    · split at hc
      · exact absurd hc (by decide)
      · rwa [List.mem_singleton.mp hc]

/-- The four ways a character is escaped, for a case split. -/
theorem escapeChar_cases (c : Char) :
    (c = '\\' ∧ escapeChar c = ['\\', '\\']) ∨ (c = '"' ∧ escapeChar c = ['\\', '"']) ∨
      (c = '\n' ∧ escapeChar c = ['\\', 'n']) ∨
      (c ≠ '\\' ∧ c ≠ '"' ∧ escapeChar c = [c]) := by
  unfold escapeChar
  split
  · exact Or.inl ⟨‹_›, rfl⟩
  · split
    · exact Or.inr (Or.inl ⟨‹_›, rfl⟩)
    · split
      · exact Or.inr (Or.inr (Or.inl ⟨‹_›, rfl⟩))
      · exact Or.inr (Or.inr (Or.inr ⟨‹_›, ‹_›, rfl⟩))

end Wallermax.Base.Exposition
