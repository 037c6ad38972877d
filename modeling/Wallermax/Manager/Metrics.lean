import Mathlib.Logic.Function.Basic
import Wallermax.Base.Exposition
import Wallermax.Templates.Engine

/-!
# Reading a metrics answer

`MetricsSnapshot::parse` goes line by line. The name and the label block of a sample are
cut off with an eye on quotes and escapes; the block itself is then split at every comma,
also at one inside a value. A `BTreeMap` is the function it stands for.
-/

namespace Wallermax.Manager.Metrics

open Wallermax.Base
open Wallermax.Base.Exposition (isMetricStart isMetricChar)
open Wallermax.Templates (trimChars trimStart stripPrefix)

/-! ## Lines -/

/-- The carriage return before a newline. -/
def stripReturn (line : Text) : Text :=
  if line.getLast? = some '\r' then line.dropLast else line

/-- `str::lines`. -/
def lines (text : Text) : List Text :=
  let parts := text.splitOn '\n'
  parts.dropLast.map stripReturn ++ parts.getLast?.toList.filter (!·.isEmpty)

/-- `split_once` at a character. -/
def splitOnce (c : Char) (t : Text) : Option (Text × Text) :=
  match t.dropWhile (· != c) with
  | [] => none
  | _ :: rest => some (t.takeWhile (· != c), rest)

/-! ## Samples -/

/-- The scan of `split_sample` behind the brace: the block, and what is behind its end. -/
def scanLabels (in_quotes escaped : Bool) : Text → Option (Text × Text)
  | [] => none
  | c :: rest =>
    let go := fun in_quotes escaped =>
      (scanLabels in_quotes escaped rest).map fun found => (c :: found.1, found.2)
    if escaped then go in_quotes false
    else if c == '\\' && in_quotes then go in_quotes true
    else if c == '"' then go (!in_quotes) false
    else if c == '}' && !in_quotes then some ([], rest)
    else go in_quotes false

/-- The label block, if there is a brace; nothing where it is not closed. -/
def splitLabels (t : Text) : Option (Option Text × Text) :=
  match t with
  | '{' :: rest => (scanLabels false false rest).map fun found => (some found.1, found.2)
  | _ => some (none, t)

def isAsciiSpace (c : Char) : Bool :=
  c == ' ' || c == '\t' || c == '\n' || c == '\x0c' || c == '\r'

/-- `split_sample`. -/
def splitSample (line : Text) : Option (Text × Option Text × Text) :=
  if line.head?.all (!isMetricStart ·) then none
  else do
    let (labels, rest) ← splitLabels (line.dropWhile isMetricChar)
    let rest := trimStart rest
    if rest.isEmpty then none
    else some (line.takeWhile isMetricChar, labels, rest.takeWhile (!isAsciiSpace ·))

def unescape : Text → Text
  | [] => []
  | '\\' :: [] => ['\\']
  | '\\' :: c :: rest =>
    (if c = 'n' then '\n' else if c = 't' then '\t' else c) :: unescape rest
  | c :: rest => c :: unescape rest

abbrev LabelMap : Type := Text → Option Text

/-- One piece of the block; what is not a quoted pair is skipped. -/
def insertPair (labels : LabelMap) (pair : Text) : LabelMap :=
  match splitOnce '=' pair with
  | none => labels
  | some (key, raw) =>
    match (stripPrefix ['"'] (trimChars raw)).bind fun rest =>
      if rest.getLast? = some '"' then some rest.dropLast else none with
    | none => labels
    | some unquoted => Function.update labels (trimChars key) (some (unescape unquoted))

/-- `parse_labels`. -/
def parseLabels (text : Option Text) : LabelMap :=
  match text with
  | none => fun _ => none
  | some text => (text.splitOn ',').foldl insertPair fun _ => none

/-! ## The snapshot -/

structure Sample (ν : Type*) where
  labels : LabelMap
  value : ν

structure MetricFamily (ν : Type*) where
  help : Option Text
  samples : List (Sample ν)

abbrev MetricsSnapshot (ν : Type*) : Type _ := Text → Option (MetricFamily ν)

section

variable {ν : Type*}

/-- `entry(name).or_default()`, changed. -/
def modifyFamily (snapshot : MetricsSnapshot ν) (name : Text)
    (change : MetricFamily ν → MetricFamily ν) : MetricsSnapshot ν :=
  Function.update snapshot name (some (change ((snapshot name).getD ⟨none, []⟩)))

/-- A comment: only the help of a family is kept. -/
def parseComment (snapshot : MetricsSnapshot ν) (rest : Text) : MetricsSnapshot ν :=
  match (stripPrefix "HELP ".toList rest).bind (splitOnce ' ') with
  | none => snapshot
  | some (name, doc) =>
    modifyFamily snapshot name fun family => { family with help := some (trimChars doc) }

/-- The loop body of `parse`; `read` is `str::parse::<f64>`. -/
def parseLine (read : Text → Option ν) (snapshot : MetricsSnapshot ν) (line : Text) :
    MetricsSnapshot ν :=
  let line := trimChars line
  if line.isEmpty then snapshot
  else match stripPrefix "# ".toList line with
  | some rest => parseComment snapshot rest
  | none =>
    match splitSample line with
    | none => snapshot
    | some (name, labels, raw_value) =>
      match read raw_value with
      | none => snapshot
      | some value =>
        modifyFamily snapshot name fun family =>
          { family with samples := family.samples ++ [⟨parseLabels labels, value⟩] }

/-- `MetricsSnapshot::parse`. -/
def parse (read : Text → Option ν) (text : Text) : MetricsSnapshot ν :=
  (lines text).foldl (parseLine read) fun _ => none

/-- The samples of a name. -/
def samplesOf (snapshot : MetricsSnapshot ν) (name : Text) : List (Sample ν) :=
  ((snapshot name).map MetricFamily.samples).getD []

/-- A sample as the snapshot should have it. -/
def Sample.of {read : Text → Option ν} (sample : Exposition.Sample read) : Sample ν :=
  ⟨sample.labelMap, sample.value⟩

/-- Every metric name has its samples, in order, with their labels and values. -/
def RoundTrips {read : Text → Option ν} (doc : List (Exposition.Line read)) : Prop :=
  ∀ name, samplesOf (parse read (Exposition.text doc)) name =
    (Exposition.samplesOf doc name).map Sample.of

end

end Wallermax.Manager.Metrics
