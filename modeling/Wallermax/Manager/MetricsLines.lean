import Wallermax.Base.Csp
import Wallermax.Base.Trim
import Wallermax.Manager.Metrics

/-!
# What one line of a metrics answer adds

The text is cut back into the lines it was written of; comments and blank lines add no
sample, and a sample line adds one whose label block is the written one, whatever stands
in the quotes: this part of the parser looks at them.
-/

namespace Wallermax.Manager.Metrics

open Wallermax.Base
open Wallermax.Base.Exposition (isMetricStart isMetricChar isLetter isLabelStart isLabelChar
  isTokenChar isBlank)
open Wallermax.Templates (trimChars trimStart stripPrefix)
open Wallermax.Tenants (isWhitespace)

/-! ## Characters -/

theorem isWhitespace_of_isTokenChar {c : Char} (h : isTokenChar c = true) :
    isWhitespace c = false := by
  unfold isTokenChar at h
  unfold isWhitespace
  simp only [Bool.and_eq_true, decide_eq_true_eq] at h
  simp only [Bool.or_eq_false_iff, Bool.and_eq_false_iff, beq_eq_false_iff_ne, ne_eq,
    decide_eq_false_iff_not, not_le]
  omega

theorem isTokenChar_of_isLetter {c : Char} (h : isLetter c = true) : isTokenChar c = true := by
  unfold isLetter at h
  unfold isTokenChar
  simp only [Bool.or_eq_true, Bool.and_eq_true, decide_eq_true_eq, Char.le_def,
    UInt32.le_iff_toNat_le] at h ⊢
  change (97 ≤ c.toNat ∧ c.toNat ≤ 122) ∨ 65 ≤ c.toNat ∧ c.toNat ≤ 90 at h
  omega

theorem isTokenChar_of_isDigit {c : Char} (h : c.isDigit = true) : isTokenChar c = true := by
  unfold Char.isDigit at h
  unfold isTokenChar
  simp only [Bool.and_eq_true, decide_eq_true_eq, UInt32.le_iff_toNat_le] at h ⊢
  change 48 ≤ c.toNat ∧ c.toNat ≤ 57 at h
  omega

theorem isTokenChar_of_isMetricChar {c : Char} (h : isMetricChar c = true) :
    isTokenChar c = true := by
  simp only [isMetricChar, isMetricStart, Bool.or_eq_true, beq_iff_eq] at h
  rcases h with ((h | rfl) | rfl) | h
  · exact isTokenChar_of_isLetter h
  · decide
  · decide
  · exact isTokenChar_of_isDigit h

theorem isTokenChar_of_isLabelChar {c : Char} (h : isLabelChar c = true) :
    isTokenChar c = true := by
  simp only [isLabelChar, isLabelStart, Bool.or_eq_true, beq_iff_eq] at h
  rcases h with (h | rfl) | h
  · exact isTokenChar_of_isLetter h
  · decide
  · exact isTokenChar_of_isDigit h

theorem isWhitespace_of_isBlank {c : Char} (h : isBlank c = true) : isWhitespace c = true := by
  simp only [isBlank, Bool.or_eq_true, beq_iff_eq] at h
  rcases h with rfl | rfl <;> decide

theorem isAsciiSpace_of_isTokenChar {c : Char} (h : isTokenChar c = true) :
    isAsciiSpace c = false := by
  rw [Bool.eq_false_iff]
  intro hspace
  simp only [isAsciiSpace, Bool.or_eq_true, beq_iff_eq] at hspace
  rcases hspace with (((rfl | rfl) | rfl) | rfl) | rfl <;> exact absurd h (by decide)

/-! ## Trimming -/

theorem trimChars_eq_self {t : Text} (hfirst : ∀ c ∈ t.head?, isWhitespace c = false)
    (hlast : ∀ c ∈ t.getLast?, isWhitespace c = false) : trimChars t = t :=
  trimBy_eq_self hfirst hlast

theorem trimChars_append_front {front : Text} (h : ∀ c ∈ front, isWhitespace c = true)
    (t : Text) : trimChars (front ++ t) = trimChars t := by
  unfold trimChars
  rw [List.dropWhile_append_of_pos h]

theorem trimChars_of_forall {t : Text} (h : ∀ c ∈ t, isWhitespace c = true) :
    trimChars t = [] := by
  have := trimChars_append_front h []
  rwa [List.append_nil] at this

/-- Nothing before a character that stays is trimmed from behind. -/
theorem trimChars_cons {c : Char} (h : isWhitespace c = false) (t : Text) :
    ∃ tail, trimChars (c :: t) = c :: tail := by
  refine ⟨(t.reverse.dropWhile isWhitespace).reverse, ?_⟩
  unfold trimChars
  rw [List.dropWhile_cons_of_neg (by simp [h]), List.reverse_cons, List.dropWhile_append]
  split
  · rename_i hall
    rw [List.isEmpty_iff.mp hall, List.dropWhile_cons_of_neg (by simp [h])]
    rfl
  · rw [List.reverse_append]
    rfl

theorem trimChars_append_space {c : Char} (h : isWhitespace c = true) (t : Text) :
    trimChars (t ++ [c]) = trimChars t := by
  by_cases hall : ∀ d ∈ t, isWhitespace d = true
  · rw [trimChars_append_front hall, trimChars_of_forall hall, trimChars_of_forall]
    intro d hd
    rwa [List.mem_singleton.mp hd]
  · unfold trimChars
    rw [List.dropWhile_append, if_neg, List.reverse_append, List.reverse_singleton,
      List.singleton_append, List.dropWhile_cons_of_pos h]
    intro hempty
    exact hall (List.dropWhile_eq_nil_iff.mp (List.isEmpty_iff.mp hempty))

theorem trimChars_stripReturn (t : Text) : trimChars (stripReturn t) = trimChars t := by
  unfold stripReturn
  split
  · rename_i hlast
    conv_rhs => rw [← List.dropLast_append_getLast? '\r' hlast]
    exact (trimChars_append_space (by decide) _).symm
  · rfl

/-! ## Lines -/

section

variable {ν : Type*} {read : Text → Option ν}

theorem parseLine_of_trim_eq {s t : Text} (h : trimChars s = trimChars t)
    (snapshot : MetricsSnapshot ν) :
    parseLine read snapshot s = parseLine read snapshot t := by
  unfold parseLine
  rw [h]

theorem parseLine_of_trim_nil {t : Text} (h : trimChars t = []) (snapshot : MetricsSnapshot ν) :
    parseLine read snapshot t = snapshot := by
  unfold parseLine
  rw [h]
  rfl

/-- Carriage returns and the empty line at the end make no difference. -/
theorem parse_eq_foldl (text : Text) :
    parse read text = (text.splitOn '\n').foldl (parseLine read) fun _ => none := by
  obtain ⟨parts, last, hparts⟩ : ∃ parts last, text.splitOn '\n' = parts ++ [last] :=
    ⟨_, _, (List.dropLast_append_getLast (List.splitOn_ne_nil '\n' text)).symm⟩
  have hlast : ∀ snapshot, ([last].filter (!·.isEmpty)).foldl (parseLine read) snapshot =
      parseLine read snapshot last := by
    intro snapshot
    cases hl : last with
    | nil => exact (parseLine_of_trim_nil rfl snapshot).symm
    | cons c rest => rfl
  have hreturn : ∀ snapshot, (parts.map stripReturn).foldl (parseLine read) snapshot =
      parts.foldl (parseLine read) snapshot := by
    intro snapshot
    rw [List.foldl_map]
    congr
    ext snapshot line : 2
    exact parseLine_of_trim_eq (trimChars_stripReturn line) snapshot
  unfold parse lines
  rw [hparts]
  simp only [List.dropLast_concat, List.getLast?_concat, Option.toList_some]
  rw [List.foldl_append, List.foldl_append, hreturn, hlast]
  rfl

/-! ## Line texts -/

theorem newline_not_mem_name (name : Exposition.MetricName) : '\n' ∉ name.text := fun h =>
  absurd (name.all _ h) (by decide)

theorem newline_not_mem_labelText (label : Exposition.LabelName × Text) :
    '\n' ∉ Exposition.labelText label := by
  unfold Exposition.labelText
  simp only [List.mem_append, List.mem_cons, List.not_mem_nil, or_false, not_or]
  refine ⟨fun h => absurd (label.1.all _ h) (by decide), by decide, by decide, ?_, by decide⟩
  exact Exposition.newline_not_mem_escape label.2

theorem newline_not_mem_block (sample : Exposition.Sample read) : '\n' ∉ sample.block := by
  intro h
  rcases Csp.mem_of_mem_intercalate h with hc | ⟨part, hmem, hc⟩
  · exact absurd hc (by decide)
  · obtain ⟨label, -, rfl⟩ := List.mem_map.mp hmem
    exact newline_not_mem_labelText label hc

theorem newline_not_mem_sample (sample : Exposition.Sample read) : '\n' ∉ sample.text := by
  intro h
  have htoken : '\n' ∉ sample.token := fun h => absurd (sample.token_all _ h) (by decide)
  have hname := newline_not_mem_name sample.name
  have hblock := newline_not_mem_block sample
  unfold Exposition.Sample.text at h
  split at h <;> simp_all

theorem newline_not_mem_line (line : Exposition.Line read) : '\n' ∉ line.text := by
  intro h
  cases line with
  | sample s => exact newline_not_mem_sample s h
  | comment front rest hblank hline =>
      rcases List.mem_append.mp h with h | h
      · exact absurd (hblank _ h) (by decide)
      · rcases List.mem_cons.mp h with h | h
        · exact absurd h (by decide)
        · exact hline h
  | blank text hblank => exact absurd (hblank _ h) (by decide)

/-- The text is read as the lines it was written of. -/
theorem parse_text (doc : List (Exposition.Line read)) :
    parse read (Exposition.text doc) =
      doc.foldl (fun snapshot line => parseLine read snapshot line.text) fun _ => none := by
  rw [parse_eq_foldl]
  by_cases hne : doc = []
  · subst hne
    have hnil : (Exposition.text ([] : List (Exposition.Line read))).splitOn '\n' = [[]] := rfl
    rw [hnil, List.foldl_cons, List.foldl_nil, List.foldl_nil]
    exact parseLine_of_trim_nil rfl _
  · have hsplit : (Exposition.text doc).splitOn '\n' = doc.map Exposition.Line.text := by
      refine List.splitOn_intercalate '\n' ?_ (by simpa using hne)
      intro line hline
      obtain ⟨line, -, rfl⟩ := List.mem_map.mp hline
      exact newline_not_mem_line line
    rw [hsplit, List.foldl_map]

end

/-! ## The label block -/

/-- Text the scan goes through and is outside of quotes behind. -/
def Passes (t : Text) : Prop := ∀ rest, scanLabels false false (t ++ rest) =
  (scanLabels false false rest).map fun found => (t ++ found.1, found.2)

theorem passes_nil : Passes [] := by
  intro rest
  simp

theorem Passes.append {s t : Text} (hs : Passes s) (ht : Passes t) : Passes (s ++ t) := by
  intro rest
  rw [List.append_assoc, hs, ht, Option.map_map]
  simp [Function.comp_def]

theorem passes_singleton {c : Char} (hquote : c ≠ '"') (hbrace : c ≠ '}') : Passes [c] := by
  intro rest
  simp [scanLabels, hquote, hbrace]

theorem passes_of_forall {t : Text} (h : ∀ c ∈ t, c ≠ '"' ∧ c ≠ '}') : Passes t := by
  induction t with
  | nil => exact passes_nil
  | cons c t ih =>
      have hc := h c List.mem_cons_self
      exact (passes_singleton hc.1 hc.2).append (ih fun d hd => h d (List.mem_cons_of_mem _ hd))

/-- The scan inside quotes: an escaped value runs up to the quote that ends it. -/
theorem scanLabels_quoted (value rest : Text) :
    scanLabels true false (Exposition.escape value ++ '"' :: rest) =
      (scanLabels false false rest).map fun found =>
        (Exposition.escape value ++ '"' :: found.1, found.2) := by
  induction value with
  | nil => simp [Exposition.escape, scanLabels]
  | cons c value ih =>
      rw [Exposition.escape_cons, List.append_assoc]
      rcases Exposition.escapeChar_cases c with
        ⟨rfl, he⟩ | ⟨rfl, he⟩ | ⟨rfl, he⟩ | ⟨hback, hquote, he⟩
      -- the backslash of an escape makes the scan step over what is behind it
      · rw [he]
        simp [scanLabels, ih, Function.comp_def]
      · rw [he]
        simp [scanLabels, ih, Function.comp_def]
      · rw [he]
        simp [scanLabels, ih, Function.comp_def]
      · rw [he]
        simp [scanLabels, ih, hback, hquote, Function.comp_def]

theorem passes_quoted (value : Text) : Passes ('"' :: (Exposition.escape value ++ ['"'])) := by
  intro rest
  have h := scanLabels_quoted value rest
  simp [scanLabels, h, Function.comp_def]

theorem passes_labelText (label : Exposition.LabelName × Text) :
    Passes (Exposition.labelText label) := by
  have hname : Passes label.1.text := by
    refine passes_of_forall fun c hc => ⟨?_, ?_⟩
    · rintro rfl
      exact absurd (label.1.all _ hc) (by decide)
    · rintro rfl
      exact absurd (label.1.all _ hc) (by decide)
  exact hname.append ((passes_singleton (by decide) (by decide)).append (passes_quoted label.2))

theorem passes_block (labels : List (Exposition.LabelName × Text)) :
    Passes ([','].intercalate (labels.map Exposition.labelText)) := by
  induction labels with
  | nil => exact passes_nil
  | cons label labels ih =>
      cases labels with
      | nil =>
          rw [List.map_singleton, List.intercalate_singleton]
          exact passes_labelText label
      | cons next labels =>
          rw [List.map_cons, List.intercalate_cons_of_ne_nil (by simp)]
          have hcomma : Passes [','] := passes_singleton (by decide) (by decide)
          exact ((passes_labelText label).append hcomma).append ih

section

variable {ν : Type*} {read : Text → Option ν}

theorem scanLabels_block (sample : Exposition.Sample read) (rest : Text) :
    scanLabels false false (sample.block ++ '}' :: rest) = some (sample.block, rest) := by
  have h := passes_block sample.labels ('}' :: rest)
  unfold Exposition.Sample.block
  rw [h]
  simp [scanLabels]

/-! ## A sample line -/

/-- What stands in the braces, if there are any. -/
def labelBlock (sample : Exposition.Sample read) : Option Text :=
  if sample.labels.isEmpty then none else some sample.block

/-- A sample as the parser has it. -/
def Sample.parsed (sample : Exposition.Sample read) : Sample ν :=
  ⟨parseLabels (labelBlock sample), sample.value⟩

theorem splitLabels_text (sample : Exposition.Sample read) :
    splitLabels ((if sample.labels.isEmpty then [] else '{' :: (sample.block ++ ['}'])) ++
      ' ' :: sample.token) = some (labelBlock sample, ' ' :: sample.token) := by
  unfold labelBlock
  split
  · rfl
  · simp only [List.cons_append, List.append_assoc, List.nil_append, splitLabels,
      scanLabels_block]
    rfl

theorem trimStart_token (sample : Exposition.Sample read) :
    trimStart (' ' :: sample.token) = sample.token := by
  unfold trimStart
  rw [List.dropWhile_cons_of_pos (by decide)]
  refine dropWhile_of_head fun c hc => ?_
  exact isWhitespace_of_isTokenChar (sample.token_all c (List.mem_of_mem_head? hc))

theorem takeWhile_token (sample : Exposition.Sample read) :
    sample.token.takeWhile (!isAsciiSpace ·) = sample.token := by
  rw [List.takeWhile_eq_self_iff]
  intro c hc
  simp [isAsciiSpace_of_isTokenChar (sample.token_all c hc)]

theorem splitSample_text (sample : Exposition.Sample read) :
    splitSample sample.text = some (sample.name.text, labelBlock sample, sample.token) := by
  obtain ⟨first, hfirst, hstart⟩ := sample.name.start
  have hstops : Uri.Stops isMetricChar
      ((if sample.labels.isEmpty then [] else '{' :: (sample.block ++ ['}'])) ++
        ' ' :: sample.token) := by
    split <;> exact Uri.stops_cons (by decide) _
  have hcut := Uri.cut_append sample.name.all hstops
  rw [← List.append_assoc] at hcut
  change sample.text.takeWhile isMetricChar = _ ∧ sample.text.dropWhile isMetricChar = _ at hcut
  have hhead : sample.text.head? = some first := by
    unfold Exposition.Sample.text
    rw [List.append_assoc, List.head?_append, Option.mem_def.mp hfirst]
    rfl
  unfold splitSample
  rw [hhead, hcut.1, hcut.2, splitLabels_text]
  simp [hstart, trimStart_token, takeWhile_token, sample.token_ne]

theorem trimChars_text (sample : Exposition.Sample read) : trimChars sample.text = sample.text := by
  apply trimChars_eq_self
  · intro c hc
    obtain ⟨first, hfirst, -⟩ := sample.name.start
    have hmem := List.mem_of_mem_head? hfirst
    unfold Exposition.Sample.text at hc
    rw [List.append_assoc, List.head?_append, Option.mem_def.mp hfirst] at hc
    cases hc
    exact isWhitespace_of_isTokenChar (isTokenChar_of_isMetricChar (sample.name.all _ hmem))
  · intro c hc
    unfold Exposition.Sample.text at hc
    rw [List.getLast?_append_of_ne_nil _ (by simp),
      List.getLast?_cons_of_ne_nil sample.token_ne] at hc
    exact isWhitespace_of_isTokenChar (sample.token_all c (List.mem_of_mem_getLast? hc))

/-! ## What a line adds -/

/-- The samples of a name that a line holds. -/
def added (line : Exposition.Line read) (name : Text) : List (Sample ν) :=
  (Exposition.samplesOf [line] name).map Sample.parsed

theorem samplesOf_modifyFamily (snapshot : MetricsSnapshot ν) (name key : Text)
    (change : MetricFamily ν → MetricFamily ν) :
    samplesOf (modifyFamily snapshot name change) key =
      if key = name then (change ((snapshot name).getD ⟨none, []⟩)).samples
      else samplesOf snapshot key := by
  unfold samplesOf modifyFamily
  by_cases heq : key = name
  · subst heq
    simp
  · rw [Function.update_of_ne heq, if_neg heq]

theorem samplesOf_eq_getD (snapshot : MetricsSnapshot ν) (name : Text) :
    samplesOf snapshot name = ((snapshot name).getD ⟨none, []⟩).samples := by
  unfold samplesOf
  cases snapshot name <;> rfl

theorem samplesOf_parseComment (snapshot : MetricsSnapshot ν) (rest name : Text) :
    samplesOf (parseComment snapshot rest) name = samplesOf snapshot name := by
  unfold parseComment
  split
  · rfl
  · rw [samplesOf_modifyFamily]
    split
    · rename_i heq
      rw [heq, samplesOf_eq_getD]
    · rfl

/-- A line that starts with a hash adds no sample, with a blank behind it or not. -/
theorem samplesOf_parseLine_hash {t tail : Text} (h : trimChars t = '#' :: tail)
    (snapshot : MetricsSnapshot ν) (name : Text) :
    samplesOf (parseLine read snapshot t) name = samplesOf snapshot name := by
  unfold parseLine
  rw [h]
  have hnone : splitSample ('#' :: tail) = none := rfl
  simp only [List.isEmpty_cons, Bool.false_eq_true, if_false, hnone]
  split
  · exact samplesOf_parseComment snapshot _ name
  · rfl

theorem stripPrefix_hash (sample : Exposition.Sample read) :
    stripPrefix "# ".toList sample.text = none := by
  obtain ⟨first, hfirst, hstart⟩ := sample.name.start
  unfold stripPrefix
  rw [if_neg]
  rintro ⟨rest, hrest⟩
  have hhead := congrArg List.head? hrest
  unfold Exposition.Sample.text at hhead
  rw [List.append_assoc sample.name.text, List.head?_append, List.head?_append,
    Option.mem_def.mp hfirst] at hhead
  have hhash : '#' = first := by simpa using hhead
  subst hhash
  exact absurd hstart (by decide)

theorem parseLine_sample (snapshot : MetricsSnapshot ν) (sample : Exposition.Sample read) :
    parseLine read snapshot sample.text =
      modifyFamily snapshot sample.name.text fun family =>
        { family with samples := family.samples ++ [Sample.parsed sample] } := by
  have hne : sample.text.isEmpty = false := by
    simp [Exposition.Sample.text]
  unfold parseLine
  rw [trimChars_text]
  simp only [hne, stripPrefix_hash, splitSample_text, sample.reads, Bool.false_eq_true, if_false]
  rfl

/-- The step of the parser: what the line holds is added behind what there is. -/
theorem samplesOf_parseLine (snapshot : MetricsSnapshot ν) (line : Exposition.Line read)
    (name : Text) :
    samplesOf (parseLine read snapshot line.text) name =
      samplesOf snapshot name ++ added line name := by
  cases line with
  | sample s =>
      change samplesOf (parseLine read snapshot s.text) name = _
      rw [parseLine_sample, samplesOf_modifyFamily]
      unfold added Exposition.samplesOf
      by_cases heq : s.name.text = name
      · subst heq
        simp [samplesOf_eq_getD]
      · rw [if_neg (Ne.symm heq)]
        simp [heq]
  | comment front rest hblank hline =>
      have hadd : added (.comment front rest hblank hline : Exposition.Line read) name = [] := rfl
      obtain ⟨tail, htail⟩ : ∃ tail, trimChars ('#' :: rest) = '#' :: tail :=
        trimChars_cons (by decide) rest
      rw [hadd, List.append_nil]
      have htrim : trimChars (front ++ '#' :: rest) = '#' :: tail := by
        rw [trimChars_append_front fun c hc => isWhitespace_of_isBlank (hblank c hc), htail]
      exact samplesOf_parseLine_hash htrim snapshot name
  | blank text hblank =>
      have hadd : added (.blank text hblank : Exposition.Line read) name = [] := rfl
      rw [hadd, List.append_nil, parseLine_of_trim_nil]
      exact trimChars_of_forall fun c hc => isWhitespace_of_isBlank (hblank c hc)

/-- The run of the parser over the lines. -/
theorem samplesOf_foldl (doc : List (Exposition.Line read)) (snapshot : MetricsSnapshot ν)
    (name : Text) :
    samplesOf (doc.foldl (fun snapshot line => parseLine read snapshot line.text) snapshot) name =
      samplesOf snapshot name ++ (Exposition.samplesOf doc name).map Sample.parsed := by
  induction doc generalizing snapshot with
  | nil => exact (List.append_nil _).symm
  | cons line doc ih =>
      have hsplit : Exposition.samplesOf (line :: doc) name =
          Exposition.samplesOf [line] name ++ Exposition.samplesOf doc name := by
        unfold Exposition.samplesOf
        rw [← List.filterMap_append, List.singleton_append]
      rw [List.foldl_cons, ih, samplesOf_parseLine, hsplit, List.map_append, List.append_assoc]
      rfl

/-- **Names, order, tokens and label blocks are read back**; only the reading of the block
is left. -/
theorem samplesOf_parse (doc : List (Exposition.Line read)) (name : Text) :
    samplesOf (parse read (Exposition.text doc)) name =
      (Exposition.samplesOf doc name).map Sample.parsed := by
  rw [parse_text, samplesOf_foldl]
  exact List.nil_append _

end

end Wallermax.Manager.Metrics
