import Wallermax.Manager.MetricsLines
import Wallermax.Templates.Lossless

/-!
# When a metrics answer round-trips

Everything of a written sample is read back but a label value with a comma in it: the
block is split there, and no value the parser makes has a comma. Without one the labels
come back as they were, whatever else the values hold.
-/

namespace Wallermax.Manager.Metrics

open Wallermax.Base
open Wallermax.Templates (trimChars stripPrefix)
open Wallermax.Tenants (isWhitespace)

/-! ## Escapes -/

theorem unescape_cons {c : Char} (h : c ≠ '\\') (t : Text) :
    unescape (c :: t) = c :: unescape t := by
  rw [unescape]
  · intro hc
    exact absurd hc h
  · intro d rest hc
    exact absurd hc h

/-- Escapes are undone. -/
theorem unescape_escape (value : Text) : unescape (Exposition.escape value) = value := by
  induction value with
  | nil => rfl
  | cons c value ih =>
      rw [Exposition.escape_cons]
      rcases Exposition.escapeChar_cases c with
        ⟨rfl, he⟩ | ⟨rfl, he⟩ | ⟨rfl, he⟩ | ⟨hback, -, he⟩
      · rw [he]
        simp [unescape, ih]
      · rw [he]
        simp [unescape, ih]
      · rw [he]
        simp [unescape, ih]
      · rw [he, List.singleton_append, unescape_cons hback, ih]

/-- No comma comes out of an escape. -/
theorem comma_mem_unescape {t : Text} : ',' ∈ unescape t → ',' ∈ t := by
  induction t using unescape.induct with
  | case1 => exact fun h => h
  | case2 => exact fun h => h
  | case3 c rest ih =>
      intro h
      rw [unescape, List.mem_cons] at h
      rcases h with h | h
      · split at h
        · exact absurd h (by decide)
        · split at h
          · exact absurd h (by decide)
          · exact List.mem_cons_of_mem _ (h ▸ List.mem_cons_self)
      · exact List.mem_cons_of_mem _ (List.mem_cons_of_mem _ (ih h))
  | case4 c rest hlast hback ih =>
      intro h
      have hne : c ≠ '\\' := by
        rintro rfl
        cases rest with
        | nil => exact hlast rfl rfl
        | cons d rest => exact hback d rest rfl rfl
      rw [unescape_cons hne] at h
      rcases List.mem_cons.mp h with h | h
      · exact h ▸ List.mem_cons_self
      · exact List.mem_cons_of_mem _ (ih h)

/-! ## One pair -/

theorem comma_not_mem_labelText {label : Exposition.LabelName × Text} (h : ',' ∉ label.2) :
    ',' ∉ Exposition.labelText label := by
  unfold Exposition.labelText
  simp only [List.mem_append, List.mem_cons, List.not_mem_nil, or_false, not_or]
  refine ⟨fun hc => absurd (label.1.all _ hc) (by decide), by decide, by decide, ?_, by decide⟩
  exact fun hc => h (Exposition.comma_mem_escape hc)

theorem splitOnce_labelText (label : Exposition.LabelName × Text) :
    splitOnce '=' (Exposition.labelText label) =
      some (label.1.text, '"' :: (Exposition.escape label.2 ++ ['"'])) := by
  have hname : ∀ c ∈ label.1.text, (c != '=') = true := by
    intro c hc
    refine bne_iff_ne.mpr ?_
    rintro rfl
    exact absurd (label.1.all _ hc) (by decide)
  have hstops : Uri.Stops (· != '=') ('=' :: '"' :: (Exposition.escape label.2 ++ ['"'])) :=
    Uri.stops_cons (by decide) _
  have hcut := Uri.cut_append hname hstops
  unfold splitOnce Exposition.labelText
  rw [hcut.1, hcut.2]

theorem trimChars_labelName (name : Exposition.LabelName) : trimChars name.text = name.text := by
  have hspace : ∀ c ∈ name.text, isWhitespace c = false := fun c hc =>
    isWhitespace_of_isTokenChar (isTokenChar_of_isLabelChar (name.all c hc))
  apply trimChars_eq_self
  · exact fun c hc => hspace c (List.mem_of_mem_head? hc)
  · exact fun c hc => hspace c (List.mem_of_mem_getLast? hc)

theorem trimChars_quoted (t : Text) : trimChars ('"' :: (t ++ ['"'])) = '"' :: (t ++ ['"']) := by
  apply trimChars_eq_self
  · intro c hc
    cases hc
    decide
  · intro c hc
    rw [← List.cons_append, List.getLast?_concat] at hc
    cases hc
    decide

theorem insertPair_labelText (labels : LabelMap) (label : Exposition.LabelName × Text) :
    insertPair labels (Exposition.labelText label) =
      Function.update labels label.1.text (some label.2) := by
  have hstrip : stripPrefix ['"'] ('"' :: (Exposition.escape label.2 ++ ['"'])) =
      some (Exposition.escape label.2 ++ ['"']) := by
    simp [stripPrefix]
  unfold insertPair
  rw [splitOnce_labelText]
  simp only [trimChars_quoted, hstrip, Option.bind_some, List.getLast?_concat, if_true,
    List.dropLast_concat, unescape_escape, trimChars_labelName]

theorem splitOnce_suffix {c : Char} {t key raw : Text} (h : splitOnce c t = some (key, raw)) :
    raw <:+ t := by
  unfold splitOnce at h
  split at h
  · cases h
  · rename_i d rest hdrop
    cases h
    have hsuffix : d :: raw <:+ t := hdrop ▸ List.dropWhile_suffix _
    exact (List.suffix_cons d raw).trans hsuffix

theorem isInfix_unquoted {t unquoted : Text}
    (h : ((stripPrefix ['"'] t).bind fun rest =>
      if rest.getLast? = some '"' then some rest.dropLast else none) = some unquoted) :
    unquoted <:+: t := by
  obtain ⟨rest, hrest, hlast⟩ := Option.bind_eq_some_iff.mp h
  have hdrop : rest <:+ t := by
    unfold stripPrefix at hrest
    split at hrest
    · cases hrest
      exact List.drop_suffix _ _
    · cases hrest
  split at hlast
  · cases hlast
    exact (List.dropLast_prefix rest).isInfix.trans hdrop.isInfix
  · cases hlast

/-- The values a map has are without commas. -/
def Plain (labels : LabelMap) : Prop := ∀ key value, labels key = some value → ',' ∉ value

theorem plain_insertPair {labels : LabelMap} {pair : Text} (hpair : ',' ∉ pair)
    (h : Plain labels) : Plain (insertPair labels pair) := by
  unfold insertPair
  split
  · exact h
  · rename_i key raw hsplit
    split
    · exact h
    · rename_i unquoted hquoted
      intro key' value hvalue
      by_cases heq : key' = trimChars key
      · subst heq
        rw [Function.update_self, Option.some.injEq] at hvalue
        subst hvalue
        intro hc
        have hraw := (isInfix_unquoted hquoted).subset (comma_mem_unescape hc)
        have hpiece := (Templates.trimChars_isInfix raw).subset hraw
        exact hpair ((splitOnce_suffix hsplit).subset hpiece)
      · rw [Function.update_of_ne heq] at hvalue
        exact h key' value hvalue

/-! ## The block -/

/-- The pieces are what stands between two commas of the block, so no value has one. -/
theorem plain_parseLabels (text : Option Text) : Plain (parseLabels text) := by
  have hempty : Plain fun _ => none := fun _ _ h => by cases h
  cases text with
  | none => exact hempty
  | some text =>
      have hpieces : ∀ piece ∈ text.splitOn ',', ',' ∉ piece := by
        intro piece hmem hc
        rw [List.splitOn_eq_splitOnP] at hmem
        exact absurd (Csp.splitOnP_part hmem ',' hc).1 (by decide)
      have hfold : ∀ (pieces : List Text) (labels : LabelMap), (∀ piece ∈ pieces, ',' ∉ piece) →
          Plain labels → Plain (pieces.foldl insertPair labels) := by
        intro pieces
        induction pieces with
        | nil => exact fun _ _ h => h
        | cons piece pieces ih =>
            intro labels hpieces h
            refine ih _ (fun p hp => hpieces p (List.mem_cons_of_mem _ hp)) ?_
            exact plain_insertPair (hpieces piece List.mem_cons_self) h
      exact hfold _ _ hpieces hempty

/-- Distinct names written one after the other are looked up as in the list. -/
theorem foldl_update (pairs : List (Text × Text)) (h : (pairs.map Prod.fst).Nodup)
    (labels : LabelMap) (key : Text) :
    pairs.foldl (fun (labels : LabelMap) pair => Function.update labels pair.1 (some pair.2))
      labels key =
      (pairs.lookup key).or (labels key) := by
  induction pairs generalizing labels with
  | nil => rfl
  | cons pair pairs ih =>
      obtain ⟨name, value⟩ := pair
      rw [List.map_cons, List.nodup_cons] at h
      rw [List.foldl_cons, ih h.2]
      by_cases heq : key = name
      · subst heq
        have hnone : pairs.lookup key = none := by
          refine List.lookup_eq_none_iff.mpr fun pair hmem => ?_
          refine bne_iff_ne.mpr ?_
          rintro rfl
          exact h.1 (List.mem_map.mpr ⟨pair, hmem, rfl⟩)
        rw [hnone, List.lookup_cons_self, Function.update_self]
        rfl
      · rw [Function.update_of_ne heq, List.lookup_cons, beq_eq_false_iff_ne.mpr heq]

section

variable {ν : Type*} {read : Text → Option ν}

/-- Without commas in the values the block is cut into its pairs. -/
theorem parseLabels_block {sample : Exposition.Sample read}
    (h : ∀ label ∈ sample.labels, ',' ∉ label.2) :
    parseLabels (labelBlock sample) = sample.labelMap := by
  by_cases hempty : sample.labels = []
  · unfold labelBlock Exposition.Sample.labelMap
    rw [hempty]
    rfl
  · have hsplit : sample.block.splitOn ',' = sample.labels.map Exposition.labelText := by
      refine List.splitOn_intercalate ',' ?_ (by simpa using hempty)
      intro piece hpiece
      obtain ⟨label, hmem, rfl⟩ := List.mem_map.mp hpiece
      exact comma_not_mem_labelText (h label hmem)
    have hblock : labelBlock sample = some sample.block := by
      unfold labelBlock
      rw [if_neg (by simpa using hempty)]
    have hnodup : ((sample.labels.map fun label => (label.1.text, label.2)).map Prod.fst).Nodup := by
      rw [List.map_map]
      exact sample.distinct
    rw [hblock]
    unfold parseLabels Exposition.Sample.labelMap
    simp only [hsplit, List.foldl_map, insertPair_labelText]
    ext key : 1
    have hfold := foldl_update _ hnodup (fun _ => none) key
    rw [List.foldl_map, Option.or_none] at hfold
    exact hfold

theorem labelMap_of_mem {sample : Exposition.Sample read} {label : Exposition.LabelName × Text}
    (h : label ∈ sample.labels) : sample.labelMap label.1.text = some label.2 := by
  have hdistinct := sample.distinct
  unfold Exposition.Sample.labelMap
  generalize sample.labels = labels at h hdistinct
  induction labels with
  | nil => cases h
  | cons first labels ih =>
      rw [List.map_cons, List.nodup_cons] at hdistinct
      rw [List.map_cons, List.lookup_cons]
      rcases List.mem_cons.mp h with rfl | h
      · rw [beq_self_eq_true]
      · have hne : label.1.text ≠ first.1.text := fun heq =>
          hdistinct.1 (heq ▸ List.mem_map_of_mem h)
        rw [beq_eq_false_iff_ne.mpr hne]
        exact ih h hdistinct.2

/-- The labels of a sample come back exactly when no value has a comma. -/
theorem parsed_eq_of_iff (sample : Exposition.Sample read) :
    Sample.parsed sample = Sample.of sample ↔ ∀ label ∈ sample.labels, ',' ∉ label.2 := by
  constructor
  · intro heq label hmem
    have hlabels : parseLabels (labelBlock sample) = sample.labelMap := congrArg Sample.labels heq
    refine plain_parseLabels (labelBlock sample) label.1.text label.2 ?_
    rw [hlabels]
    exact labelMap_of_mem hmem
  · intro h
    unfold Sample.parsed Sample.of
    rw [parseLabels_block h]

theorem mem_samplesOf {doc : List (Exposition.Line read)} {name : Text}
    {sample : Exposition.Sample read} :
    sample ∈ Exposition.samplesOf doc name ↔
      Exposition.Line.sample sample ∈ doc ∧ sample.name.text = name := by
  unfold Exposition.samplesOf
  rw [List.mem_filterMap]
  constructor
  · rintro ⟨line, hmem, hline⟩
    split at hline
    · split at hline
      · cases hline
        exact ⟨hmem, ‹_›⟩
      · cases hline
    · cases hline
  · rintro ⟨hmem, rfl⟩
    exact ⟨.sample sample, hmem, if_pos rfl⟩

/-- **An answer round-trips exactly when no label value of its samples has a comma.** -/
theorem roundTrips_iff (doc : List (Exposition.Line read)) :
    RoundTrips doc ↔
      ∀ sample, .sample sample ∈ doc → ∀ label ∈ sample.labels, ',' ∉ label.2 := by
  unfold RoundTrips
  simp only [samplesOf_parse, List.map_inj_left, parsed_eq_of_iff, mem_samplesOf]
  constructor
  · exact fun h sample hmem => h sample.name.text sample ⟨hmem, rfl⟩
  · exact fun h _ sample hsample => h sample hsample.1

end

/-! ## A value with a comma -/

/-- `up{job="a,b"} 1`. -/
def commaSample : Exposition.Sample (fun token : Text => some token) where
  name := ⟨['u', 'p'], ⟨'u', rfl, rfl⟩, forall_mem_of_all (by decide)⟩
  labels := [(⟨['j', 'o', 'b'], ⟨'j', rfl, rfl⟩, forall_mem_of_all (by decide)⟩, ['a', ',', 'b'])]
  distinct := by decide
  token := ['1']
  token_ne := by decide
  token_all := forall_mem_of_all (by decide)
  value := ['1']
  reads := rfl

/-- The label of `up{job="a,b"} 1` is lost. -/
theorem comma_lost : ¬ RoundTrips [.sample commaSample] := by
  intro h
  have hlost : ((samplesOf (parse (fun token => some token)
      "up\x7bjob=\"a,b\"\x7d 1".toList) ['u', 'p']).map (·.labels ['j', 'o', 'b'])) = [none] := by
    decide +kernel
  have hup := congrArg (List.map (·.labels ['j', 'o', 'b'])) (h ['u', 'p'])
  exact absurd (hlost.symm.trans hup) (by decide)

end Wallermax.Manager.Metrics
