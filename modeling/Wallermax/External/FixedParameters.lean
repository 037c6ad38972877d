import Wallermax.Base.Cut
import Wallermax.Base.Paths
import Wallermax.External.UpstreamUrl

/-!
# Fixed parameters of an endpoint

An endpoint with fixed query parameters reads the request's query as pairs, drops those
with a fixed name and writes the rest and its own pairs after the base's query. A name is
compared after decoding, so no spelling of it gets past the filter.
-/

namespace Wallermax.External

open Wallermax.Base
open Wallermax.Base.Uri (appendQuery)

/-! ## The appended pairs -/

/-- The pairs a request brings along. -/
def incomingPairs (form : FormUrlencoded) (query : Option Text) : List (Text × Text) :=
  (query.map form.parse).getD []

/-- The incoming pairs without a fixed name, then the fixed ones. -/
def composedPairs (form : FormUrlencoded) (query : Option Text) (fixed : List (Text × Text)) :
    List (Text × Text) :=
  (incomingPairs form query).filter (fun pair => pair.1 ∉ fixed.map Prod.fst) ++ fixed

/-- What `upstream_url` puts after the base: a query in which every fixed name has its fixed
value, and which is the end of the whole URL's query. -/
structure Appended (form : FormUrlencoded) (base : Text) (query : Option Text)
    (fixed : List (Text × Text)) (appended : Text) : Prop where
  text : upstreamUrl form base query fixed =
    base ++ (if '?' ∈ base then '&' else '?') :: appended
  decoded : form.parse appended = composedPairs form query fixed
  once : ∀ pair ∈ fixed, (form.parse appended).filter (fun p => p.1 = pair.1) = [pair]
  component : '#' ∉ appended → Uri.parse (upstreamUrl form base query fixed) =
    { Uri.parse base with
      query := some (appendQuery (Uri.parse base).query appended) }

theorem kept_eq (fixed pairs : List (Text × Text)) :
    pairs.filter (fun pair => !fixed.any fun f => f.1 == pair.1) =
      pairs.filter fun pair => pair.1 ∉ fixed.map Prod.fst := by
  refine List.filter_congr fun pair _ => ?_
  have hany : (fixed.any fun f => f.1 == pair.1) = decide (pair.1 ∈ fixed.map Prod.fst) := by
    rw [Bool.eq_iff_iff, decide_eq_true_iff, List.any_eq_true, List.mem_map]
    simp only [beq_iff_eq]
  rw [hany, decide_not]

theorem upstreamUrl_of_fixed {form : FormUrlencoded} {fixed : List (Text × Text)}
    (hne : fixed ≠ []) (base : Text) (query : Option Text) :
    upstreamUrl form base query fixed = base ++ (if '?' ∈ base then '&' else '?') ::
      form.serialize (composedPairs form query fixed) := by
  unfold upstreamUrl
  dsimp only
  rw [if_neg hne, kept_eq]
  by_cases hquestion : '?' ∈ base
  · rw [if_pos hquestion, if_pos hquestion]
    rfl
  · rw [if_neg hquestion, if_neg hquestion]
    rfl

/-- A list without a name twice has one pair of a name. -/
theorem filter_name {pairs : List (Text × Text)} (hnames : (pairs.map Prod.fst).Nodup)
    {pair : Text × Text} (hpair : pair ∈ pairs) :
    pairs.filter (fun p => p.1 = pair.1) = [pair] := by
  induction pairs with
  | nil => cases hpair
  | cons head rest ih =>
      rw [List.map_cons, List.nodup_cons] at hnames
      rcases List.mem_cons.mp hpair with rfl | hpair
      · have hrest : rest.filter (fun p => p.1 = pair.1) = [] := by
          refine List.filter_eq_nil_iff.mpr fun p hp hname => hnames.1 ?_
          rw [← of_decide_eq_true hname]
          exact List.mem_map_of_mem hp
        rw [List.filter_cons_of_pos (by simp), hrest]
      · have hhead : ¬ head.1 = pair.1 := fun heq => hnames.1 (heq ▸ List.mem_map_of_mem hpair)
        rw [List.filter_cons_of_neg (by simpa using hhead)]
        exact ih hnames.2 hpair

/-- A fixed name is left with its own pair only. -/
theorem composedPairs_filter (form : FormUrlencoded) (query : Option Text)
    {fixed : List (Text × Text)} (hnames : (fixed.map Prod.fst).Nodup) {pair : Text × Text}
    (hpair : pair ∈ fixed) :
    (composedPairs form query fixed).filter (fun p => p.1 = pair.1) = [pair] := by
  have hincoming : ((incomingPairs form query).filter fun p => p.1 ∉ fixed.map Prod.fst).filter
      (fun p => p.1 = pair.1) = [] := by
    refine List.filter_eq_nil_iff.mpr fun p hp hname => ?_
    have hnot := of_decide_eq_true (List.mem_filter.mp hp).2
    rw [of_decide_eq_true hname] at hnot
    exact hnot (List.mem_map_of_mem hpair)
  unfold composedPairs
  rw [List.filter_append, hincoming, List.nil_append]
  exact filter_name hnames hpair

/-- **A fixed parameter cannot be shadowed.** -/
theorem fixed_parameters (form : FormUrlencoded)
    (hform : ∀ pairs, form.parse (form.serialize pairs) = pairs) (base : Text)
    (hbase : '#' ∉ base) (query : Option Text) (fixed : List (Text × Text)) (hne : fixed ≠ [])
    (hnames : (fixed.map Prod.fst).Nodup) :
    ∃ appended, Appended form base query fixed appended := by
  have htext := @upstreamUrl_of_fixed form fixed hne base query
  refine ⟨form.serialize (composedPairs form query fixed), htext, hform _, ?_, ?_⟩
  · intro pair hpair
    rw [hform]
    exact composedPairs_filter form query hnames hpair
  · intro hhash
    have hjoin := Uri.parse_join hbase hhash none
    rw [Uri.fragmentText, List.append_nil] at hjoin
    rw [htext, hjoin, ← Uri.fragment_parse_of_hash_not_mem hbase]

/-! ## `form_urlencoded` undoes itself -/

/-- A pair as the serializer writes it. -/
def pairText (pair : Text × Text) : Text := serializeText pair.1 ++ '=' :: serializeText pair.2

theorem isFormChar_or_space_ascii (c : Char) (hc : (isFormChar c || c == ' ') = true) :
    c.toNat < 0x80 ∧ c ≠ '%' := by
  rw [Bool.or_eq_true, beq_iff_eq] at hc
  rcases hc with hform | rfl
  · refine isPchar_ascii c ?_
    unfold isFormChar at hform
    unfold isPchar
    rw [Bool.or_eq_true] at hform ⊢
    rcases hform with halnum | hlist
    · exact Or.inl halnum
    · have hsub : ∀ d ∈ ['*', '-', '.', '_'], ['-', '.', '_', '~', '!', '$', '&', '\'', '(', ')',
          '*', '+', ',', ';', '=', ':', '@'].contains d = true := forall_mem_of_all (by decide)
      exact Or.inr (hsub c (List.contains_iff_mem.mp hlist))
  · decide

theorem hexUpper_ne_form (n : Fin 16) : hexUpper n ≠ '+' ∧ hexUpper n ≠ '=' ∧ hexUpper n ≠ '&' := by
  revert n
  decide

/-- A serialized text is made of plus signs and encoded characters. -/
theorem mem_serializeText {c : Char} {t : Text} (hc : c ∈ serializeText t) :
    c = '+' ∨ isFormChar c = true ∨ c = '%' ∨ ∃ n : Fin 16, c = hexUpper n := by
  obtain ⟨d, -, hd⟩ := List.mem_flatMap.mp hc
  split at hd
  · exact Or.inl (List.mem_singleton.mp hd)
  · exact Or.inr (mem_percentEncode hd)

theorem separator_not_mem_serializeText (t : Text) :
    '=' ∉ serializeText t ∧ '&' ∉ serializeText t := by
  constructor
  · intro hc
    rcases mem_serializeText hc with hplus | hsafe | hpercent | ⟨n, hn⟩
    · exact absurd hplus (by decide)
    · exact absurd hsafe (by decide)
    · exact absurd hpercent (by decide)
    · exact (hexUpper_ne_form n).2.1 hn.symm
  · intro hc
    rcases mem_serializeText hc with hplus | hsafe | hpercent | ⟨n, hn⟩
    · exact absurd hplus (by decide)
    · exact absurd hsafe (by decide)
    · exact absurd hpercent (by decide)
    · exact (hexUpper_ne_form n).2.2 hn.symm

def plusToSpace (c : Char) : Char := if c = '+' then ' ' else c

theorem map_plusToSpace_of_not_mem {t : Text} (h : '+' ∉ t) : t.map plusToSpace = t := by
  have hid : ∀ c ∈ t, plusToSpace c = id c := by
    intro c hc
    refine if_neg ?_
    rintro rfl
    exact h hc
  rw [List.map_congr_left hid, List.map_id]

/-- Plus signs stand for spaces only. -/
theorem map_plusToSpace_serializeText (t : Text) :
    (serializeText t).map plusToSpace = percentEncode (fun c => isFormChar c || c == ' ') t := by
  unfold serializeText
  rw [List.map_flatMap]
  refine List.flatMap_congr fun c _ => ?_
  by_cases hspace : c = ' '
  · subst hspace
    rfl
  · have hplus : '+' ∉ percentEncode isFormChar [c] := by
      intro hc
      rcases mem_percentEncode hc with hsafe | hpercent | ⟨n, hn⟩
      · exact absurd hsafe (by decide)
      · exact absurd hpercent (by decide)
      · exact (hexUpper_ne_form n).1 hn.symm
    rw [if_neg hspace, map_plusToSpace_of_not_mem hplus]
    simp [percentEncode, hspace]

theorem percentText_plusToSpace_serializeText (t : Text) :
    percentText ((serializeText t).map plusToSpace) = t := by
  rw [map_plusToSpace_serializeText]
  exact percentText_of_strict (percentText?_percentEncode isFormChar_or_space_ascii t)

theorem pairText_ne_nil (pair : Text × Text) : pairText pair ≠ [] := by
  intro hnil
  have hmem : '=' ∈ pairText pair := List.mem_append_right _ List.mem_cons_self
  rw [hnil] at hmem
  cases hmem

theorem amp_not_mem_pairText (pair : Text × Text) : '&' ∉ pairText pair := by
  intro hc
  rcases List.mem_append.mp hc with hc | hc
  · exact (separator_not_mem_serializeText pair.1).2 hc
  · rcases List.mem_cons.mp hc with hc | hc
    · exact absurd hc (by decide)
    · exact (separator_not_mem_serializeText pair.2).2 hc

/-- The parser on one pair. -/
def readPair (text : Text) : Text × Text :=
  (percentText (((splitOnce '=' text).getD (text, [])).1.map plusToSpace),
    percentText (((splitOnce '=' text).getD (text, [])).2.map plusToSpace))

theorem readPair_pairText (pair : Text × Text) : readPair (pairText pair) = pair := by
  have hcut : splitOnce '=' (pairText pair) = some (serializeText pair.1, serializeText pair.2) :=
    splitOnce_append (separator_not_mem_serializeText pair.1).1 (serializeText pair.2)
  unfold readPair
  rw [hcut]
  exact Prod.ext (percentText_plusToSpace_serializeText pair.1)
    (percentText_plusToSpace_serializeText pair.2)

theorem parse_serialize (pairs : List (Text × Text)) :
    urlFormUrlencoded.parse (urlFormUrlencoded.serialize pairs) = pairs := by
  show (((List.intercalate ['&'] (pairs.map pairText)).splitOn '&').filter (· ≠ [])).map
    readPair = pairs
  by_cases hnil : pairs = []
  · subst hnil
    rfl
  · have hparts : ∀ text ∈ pairs.map pairText, '&' ∉ text := by
      intro text htext
      obtain ⟨pair, -, rfl⟩ := List.mem_map.mp htext
      exact amp_not_mem_pairText pair
    have hkept : ∀ text ∈ pairs.map pairText, decide (text ≠ []) = true := by
      intro text htext
      obtain ⟨pair, -, rfl⟩ := List.mem_map.mp htext
      exact decide_eq_true (pairText_ne_nil pair)
    rw [List.splitOn_intercalate '&' hparts (by simpa using hnil), List.filter_eq_self.mpr hkept,
      List.map_map]
    have hid : ∀ pair ∈ pairs, (readPair ∘ pairText) pair = id pair :=
      fun pair _ => readPair_pairText pair
    rw [List.map_congr_left hid, List.map_id]

/-- The key is spelled with an escape and sent twice. -/
theorem fixed_parameters_key :
    ∃ appended, Appended urlFormUrlencoded "https://api.example.com/v1/?lang=en".toList
      (some "%6Bey=mine&page=2&key=".toList) [("key".toList, "secret".toList)] appended :=
  fixed_parameters urlFormUrlencoded parse_serialize _ (by decide +kernel) _ _ (by decide)
    (by decide)

example : upstreamUrl urlFormUrlencoded "https://api.example.com/v1/?lang=en".toList
    (some "%6Bey=mine&page=2&key=".toList) [("key".toList, "secret".toList)] =
      "https://api.example.com/v1/?lang=en&page=2&key=secret".toList := by
  decide +kernel

end Wallermax.External
