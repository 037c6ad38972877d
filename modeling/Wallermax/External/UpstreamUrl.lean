import Mathlib.Data.List.DropRight
import Wallermax.Base.Ascii
import Wallermax.Base.PercentEncoding
import Wallermax.Base.Uri
import Wallermax.Tenants.Forms

/-!
# The address of an upstream call

The external API proxy builds the URL it calls out of the configured one, the
subpath and the query of the request: segments are filtered and re-encoded, put
after the configured path and before the configured query, and the request's
query goes last. Each of these steps rewrites one component of the configured
URL and leaves the others as they were.
-/

namespace Wallermax.External

open Wallermax.Base
open Wallermax.Base.Uri (appendQuery)
open Wallermax.Tenants

/-! ## The subpath -/

/-- `is_pchar`: `pchar` without `%`. -/
def isPchar (c : Char) : Bool :=
  c.isAlphanum || ['-', '.', '_', '~', '!', '$', '&', '\'', '(', ')', '*', '+', ',', ';',
    '=', ':', '@'].contains c

/-- The loop of `encode_subpath`. -/
def encodeSegments : List Text → Except String (List Text)
  | [] => .ok []
  | segment :: rest =>
      if segment = [] then encodeSegments rest
      else if segment = ['.'] ∨ segment = ['.', '.'] then
        .error "subpath segments `.` and `..` are not allowed"
      else if segment.any isControl then
        .error "subpath may not contain control characters"
      else (encodeSegments rest).map fun segments =>
        percentEncode isPchar segment :: segments

/-- `encode_subpath`. -/
def encodeSubpath (subpath : Text) : Except String Text :=
  (encodeSegments (subpath.splitOn '/')).map (List.intercalate ['/'])

/-- `str::split_once`. -/
def splitOnce (separator : Char) (t : Text) : Option (Text × Text) :=
  if separator ∈ t then
    some (t.takeWhile (· != separator), (t.dropWhile (· != separator)).tail)
  else none

/-- `trim_end_matches('/')`. -/
def trimEndSlashes (t : Text) : Text := t.rdropWhile (· == '/')

/-- `join_subpath`. -/
def joinSubpath (base subpath : Text) : Text :=
  if subpath = [] then base
  else match splitOnce '?' base with
  | some (path, query) => trimEndSlashes path ++ '/' :: subpath ++ '?' :: query
  | none => trimEndSlashes base ++ '/' :: subpath

/-! ## The query -/

/-- The two directions of `url::form_urlencoded`. -/
structure FormUrlencoded : Type where
  parse : Text → List (Text × Text)
  serialize : List (Text × Text) → Text

/-- `upstream_url`. -/
def upstreamUrl (form : FormUrlencoded) (base : Text) (query : Option Text)
    (fixed : List (Text × Text)) : Text :=
  if fixed = [] then
    match query with
    | some query =>
        if query = [] then base
        else if '?' ∈ base then base ++ '&' :: query
        else base ++ '?' :: query
    | none => base
  else
    let pairs := (query.map form.parse).getD []
    let kept := pairs.filter fun pair => !fixed.any fun f => f.1 == pair.1
    let composed := form.serialize (kept ++ fixed)
    if '?' ∈ base then base ++ '&' :: composed else base ++ '?' :: composed

/-- The URL `proxy` calls, or the reason of its 400. -/
def proxyUrl (form : FormUrlencoded) (url : Text) (subpath query : Option Text)
    (fixed : List (Text × Text)) : Except String Text :=
  match subpath.filter fun subpath => subpath ≠ [] with
  | none => .ok (upstreamUrl form url query fixed)
  | some raw => (encodeSubpath raw).map fun encoded =>
      upstreamUrl form (joinSubpath url encoded) query fixed

/-! ## Segments -/

/-- The segments of a subpath that are not empty. -/
def properSegments (subpath : Text) : List Text := (subpath.splitOn '/').filter (· ≠ [])

def IsDots (segment : Text) : Prop := segment = ['.'] ∨ segment = ['.', '.']

theorem isPchar_ascii (c : Char) (hc : isPchar c = true) : c.toNat < 0x80 ∧ c ≠ '%' := by
  have hplain : c.isAlphanum = true ∨ c ∈ ['-', '.', '_', '~', '!', '$', '&', '\'', '(',
      ')', '*', '+', ',', ';', '=', ':', '@'] := by
    simpa [isPchar] using hc
  rcases hplain with halnum | hlist
  · constructor
    · have hrange := toNat_of_isAlphanum halnum
      omega
    · rintro rfl
      revert halnum
      decide
  · have hall : ∀ d ∈ ['-', '.', '_', '~', '!', '$', '&', '\'', '(', ')', '*', '+', ',',
        ';', '=', ':', '@'], d.toNat < 0x80 ∧ d ≠ '%' := by
      simp
    exact hall c hlist

/-- What `encode_subpath` accepts and what it makes of it. -/
theorem encodeSegments_ok {segments encoded : List Text}
    (h : encodeSegments segments = .ok encoded) :
    encoded = (segments.filter (· ≠ [])).map (percentEncode isPchar) ∧
      ∀ s ∈ segments.filter (· ≠ []), ¬ IsDots s := by
  induction segments generalizing encoded with
  | nil =>
      cases h
      exact ⟨rfl, fun s hs => by cases hs⟩
  | cons segment rest ih =>
      rw [encodeSegments] at h
      split at h
      case isTrue hempty =>
        subst hempty
        exact ih h
      case isFalse hne =>
        split at h
        case isTrue => cases h
        case isFalse hdots =>
          split at h
          case isTrue => cases h
          case isFalse =>
            cases hrest : encodeSegments rest with
            | error reason =>
                rw [hrest] at h
                cases h
            | ok tail =>
                rw [hrest] at h
                cases h
                obtain ⟨htail, hproper⟩ := ih hrest
                rw [List.filter_cons_of_pos (by simpa using hne), List.map_cons, ← htail]
                refine ⟨rfl, fun s hs => ?_⟩
                rcases List.mem_cons.mp hs with rfl | hs
                · exact hdots
                · exact hproper s hs

theorem encodeSubpath_ok {subpath encoded : Text} (h : encodeSubpath subpath = .ok encoded) :
    encoded = List.intercalate ['/'] ((properSegments subpath).map (percentEncode isPchar)) ∧
      ∀ s ∈ properSegments subpath, ¬ IsDots s := by
  unfold encodeSubpath at h
  cases hsegments : encodeSegments (subpath.splitOn '/') with
  | error reason =>
      rw [hsegments] at h
      cases h
  | ok segments =>
      rw [hsegments] at h
      cases h
      obtain ⟨hencoded, hproper⟩ := encodeSegments_ok hsegments
      rw [hencoded]
      exact ⟨rfl, hproper⟩

/-! ## No delimiter in a segment -/

theorem hexUpper_ne_delimiter (n : Fin 16) :
    hexUpper n ≠ '/' ∧ hexUpper n ≠ '?' ∧ hexUpper n ≠ '#' := by
  revert n
  decide

/-- An encoded segment contains no delimiter of a URL. -/
theorem percentEncode_ne_delimiter {c : Char} {s : Text} (hc : c ∈ percentEncode isPchar s) :
    c ≠ '/' ∧ c ≠ '?' ∧ c ≠ '#' := by
  rcases mem_percentEncode hc with hsafe | rfl | ⟨n, rfl⟩
  · refine ⟨?_, ?_, ?_⟩
    all_goals
      rintro rfl
      exact absurd hsafe (by decide)
  · decide
  · exact hexUpper_ne_delimiter n

theorem mem_intercalate {c separator : Char} {parts : List Text}
    (hc : c ∈ List.intercalate [separator] parts) :
    c = separator ∨ ∃ part ∈ parts, c ∈ part := by
  induction parts with
  | nil => cases hc
  | cons part rest ih =>
      cases rest with
      | nil => exact Or.inr ⟨part, List.mem_singleton_self part, by simpa using hc⟩
      | cons next rest =>
          rw [List.intercalate_cons_cons, List.append_assoc, List.mem_append,
            List.mem_append] at hc
          rcases hc with hc | hc | hc
          · exact Or.inr ⟨part, List.mem_cons_self, hc⟩
          · exact Or.inl (List.mem_singleton.mp hc)
          · rcases ih hc with hseparator | ⟨p, hp, hcp⟩
            · exact Or.inl hseparator
            · exact Or.inr ⟨p, List.mem_cons_of_mem part hp, hcp⟩

/-- The encoded subpath stays inside the path component. -/
theorem encodeSubpath_isPathChar {subpath encoded : Text}
    (h : encodeSubpath subpath = .ok encoded) : ∀ c ∈ encoded, Uri.isPathChar c = true := by
  intro c hc
  rw [(encodeSubpath_ok h).1] at hc
  rcases mem_intercalate hc with rfl | ⟨part, hpart, hcp⟩
  · rfl
  · obtain ⟨s, _, rfl⟩ := List.mem_map.mp hpart
    obtain ⟨_, hquestion, hhash⟩ := percentEncode_ne_delimiter hcp
    simp [Uri.isPathChar, hquestion, hhash]

/-- Splitting the encoded subpath gives the encoded segments back. -/
theorem splitOn_encodeSubpath {subpath encoded : Text}
    (h : encodeSubpath subpath = .ok encoded) (hne : properSegments subpath ≠ []) :
    encoded.splitOn '/' = (properSegments subpath).map (percentEncode isPchar) := by
  rw [(encodeSubpath_ok h).1]
  apply List.splitOn_intercalate
  case hx =>
    intro part hpart hslash
    obtain ⟨s, _, rfl⟩ := List.mem_map.mp hpart
    exact (percentEncode_ne_delimiter hslash).1 rfl
  case hls => simpa using hne

theorem percentEncode_ne_nil {s : Text} (h : s ≠ []) : percentEncode isPchar s ≠ [] := by
  intro hnil
  have hround := percentText?_percentEncode isPchar_ascii s
  rw [hnil] at hround
  exact h (Option.some_inj.mp (hround.symm.trans (by decide)))

theorem encodeSubpath_eq_nil_iff {subpath encoded : Text}
    (h : encodeSubpath subpath = .ok encoded) : encoded = [] ↔ properSegments subpath = [] := by
  constructor
  · intro hnil
    by_contra hne
    have hsplit := splitOn_encodeSubpath h hne
    rw [hnil] at hsplit
    cases hsegments : properSegments subpath with
    | nil => exact hne hsegments
    | cons s rest =>
        rw [hsegments, List.map_cons, List.splitOn_nil] at hsplit
        have hs : s ≠ [] := by
          have hmem : s ∈ properSegments subpath := by
            rw [hsegments]
            exact List.mem_cons_self
          simpa using (List.mem_filter.mp hmem).2
        exact percentEncode_ne_nil hs (List.cons_eq_cons.mp hsplit).1.symm
  · intro hnil
    rw [(encodeSubpath_ok h).1, hnil]
    rfl

/-! ## Joining rewrites the path -/

/-- Trimming stops where the second text has something to keep, or at the end of
the first. -/
theorem trimEndSlashes_append {front path : Text}
    (h : trimEndSlashes path ≠ [] ∨ trimEndSlashes front = front) :
    trimEndSlashes (front ++ path) = front ++ trimEndSlashes path := by
  unfold trimEndSlashes List.rdropWhile at h ⊢
  rw [List.reverse_append, List.dropWhile_append]
  split
  case isTrue hempty =>
    have hnil := List.isEmpty_iff.mp hempty
    rcases h with hkeep | hfront
    · rw [hnil] at hkeep
      exact absurd rfl hkeep
    · rw [hnil, hfront]
      simp
  case isFalse => simp

theorem splitOnce_append {c : Char} {front : Text} (hfront : c ∉ front) (rest : Text) :
    splitOnce c (front ++ c :: rest) = some (front, rest) := by
  have hrun : ∀ d ∈ front, (d != c) = true := by
    intro d hd
    apply bne_iff_ne.mpr
    rintro rfl
    exact hfront hd
  have hcut := Uri.cut_append hrun (Uri.stops_cons (p := (· != c)) (c := c) (by simp) rest)
  unfold splitOnce
  rw [if_pos (by simp), hcut.1, hcut.2]
  rfl

/-- A URL without a fragment. -/
structure IsWhole (u : Uri) : Prop extends u.IsUrl where
  whole : u.fragment = none

/-- The slashes at the end of the base are its path's: it names a host, or its
path has a segment. -/
structure IsBase (u : Uri) : Prop extends IsWhole u where
  host : u.authority ≠ some [] ∨ trimEndSlashes u.path ≠ []

theorem IsWhole.not_mem_front {u : Uri} (h : IsWhole u) : '?' ∉ u.front := by
  obtain ⟨s, hs, _, hscheme⟩ := h.scheme
  obtain ⟨a, ha, hauthority⟩ := h.authority
  intro hmem
  simp only [Uri.front, hs, ha, Uri.schemeText, Uri.authorityText, List.mem_append,
    List.mem_cons] at hmem
  rcases hmem with ((hm | hm) | hm | hm | hm) | hm
  · exact absurd (hscheme _ hm) (by decide)
  · exact absurd hm (by decide)
  · exact absurd hm (by decide)
  · exact absurd hm (by decide)
  · exact absurd (hauthority _ hm) (by decide)
  · exact absurd (h.path _ hm) (by decide)

/-- Only the path is trimmed: an authority ends in something else. -/
theorem IsBase.trimEndSlashes_front {u : Uri} (h : IsBase u) :
    trimEndSlashes u.front =
      Uri.schemeText u.scheme ++ Uri.authorityText u.authority ++ trimEndSlashes u.path := by
  apply trimEndSlashes_append
  rcases h.host with hhost | hpath
  case inr => exact Or.inl hpath
  case inl =>
    apply Or.inr
    obtain ⟨a, ha, hauthority⟩ := h.authority
    have hne : a ≠ [] := fun hnil => hhost (by rw [ha, hnil])
    have hlast : a.getLast hne ≠ '/' := by
      intro heq
      have hslash := hauthority _ (List.getLast_mem hne)
      rw [heq] at hslash
      exact absurd hslash (by decide)
    have hend : Uri.schemeText u.scheme ++ Uri.authorityText u.authority =
        (Uri.schemeText u.scheme ++ ['/', '/']) ++ a := by
      simp [ha, Uri.authorityText]
    rw [hend]
    apply List.rdropWhile_eq_self_iff.mpr
    intro hnonempty
    rw [List.getLast_append_of_ne_nil _ hne]
    simpa using hlast

/-- The base's path, without its trailing slashes, and the subpath after it. -/
def appendPath (path subpath : Text) : Text := trimEndSlashes path ++ '/' :: subpath

/-- **`join_subpath` rewrites the path** and nothing else. -/
theorem joinSubpath_toText {u : Uri} (h : IsBase u) {subpath : Text} (hne : subpath ≠ []) :
    joinSubpath u.toText subpath =
      Uri.toText { u with
        path := appendPath u.path subpath } := by
  have hfragment : u.fragment = none := h.whole
  have hfront : Uri.front { u with
      path := appendPath u.path subpath } = trimEndSlashes u.front ++ '/' :: subpath := by
    rw [h.trimEndSlashes_front]
    simp [Uri.front, appendPath]
  unfold joinSubpath Uri.toText
  rw [if_neg hne, hfront, hfragment]
  show (match splitOnce '?' (u.front ++ Uri.queryText u.query ++ []) with
    | some (path, query) => trimEndSlashes path ++ '/' :: subpath ++ '?' :: query
    | none => trimEndSlashes (u.front ++ Uri.queryText u.query ++ []) ++ '/' :: subpath) =
    trimEndSlashes u.front ++ '/' :: subpath ++ Uri.queryText u.query ++ []
  rw [List.append_nil, List.append_nil]
  cases u.query with
  | some q =>
      have hsplit := splitOnce_append h.not_mem_front q
      show (match splitOnce '?' (u.front ++ '?' :: q) with
        | some (path, query) => trimEndSlashes path ++ '/' :: subpath ++ '?' :: query
        | none => _) = _
      rw [hsplit]
      rfl
  | none =>
      have hsplit : splitOnce '?' u.front = none := if_neg h.not_mem_front
      show (match splitOnce '?' (u.front ++ []) with
        | some (path, query) => _
        | none => trimEndSlashes (u.front ++ []) ++ '/' :: subpath) =
        trimEndSlashes u.front ++ '/' :: subpath ++ []
      rw [List.append_nil, hsplit, List.append_nil]

/-- The joined URL has no fragment either. -/
theorem IsWhole.join {u : Uri} (h : IsWhole u) {subpath : Text}
    (hpath : ∀ c ∈ subpath, Uri.isPathChar c = true) :
    IsWhole { u with
      path := appendPath u.path subpath } := by
  have hshort : trimEndSlashes u.path <+: u.path := List.rdropWhile_prefix _ _
  refine ⟨⟨h.scheme, h.authority, ?_, ?_, h.query⟩, h.whole⟩
  case refine_1 =>
    intro c hc
    rcases List.mem_append.mp hc with hc | hc
    · exact h.path c (hshort.subset hc)
    · rcases List.mem_cons.mp hc with rfl | hc
      · rfl
      · exact hpath c hc
  case refine_2 =>
    apply Or.inr
    show (trimEndSlashes u.path ++ '/' :: subpath).head? = some '/'
    cases htrim : trimEndSlashes u.path with
    | nil => rfl
    | cons c rest =>
        rw [htrim] at hshort
        obtain ⟨suffix, hsuffix⟩ := hshort
        rcases h.rooted with hempty | hslash
        · rw [hempty] at hsuffix
          cases hsuffix
        · rw [← hsuffix] at hslash
          exact hslash

/-! ## Composing rewrites the query -/

theorem mem_toText_iff {u : Uri} (h : IsWhole u) : '?' ∈ u.toText ↔ u.query.isSome = true := by
  have hfragment : u.fragment = none := h.whole
  unfold Uri.toText
  rw [hfragment]
  cases u.query with
  | some q => exact iff_of_true (by simp [Uri.queryText]) rfl
  | none =>
      have hfront := h.not_mem_front
      exact iff_of_false (by simpa [Uri.queryText, Uri.fragmentText] using hfront)
        Bool.false_ne_true

theorem appendQuery_toText {u : Uri} (h : IsWhole u) (extra : Text) :
    (if '?' ∈ u.toText then u.toText ++ '&' :: extra else u.toText ++ '?' :: extra) =
      Uri.toText { u with
        query := some (appendQuery u.query extra) } := by
  have hfragment : u.fragment = none := h.whole
  have hmem := mem_toText_iff h
  have htext : u.toText = u.front ++ Uri.queryText u.query := by
    simp [Uri.toText, hfragment, Uri.fragmentText]
  have htarget : Uri.toText { u with
      query := some (appendQuery u.query extra) } =
      u.front ++ '?' :: appendQuery u.query extra := by
    simp [Uri.toText, Uri.front, hfragment, Uri.fragmentText, Uri.queryText]
  rw [htarget]
  cases hquery : u.query with
  | some q =>
      rw [if_pos (hmem.mpr (by rw [hquery]; rfl)), htext, hquery]
      simp [Uri.queryText, appendQuery]
  | none =>
      have hnot : ¬ '?' ∈ u.toText := fun hin => by
        have hsome := hmem.mp hin
        rw [hquery] at hsome
        cases hsome
      rw [if_neg hnot, htext, hquery]
      simp [Uri.queryText, appendQuery]

/-- **`upstream_url` extends the query** and touches nothing else. -/
theorem upstreamUrl_toText {form : FormUrlencoded}
    (hform : ∀ pairs, '#' ∉ form.serialize pairs) {u : Uri} (h : IsWhole u)
    {query : Option Text} (hquery : ∀ q ∈ query, '#' ∉ q) (fixed : List (Text × Text)) :
    ∃ q, upstreamUrl form u.toText query fixed = Uri.toText { u with
        query := q } ∧
      (∀ own ∈ u.query, ∃ more, q = some (own ++ more)) ∧
      ∀ t ∈ q, ∀ c ∈ t, Uri.isQueryChar c = true := by
  have hsame : ∀ own ∈ u.query, ∃ more, u.query = some (own ++ more) := by
    intro own hown
    exact ⟨[], by rw [List.append_nil]; exact hown⟩
  have hextend : ∀ extra : Text, '#' ∉ extra →
      ∃ q, (if '?' ∈ u.toText then u.toText ++ '&' :: extra else u.toText ++ '?' :: extra) =
        Uri.toText { u with
          query := q } ∧
        (∀ own ∈ u.query, ∃ more, q = some (own ++ more)) ∧
        ∀ t ∈ q, ∀ c ∈ t, Uri.isQueryChar c = true := by
    intro extra hextra
    refine ⟨_, appendQuery_toText h extra, ?_, ?_⟩
    · intro own hown
      have hown' : u.query = some own := hown
      rw [hown']
      exact ⟨'&' :: extra, rfl⟩
    · intro t ht c hc
      cases ht
      have hne : c ≠ '#' := by
        rintro rfl
        cases hown : u.query with
        | none =>
            rw [hown] at hc
            exact hextra hc
        | some own =>
            rw [hown] at hc
            rcases List.mem_append.mp hc with hc | hc
            · exact absurd (h.query own hown _ hc) (by decide)
            · rcases List.mem_cons.mp hc with hc | hc
              · exact absurd hc (by decide)
              · exact hextra hc
      simp [Uri.isQueryChar, hne]
  unfold upstreamUrl
  split
  case isTrue =>
    split
    case h_2 => exact ⟨u.query, rfl, hsame, h.query⟩
    case h_1 q =>
      split
      case isTrue => exact ⟨u.query, rfl, hsame, h.query⟩
      case isFalse => exact hextend q (hquery q rfl)
  case isFalse => exact hextend _ (hform _)

/-! ## The call stays on its upstream -/

theorem isBase_parse {base : Text} (hscheme : (Uri.parse base).scheme.isSome = true)
    (hauthority : (Uri.parse base).authority.isSome = true)
    (hhost : (Uri.parse base).authority ≠ some [] ∨
      trimEndSlashes (Uri.parse base).path ≠ [])
    (hfragment : (Uri.parse base).fragment = none) : IsBase (Uri.parse base) :=
  ⟨⟨Uri.isUrl_parse hscheme hauthority, hfragment⟩, hhost⟩

/-- What a call's URL has in common with its base: all but the subpath's
segments, percent-encoded, and the end of the query. -/
structure OnUpstream (base : Uri) (segments : List Text) (url : Uri) : Prop where
  scheme : url.scheme = base.scheme
  authority : url.authority = base.authority
  path : url.path = if segments = [] then base.path
    else appendPath base.path
      (List.intercalate ['/'] (segments.map (percentEncode isPchar)))
  cut : segments ≠ [] →
    (List.intercalate ['/'] (segments.map (percentEncode isPchar))).splitOn '/' =
      segments.map (percentEncode isPchar)
  decoded : (segments.map (percentEncode isPchar)).map percentText? = segments.map some
  dots : ∀ s ∈ segments, ¬ IsDots s ∧ ¬ IsDots (percentEncode isPchar s)
  query : ∀ own ∈ base.query, ∃ more, url.query = some (own ++ more)
  fragment : url.fragment = none

/-- Dots decode to themselves, so no encoded segment reads as dots. -/
theorem encoded_not_dots {s : Text} (h : ¬ IsDots s) :
    ¬ IsDots (percentEncode isPchar s) := by
  have hround := percentText?_percentEncode isPchar_ascii s
  rintro (hdot | hdots)
  · rw [hdot] at hround
    exact h (Or.inl (Option.some_inj.mp (hround.symm.trans (by decide))))
  · rw [hdots] at hround
    exact h (Or.inr (Option.some_inj.mp (hround.symm.trans (by decide))))

/-- **No client input steers a call off its upstream.** For a base URL with a
scheme, an authority and no fragment (and a host, unless its path has a segment:
no configured URL is slashes only), an accepted subpath and the query of a request,
the URL called has the base's scheme and authority, its path is the base's with
exactly the subpath's segments after it, its query begins with the base's own
and it has no fragment. A subpath without a segment leaves the path alone. -/
theorem proxy_onUpstream (form : FormUrlencoded)
    (hform : ∀ pairs, '#' ∉ form.serialize pairs) (base subpath encoded : Text)
    (query : Option Text) (fixed : List (Text × Text))
    (hscheme : (Uri.parse base).scheme.isSome = true)
    (hauthority : (Uri.parse base).authority.isSome = true)
    (hhost : (Uri.parse base).authority ≠ some [] ∨
      trimEndSlashes (Uri.parse base).path ≠ [])
    (hfragment : (Uri.parse base).fragment = none)
    (hquery : ∀ q ∈ query, '#' ∉ q) (hencoded : encodeSubpath subpath = .ok encoded) :
    OnUpstream (Uri.parse base) (properSegments subpath)
      (Uri.parse (upstreamUrl form (joinSubpath base encoded) query fixed)) := by
  have hbase := isBase_parse hscheme hauthority hhost hfragment
  have hjoined : ∃ path, IsWhole { Uri.parse base with
        path := path } ∧
      joinSubpath base encoded = Uri.toText { Uri.parse base with
        path := path } ∧
      path = if properSegments subpath = [] then (Uri.parse base).path
        else appendPath (Uri.parse base).path encoded := by
    by_cases hnone : properSegments subpath = []
    case pos =>
      have hnil := (encodeSubpath_eq_nil_iff hencoded).mpr hnone
      refine ⟨_, hbase.toIsWhole, ?_, (if_pos hnone).symm⟩
      rw [hnil]
      exact (Uri.toText_parse base).symm
    case neg =>
      have hne : encoded ≠ [] := fun hnil =>
        hnone ((encodeSubpath_eq_nil_iff hencoded).mp hnil)
      refine ⟨_, hbase.join (encodeSubpath_isPathChar hencoded), ?_, (if_neg hnone).symm⟩
      have hjoin := joinSubpath_toText hbase hne
      rw [Uri.toText_parse] at hjoin
      exact hjoin
  obtain ⟨path, hpathBase, htext, hpath⟩ := hjoined
  obtain ⟨q, hurl, hown, hchars⟩ := upstreamUrl_toText hform hpathBase hquery fixed
  have hparse := Uri.parse_toText (u := { Uri.parse base with
    path := path
    query := q }) ⟨hpathBase.scheme, hpathBase.authority, hpathBase.path, hpathBase.rooted,
      hchars⟩
  rw [htext, hurl, hparse]
  obtain ⟨hjoin, hproper⟩ := encodeSubpath_ok hencoded
  refine ⟨rfl, rfl, ?_, ?_, ?_, ?_, hown, hfragment⟩
  case refine_1 =>
    rw [← hjoin]
    exact hpath
  case refine_2 =>
    intro hne
    rw [← hjoin]
    exact splitOn_encodeSubpath hencoded hne
  case refine_3 =>
    rw [List.map_map]
    exact List.map_congr_left fun s _ => percentText?_percentEncode isPchar_ascii s
  case refine_4 => exact fun s hs => ⟨hproper s hs, encoded_not_dots (hproper s hs)⟩

/-! ## With the serializer of `form_urlencoded` -/

def isFormChar (c : Char) : Bool := c.isAlphanum || ['*', '-', '.', '_'].contains c

/-- `byte_serialize` of a text. -/
def serializeText (t : Text) : Text :=
  t.flatMap fun c => if c = ' ' then ['+'] else percentEncode isFormChar [c]

def urlFormUrlencoded : FormUrlencoded where
  parse t := ((t.splitOn '&').filter (· ≠ [])).map fun pair =>
    let (name, value) := (splitOnce '=' pair).getD (pair, [])
    let spaces := List.map fun c => if c = '+' then ' ' else c
    (percentText (spaces name), percentText (spaces value))
  serialize pairs := List.intercalate ['&'] (pairs.map fun pair =>
    serializeText pair.1 ++ '=' :: serializeText pair.2)

theorem not_mem_serializeText (t : Text) : '#' ∉ serializeText t := by
  intro hmem
  obtain ⟨c, _, hc⟩ := List.mem_flatMap.mp hmem
  split at hc
  case isTrue => exact absurd hc (by decide)
  case isFalse =>
    rcases mem_percentEncode hc with hsafe | hpercent | ⟨n, hn⟩
    · exact absurd hsafe (by decide)
    · exact absurd hpercent (by decide)
    · exact (hexUpper_ne_delimiter n).2.2 hn.symm

theorem not_mem_serialize (pairs : List (Text × Text)) :
    '#' ∉ urlFormUrlencoded.serialize pairs := by
  intro hmem
  rcases mem_intercalate hmem with hseparator | ⟨part, hpart, hc⟩
  · exact absurd hseparator (by decide)
  · obtain ⟨pair, _, rfl⟩ := List.mem_map.mp hpart
    rcases List.mem_append.mp hc with hc | hc
    · exact not_mem_serializeText _ hc
    · rcases List.mem_cons.mp hc with hc | hc
      · exact absurd hc (by decide)
      · exact not_mem_serializeText _ hc

/-- A subpath with a question mark and a non-ASCII letter, and a fixed
parameter the request tries to set as well. -/
theorem proxy_onUpstream_users :
    OnUpstream (Uri.parse "https://api.example.com/v1/?lang=en".toList)
      (properSegments "users//ä?b".toList)
      (Uri.parse (upstreamUrl urlFormUrlencoded
        (joinSubpath "https://api.example.com/v1/?lang=en".toList
          "users/%C3%A4%3Fb".toList)
        (some "key=mine&page=2".toList) [("key".toList, "secret".toList)])) :=
  proxy_onUpstream urlFormUrlencoded not_mem_serialize _ _ _ _ _
    (by decide +kernel) (by decide +kernel) (by decide +kernel) (by decide +kernel)
    (by rintro q ⟨⟩; decide +kernel) (by rfl)

example : upstreamUrl urlFormUrlencoded
    (joinSubpath "https://api.example.com/v1/?lang=en".toList "users/%C3%A4%3Fb".toList)
    (some "key=mine&page=2".toList) [("key".toList, "secret".toList)] =
    "https://api.example.com/v1/users/%C3%A4%3Fb?lang=en&page=2&key=secret".toList := by
  decide +kernel

/-- A subpath of slashes has no segments, and nothing is put after the path. -/
theorem slashes_leave_path :
    encodeSubpath "//".toList = .ok [] ∧
      (Uri.parse (upstreamUrl urlFormUrlencoded
        (joinSubpath "https://api.example.com/v1".toList []) none [])).path ≠
        trimEndSlashes (Uri.parse "https://api.example.com/v1".toList).path ++ '/' ::
          List.intercalate ['/'] ((properSegments "//".toList).map
            (percentEncode isPchar)) :=
  ⟨by rfl, by decide +kernel⟩

end Wallermax.External
