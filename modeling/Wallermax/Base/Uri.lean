import Mathlib.Data.List.TakeDrop
import Mathlib.Data.List.TakeWhile

/-!
# URI references

The component split of RFC 3986: a text is cut at the first delimiter of each
component, so every text has a reading, and putting the components back
together gives the text. `IsUrl` says what makes a record of components come
back from its own text: a scheme, an authority, and no delimiter inside a
component that would end it early.
-/

namespace Wallermax.Base

/-- A text, as its characters. -/
abbrev Text : Type := List Char

/-- The five components; only the path is always there. -/
structure Uri : Type where
  scheme : Option Text
  authority : Option Text
  path : Text
  query : Option Text
  fragment : Option Text
deriving DecidableEq

/-- A condition on every member, checked by running along the list. -/
theorem forall_mem_of_all {α : Type*} {P : α → Prop} [DecidablePred P] {l : List α}
    (h : l.all (fun a => decide (P a)) = true) : ∀ a ∈ l, P a := fun a ha =>
  of_decide_eq_true (List.all_eq_true.mp h a ha)

namespace Uri

/-! ## Reading -/

def isSchemeChar (c : Char) : Bool := c != ':' && c != '/' && c != '?' && c != '#'

def isAuthorityChar (c : Char) : Bool := c != '/' && c != '?' && c != '#'

def isPathChar (c : Char) : Bool := c != '?' && c != '#'

def isQueryChar (c : Char) : Bool := c != '#'

def readScheme (t : Text) : Option Text × Text :=
  match t.takeWhile isSchemeChar, t.dropWhile isSchemeChar with
  | c :: name, ':' :: rest => (some (c :: name), rest)
  | _, _ => (none, t)

def readAuthority : Text → Option Text × Text
  | '/' :: '/' :: rest =>
      (some (rest.takeWhile isAuthorityChar), rest.dropWhile isAuthorityChar)
  | t => (none, t)

def readQuery : Text → Option Text × Text
  | '?' :: rest => (some (rest.takeWhile isQueryChar), rest.dropWhile isQueryChar)
  | t => (none, t)

def readFragment : Text → Option Text
  | '#' :: rest => some rest
  | _ => none

def parse (t : Text) : Uri :=
  let (scheme, t) := readScheme t
  let (authority, t) := readAuthority t
  let path := t.takeWhile isPathChar
  let (query, t) := readQuery (t.dropWhile isPathChar)
  { scheme := scheme
    authority := authority
    path := path
    query := query
    fragment := readFragment t }

/-! ## Writing -/

def schemeText : Option Text → Text
  | some s => s ++ [':']
  | none => []

def authorityText : Option Text → Text
  | some a => '/' :: '/' :: a
  | none => []

def queryText : Option Text → Text
  | some q => '?' :: q
  | none => []

def fragmentText : Option Text → Text
  | some f => '#' :: f
  | none => []

/-- What stands before the query. -/
def front (u : Uri) : Text := schemeText u.scheme ++ authorityText u.authority ++ u.path

def toText (u : Uri) : Text := u.front ++ queryText u.query ++ fragmentText u.fragment

/-! ## Cutting at a delimiter -/

/-- The text is empty or starts with a character that is not one of `p`. -/
def Stops (p : Char → Bool) (t : Text) : Prop := ∀ c ∈ t.head?, p c = false

theorem stops_nil (p : Char → Bool) : Stops p [] := fun _ hc => by cases hc

theorem stops_cons {p : Char → Bool} {c : Char} (hc : p c = false) (t : Text) :
    Stops p (c :: t) := by
  intro d hd
  cases hd
  exact hc

theorem stops_dropWhile (p : Char → Bool) (t : Text) : Stops p (t.dropWhile p) := by
  intro c hc
  have hnot := List.head?_dropWhile_not p t
  rw [hc] at hnot
  exact hnot

/-- A run of `p` up to where it stops. -/
theorem cut_append {p : Char → Bool} {run rest : Text} (hrun : ∀ c ∈ run, p c = true)
    (hrest : Stops p rest) :
    (run ++ rest).takeWhile p = run ∧ (run ++ rest).dropWhile p = rest := by
  rw [List.takeWhile_append_of_pos hrun, List.dropWhile_append_of_pos hrun]
  cases rest with
  | nil => simp
  | cons c rest =>
      have hc : ¬ p c = true := by
        rw [hrest c rfl]
        exact Bool.false_ne_true
      rw [List.takeWhile_cons_of_neg hc, List.dropWhile_cons_of_neg hc]
      simp

/-! ## Writing what was read -/

theorem schemeText_readScheme (t : Text) :
    schemeText (readScheme t).1 ++ (readScheme t).2 = t := by
  unfold readScheme
  split
  case h_1 c name rest hname hrest =>
    have hsplit := List.takeWhile_append_dropWhile (p := isSchemeChar) (l := t)
    rw [hname, hrest] at hsplit
    show (c :: name ++ [':']) ++ rest = t
    rw [List.append_assoc]
    exact hsplit
  case h_2 => rfl

theorem authorityText_readAuthority (t : Text) :
    authorityText (readAuthority t).1 ++ (readAuthority t).2 = t := by
  unfold readAuthority
  split
  case h_1 rest =>
    show '/' :: '/' :: (rest.takeWhile isAuthorityChar ++ rest.dropWhile isAuthorityChar) = _
    rw [List.takeWhile_append_dropWhile]
  case h_2 => rfl

theorem fragmentText_readFragment {t : Text} (h : Stops isQueryChar t) :
    fragmentText (readFragment t) = t := by
  cases t with
  | nil => rfl
  | cons c t =>
      have hc : c = '#' := by simpa [isQueryChar] using h c rfl
      rw [hc]
      rfl

theorem queryText_readQuery {t : Text} (h : Stops isPathChar t) :
    queryText (readQuery t).1 ++ fragmentText (readFragment (readQuery t).2) = t := by
  unfold readQuery
  split
  case h_1 rest =>
    show '?' :: (rest.takeWhile isQueryChar ++
      fragmentText (readFragment (rest.dropWhile isQueryChar))) = '?' :: rest
    rw [fragmentText_readFragment (stops_dropWhile isQueryChar rest),
      List.takeWhile_append_dropWhile]
  case h_2 t hnot =>
    apply fragmentText_readFragment
    intro c hc
    have hend := h c hc
    have hcases : c = '?' ∨ c = '#' := by
      simpa [isPathChar, Classical.or_iff_not_imp_left] using hend
    rcases hcases with rfl | rfl
    · obtain ⟨rest, rfl⟩ := List.head?_eq_some_iff.mp hc
      exact absurd rfl (hnot rest)
    · rfl

/-- **Writing undoes reading.** -/
theorem toText_parse (t : Text) : (parse t).toText = t := by
  let r := (readScheme t).2
  let r' := (readAuthority r).2
  calc (parse t).toText
      = schemeText (readScheme t).1 ++ (authorityText (readAuthority r).1 ++
          (r'.takeWhile isPathChar ++
            (queryText (readQuery (r'.dropWhile isPathChar)).1 ++
              fragmentText (readFragment (readQuery (r'.dropWhile isPathChar)).2)))) := by
        simp only [toText, front, List.append_assoc]
        rfl
    _ = schemeText (readScheme t).1 ++ (authorityText (readAuthority r).1 ++ r') := by
        rw [queryText_readQuery (stops_dropWhile isPathChar r'),
          List.takeWhile_append_dropWhile]
    _ = t := by
        rw [authorityText_readAuthority, schemeText_readScheme]

/-! ## Reading what was written -/

/-- The components of a URL: a scheme and an authority, and no component
contains a delimiter that ends it. -/
structure IsUrl (u : Uri) : Prop where
  scheme : ∃ s, u.scheme = some s ∧ s ≠ [] ∧ ∀ c ∈ s, isSchemeChar c = true
  authority : ∃ a, u.authority = some a ∧ ∀ c ∈ a, isAuthorityChar c = true
  path : ∀ c ∈ u.path, isPathChar c = true
  rooted : u.path = [] ∨ u.path.head? = some '/'
  query : ∀ q ∈ u.query, ∀ c ∈ q, isQueryChar c = true

theorem readScheme_append {s rest : Text} (hne : s ≠ [])
    (hs : ∀ c ∈ s, isSchemeChar c = true) :
    readScheme (s ++ ':' :: rest) = (some s, rest) := by
  have hcut := cut_append hs (stops_cons (p := isSchemeChar) (c := ':') rfl rest)
  unfold readScheme
  rw [hcut.1, hcut.2]
  cases s with
  | nil => exact absurd rfl hne
  | cons c s => rfl

theorem readAuthority_append {a rest : Text} (ha : ∀ c ∈ a, isAuthorityChar c = true)
    (hrest : Stops isAuthorityChar rest) :
    readAuthority ('/' :: '/' :: (a ++ rest)) = (some a, rest) := by
  have hcut := cut_append ha hrest
  show (some ((a ++ rest).takeWhile isAuthorityChar),
    (a ++ rest).dropWhile isAuthorityChar) = _
  rw [hcut.1, hcut.2]

theorem stops_fragmentText (f : Option Text) : Stops isQueryChar (fragmentText f) := by
  cases f with
  | none => exact stops_nil _
  | some f => exact stops_cons rfl f

/-- After the path. -/
theorem stops_queryText (q f : Option Text) :
    Stops isPathChar (queryText q ++ fragmentText f) := by
  cases q with
  | some q => exact stops_cons rfl _
  | none =>
      cases f with
      | none => exact stops_nil _
      | some f => exact stops_cons rfl f

theorem readQuery_append {q f : Option Text} (hq : ∀ t ∈ q, ∀ c ∈ t, isQueryChar c = true) :
    readQuery (queryText q ++ fragmentText f) = (q, fragmentText f) := by
  cases q with
  | some q =>
      have hcut := cut_append (hq q rfl) (stops_fragmentText f)
      show (some ((q ++ fragmentText f).takeWhile isQueryChar),
        (q ++ fragmentText f).dropWhile isQueryChar) = _
      rw [hcut.1, hcut.2]
  | none =>
      cases f with
      | none => rfl
      | some f => rfl

theorem readFragment_fragmentText (f : Option Text) : readFragment (fragmentText f) = f := by
  cases f <;> rfl

/-- **Reading undoes writing**, for the components of a URL. -/
theorem parse_toText {u : Uri} (h : u.IsUrl) : parse u.toText = u := by
  obtain ⟨s, hs, hne, hscheme⟩ := h.scheme
  obtain ⟨a, ha, hauthority⟩ := h.authority
  let tail := queryText u.query ++ fragmentText u.fragment
  have htext : u.toText = s ++ ':' :: ('/' :: '/' :: (a ++ (u.path ++ tail))) := by
    simp [toText, front, hs, ha, schemeText, authorityText, tail]
  have hstops : Stops isAuthorityChar (u.path ++ tail) := by
    rcases h.rooted with hempty | hslash
    · rw [hempty, List.nil_append]
      intro c hc
      have hpath := stops_queryText u.query u.fragment c hc
      have hcases : c = '?' ∨ c = '#' := by
        simpa [isPathChar, Classical.or_iff_not_imp_left] using hpath
      rcases hcases with rfl | rfl <;> rfl
    · obtain ⟨rest, hrest⟩ := List.head?_eq_some_iff.mp hslash
      rw [hrest]
      exact stops_cons rfl _
  have hcut := cut_append h.path (stops_queryText u.query u.fragment)
  have hquery := readQuery_append (f := u.fragment) h.query
  unfold parse
  rw [htext, readScheme_append hne hscheme]
  dsimp only
  rw [readAuthority_append hauthority hstops]
  dsimp only
  rw [hcut.1, hcut.2, hquery]
  dsimp only
  rw [readFragment_fragmentText, ← hs, ← ha]

theorem all_takeWhile (p : Char → Bool) (t : Text) : ∀ c ∈ t.takeWhile p, p c = true :=
  fun _ hc => List.mem_takeWhile_imp hc

theorem readScheme_some {t s : Text} (h : (readScheme t).1 = some s) :
    s ≠ [] ∧ ∀ c ∈ s, isSchemeChar c = true := by
  unfold readScheme at h
  split at h
  case h_1 c name rest hname _ =>
    cases h
    refine ⟨List.cons_ne_nil c name, ?_⟩
    rw [← hname]
    exact all_takeWhile _ _
  case h_2 => cases h

theorem readAuthority_some {t a : Text} (h : (readAuthority t).1 = some a) :
    (∀ c ∈ a, isAuthorityChar c = true) ∧ Stops isAuthorityChar (readAuthority t).2 := by
  unfold readAuthority at h ⊢
  split at h
  case h_1 rest =>
    cases h
    exact ⟨all_takeWhile _ _, stops_dropWhile _ _⟩
  case h_2 => cases h

theorem readQuery_some {t q : Text} (h : (readQuery t).1 = some q) :
    ∀ c ∈ q, isQueryChar c = true := by
  unfold readQuery at h
  split at h
  case h_1 rest =>
    cases h
    exact all_takeWhile _ _
  case h_2 => cases h

/-- The authority ran up to a delimiter; of these only a slash starts a path. -/
theorem rooted_of_stops {t : Text} (h : Stops isAuthorityChar t) :
    t.takeWhile isPathChar = [] ∨ (t.takeWhile isPathChar).head? = some '/' := by
  cases t with
  | nil => exact Or.inl rfl
  | cons c t =>
      by_cases hc : isPathChar c = true
      case neg => exact Or.inl (List.takeWhile_cons_of_neg hc)
      case pos =>
        have hend := h c rfl
        have hslash : c = '/' := by
          simp only [isAuthorityChar, isPathChar, Bool.and_eq_true, bne_iff_ne] at hend hc
          by_contra hne
          rw [bne_iff_ne.mpr hne, bne_iff_ne.mpr hc.1, bne_iff_ne.mpr hc.2] at hend
          cases hend
        rw [List.takeWhile_cons_of_pos hc, hslash]
        exact Or.inr rfl

/-- What is read with a scheme and an authority is a URL. -/
theorem isUrl_parse {t : Text} (hscheme : (parse t).scheme.isSome = true)
    (hauthority : (parse t).authority.isSome = true) : (parse t).IsUrl := by
  obtain ⟨s, hs⟩ := Option.isSome_iff_exists.mp hscheme
  obtain ⟨a, ha⟩ := Option.isSome_iff_exists.mp hauthority
  have hread := readAuthority_some ha
  exact ⟨⟨s, hs, readScheme_some hs⟩, ⟨a, ha, hread.1⟩, all_takeWhile _ _,
    rooted_of_stops hread.2, fun q hq => readQuery_some hq⟩

/-! ## What stands behind the path -/

theorem stops_append {p : Char → Bool} {s t : Text} (hs : Stops p s) (ht : Stops p t) :
    Stops p (s ++ t) := by
  cases s with
  | nil => exact ht
  | cons c s => exact stops_cons (hs c rfl) _

/-- Behind the path there is nothing, a query or a fragment. -/
theorem stops_path_cases {t : Text} (h : Stops isPathChar t) :
    t = [] ∨ (∃ q, t = '?' :: q) ∨ ∃ f, t = '#' :: f := by
  cases t with
  | nil => exact Or.inl rfl
  | cons c t =>
      have hc : c = '?' ∨ c = '#' := by
        simpa [isPathChar, Classical.or_iff_not_imp_left] using h c rfl
      rcases hc with rfl | rfl
      · exact Or.inr (Or.inl ⟨t, rfl⟩)
      · exact Or.inr (Or.inr ⟨t, rfl⟩)

/-- A reader that stops at a `?` and at a `#` stops behind the path. -/
theorem Stops.of_path {p : Char → Bool} (hquestion : p '?' = false) (hhash : p '#' = false)
    {t : Text} (h : Stops isPathChar t) : Stops p t := by
  rcases stops_path_cases h with rfl | ⟨q, rfl⟩ | ⟨f, rfl⟩
  · exact stops_nil p
  · exact stops_cons hquestion q
  · exact stops_cons hhash f

theorem readScheme_append_tail (front : Text) {tail : Text} (htail : Stops isPathChar tail) :
    readScheme (front ++ tail) = ((readScheme front).1, (readScheme front).2 ++ tail) := by
  have hcut : (front ++ tail).takeWhile isSchemeChar = front.takeWhile isSchemeChar ∧
      (front ++ tail).dropWhile isSchemeChar = front.dropWhile isSchemeChar ++ tail := by
    have hsplit : front ++ tail =
        front.takeWhile isSchemeChar ++ (front.dropWhile isSchemeChar ++ tail) := by
      rw [← List.append_assoc, List.takeWhile_append_dropWhile]
    rw [hsplit]
    exact cut_append (all_takeWhile isSchemeChar front)
      (stops_append (stops_dropWhile isSchemeChar front) (htail.of_path rfl rfl))
  unfold readScheme
  rw [hcut.1, hcut.2]
  cases hname : front.takeWhile isSchemeChar with
  | nil => rfl
  | cons c name =>
      cases hrest : front.dropWhile isSchemeChar with
      | nil =>
          rcases stops_path_cases htail with rfl | ⟨q, rfl⟩ | ⟨f, rfl⟩
          · rfl
          · rfl
          · rfl
      | cons d rest =>
          by_cases hd : d = ':'
          · subst hd
            rfl
          · simp [hd]

theorem readAuthority_of_not {t : Text} (h : ∀ rest, t ≠ '/' :: '/' :: rest) :
    readAuthority t = (none, t) := by
  unfold readAuthority
  split
  · rename_i rest
    exact absurd rfl (h rest)
  · rfl

theorem readAuthority_append_tail (front : Text) {tail : Text} (htail : Stops isPathChar tail) :
    readAuthority (front ++ tail) =
      ((readAuthority front).1, (readAuthority front).2 ++ tail) := by
  by_cases h : ∃ rest, front = '/' :: '/' :: rest
  · obtain ⟨rest, rfl⟩ := h
    have hsplit : rest ++ tail = rest.takeWhile isAuthorityChar ++
        (rest.dropWhile isAuthorityChar ++ tail) := by
      rw [← List.append_assoc, List.takeWhile_append_dropWhile]
    have hcut := cut_append (all_takeWhile isAuthorityChar rest)
      (stops_append (stops_dropWhile isAuthorityChar rest) (htail.of_path rfl rfl))
    rw [← hsplit] at hcut
    show (some ((rest ++ tail).takeWhile isAuthorityChar),
      (rest ++ tail).dropWhile isAuthorityChar) = _
    rw [hcut.1, hcut.2]
    rfl
  · have hslash : ∀ rest, tail ≠ '/' :: rest := by
      rintro rest rfl
      exact Bool.noConfusion (htail '/' rfl)
    have hwhole : ∀ rest, front ++ tail ≠ '/' :: '/' :: rest := by
      intro rest heq
      rcases front with _ | ⟨c, _ | ⟨d, front⟩⟩
      · exact hslash _ heq
      · exact hslash _ (List.cons_eq_cons.mp heq).2
      · simp only [List.cons_append, List.cons.injEq] at heq
        exact h ⟨front, by rw [heq.1, heq.2.1]⟩
    rw [readAuthority_of_not hwhole, readAuthority_of_not fun rest heq => h ⟨rest, heq⟩]

/-- **A text up to its query or fragment has the scheme, the authority and the path of the
whole.** -/
theorem parse_append {front tail : Text} (hfront : ∀ c ∈ front, isPathChar c = true)
    (htail : Stops isPathChar tail) :
    parse (front ++ tail) = { parse front with
      query := (readQuery tail).1
      fragment := readFragment (readQuery tail).2 } := by
  have hpath : ∀ c ∈ (readAuthority (readScheme front).2).2, isPathChar c = true := by
    intro c hc
    refine hfront c ?_
    rw [← schemeText_readScheme front, ← authorityText_readAuthority (readScheme front).2]
    exact List.mem_append_right _ (List.mem_append_right _ hc)
  have hcut := cut_append hpath htail
  have hnone := cut_append hpath (stops_nil isPathChar)
  rw [List.append_nil] at hnone
  unfold parse
  simp only [readScheme_append_tail front htail, readAuthority_append_tail _ htail, hcut.1, hcut.2,
    hnone.1]

/-- The parts of a text: what stands before its query, its query and its fragment. -/
structure IsParts (front : Text) (query fragment : Option Text) : Prop where
  front_chars : ∀ c ∈ front, isPathChar c = true
  query_chars : ∀ q ∈ query, ∀ c ∈ q, isQueryChar c = true

theorem exists_parts (t : Text) :
    ∃ front query fragment, t = front ++ (queryText query ++ fragmentText fragment) ∧
      IsParts front query fragment := by
  have htail := stops_dropWhile isPathChar t
  refine ⟨t.takeWhile isPathChar, (readQuery (t.dropWhile isPathChar)).1,
    readFragment (readQuery (t.dropWhile isPathChar)).2, ?_, all_takeWhile isPathChar t,
    fun q hq => readQuery_some hq⟩
  rw [queryText_readQuery htail, List.takeWhile_append_dropWhile]

theorem IsParts.parse_eq {front : Text} {query fragment : Option Text}
    (h : IsParts front query fragment) :
    parse (front ++ (queryText query ++ fragmentText fragment)) = { parse front with
      query := query
      fragment := fragment } := by
  rw [parse_append h.front_chars (stops_queryText query fragment), readQuery_append h.query_chars,
    readFragment_fragmentText]

/-- A question mark in a text without a fragment starts the query. -/
theorem IsParts.question_mem_iff {front : Text} {query : Option Text} (h : IsParts front query none) :
    '?' ∈ front ++ (queryText query ++ fragmentText none) ↔ query.isSome = true := by
  have hfront : '?' ∉ front := fun hmem => Bool.noConfusion (h.front_chars '?' hmem)
  cases query with
  | none => simp [queryText, fragmentText, hfront]
  | some q => simp [queryText, fragmentText]

theorem IsParts.hash_mem_iff {front : Text} {query fragment : Option Text}
    (h : IsParts front query fragment) :
    '#' ∈ front ++ (queryText query ++ fragmentText fragment) ↔ fragment.isSome = true := by
  have hfront : '#' ∉ front := fun hmem => Bool.noConfusion (h.front_chars '#' hmem)
  have hquery : '#' ∉ queryText query := by
    cases query with
    | none => exact List.not_mem_nil
    | some q =>
        have hq : '#' ∉ q := fun hmem => Bool.noConfusion (h.query_chars q rfl '#' hmem)
        simp [queryText, hq]
  cases fragment with
  | none => simp [fragmentText, hfront, hquery]
  | some f => simp [fragmentText]

/-! ## One more piece of the query -/

def appendQuery (query : Option Text) (extra : Text) : Text :=
  match query with
  | some q => q ++ '&' :: extra
  | none => extra

theorem IsParts.append {front extra : Text} {query : Option Text} (h : IsParts front query none)
    (hextra : '#' ∉ extra) (fragment : Option Text) :
    IsParts front (some (appendQuery query extra)) fragment := by
  have hchars : ∀ c ∈ extra, isQueryChar c = true := by
    intro c hc
    refine bne_iff_ne.mpr ?_
    rintro rfl
    exact hextra hc
  refine ⟨h.front_chars, ?_⟩
  rintro q ⟨⟩ c hc
  cases query with
  | none => exact hchars c hc
  | some own =>
      rcases List.mem_append.mp hc with hc | hc
      · exact h.query_chars own rfl c hc
      · rcases List.mem_cons.mp hc with rfl | hc
        · rfl
        · exact hchars c hc

theorem exists_parts_of_hash_not_mem {t : Text} (h : '#' ∉ t) :
    ∃ front query, t = front ++ (queryText query ++ fragmentText none) ∧
      IsParts front query none := by
  obtain ⟨front, query, fragment, rfl, hparts⟩ := exists_parts t
  have hnone : fragment = none := by
    rw [hparts.hash_mem_iff] at h
    exact Option.not_isSome_iff_eq_none.mp h
  subst hnone
  exact ⟨front, query, rfl, hparts⟩

/-- **A text joined behind a `?`, or behind a `&` if there is a `?` already**: without a
fragment before it, it ends the query. -/
theorem parse_join {t extra : Text} (ht : '#' ∉ t) (hextra : '#' ∉ extra)
    (fragment : Option Text) :
    parse (t ++ (if '?' ∈ t then '&' else '?') :: (extra ++ fragmentText fragment)) = { parse t with
      query := some (appendQuery (parse t).query extra)
      fragment := fragment } := by
  obtain ⟨front, query, rfl, hparts⟩ := exists_parts_of_hash_not_mem ht
  have hquestion := hparts.question_mem_iff
  have htext : front ++ (queryText query ++ fragmentText none) ++
      (if '?' ∈ front ++ (queryText query ++ fragmentText none) then '&' else '?') ::
        (extra ++ fragmentText fragment) =
      front ++ (queryText (some (appendQuery query extra)) ++ fragmentText fragment) := by
    cases query with
    | none =>
        rw [if_neg fun hmem => Bool.noConfusion (hquestion.mp hmem)]
        simp [queryText, fragmentText, appendQuery]
    | some own =>
        rw [if_pos (hquestion.mpr rfl)]
        simp [queryText, fragmentText, appendQuery]
  rw [htext, (hparts.append hextra fragment).parse_eq, hparts.parse_eq]

/-- Behind a fragment it is part of the fragment. -/
theorem parse_append_of_hash_mem {t : Text} (ht : '#' ∈ t) (extra : Text) :
    (parse (t ++ extra)).query = (parse t).query := by
  obtain ⟨front, query, fragment, rfl, hparts⟩ := exists_parts t
  obtain ⟨f, rfl⟩ := Option.isSome_iff_exists.mp (hparts.hash_mem_iff.mp ht)
  have htext : front ++ (queryText query ++ fragmentText (some f)) ++ extra =
      front ++ (queryText query ++ fragmentText (some (f ++ extra))) := by
    simp [fragmentText]
  have hlonger : IsParts front query (some (f ++ extra)) :=
    ⟨hparts.front_chars, hparts.query_chars⟩
  rw [htext, hlonger.parse_eq, hparts.parse_eq]

theorem fragment_parse_of_hash_not_mem {t : Text} (ht : '#' ∉ t) : (parse t).fragment = none := by
  obtain ⟨front, query, rfl, hparts⟩ := exists_parts_of_hash_not_mem ht
  rw [hparts.parse_eq]

end Uri

end Wallermax.Base
