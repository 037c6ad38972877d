import Wallermax.Base.UrlScheme
import Wallermax.Tenants.Forms

/-!
# Markdown bodies

`markdown.rs`: the filter over the parser's events. Raw HTML becomes an empty text and
a link or image destination stays when it has no scheme or an allowed one, else it
becomes `#`. The scheme is read off the trimmed text, while a browser removes tabs,
newlines and leading control characters first: a destination that hides a scheme behind
them passes, and these are the only ones.
-/

namespace Wallermax.Content.Markdown

open Wallermax.Base
open Wallermax.Base.UrlScheme (isAlpha isSchemeChar wellFormed clean cleanFront isC0OrSpace
  isTabOrNewline)
open Wallermax.Tenants (isWhitespace)

/-- A parser event's tag; the ones without a destination are all alike here. -/
inductive Tag (κ τ : Type) : Type where
  | link (link_type : κ) (dest_url title id : Text)
  | image (link_type : κ) (dest_url title id : Text)
  | other (tag : τ)

inductive Event (κ τ ε : Type) : Type where
  | start (tag : Tag κ τ)
  | html (html : Text)
  | inlineHtml (html : Text)
  | text (text : Text)
  | other (event : ε)

def ALLOWED_SCHEMES : List Text :=
  ["http".toList, "https".toList, "mailto".toList, "ftp".toList]

/-- `str::trim`. -/
def trim (t : Text) : Text := (t.dropWhile isWhitespace).rdropWhile isWhitespace

/-- The loop of `destination_scheme`, with the text before the position. -/
def schemeFrom (candidate : Text) : Text → Option Text
  | [] => none
  | c :: rest =>
    if c = '/' ∨ c = '?' ∨ c = '#' then none
    else if c = ':' then (if wellFormed candidate then some candidate else none)
    else schemeFrom (candidate ++ [c]) rest

def destination_scheme (dest : Text) : Option Text := schemeFrom [] (trim dest)

def destination_is_safe (dest : Text) : Bool :=
  match destination_scheme dest with
  | some scheme => ALLOWED_SCHEMES.contains (scheme.map Char.toLower)
  | none => true

def sanitize_dest (dest_url : Text) : Text :=
  if destination_is_safe dest_url then dest_url else ['#']

section Events

variable {κ τ ε : Type}

def sanitize_tag : Tag κ τ → Tag κ τ
  | .link link_type dest_url title id => .link link_type (sanitize_dest dest_url) title id
  | .image link_type dest_url title id => .image link_type (sanitize_dest dest_url) title id
  | .other tag => .other tag

def sanitize_event : Event κ τ ε → Event κ τ ε
  | .start tag => .start (sanitize_tag tag)
  | .html _ => .text []
  | .inlineHtml _ => .text []
  | .text text => .text text
  | .other event => .other event

/-! ## What is promised -/

def Event.isHtml : Event κ τ ε → Bool
  | .html _ | .inlineHtml _ => true
  | _ => false

def Event.dest? : Event κ τ ε → Option Text
  | .start (.link _ dest_url _ _) | .start (.image _ dest_url _ _) => some dest_url
  | _ => none

def Event.withDest (dest : Text) : Event κ τ ε → Event κ τ ε
  | .start (.link link_type _ title id) => .start (.link link_type dest title id)
  | .start (.image link_type _ title id) => .start (.image link_type dest title id)
  | event => event

/-- What comes out for a sequence of events, read by a browser on a page of the given
scheme. -/
structure NoScript (base : Text) (events : List (Event κ τ ε)) : Prop where
  no_html : ∀ event ∈ events.map sanitize_event, event.isHtml = false
  unchanged : ∀ event ∈ events, event.isHtml = false → event.dest? = none →
    sanitize_event event = event
  dest_only : ∀ event ∈ events, ∀ dest ∈ event.dest?, sanitize_event event =
    event.withDest (if destination_is_safe dest then dest else ['#'])
  schemes : ∀ event ∈ events.map sanitize_event, ∀ dest ∈ event.dest?,
    UrlScheme.scheme base dest ∈ ALLOWED_SCHEMES

/-- The text before the first colon is no scheme, but it is one, and none of the allowed
ones, without its tabs and newlines and the control characters in front of it. -/
def Disguised (dest : Text) : Prop :=
  ∃ front rest, dest = front ++ ':' :: rest ∧ ':' ∉ front ∧
    wellFormed (front.dropWhile isWhitespace) = false ∧ wellFormed (cleanFront front) = true ∧
      (cleanFront front).map Char.toLower ∉ ALLOWED_SCHEMES

end Events

/-! ## The two readings of a scheme -/

theorem schemeFrom_colon {candidate front : Text} (rest : Text)
    (hfront : ∀ c ∈ front, c ≠ '/' ∧ c ≠ '?' ∧ c ≠ '#' ∧ c ≠ ':') :
    schemeFrom candidate (front ++ ':' :: rest) =
      if wellFormed (candidate ++ front) then some (candidate ++ front) else none := by
  induction front generalizing candidate with
  | nil =>
      rw [List.nil_append, List.append_nil, schemeFrom, if_neg (by decide), if_pos rfl]
  | cons c front ih =>
      obtain ⟨hslash, hquery, hhash, hcolon⟩ := hfront c List.mem_cons_self
      rw [List.cons_append, schemeFrom, if_neg (by simp [hslash, hquery, hhash]), if_neg hcolon,
        ih fun d hd => hfront d (List.mem_cons_of_mem _ hd), List.append_assoc]
      rfl

theorem trim_colon (front rest : Text) :
    trim (front ++ ':' :: rest) =
      front.dropWhile isWhitespace ++ ':' :: rest.rdropWhile isWhitespace := by
  unfold trim
  rw [UrlScheme.dropWhile_append_neg rfl, UrlScheme.rdropWhile_append_neg rfl]

/-- In front of a scheme stand its own characters and what a browser removes. -/
theorem mem_front {front : Text} (h : wellFormed (cleanFront front) = true) {c : Char}
    (hc : c ∈ front) : isSchemeChar c = true ∨ isC0OrSpace c = true := by
  by_cases hclean : c ∈ cleanFront front
  · exact .inl (UrlScheme.wellFormed_all h c hclean)
  · right
    by_contra hvisible
    rw [Bool.not_eq_true] at hvisible
    refine hclean (List.mem_filter.mpr ⟨?_, ?_⟩)
    · rw [← List.takeWhile_append_dropWhile (p := isC0OrSpace) (l := front)] at hc
      rcases List.mem_append.mp hc with htake | hdrop
      · rw [List.mem_takeWhile_imp htake] at hvisible
        cases hvisible
      · exact hdrop
    · by_contra htab
      rw [Bool.not_eq_true, Bool.not_eq_false'] at htab
      rw [UrlScheme.isC0OrSpace_of_tab htab] at hvisible
      cases hvisible

/-- None of that is a delimiter. -/
theorem front_of_cleanFront {front : Text} (h : wellFormed (cleanFront front) = true) :
    ∀ c ∈ front, c ≠ '/' ∧ c ≠ '?' ∧ c ≠ '#' ∧ c ≠ ':' := by
  intro c hc
  have hmem := mem_front h hc
  refine ⟨?_, ?_, ?_, ?_⟩
  all_goals
    rintro rfl
    rcases hmem with hscheme | hblank
    · cases hscheme
    · cases hblank

theorem isSchemeChar_bounds {c : Char} (h : isSchemeChar c = true) :
    0x2B ≤ c.toNat ∧ c.toNat ≤ 0x7A := by
  simp only [isSchemeChar, isAlpha, Bool.or_eq_true, Bool.and_eq_true, decide_eq_true_eq,
    beq_iff_eq] at h
  rcases h with ((((⟨ha, hz⟩ | ⟨ha, hz⟩) | ⟨h0, h9⟩) | rfl) | rfl) | rfl
  · exact ⟨Nat.le_trans (by decide) ha, hz⟩
  · exact ⟨Nat.le_trans (by decide) ha, Nat.le_trans hz (by decide)⟩
  · exact ⟨Nat.le_trans (by decide) h0, Nat.le_trans h9 (by decide)⟩
  all_goals exact ⟨by decide, by decide⟩

theorem not_whitespace_of_scheme {c : Char} (h : isSchemeChar c = true) :
    isWhitespace c = false := by
  have hbounds := isSchemeChar_bounds h
  by_contra hspace
  simp only [isWhitespace, Bool.not_eq_false, Bool.or_eq_true, Bool.and_eq_true,
    decide_eq_true_eq, beq_iff_eq] at hspace
  omega

/-- A scheme that shows once the text is trimmed is the one a browser reads. -/
theorem cleanFront_eq {front : Text} (h : wellFormed (cleanFront front) = true)
    (htrim : wellFormed (front.dropWhile isWhitespace) = true) :
    cleanFront front = front.dropWhile isWhitespace := by
  have hscheme := UrlScheme.wellFormed_all htrim
  have hdrop : front.dropWhile isC0OrSpace = front.dropWhile isWhitespace := by
    conv_lhs => rw [← List.takeWhile_append_dropWhile (p := isWhitespace) (l := front)]
    rw [List.dropWhile_append_of_pos]
    · cases hrest : front.dropWhile isWhitespace with
      | nil => rfl
      | cons c rest =>
          rw [hrest] at hscheme
          exact List.dropWhile_cons_of_neg
            (by simp [UrlScheme.isC0OrSpace_of_scheme (hscheme c List.mem_cons_self)])
    · intro c hc
      rcases mem_front h ((List.takeWhile_prefix _).subset hc) with hvisible | hblank
      · have hspace := List.mem_takeWhile_imp hc
        rw [not_whitespace_of_scheme hvisible] at hspace
        cases hspace
      · exact hblank
  unfold cleanFront
  rw [hdrop, List.filter_eq_self]
  intro c hc
  by_contra htab
  rw [Bool.not_eq_true, Bool.not_eq_false'] at htab
  have hvisible := UrlScheme.isC0OrSpace_of_scheme (hscheme c hc)
  rw [UrlScheme.isC0OrSpace_of_tab htab] at hvisible
  cases hvisible

/-- **What the filter reads of a destination that is a URL with a scheme.** -/
theorem destination_scheme_colon {front rest : Text} (h : wellFormed (cleanFront front) = true) :
    destination_scheme (front ++ ':' :: rest) =
      if wellFormed (front.dropWhile isWhitespace) then some (cleanFront front) else none := by
  have hfront := front_of_cleanFront h
  unfold destination_scheme
  rw [trim_colon, schemeFrom_colon _ fun c hc => hfront c ((List.dropWhile_sublist _).subset hc),
    List.nil_append]
  split
  · rename_i htrim
    rw [cleanFront_eq h htrim]
  · rfl

/-! ## The filter and the browser -/

/-- The page a destination is resolved on. -/
inductive Page : Type where
  | http
  | https

def Page.scheme : Page → Text
  | .http => "http".toList
  | .https => "https".toList

theorem page_allowed (page : Page) : page.scheme ∈ ALLOWED_SCHEMES := by
  cases page <;> decide

theorem scheme_some (page : Page) {dest name : Text}
    (h : UrlScheme.readScheme (clean dest) = some name) :
    UrlScheme.scheme page.scheme dest = name.map Char.toLower := by
  simp only [UrlScheme.scheme, h]

theorem scheme_none (page : Page) {dest : Text} (h : UrlScheme.readScheme (clean dest) = none) :
    UrlScheme.scheme page.scheme dest = page.scheme := by
  simp only [UrlScheme.scheme, h]

theorem safe_of_some {dest name : Text} (h : destination_scheme dest = some name) :
    destination_is_safe dest = true ↔ name.map Char.toLower ∈ ALLOWED_SCHEMES := by
  simp only [destination_is_safe, h, List.contains_iff_mem]

theorem safe_of_none {dest : Text} (h : destination_scheme dest = none) :
    destination_is_safe dest = true := by
  simp only [destination_is_safe, h]

theorem Disguised.safe {dest : Text} (h : Disguised dest) : destination_is_safe dest = true := by
  obtain ⟨front, rest, rfl, -, htrim, hformed, -⟩ := h
  refine safe_of_none ?_
  rw [destination_scheme_colon hformed, htrim]
  rfl

/-- **Exactly the disguised schemes pass.** -/
theorem scheme_allowed_iff (page : Page) (dest : Text) :
    UrlScheme.scheme page.scheme (sanitize_dest dest) ∈ ALLOWED_SCHEMES ↔ ¬ Disguised dest := by
  by_cases hsafe : destination_is_safe dest = true
  · rw [sanitize_dest, if_pos hsafe]
    cases hread : UrlScheme.readScheme (clean dest) with
    | none =>
        rw [scheme_none page hread]
        refine iff_of_true (page_allowed page) ?_
        rintro ⟨front, rest, hdest, hcolon, -, hformed, -⟩
        have hsome : UrlScheme.readScheme (clean dest) = some (cleanFront front) :=
          UrlScheme.readScheme_clean_iff.mpr ⟨hformed, front, rest, hdest, hcolon, rfl⟩
        cases hread.symm.trans hsome
    | some name =>
        rw [scheme_some page hread]
        obtain ⟨hformed, front, rest, rfl, hcolon, rfl⟩ := UrlScheme.readScheme_clean_iff.mp hread
        have hscheme := @destination_scheme_colon front rest hformed
        cases htrim : wellFormed (front.dropWhile isWhitespace) with
        | true =>
            rw [htrim, if_pos rfl] at hscheme
            refine iff_of_true ((safe_of_some hscheme).mp hsafe) ?_
            rintro ⟨front', rest', hdest, hcolon', htrim', -, -⟩
            rw [← UrlScheme.colon_unique hcolon hcolon' hdest, htrim] at htrim'
            cases htrim'
        | false =>
            refine ⟨fun hallowed hdisguised => ?_, fun hplain => ?_⟩
            · obtain ⟨front', rest', hdest, hcolon', -, -, hdenied⟩ := hdisguised
              rw [← UrlScheme.colon_unique hcolon hcolon' hdest] at hdenied
              exact hdenied hallowed
            · by_contra hdenied
              exact hplain ⟨front, rest, rfl, hcolon, htrim, hformed, hdenied⟩
  · rw [sanitize_dest, if_neg hsafe]
    have hhash : UrlScheme.readScheme (clean ['#']) = none := rfl
    rw [scheme_none page hhash]
    exact iff_of_true (page_allowed page) fun hdisguised => hsafe hdisguised.safe

section Main

variable {κ τ ε : Type}

theorem sanitize_event_html (event : Event κ τ ε) : (sanitize_event event).isHtml = false := by
  cases event <;> rfl

theorem dest?_sanitize_event (event : Event κ τ ε) :
    (sanitize_event event).dest? = event.dest?.map sanitize_dest := by
  cases event with
  | start tag => cases tag <;> rfl
  | _ => rfl

/-- **Markdown carries no script, but for disguised schemes.** -/
theorem noScript_iff (page : Page) (events : List (Event κ τ ε)) :
    NoScript page.scheme events ↔
      ∀ event ∈ events, ∀ dest ∈ event.dest?, ¬ Disguised dest := by
  constructor
  · intro h event hevent dest hdest
    refine (scheme_allowed_iff page dest).mp (h.schemes _ (List.mem_map_of_mem hevent) _ ?_)
    rw [dest?_sanitize_event, Option.mem_def.mp hdest]
    rfl
  · intro h
    constructor
    · intro event hevent
      obtain ⟨source, -, rfl⟩ := List.mem_map.mp hevent
      exact sanitize_event_html source
    · intro event _ hhtml hdest
      cases event with
      | start tag =>
          cases tag with
          | other tag => rfl
          | _ => cases hdest
      | html html => cases hhtml
      | inlineHtml html => cases hhtml
      | _ => rfl
    · intro event _ dest hdest
      cases event with
      | start tag =>
          cases tag with
          | other tag => cases hdest
          | _ => cases hdest; rfl
      | _ => cases hdest
    · intro event hevent dest hdest
      obtain ⟨source, hsource, rfl⟩ := List.mem_map.mp hevent
      rw [dest?_sanitize_event] at hdest
      obtain ⟨dest₀, hdest₀, rfl⟩ := Option.map_eq_some_iff.mp hdest
      exact (scheme_allowed_iff page dest₀).mpr (h source hsource dest₀ hdest₀)

end Main

/-- The destination of `[x](java&Tab;script:alert(1))`, its entity decoded by the parser. -/
def tabbedScript : List (Event Unit Unit Unit) :=
  [.start (.link () "java\tscript:alert(1)".toList [] [])]

theorem tabbed_script_runs : ¬ NoScript Page.https.scheme tabbedScript := by
  intro h
  have hscheme := h.schemes _ List.mem_cons_self _ rfl
  exact absurd hscheme (by decide)

end Wallermax.Content.Markdown
