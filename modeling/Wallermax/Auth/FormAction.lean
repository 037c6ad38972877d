import Mathlib.Data.List.Sort
import Wallermax.Auth.Redirects
import Wallermax.Base.Csp

/-!
# The form-action family

A login form answers with a `303`, and the browser follows it only where the page's
`form-action` lets it. The server therefore widens the shipped `form-action 'self'`
with the origins its redirect allowlist trusts: `[auth] cookie_domain` with its
subdomains, and every host of the vhost table. The allowlist judges a URL by its host
alone. A source expression has a scheme and a port besides, and those are the server's
own, so the two sets are the same exactly where the condition `Agrees` holds.
-/

namespace Wallermax.Auth

open Wallermax.Base
open Wallermax.Base.Csp (WebScheme Origin lower tokens IsWord)
open Wallermax.Tenants (isControl)
open Wallermax.Templates (Binding eqIgnoreAsciiCase)

/-! ## The configuration -/

/-- A character a host name may have: what validation refuses, and what would end the
source expression, its directive or the policy, is not one. -/
def isNameChar (c : Char) : Bool :=
  !(Csp.isSpace c || isControl c || c == ';' || c == ',' || c == ':' || c == '/')

/-- What `form_action_sources` reads of the state, its names bare host names. -/
structure FamilyState : Type where
  tls_enabled : Bool
  port : ℕ
  cookie_domain : Text
  host_bindings : List Binding
  domain_bare : ∀ c ∈ cookie_domain, isNameChar c = true
  hosts_bare : ∀ b ∈ host_bindings, ∀ c ∈ b.hostname.toList, isNameChar c = true

/-! ## The source expressions -/

/-- `String`'s order. -/
def textLe : Text → Text → Bool
  | [], _ => true
  | _ :: _, [] => false
  | a :: as, b :: bs => if a = b then textLe as bs else a.toNat < b.toNat

/-- `Vec::dedup`. -/
def dedup : List Text → List Text
  | a :: b :: rest => if a = b then dedup (b :: rest) else a :: dedup (b :: rest)
  | l => l

section

variable (s : FamilyState)

def FamilyState.scheme : WebScheme := if s.tls_enabled then .https else .http

/-- The port of `port_suffix`, nothing on the ephemeral port and on the scheme's default. -/
def FamilyState.shownPort : Option ℕ :=
  if s.port ≠ 0 ∧ s.port ≠ s.scheme.defaultPort then some s.port else none

def FamilyState.source (pattern : Text) : Text := Csp.Source.text s.scheme pattern s.shownPort

/-- `under_domain`, of a host in lower case. -/
def FamilyState.underDomain (host : Text) : Bool :=
  !s.cookie_domain.isEmpty &&
    (host == s.cookie_domain || ('.' :: s.cookie_domain).isSuffixOf host)

/-- The host patterns of `form_action_sources`, in the order they are pushed. -/
def FamilyState.patterns : List Text :=
  (if s.cookie_domain.isEmpty then [] else [s.cookie_domain, '*' :: '.' :: s.cookie_domain]) ++
    (s.host_bindings.map fun b => lower b.hostname.toList).filter (!s.underDomain ·)

/-- `form_action_sources`. -/
def FamilyState.formActionSources : List Text :=
  dedup ((s.patterns.map s.source).insertionSort (textLe · ·))

end

/-! ## The policy -/

def formAction : Text := "form-action".toList

/-- The loop of `expand_form_action` over the segments of the policy. -/
def expandSegments (family : List Text) : List Text → Option (List Text)
  | [] => none
  | segment :: rest =>
    match Csp.sourcesOf formAction segment with
    | none => (expandSegments family rest).map (segment :: ·)
    | some sources =>
      -- any list without the keyword is the operator's own
      if !sources.contains Csp.selfKeyword then none
      else
        let additions := family.filter (!sources.contains ·)
        if additions.isEmpty then none
        else some ((formAction ++ (sources ++ additions).flatMap (' ' :: ·)) :: rest)

/-- `expand_form_action`. -/
def expandFormAction (policy : Text) (family : List Text) : Option Text :=
  if family.isEmpty then none
  else (expandSegments family (Csp.directives policy)).map [';'].intercalate

/-- The shipped `content_security_policy`. -/
def defaultPolicy : Text :=
  ("default-src 'none'; style-src 'self'; img-src 'self' data:; form-action 'self'; " ++
    "frame-ancestors 'none'; base-uri 'none'").toList

/-- The policy a page is sent with: `form_action_csp`, or the one configured. -/
def FamilyState.policy (s : FamilyState) : Text :=
  ((expandFormAction defaultPolicy s.formActionSources).filter isHeaderText).getD defaultPolicy

/-- The browser lets a form of the page end at the URL. -/
def FamilyState.admits (s : FamilyState) (page : Option Origin) (url : Origin) : Bool :=
  Csp.allows formAction s.policy page url

/-- What `own_url_allowed` reads of an absolute web URL. -/
def urlOf (url : Origin) : Url where
  scheme := url.scheme.text
  host := some url.host

/-! ## When the two lists agree -/

section

variable (s : FamilyState)

/-- The allowlist has the host: the domain covers it or the vhost table maps it. -/
def FamilyState.Names (host : Text) : Prop :=
  s.underDomain (lower host) = true ∨
    ∃ b ∈ s.host_bindings, eqIgnoreAsciiCase b.hostname.toList (lower host) = true

/-- The host is one of the family as a browser reads its names: in any case, and with a
leading wildcard label. -/
def FamilyState.NamesAsPattern (host : Text) : Prop :=
  (s.cookie_domain ≠ [] ∧ (Csp.hostMatches s.cookie_domain host = true ∨
      ('.' :: lower s.cookie_domain) <:+ lower host)) ∨
    ∃ b ∈ s.host_bindings, Csp.hostMatches b.hostname.toList host = true

/-- The URL's scheme is the server's or its upgrade, and its port the server's. -/
def FamilyState.ServedAt (url : Origin) : Prop :=
  (s.tls_enabled = true → url.scheme = .https) ∧
    url.port = s.shownPort.getD url.scheme.defaultPort

def IsOwnPage (page : Option Origin) (url : Origin) : Prop :=
  ∃ p ∈ page, Csp.selfMatches p url = true

def IsOwnHost (page : Option Origin) (url : Origin) : Prop :=
  ∃ p ∈ page, lower p.host = lower url.host

/-- Where the redirect allowlist and the policy agree on a URL. -/
structure FamilyState.Agrees (page : Option Origin) (url : Origin) : Prop where
  /-- a host the allowlist has is on the server's scheme and port, or the page itself -/
  named : s.Names url.host → s.ServedAt url ∨ IsOwnPage page url
  /-- the request's own host is the page itself -/
  own : ¬s.Names url.host → IsOwnHost page url →
    IsOwnPage page url ∨ (s.NamesAsPattern url.host ∧ s.ServedAt url)
  /-- no name of the family covers more hosts as a pattern -/
  foreign : ¬s.Names url.host → ¬IsOwnHost page url →
    ¬(s.NamesAsPattern url.host ∧ s.ServedAt url)

end

/-! ## Sorting and removing duplicates keep the members -/

theorem mem_dedup {t : Text} : ∀ {l : List Text}, t ∈ dedup l ↔ t ∈ l
  | [] => Iff.rfl
  | [_] => Iff.rfl
  | a :: b :: rest => by
      unfold dedup
      split
      · rename_i heq
        rw [mem_dedup, heq, List.mem_cons (a := t) (b := b) (l := b :: rest), List.mem_cons]
        tauto
      · rw [List.mem_cons, mem_dedup, List.mem_cons (a := t) (b := a)]

theorem mem_formActionSources {s : FamilyState} {t : Text} :
    t ∈ s.formActionSources ↔ ∃ pattern ∈ s.patterns, s.source pattern = t := by
  unfold FamilyState.formActionSources
  rw [mem_dedup, List.mem_insertionSort, List.mem_map]

/-! ## The names are words -/

/-- Lower case has no character that upper case lacks. -/
theorem isNameChar_toLower {c : Char} (h : isNameChar c = true) : isNameChar c.toLower = true :=
  Csp.toLower_cases (P := fun c d => isNameChar c = true → isNameChar d = true)
    (by decide) (fun _ h => h) c h

/-- A character of a source expression: of a name, or of what stands around it. -/
def isSourceChar (c : Char) : Bool :=
  isNameChar c || c == '*' || c == ':' || c == '/' || c.isDigit

theorem isSourceChar_plain {c : Char} (h : isSourceChar c = true) :
    Csp.isSpace c = false ∧ isControl c = false ∧ c ≠ ';' := by
  have hdigit : ∀ n < 128, (Char.ofNat n).isDigit = true → Csp.isSpace (Char.ofNat n) = false ∧
      isControl (Char.ofNat n) = false ∧ Char.ofNat n ≠ ';' := by decide
  simp only [isSourceChar, Bool.or_eq_true, beq_iff_eq] at h
  rcases h with (((h | rfl) | rfl) | rfl) | h
  · simp only [isNameChar, Bool.not_eq_true', Bool.or_eq_false_iff, beq_eq_false_iff_ne] at h
    exact ⟨h.1.1.1.1.1, h.1.1.1.1.2, h.1.1.1.2⟩
  · decide
  · decide
  · decide
  · have hlt : c.toNat < 128 := by
      have := (Char.isDigit_iff_toNat.mp h).2
      exact Nat.lt_of_le_of_lt this (by decide)
    have := hdigit c.toNat hlt
    rw [Char.ofNat_toNat] at this
    exact this h

/-- A pattern of the family is made of names and the wildcard label. -/
theorem pattern_chars {s : FamilyState} {pattern : Text} (h : pattern ∈ s.patterns) :
    ∀ c ∈ pattern, isNameChar c = true ∨ c = '*' := by
  have hdot : isNameChar '.' = true := by decide
  rcases List.mem_append.mp h with h | h
  · split at h
    · cases h
    · rcases List.mem_cons.mp h with rfl | h
      · exact fun c hc => Or.inl (s.domain_bare c hc)
      · obtain rfl := List.mem_singleton.mp h
        intro c hc
        rcases List.mem_cons.mp hc with rfl | hc
        · exact Or.inr rfl
        · rcases List.mem_cons.mp hc with rfl | hc
          · exact Or.inl hdot
          · exact Or.inl (s.domain_bare c hc)
  · obtain ⟨b, hb, rfl⟩ := List.mem_map.mp (List.mem_filter.mp h).1
    intro c hc
    obtain ⟨d, hd, rfl⟩ := List.mem_map.mp hc
    exact Or.inl (isNameChar_toLower (s.hosts_bare b hb d hd))

theorem colon_not_mem_pattern {s : FamilyState} {pattern : Text} (h : pattern ∈ s.patterns) :
    ':' ∉ pattern := by
  intro hc
  rcases pattern_chars h ':' hc with hname | hstar
  · exact absurd hname (by decide)
  · exact absurd hstar (by decide)

theorem source_chars {s : FamilyState} {pattern : Text} (h : pattern ∈ s.patterns) :
    ∀ c ∈ s.source pattern, isSourceChar c = true := by
  have hscheme : ∀ scheme : WebScheme, ∀ c ∈ scheme.text ++ "://".toList,
      isSourceChar c = true := by
    intro scheme
    cases scheme <;> exact forall_mem_of_all (by decide)
  intro c hc
  simp only [FamilyState.source, Csp.Source.text, List.mem_append] at hc
  rcases hc with ((hc | hc) | hc) | hc
  · exact hscheme _ c (List.mem_append_left _ hc)
  · exact hscheme .http c (List.mem_append_right _ hc)
  · rcases pattern_chars h c hc with hname | rfl
    · simp [isSourceChar, hname]
    · decide
  · cases hport : s.shownPort with
    | none =>
        rw [hport] at hc
        cases hc
    | some p =>
        rw [hport] at hc
        rcases List.mem_cons.mp hc with rfl | hc
        · decide
        · simp [isSourceChar, Nat.isDigit_of_mem_toDigits (by decide) (by decide) hc]

theorem source_isWord {s : FamilyState} {t : Text} (h : t ∈ s.formActionSources) : IsWord t := by
  obtain ⟨pattern, hpattern, rfl⟩ := mem_formActionSources.mp h
  refine ⟨?_, fun c hc => ?_⟩
  · unfold FamilyState.source Csp.Source.text
    simp
  · have hplain := isSourceChar_plain (source_chars hpattern c hc)
    exact ⟨hplain.1, hplain.2.2⟩

/-! ## The widened policy -/

theorem sourcesOf_isWord {segment : Text} {sources : List Text} (hsegment : ';' ∉ segment)
    (h : Csp.sourcesOf formAction segment = some sources) : ∀ t ∈ sources, IsWord t := by
  unfold Csp.sourcesOf at h
  split at h
  · cases h
  · rename_i word rest htokens
    split at h
    · cases h
      intro t ht
      have hmem : t ∈ tokens segment := by rw [htokens]; exact List.mem_cons_of_mem _ ht
      exact Csp.isWord_of_mem_tokens hsegment hmem
    · cases h

/-- Written down, a directive gives its sources back. -/
theorem sourcesOf_written {sources : List Text} (h : ∀ t ∈ sources, IsWord t) :
    Csp.sourcesOf formAction (formAction ++ sources.flatMap (' ' :: ·)) = some sources := by
  have hname : IsWord formAction := ⟨by decide, forall_mem_of_all (by decide)⟩
  unfold Csp.sourcesOf
  rw [Csp.tokens_words hname h]
  rfl

/-- Of the segments, the first with the name is rewritten. -/
theorem expandSegments_findSome {family : List Text} (hfamily : ∀ t ∈ family, IsWord t)
    {segments : List Text} (hsegments : ∀ segment ∈ segments, ';' ∉ segment) {sources : List Text}
    (h : segments.findSome? (Csp.sourcesOf formAction) = some sources)
    (hself : Csp.selfKeyword ∈ sources) :
    ((expandSegments family segments).getD segments).findSome? (Csp.sourcesOf formAction) =
      some (sources ++ family.filter (!sources.contains ·)) := by
  induction segments with
  | nil => cases h
  | cons segment rest ih =>
      have hrest := fun t ht => hsegments t (List.mem_cons_of_mem _ ht)
      rw [List.findSome?_cons] at h
      unfold expandSegments
      cases hsources : Csp.sourcesOf formAction segment with
      | none =>
          rw [hsources] at h
          have := ih hrest h
          cases hexpand : expandSegments family rest with
          | none =>
              rw [hexpand] at this
              simpa [hsources, hexpand] using this
          | some rest' =>
              rw [hexpand] at this
              simpa [hsources, hexpand] using this
      | some own =>
          rw [hsources] at h
          obtain rfl := Option.some_inj.mp h
          have hcontains : own.contains Csp.selfKeyword = true := List.contains_iff_mem.mpr hself
          simp only [hcontains, Bool.not_true, Bool.false_eq_true, if_false]
          by_cases hadd : (family.filter (!own.contains ·)).isEmpty = true
          · rw [if_pos hadd, Option.getD_none, List.findSome?_cons, hsources,
              List.isEmpty_iff.mp hadd, List.append_nil]
          · rw [if_neg hadd, Option.getD_some, List.findSome?_cons, sourcesOf_written]
            intro t ht
            rcases List.mem_append.mp ht with ht | ht
            · exact sourcesOf_isWord (hsegments segment List.mem_cons_self) hsources t ht
            · exact hfamily t (List.mem_filter.mp ht).1

theorem mem_of_mem_sourcesOf {segment : Text} {sources : List Text}
    (h : Csp.sourcesOf formAction segment = some sources) {t : Text} (ht : t ∈ sources) :
    ∀ c ∈ t, c ∈ segment := by
  unfold Csp.sourcesOf at h
  split at h
  · cases h
  · rename_i word rest htokens
    split at h
    · cases h
      have hmem : t ∈ tokens segment := by rw [htokens]; exact List.mem_cons_of_mem _ ht
      exact fun c hc => (Csp.splitOnP_part (List.mem_filter.mp hmem).1 c hc).2
    · cases h

/-- What holds of every character of the policy and of the family holds of the result. -/
theorem expandSegments_chars {P : Char → Prop} (hname : ∀ c ∈ formAction, P c) (hblank : P ' ')
    {family segments segments' : List Text} (hfamily : ∀ t ∈ family, ∀ c ∈ t, P c)
    (hsegments : ∀ segment ∈ segments, ∀ c ∈ segment, P c)
    (h : expandSegments family segments = some segments') :
    segments' ≠ [] ∧ ∀ segment ∈ segments', ∀ c ∈ segment, P c := by
  induction segments generalizing segments' with
  | nil => cases h
  | cons first rest ih =>
      have hrest := fun t ht => hsegments t (List.mem_cons_of_mem _ ht)
      unfold expandSegments at h
      cases hsources : Csp.sourcesOf formAction first with
      | none =>
          simp only [hsources] at h
          obtain ⟨rest', hrest', rfl⟩ := Option.map_eq_some_iff.mp h
          refine ⟨List.cons_ne_nil _ _, fun segment hsegment => ?_⟩
          rcases List.mem_cons.mp hsegment with rfl | hsegment
          · exact hsegments segment List.mem_cons_self
          · exact (ih hrest hrest').2 segment hsegment
      | some own =>
          simp only [hsources, Option.ite_none_left_eq_some, Option.some.injEq] at h
          obtain ⟨-, -, rfl⟩ := h
          refine ⟨List.cons_ne_nil _ _, fun segment hsegment => ?_⟩
          rcases List.mem_cons.mp hsegment with rfl | hsegment
          · intro c hc
            rcases List.mem_append.mp hc with hc | hc
            · exact hname c hc
            · obtain ⟨t, ht, hc⟩ := List.mem_flatMap.mp hc
              rcases List.mem_cons.mp hc with rfl | hc
              · exact hblank
              · rcases List.mem_append.mp ht with ht | ht
                · exact hsegments first List.mem_cons_self c (mem_of_mem_sourcesOf hsources ht c hc)
                · exact hfamily t (List.mem_filter.mp ht).1 c hc
          · exact hrest segment hsegment

/-- **The widened policy's source list**: the operator's, and what of the family it lacks. -/
theorem sourceList_expand {policy : Text} {family sources : List Text}
    (hfamily : ∀ t ∈ family, IsWord t) (h : Csp.sourceList formAction policy = some sources)
    (hself : Csp.selfKeyword ∈ sources) :
    Csp.sourceList formAction ((expandFormAction policy family).getD policy) =
      some (sources ++ family.filter (!sources.contains ·)) := by
  have hsemi : ∀ segment ∈ Csp.directives policy, ';' ∉ segment :=
    fun _ => Csp.semicolon_not_mem_directive
  have hfind := expandSegments_findSome hfamily hsemi h hself
  unfold expandFormAction
  by_cases hempty : family.isEmpty = true
  · rw [if_pos hempty, Option.getD_none, h, List.isEmpty_iff.mp hempty, List.filter_nil,
      List.append_nil]
  · rw [if_neg hempty]
    cases hexpand : expandSegments family (Csp.directives policy) with
    | none =>
        rw [hexpand] at hfind
        exact hfind
    | some segments =>
        rw [hexpand] at hfind
        obtain ⟨hne, hchars⟩ := expandSegments_chars (P := (· ≠ ';'))
          (forall_mem_of_all (by decide)) (by decide)
          (fun t ht c hc => ((hfamily t ht).2 c hc).2)
          (fun segment hsegment c hc heq => hsemi segment hsegment (heq ▸ hc)) hexpand
        show (Csp.directives ([';'].intercalate segments)).findSome? _ = _
        rw [Csp.directives_intercalate hne fun segment hsegment hc => hchars segment hsegment _ hc rfl]
        exact hfind

/-- The widened policy goes into a header. -/
theorem expand_isHeaderText {s : FamilyState} {widened : Text}
    (h : expandFormAction defaultPolicy s.formActionSources = some widened) :
    isHeaderText widened = true := by
  have hplain : ∀ c : Char, isControl c = false → ¬((c.toNat < 0x20 ∧ c ≠ '\t') ∨ c.toNat = 0x7F) := by
    intro c hc
    simp only [isControl, Bool.or_eq_false_iff, decide_eq_false_iff_not, Bool.and_eq_false_iff,
      not_lt, not_le] at hc
    omega
  have hpolicy : ∀ segment ∈ Csp.directives defaultPolicy, ∀ c ∈ segment, isControl c = false := by
    have hall : (Csp.directives defaultPolicy).all
        (fun segment => segment.all fun c => decide (isControl c = false)) = true := by
      decide +kernel
    exact fun segment hsegment =>
      forall_mem_of_all (List.all_eq_true.mp hall segment hsegment)
  rw [isHeaderText_iff]
  rintro ⟨c, hc, hbad⟩
  refine hplain c ?_ hbad
  unfold expandFormAction at h
  rw [Option.ite_none_left_eq_some] at h
  obtain ⟨segments, hexpand, rfl⟩ := Option.map_eq_some_iff.mp h.2
  obtain ⟨-, hchars⟩ := expandSegments_chars (P := (isControl · = false))
    (forall_mem_of_all (by decide)) (by decide)
    (fun t ht c hc => by
      obtain ⟨pattern, hpattern, rfl⟩ := mem_formActionSources.mp ht
      exact (isSourceChar_plain (source_chars hpattern c hc)).2.1) hpolicy hexpand
  rcases Csp.mem_of_mem_intercalate hc with rfl | ⟨segment, hsegment, hc⟩
  · decide
  · exact hchars segment hsegment c hc

/-! ## What the policy admits -/

theorem sourceList_policy (s : FamilyState) :
    Csp.sourceList formAction s.policy =
      some (Csp.selfKeyword :: s.formActionSources.filter (!List.contains [Csp.selfKeyword] ·)) := by
  have hdefault : Csp.sourceList formAction defaultPolicy = some [Csp.selfKeyword] := by
    decide +kernel
  have hkept : (expandFormAction defaultPolicy s.formActionSources).filter isHeaderText =
      expandFormAction defaultPolicy s.formActionSources := by
    cases hexpand : expandFormAction defaultPolicy s.formActionSources with
    | none => rfl
    | some widened => exact Option.filter_some_pos (expand_isHeaderText hexpand)
  unfold FamilyState.policy
  rw [hkept, sourceList_expand (fun _ => source_isWord) hdefault List.mem_cons_self]
  rfl

theorem served_iff (s : FamilyState) (url : Origin) :
    (Csp.schemeMatches s.scheme url.scheme && Csp.portMatches s.shownPort url) = true ↔
      s.ServedAt url := by
  have hscheme : Csp.schemeMatches s.scheme url.scheme = true ↔
      (s.tls_enabled = true → url.scheme = .https) := by
    unfold FamilyState.scheme Csp.schemeMatches
    cases s.tls_enabled <;> simp
  rw [Bool.and_eq_true, hscheme]
  exact and_congr_right' beq_iff_eq

/-- **The policy admits** the page's own origin and the family where it is served. -/
theorem admits_iff (s : FamilyState) (page : Option Origin) (url : Origin) :
    s.admits page url = true ↔ IsOwnPage page url ∨
      ((∃ pattern ∈ s.patterns, Csp.hostMatches pattern url.host = true) ∧ s.ServedAt url) := by
  have hself : Csp.tokenAdmits page url Csp.selfKeyword = true ↔ IsOwnPage page url := by
    show page.any (Csp.selfMatches · url) = true ↔ _
    exact Option.any_eq_true _ _
  have hsource : ∀ pattern ∈ s.patterns, Csp.tokenAdmits page url (s.source pattern) = true ↔
      Csp.hostMatches pattern url.host = true ∧ s.ServedAt url := by
    intro pattern hpattern
    unfold Csp.tokenAdmits FamilyState.source
    rw [Csp.parseSource_text _ (colon_not_mem_pattern hpattern), Option.any_some, ← served_iff]
    simp only [Csp.Source.admits, Bool.and_eq_true]
    tauto
  have hkeyword : ∀ pattern ∈ s.patterns, s.source pattern ≠ Csp.selfKeyword := by
    intro pattern hpattern heq
    have := Csp.parseSource_text s.scheme (colon_not_mem_pattern hpattern) s.shownPort
    rw [show Csp.Source.text s.scheme pattern s.shownPort = Csp.selfKeyword from heq,
      show Csp.parseSource Csp.selfKeyword = some .self from rfl] at this
    cases this
  unfold FamilyState.admits Csp.allows
  rw [sourceList_policy, Option.all_some, List.any_cons, Bool.or_eq_true, hself, List.any_eq_true]
  refine or_congr_right ⟨?_, ?_⟩
  · rintro ⟨t, ht, hadmits⟩
    obtain ⟨pattern, hpattern, rfl⟩ := mem_formActionSources.mp (List.mem_filter.mp ht).1
    have hboth := (hsource pattern hpattern).mp hadmits
    exact ⟨⟨pattern, hpattern, hboth.1⟩, hboth.2⟩
  · rintro ⟨⟨pattern, hpattern, hhost⟩, hserved⟩
    refine ⟨s.source pattern, List.mem_filter.mpr ⟨?_, ?_⟩,
      (hsource pattern hpattern).mpr ⟨hhost, hserved⟩⟩
    · exact mem_formActionSources.mpr ⟨pattern, hpattern, rfl⟩
    · simpa using hkeyword pattern hpattern

theorem underDomain_iff {s : FamilyState} {host : Text} :
    s.underDomain host = true ↔
      s.cookie_domain ≠ [] ∧ (host = s.cookie_domain ∨ ('.' :: s.cookie_domain) <:+ host) := by
  simp [FamilyState.underDomain, List.isSuffixOf_iff_suffix]

/-- The patterns that are left out, of hosts under the domain, add nothing. -/
theorem exists_pattern_iff (s : FamilyState) (host : Text) :
    (∃ pattern ∈ s.patterns, Csp.hostMatches pattern host = true) ↔ s.NamesAsPattern host := by
  have hdomain : (∃ pattern ∈ (if s.cookie_domain.isEmpty then [] else
      [s.cookie_domain, '*' :: '.' :: s.cookie_domain]), Csp.hostMatches pattern host = true) ↔
      s.cookie_domain ≠ [] ∧ (Csp.hostMatches s.cookie_domain host = true ∨
        ('.' :: lower s.cookie_domain) <:+ lower host) := by
    cases hempty : s.cookie_domain.isEmpty with
    | true =>
        have hnil := List.isEmpty_iff.mp hempty
        simp [hnil]
    | false =>
        have hne := List.isEmpty_eq_false_iff.mp hempty
        simp [hne, Csp.hostMatches_wildcard]
  have hsplit : (∃ pattern ∈ s.patterns, Csp.hostMatches pattern host = true) ↔
      (s.cookie_domain ≠ [] ∧ (Csp.hostMatches s.cookie_domain host = true ∨
        ('.' :: lower s.cookie_domain) <:+ lower host)) ∨
      ∃ b ∈ s.host_bindings, s.underDomain (lower b.hostname.toList) = false ∧
        Csp.hostMatches b.hostname.toList host = true := by
    rw [← hdomain]
    unfold FamilyState.patterns
    simp only [List.mem_append, or_and_right, exists_or, List.mem_filter, List.mem_map,
      Bool.not_eq_true']
    refine or_congr_right ⟨?_, ?_⟩
    · rintro ⟨pattern, ⟨⟨b, hb, rfl⟩, hunder⟩, hhost⟩
      exact ⟨b, hb, hunder, by rwa [Csp.hostMatches_lower] at hhost⟩
    · rintro ⟨b, hb, hunder, hhost⟩
      exact ⟨_, ⟨⟨b, hb, rfl⟩, hunder⟩, by rwa [Csp.hostMatches_lower]⟩
  rw [hsplit]
  constructor
  · exact Or.imp_right fun ⟨b, hb, _, hhost⟩ => ⟨b, hb, hhost⟩
  · rintro (h | ⟨b, hb, hhost⟩)
    · exact Or.inl h
    · cases hunder : s.underDomain (lower b.hostname.toList) with
      | false => exact Or.inr ⟨b, hb, hunder, hhost⟩
      | true =>
          obtain ⟨hne, heq | hsuffix⟩ := underDomain_iff.mp hunder
          · exact Or.inl ⟨hne, Or.inl (by rwa [← heq, Csp.hostMatches_lower])⟩
          · exact Or.inl ⟨hne, Or.inr (Csp.hostMatches_under hsuffix (by rwa [Csp.hostMatches_lower]))⟩

/-! ## The two lists -/

/-- **The allowlist accepts** the hosts it has and the request's own. -/
theorem ownUrlAllowed_iff (s : FamilyState) (page : Option Origin) (url : Origin)
    {parseUrl : Text → Option Url} {target : Text} (hparse : parseUrl target = some (urlOf url)) :
    ownUrlAllowed parseUrl (page.map Origin.host) s.cookie_domain s.host_bindings target = true ↔
      s.Names url.host ∨ IsOwnHost page url := by
  have hweb : (url.scheme.text != "http".toList && url.scheme.text != "https".toList) = false := by
    cases url.scheme <;> rfl
  have hunder : (s.cookie_domain ≠ [] ∧ (lower url.host = s.cookie_domain ∨
      ('.' :: s.cookie_domain).isSuffixOf (lower url.host) = true)) ↔
      s.underDomain (lower url.host) = true := by
    rw [underDomain_iff, List.isSuffixOf_iff_suffix]
  have hown : ((page.map Origin.host).any fun own => lower url.host == lower own) = true ↔
      IsOwnHost page url := by
    rw [Option.any_map, Option.any_eq_true]
    exact exists_congr fun p => and_congr_right' (by
      show (lower url.host == lower p.host) = true ↔ _
      rw [beq_iff_eq, eq_comm])
  unfold ownUrlAllowed
  simp only [hparse, urlOf, hweb, Bool.false_eq_true, if_false]
  show (if s.cookie_domain ≠ [] ∧ (lower url.host = s.cookie_domain ∨
    ('.' :: s.cookie_domain).isSuffixOf (lower url.host) = true) then true
    else ((page.map Origin.host).any fun own => lower url.host == lower own) ||
      s.host_bindings.any fun b => eqIgnoreAsciiCase b.hostname.toList (lower url.host)) = true ↔ _
  by_cases hcovered : s.underDomain (lower url.host) = true
  · rw [if_pos (hunder.mpr hcovered)]
    exact iff_of_true rfl (Or.inl (Or.inl hcovered))
  · rw [if_neg fun h => hcovered (hunder.mp h), Bool.or_eq_true, hown, List.any_eq_true]
    unfold FamilyState.Names
    rw [or_iff_right hcovered]
    exact Or.comm

theorem IsOwnPage.host {page : Option Origin} {url : Origin} (h : IsOwnPage page url) :
    IsOwnHost page url := by
  obtain ⟨p, hp, hself⟩ := h
  exact ⟨p, hp, Csp.selfMatches_host hself⟩

/-- What the allowlist has, a pattern of the family covers. -/
theorem Names.asPattern {s : FamilyState} {host : Text} (h : s.Names host) :
    s.NamesAsPattern host := by
  rcases h with h | ⟨b, hb, heq⟩
  · obtain ⟨hne, hhost | hsuffix⟩ := underDomain_iff.mp h
    · exact Or.inl ⟨hne, Or.inl (Csp.hostMatches_of_eq (by rw [← hhost, Csp.lower_lower]))⟩
    · refine Or.inl ⟨hne, Or.inr ?_⟩
      have := hsuffix.map Char.toLower
      rwa [show (lower host).map Char.toLower = lower host from Csp.lower_lower host] at this
  · refine Or.inr ⟨b, hb, Csp.hostMatches_of_eq ?_⟩
    have hlower : lower b.hostname.toList = lower (lower host) := beq_iff_eq.mp heq
    rwa [Csp.lower_lower] at hlower

/-- The local recipe: a shared session under one parent domain, served on a port of its
own without TLS. -/
def localFamily : FamilyState where
  tls_enabled := false
  port := 8080
  cookie_domain := "app.localhost".toList
  host_bindings := []
  domain_bare := forall_mem_of_all (by decide)
  hosts_bare := fun _ h => absurd h List.not_mem_nil

/-- The page the form is on. -/
def localPage : Origin := ⟨.http, "cms.app.localhost".toList, 8080⟩

/-- The same host behind TLS on another port. -/
def otherPort : Origin := ⟨.https, "cms.app.localhost".toList, 8443⟩

end Wallermax.Auth
