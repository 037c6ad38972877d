import Wallermax.Auth.FormAction

/-!
# Widening the policy

`form_action_csp` of any policy and any names. The family's sources are spliced into the
policy as text and read back by the grammar of policies, where a semicolon ends the
directive and white space the source; a control character makes the whole value no header,
and the configured policy stands.
-/

namespace Wallermax.Auth

open Wallermax.Base
open Wallermax.Base.Csp (WebScheme lower tokens IsWord)

/-- What `form_action_sources` reads of the state, whatever its names are. -/
structure WideningState : Type where
  tls_enabled : Bool
  port : ℕ
  cookie_domain : Text
  hosts : List Text

section

variable (s : WideningState)

def WideningState.scheme : WebScheme := if s.tls_enabled then .https else .http

def WideningState.shownPort : Option ℕ :=
  if s.port ≠ 0 ∧ s.port ≠ s.scheme.defaultPort then some s.port else none

def WideningState.source (pattern : Text) : Text := Csp.Source.text s.scheme pattern s.shownPort

/-- `under_domain`, of a host in lower case. -/
def WideningState.underDomain (host : Text) : Bool :=
  !s.cookie_domain.isEmpty &&
    (host == s.cookie_domain || ('.' :: s.cookie_domain).isSuffixOf host)

def WideningState.patterns : List Text :=
  (if s.cookie_domain.isEmpty then [] else [s.cookie_domain, '*' :: '.' :: s.cookie_domain]) ++
    (s.hosts.map lower).filter (!s.underDomain ·)

/-- `form_action_sources`. -/
def WideningState.formActionSources : List Text :=
  dedup ((s.patterns.map s.source).insertionSort (textLe · ·))

end

/-- `form_action_csp`. -/
def formActionCsp (policy : Text) (family : List Text) : Option Text :=
  (expandFormAction policy family).filter isHeaderText

/-- The value the middleware leaves in the header. -/
def sentPolicy (policy : Text) (family : List Text) : Text :=
  (formActionCsp policy family).getD policy

/-- The family of names that are bare is this one. -/
def FamilyState.widening (s : FamilyState) : WideningState where
  tls_enabled := s.tls_enabled
  port := s.port
  cookie_domain := s.cookie_domain
  hosts := s.host_bindings.map fun b => b.hostname.toList

theorem FamilyState.formActionSources_widening (s : FamilyState) :
    s.widening.formActionSources = s.formActionSources := by
  have hpatterns : s.widening.patterns = s.patterns := by
    rw [WideningState.patterns, FamilyState.patterns, FamilyState.widening, List.map_map]
    rfl
  rw [WideningState.formActionSources, hpatterns]
  rfl

theorem FamilyState.policy_eq_sentPolicy (s : FamilyState) :
    s.policy = sentPolicy defaultPolicy s.widening.formActionSources := by
  rw [FamilyState.formActionSources_widening]
  rfl

/-! ## What widening is to do -/

def ListsSelf (policy : Text) : Prop :=
  ∃ sources, Csp.sourceList formAction policy = some sources ∧ Csp.selfKeyword ∈ sources

/-- As the grammar reads it, the sent policy is the configured one with the family in its
`form-action`. -/
structure WidensFormAction (policy : Text) (family : List Text) : Prop where
  others : ∀ name, lower name ≠ formAction →
    Csp.sourceList name (sentPolicy policy family) = Csp.sourceList name policy
  untouched : ¬ListsSelf policy →
    Csp.sourceList formAction (sentPolicy policy family) = Csp.sourceList formAction policy
  widened : ∀ sources, Csp.sourceList formAction policy = some sources →
    Csp.selfKeyword ∈ sources → ∃ sources',
      Csp.sourceList formAction (sentPolicy policy family) = some sources' ∧
        ∀ t, t ∈ sources' ↔ t ∈ sources ∨ t ∈ family
  legal : isHeaderText (sentPolicy policy family) = true
  again : sentPolicy (sentPolicy policy family) family = sentPolicy policy family

/-- A character with no meaning in a policy or a header. -/
def Plain (c : Char) : Prop := c ≠ ';' ∧ 0x20 < c.toNat ∧ c.toNat ≠ 0x7F

instance (c : Char) : Decidable (Plain c) := inferInstanceAs (Decidable (_ ∧ _))

/-- The domain's characters are plain, and those of the hosts it does not cover. -/
def WideningState.NamesPlain (s : WideningState) : Prop :=
  (∀ c ∈ s.cookie_domain, Plain c) ∧
    ∀ host ∈ s.hosts, s.underDomain (lower host) = false → ∀ c ∈ host, Plain c

/-! ## The other directives -/

section

variable {policy name : Text} {family sources segments : List Text}

theorem sourcesOf_other {segment : Text} (hname : lower name ≠ formAction)
    (h : Csp.sourcesOf formAction segment = some sources) : Csp.sourcesOf name segment = none := by
  unfold Csp.sourcesOf at h ⊢
  split at h
  · cases h
  · rename_i word rest htokens
    split at h
    · rename_i hword
      have hne : lower word ≠ lower name := fun heq => hname (heq.symm.trans hword)
      rw [if_neg hne]
    · cases h

/-- However its sources are written, the directive has its name. -/
theorem sourcesOf_written_other (hname : lower name ≠ formAction) (sources : List Text) :
    Csp.sourcesOf name (formAction ++ sources.flatMap (' ' :: ·)) = none := by
  have hword : ∀ c ∈ formAction, Csp.isSpace c = false := forall_mem_of_all (by decide)
  obtain ⟨rest, hrest⟩ : ∃ rest, tokens (formAction ++ sources.flatMap (' ' :: ·)) =
      formAction :: rest := by
    cases sources with
    | nil => exact ⟨[], by simpa using Csp.tokens_word (by decide) hword⟩
    | cons t sources =>
        rw [List.flatMap_cons, List.cons_append]
        exact ⟨_, Csp.tokens_cons_of_word (by decide) hword _⟩
  unfold Csp.sourcesOf
  rw [hrest]
  exact if_neg fun heq => hname heq.symm

theorem expandSegments_other (hname : lower name ≠ formAction) :
    ((expandSegments family segments).getD segments).findSome? (Csp.sourcesOf name) =
      segments.findSome? (Csp.sourcesOf name) := by
  induction segments with
  | nil => rfl
  | cons segment rest ih =>
      unfold expandSegments
      cases hsources : Csp.sourcesOf formAction segment with
      | none =>
          cases hexpand : expandSegments family rest with
          | none => simp
          | some rest' =>
              rw [hexpand, Option.getD_some] at ih
              simp [List.findSome?_cons, ih]
      | some own =>
          simp only
          split
          · rfl
          · split
            · rfl
            · rw [Option.getD_some, List.findSome?_cons, List.findSome?_cons,
                sourcesOf_other hname hsources, sourcesOf_written_other hname]

/-- The segments of a widened policy are those that were written. -/
theorem directives_expand (hfamily : ∀ t ∈ family, IsWord t) {widened : Text}
    (h : expandFormAction policy family = some widened) :
    expandSegments family (Csp.directives policy) = some (Csp.directives widened) := by
  unfold expandFormAction at h
  rw [Option.ite_none_left_eq_some] at h
  obtain ⟨segments, hexpand, rfl⟩ := Option.map_eq_some_iff.mp h.2
  obtain ⟨hne, hchars⟩ := expandSegments_chars (P := (· ≠ ';'))
    (forall_mem_of_all (by decide)) (by decide) (fun t ht c hc => ((hfamily t ht).2 c hc).2)
    (fun segment hsegment c hc heq => Csp.semicolon_not_mem_directive hsegment (heq ▸ hc)) hexpand
  rw [hexpand, Csp.directives_intercalate hne
    fun segment hsegment hc => hchars segment hsegment _ hc rfl]

theorem sourceList_expand_other (hfamily : ∀ t ∈ family, IsWord t)
    (hname : lower name ≠ formAction) :
    Csp.sourceList name ((expandFormAction policy family).getD policy) =
      Csp.sourceList name policy := by
  cases hexpand : expandFormAction policy family with
  | none => rfl
  | some widened =>
      have hother : ((expandSegments family (Csp.directives policy)).getD
          (Csp.directives policy)).findSome? (Csp.sourcesOf name) = _ := expandSegments_other hname
      rw [directives_expand hfamily hexpand, Option.getD_some] at hother
      exact hother

/-! ## Where nothing is added -/

theorem expandSegments_none (h : ∀ sources,
    segments.findSome? (Csp.sourcesOf formAction) = some sources →
      Csp.selfKeyword ∈ sources → ∀ t ∈ family, t ∈ sources) :
    expandSegments family segments = none := by
  induction segments with
  | nil => rfl
  | cons segment rest ih =>
      unfold expandSegments
      rw [List.findSome?_cons] at h
      cases hsources : Csp.sourcesOf formAction segment with
      | none =>
          rw [hsources] at h
          simp [ih h]
      | some own =>
          simp only [hsources, Option.some.injEq, forall_eq'] at h
          simp only
          split
          · rfl
          · rename_i hself
            have hadd : (family.filter (!own.contains ·)).isEmpty = true := by
              rw [List.isEmpty_iff, List.filter_eq_nil_iff]
              intro t ht
              have hmem := h (by simpa using hself) t ht
              simpa using hmem
            rw [if_pos hadd]

theorem expandFormAction_none (h : ∀ sources, Csp.sourceList formAction policy = some sources →
    Csp.selfKeyword ∈ sources → ∀ t ∈ family, t ∈ sources) :
    expandFormAction policy family = none := by
  unfold expandFormAction
  split
  · rfl
  · rw [expandSegments_none h]
    rfl

theorem sentPolicy_eq_self (h : expandFormAction policy family = none) :
    sentPolicy policy family = policy := by
  rw [sentPolicy, formActionCsp, h]
  rfl

theorem isHeaderText_sentPolicy (h : isHeaderText policy = true) :
    isHeaderText (sentPolicy policy family) = true := by
  unfold sentPolicy formActionCsp
  cases hfilter : (expandFormAction policy family).filter isHeaderText with
  | none => exact h
  | some widened => exact (Option.filter_eq_some_iff.mp hfilter).2

/-! ## Sources and their characters -/

/-- What is read as a source is plain. -/
theorem plain_of_mem_sourceList (hlegal : isHeaderText policy = true)
    (h : Csp.sourceList name policy = some sources) {t : Text} (ht : t ∈ sources) :
    ∀ c ∈ t, Plain c := by
  obtain ⟨segment, hsegment, hsources⟩ := List.exists_of_findSome?_eq_some h
  have htoken : t ∈ tokens segment := by
    unfold Csp.sourcesOf at hsources
    split at hsources
    · cases hsources
    · rename_i htokens
      split at hsources
      · cases hsources
        rw [htokens]
        exact List.mem_cons_of_mem _ ht
      · cases hsources
  have hword := Csp.isWord_of_mem_tokens (Csp.semicolon_not_mem_directive hsegment) htoken
  intro c hc
  have hpolicy : c ∈ policy := by
    have hc' : c ∈ segment := (Csp.splitOnP_part (List.mem_filter.mp htoken).1 c hc).2
    rw [Csp.directives, List.splitOn_eq_splitOnP] at hsegment
    exact (Csp.splitOnP_part hsegment c hc').2
  -- a control character in the source would be one in the policy
  have hheader := mt (fun hbad => ⟨c, hpolicy, hbad⟩) (isHeaderText_iff policy |>.mp hlegal)
  obtain ⟨hspace, hsemi⟩ := hword.2 c hc
  have htab : c ≠ '\t' := by
    rintro rfl
    cases hspace
  have hblank : c.toNat ≠ 0x20 := by
    intro heq
    obtain rfl : c = ' ' := by
      rw [← Char.toNat_inj, heq]
      rfl
    cases hspace
  refine ⟨hsemi, ?_, fun heq => hheader (.inr heq)⟩
  have hlow : ¬c.toNat < 0x20 := fun hlt => hheader (.inl ⟨hlt, htab⟩)
  omega

theorem Plain.not_space {c : Char} (h : Plain c) : Csp.isSpace c = false := by
  have hlow : ∀ d : Char, d.toNat ≤ 0x20 → c ≠ d := by
    rintro d hd rfl
    have := h.2.1
    omega
  simp only [Csp.isSpace, Bool.or_eq_false_iff, beq_eq_false_iff_ne]
  exact ⟨⟨⟨⟨hlow _ (by decide), hlow _ (by decide)⟩, hlow _ (by decide)⟩, hlow _ (by decide)⟩,
    hlow _ (by decide)⟩

theorem isWord_of_plain {t : Text} (hne : t ≠ []) (h : ∀ c ∈ t, Plain c) : IsWord t :=
  ⟨hne, fun c hc => ⟨(h c hc).not_space, (h c hc).1⟩⟩

/-- Widening a legal policy by plain sources gives a legal value. -/
theorem isHeaderText_expand (hlegal : isHeaderText policy = true)
    (hfamily : ∀ t ∈ family, ∀ c ∈ t, Plain c) {widened : Text}
    (h : expandFormAction policy family = some widened) : isHeaderText widened = true := by
  have hpolicy : ∀ c ∈ policy, ¬((c.toNat < 0x20 ∧ c ≠ '\t') ∨ c.toNat = 0x7F) :=
    fun c hc hbad => (isHeaderText_iff policy).mp hlegal ⟨c, hc, hbad⟩
  unfold expandFormAction at h
  rw [Option.ite_none_left_eq_some] at h
  obtain ⟨segments, hexpand, rfl⟩ := Option.map_eq_some_iff.mp h.2
  obtain ⟨-, hchars⟩ := expandSegments_chars
    (P := fun c => ¬((c.toNat < 0x20 ∧ c ≠ '\t') ∨ c.toNat = 0x7F))
    (forall_mem_of_all (by decide)) (by decide)
    (fun t ht c hc => by
      have hplain := hfamily t ht c hc
      rintro (hbad | hbad)
      · have := hplain.2.1
        omega
      · exact hplain.2.2 hbad)
    (fun segment hsegment c hc => by
      rw [Csp.directives, List.splitOn_eq_splitOnP] at hsegment
      exact hpolicy c (Csp.splitOnP_part hsegment c hc).2) hexpand
  rw [isHeaderText_iff]
  rintro ⟨c, hc, hbad⟩
  rcases Csp.mem_of_mem_intercalate hc with rfl | ⟨segment, hsegment, hc⟩
  · revert hbad
    decide
  · exact hchars segment hsegment c hc hbad

end

/-! ## The family's sources -/

section

variable {s : WideningState}

theorem WideningState.mem_formActionSources {t : Text} :
    t ∈ s.formActionSources ↔ ∃ pattern ∈ s.patterns, s.source pattern = t := by
  unfold WideningState.formActionSources
  rw [mem_dedup, List.mem_insertionSort, List.mem_map]

theorem plain_toLower (c : Char) : Plain c.toLower ↔ Plain c :=
  Csp.toLower_cases (P := fun c d => Plain d ↔ Plain c) (by decide) (fun _ => Iff.rfl) c

theorem plain_of_isDigit {c : Char} (h : c.isDigit = true) : Plain c := by
  have hdigit := Char.isDigit_iff_toNat.mp h
  have hle : 48 ≤ c.toNat ∧ c.toNat ≤ 57 := hdigit
  refine ⟨?_, by omega, by omega⟩
  rintro rfl
  revert h
  decide

/-- A source is plain where its pattern is. -/
theorem plain_source {pattern : Text} :
    (∀ c ∈ s.source pattern, Plain c) ↔ ∀ c ∈ pattern, Plain c := by
  have hscheme : ∀ scheme : WebScheme, ∀ c ∈ scheme.text ++ "://".toList, Plain c := by
    intro scheme
    cases scheme <;> exact forall_mem_of_all (by decide)
  have hport : ∀ c ∈ s.shownPort.elim [] fun p => ':' :: Nat.toDigits 10 p, Plain c := by
    intro c hc
    cases hshown : s.shownPort with
    | none =>
        rw [hshown] at hc
        cases hc
    | some p =>
        rw [hshown] at hc
        rcases List.mem_cons.mp hc with rfl | hc
        · decide
        · exact plain_of_isDigit (Nat.isDigit_of_mem_toDigits (by decide) (by decide) hc)
  unfold WideningState.source Csp.Source.text
  constructor
  · intro h c hc
    exact h c (List.mem_append_left _ (List.mem_append_right _ hc))
  · intro h c hc
    rcases List.mem_append.mp hc with hc | hc
    · rcases List.mem_append.mp hc with hc | hc
      · exact hscheme _ c hc
      · exact h c hc
    · exact hport c hc

theorem source_ne_nil (pattern : Text) : s.source pattern ≠ [] := by
  unfold WideningState.source Csp.Source.text
  simp

/-- **The sources are plain exactly where the names are.** -/
theorem plain_formActionSources :
    (∀ t ∈ s.formActionSources, ∀ c ∈ t, Plain c) ↔ s.NamesPlain := by
  have hpatterns : (∀ t ∈ s.formActionSources, ∀ c ∈ t, Plain c) ↔
      ∀ pattern ∈ s.patterns, ∀ c ∈ pattern, Plain c := by
    constructor
    · intro h pattern hpattern
      exact plain_source.mp (h _ (WideningState.mem_formActionSources.mpr ⟨pattern, hpattern, rfl⟩))
    · intro h t ht
      obtain ⟨pattern, hpattern, rfl⟩ := WideningState.mem_formActionSources.mp ht
      exact plain_source.mpr (h pattern hpattern)
  rw [hpatterns, WideningState.NamesPlain]
  unfold WideningState.patterns
  constructor
  · intro h
    constructor
    · intro c hc
      have hne : s.cookie_domain.isEmpty = false := List.isEmpty_eq_false_iff.mpr fun hnil => by
        rw [hnil] at hc
        cases hc
      refine h s.cookie_domain (List.mem_append_left _ ?_) c hc
      simp [hne]
    · intro host hhost hunder c hc
      rw [← plain_toLower]
      refine h (lower host) (List.mem_append_right _ ?_) _ (List.mem_map_of_mem hc)
      exact List.mem_filter.mpr ⟨List.mem_map_of_mem hhost, by simp [hunder]⟩
  · rintro ⟨hdomain, hhosts⟩ pattern hpattern
    rcases List.mem_append.mp hpattern with hpattern | hpattern
    · split at hpattern
      · cases hpattern
      · rcases List.mem_cons.mp hpattern with rfl | hpattern
        · exact hdomain
        · obtain rfl := List.mem_singleton.mp hpattern
          intro c hc
          rcases List.mem_cons.mp hc with rfl | hc
          · decide
          · rcases List.mem_cons.mp hc with rfl | hc
            · decide
            · exact hdomain c hc
    · obtain ⟨hmem, hunder⟩ := List.mem_filter.mp hpattern
      obtain ⟨host, hhost, rfl⟩ := List.mem_map.mp hmem
      intro c hc
      obtain ⟨d, hd, rfl⟩ := List.mem_map.mp hc
      rw [plain_toLower]
      exact hhosts host hhost (by simpa using hunder) d hd

end

/-- **Widening touches only `form-action`**, where the policy has nothing to widen or the
names have no character with a meaning. -/
theorem widensFormAction_iff (s : WideningState) (policy : Text)
    (hlegal : isHeaderText policy = true) :
    WidensFormAction policy s.formActionSources ↔ ¬ListsSelf policy ∨ s.NamesPlain := by
  rw [← plain_formActionSources]
  constructor
  · intro hwidens
    rw [or_iff_not_imp_left, not_not]
    rintro ⟨sources, hsources, hself⟩ t ht
    obtain ⟨sources', hsources', hunion⟩ := hwidens.widened sources hsources hself
    -- whatever is read back is plain, and the family is read back
    exact plain_of_mem_sourceList hwidens.legal hsources' ((hunion t).mpr (.inr ht))
  · intro hcondition
    by_cases hself : ListsSelf policy
    · have hplain := hcondition.resolve_left (not_not.mpr hself)
      have hwords : ∀ t ∈ s.formActionSources, IsWord t := by
        intro t ht
        obtain ⟨pattern, _, rfl⟩ := WideningState.mem_formActionSources.mp ht
        exact isWord_of_plain (source_ne_nil pattern) (hplain _ ht)
      have hsent : sentPolicy policy s.formActionSources =
          (expandFormAction policy s.formActionSources).getD policy := by
        unfold sentPolicy formActionCsp
        cases hexpand : expandFormAction policy s.formActionSources with
        | none => rfl
        | some widened =>
            rw [Option.filter_some_pos (isHeaderText_expand hlegal hplain hexpand)]
      constructor
      · intro name hname
        rw [hsent]
        exact sourceList_expand_other hwords hname
      · exact fun hnone => absurd hself hnone
      · intro sources hsources hlists
        refine ⟨_, by rw [hsent]; exact sourceList_expand hwords hsources hlists, ?_⟩
        intro t
        rw [List.mem_append, List.mem_filter]
        constructor
        · exact Or.imp_right And.left
        · rintro (ht | ht)
          · exact .inl ht
          · by_cases hmem : t ∈ sources
            · exact .inl hmem
            · exact .inr ⟨ht, by simpa using hmem⟩
      · exact isHeaderText_sentPolicy hlegal
      · obtain ⟨sources, hsources, hlists⟩ := hself
        apply sentPolicy_eq_self
        apply expandFormAction_none
        intro sources' hsources' _ t ht
        rw [hsent, sourceList_expand hwords hsources hlists] at hsources'
        obtain rfl := Option.some.inj hsources'
        by_cases hmem : t ∈ sources
        · exact List.mem_append_left _ hmem
        · exact List.mem_append_right _ (List.mem_filter.mpr ⟨ht, by simpa using hmem⟩)
    · have hnone : expandFormAction policy s.formActionSources = none :=
        expandFormAction_none fun sources hsources hlists =>
          absurd ⟨sources, hsources, hlists⟩ hself
      have hsame := sentPolicy_eq_self hnone
      constructor
      · intro name _
        rw [hsame]
      · intro _
        rw [hsame]
      · exact fun sources hsources hlists => absurd ⟨sources, hsources, hlists⟩ hself
      · rw [hsame]
        exact hlegal
      · rw [hsame, hsame]

/-! ## A semicolon in a host name -/

/-- The shipped configuration with one tenant host. -/
def oneHost (host : String) : WideningState where
  tls_enabled := true
  port := 443
  cookie_domain := []
  hosts := [host.toList]

theorem widensFormAction_oneHost :
    WidensFormAction defaultPolicy (oneHost "acme.example").formActionSources ↔
      ¬ListsSelf defaultPolicy ∨ (oneHost "acme.example").NamesPlain :=
  widensFormAction_iff (oneHost "acme.example") defaultPolicy (by decide +kernel)

/-- The panel takes the name, and the policy gets a directive of its own. -/
theorem host_adds_directive :
    isHeaderText defaultPolicy = true ∧
    Tenants.validateHostname "acme.example;script-src" = .ok () ∧
    Csp.sourceList "script-src".toList
      (sentPolicy defaultPolicy (oneHost "acme.example;script-src").formActionSources) = some [] ∧
    ¬WidensFormAction defaultPolicy (oneHost "acme.example;script-src").formActionSources := by
  have hread : Csp.sourceList "script-src".toList
      (sentPolicy defaultPolicy (oneHost "acme.example;script-src").formActionSources) =
        some [] := by
    decide +kernel
  refine ⟨by decide +kernel, by decide, hread, ?_⟩
  intro hwidens
  have hother := hwidens.others "script-src".toList (by decide)
  rw [hread] at hother
  revert hother
  decide +kernel

end Wallermax.Auth
