import Mathlib.Data.List.Basic
import Mathlib.Tactic.Common
import Wallermax.Base.Uri

/-!
# Content security policies

The source lists of a serialized policy and how a browser matches them: a policy is cut
into directives at the semicolons, a directive into tokens at ASCII whitespace, and of
two directives of one name the first counts. The sources are the keyword for the page's
own origin and those that name a web scheme, a host and perhaps a port; every other
expression (nonces, hashes, schemeless hosts, paths) is outside this fragment and admits
nothing here.
-/

namespace Wallermax.Base.Csp

/-! ## Origins -/

inductive WebScheme : Type where
  | http
  | https
deriving DecidableEq

def WebScheme.text : WebScheme → Text
  | .http => "http".toList
  | .https => "https".toList

def WebScheme.defaultPort : WebScheme → ℕ
  | .http => 80
  | .https => 443

/-- The origin of a page or of a navigation; the port is the effective one. -/
structure Origin : Type where
  scheme : WebScheme
  host : Text
  port : ℕ
deriving DecidableEq

def lower (t : Text) : Text := t.map Char.toLower

/-! ## Policies -/

/-- ASCII whitespace. -/
def isSpace (c : Char) : Bool :=
  c == ' ' || c == '\t' || c == '\n' || c == '\x0c' || c == '\r'

/-- `split_ascii_whitespace`. -/
def tokens (t : Text) : List Text := (t.splitOnP isSpace).filter (!·.isEmpty)

def directives (policy : Text) : List Text := policy.splitOn ';'

/-- The sources of a directive, if it is the one named. -/
def sourcesOf (name : Text) (directive : Text) : Option (List Text) :=
  match tokens directive with
  | [] => none
  | word :: sources => if lower word = lower name then some sources else none

/-- The source list of the first directive of a name. -/
def sourceList (name policy : Text) : Option (List Text) :=
  (directives policy).findSome? (sourcesOf name)

/-! ## Source expressions -/

inductive Source : Type where
  /-- the keyword for the page's own origin -/
  | self
  | host (scheme : WebScheme) (pattern : Text) (port : Option ℕ)
deriving DecidableEq

def selfKeyword : Text := "'self'".toList

/-- What follows the `//` of a source: a host pattern and perhaps a port. -/
def parseAuthority (scheme : WebScheme) (t : Text) : Option Source :=
  match t.dropWhile (· != ':') with
  | [] => some (.host scheme t none)
  | _ :: digits =>
    if digits.all Char.isDigit && !digits.isEmpty then
      some (.host scheme (t.takeWhile (· != ':')) (some (Nat.ofDigitChars 10 digits 0)))
    else none

def parseSource (t : Text) : Option Source :=
  if lower t = selfKeyword then some .self
  else match t.takeWhile (· != ':'), t.dropWhile (· != ':') with
  | word, ':' :: '/' :: '/' :: rest =>
    if lower word = WebScheme.http.text then parseAuthority .http rest
    else if lower word = WebScheme.https.text then parseAuthority .https rest
    else none
  | _, _ => none

/-! ## Matching -/

/-- Scheme matching: `http` covers its upgrade. -/
def schemeMatches (source url : WebScheme) : Bool := source == .http || url == .https

/-- Host matching: a leading wildcard label stands for one or more labels. -/
def hostMatches (pattern host : Text) : Bool :=
  match pattern with
  | '*' :: '.' :: rest => ('.' :: lower rest).isSuffixOf (lower host)
  | _ => lower pattern == lower host

/-- Port matching: no port stands for the default one of the URL's scheme. -/
def portMatches (port : Option ℕ) (url : Origin) : Bool :=
  url.port == port.getD url.scheme.defaultPort

/-- Matching of the keyword: the page's origin, or its upgrade to `https`. -/
def selfMatches (page url : Origin) : Bool :=
  lower page.host == lower url.host &&
    ((page.scheme == url.scheme && page.port == url.port) ||
      (url.scheme == .https && (page.port == url.port ||
        (page.port == page.scheme.defaultPort && url.port == url.scheme.defaultPort))))

def Source.admits (page : Option Origin) (url : Origin) : Source → Bool
  | .self => page.any (selfMatches · url)
  | .host scheme pattern port =>
    schemeMatches scheme url.scheme && hostMatches pattern url.host && portMatches port url

def tokenAdmits (page : Option Origin) (url : Origin) (token : Text) : Bool :=
  (parseSource token).any (Source.admits page url)

/-- The policy lets a page submit its forms, or what they redirect to, to the URL. -/
def allows (name policy : Text) (page : Option Origin) (url : Origin) : Bool :=
  (sourceList name policy).all fun sources => sources.any (tokenAdmits page url)

/-! ## Reading what was written -/

/-- A word that is one token of one directive. -/
def IsWord (t : Text) : Prop := t ≠ [] ∧ ∀ c ∈ t, isSpace c = false ∧ c ≠ ';'

/-- No separator is left in the parts, and nothing new is. -/
theorem splitOnP_part {p : Char → Bool} {t part : Text} (h : part ∈ t.splitOnP p) :
    ∀ c ∈ part, p c = false ∧ c ∈ t := by
  induction t generalizing part with
  | nil =>
      rw [List.splitOnP_nil, List.mem_singleton] at h
      subst h
      exact fun c hc => absurd hc List.not_mem_nil
  | cons a t ih =>
      obtain ⟨first, others, hsplit⟩ := List.exists_cons_of_ne_nil (List.splitOnP_ne_nil p t)
      rw [List.splitOnP_cons_eq_if_modifyHead, hsplit] at h
      rw [hsplit] at ih
      have hlater : ∀ {part : Text}, part ∈ first :: others →
          ∀ c ∈ part, p c = false ∧ c ∈ a :: t := fun hpart c hc =>
        ⟨(ih hpart c hc).1, List.mem_cons_of_mem _ (ih hpart c hc).2⟩
      split at h
      · rcases List.mem_cons.mp h with rfl | h
        · exact fun c hc => absurd hc List.not_mem_nil
        · exact hlater h
      · rename_i ha
        rcases List.mem_cons.mp h with rfl | h
        · intro c hc
          rcases List.mem_cons.mp hc with rfl | hc
          · exact ⟨by simpa using ha, List.mem_cons_self⟩
          · exact hlater List.mem_cons_self c hc
        · exact hlater (List.mem_cons_of_mem _ h)

theorem semicolon_not_mem_directive {policy directive : Text} (h : directive ∈ directives policy) :
    ';' ∉ directive := by
  intro hc
  rw [directives, List.splitOn_eq_splitOnP] at h
  exact absurd (splitOnP_part h ';' hc).1 (by decide)

theorem tokens_cons_of_word {word : Text} (hne : word ≠ []) (h : ∀ c ∈ word, isSpace c = false)
    (rest : Text) : tokens (word ++ ' ' :: rest) = word :: tokens rest := by
  unfold tokens
  rw [List.splitOnP_append_cons_of_forall_mem h ' ' rfl, List.filter_cons_of_pos (by simpa using hne)]

theorem tokens_word {word : Text} (hne : word ≠ []) (h : ∀ c ∈ word, isSpace c = false) :
    tokens word = [word] := by
  unfold tokens
  rw [List.splitOnP_eq_singleton h, List.filter_cons_of_pos (by simpa using hne), List.filter_nil]

/-- Words written one after the other are read back. -/
theorem tokens_words {word : Text} {rest : List Text} (hword : IsWord word)
    (hrest : ∀ t ∈ rest, IsWord t) :
    tokens (word ++ rest.flatMap (' ' :: ·)) = word :: rest := by
  induction rest generalizing word with
  | nil => simpa using tokens_word hword.1 fun c hc => (hword.2 c hc).1
  | cons next rest ih =>
      have hnext := ih (hrest next List.mem_cons_self) fun t ht => hrest t (List.mem_cons_of_mem _ ht)
      rw [List.flatMap_cons, List.cons_append,
        tokens_cons_of_word hword.1 fun c hc => (hword.2 c hc).1, hnext]

theorem isWord_of_mem_tokens {t word : Text} (hsemi : ';' ∉ t) (h : word ∈ tokens t) :
    IsWord word := by
  obtain ⟨hmem, hne⟩ := List.mem_filter.mp h
  refine ⟨by simpa using hne, fun c hc => ⟨?_, ?_⟩⟩
  · exact (splitOnP_part hmem c hc).1
  · rintro rfl
    exact hsemi (splitOnP_part hmem _ hc).2

theorem directives_intercalate {parts : List Text} (hne : parts ≠ [])
    (h : ∀ part ∈ parts, ';' ∉ part) : directives ([';'].intercalate parts) = parts :=
  List.splitOn_intercalate ';' h hne

theorem mem_of_mem_intercalate {x c : Char} {parts : List Text}
    (h : c ∈ [x].intercalate parts) : c = x ∨ ∃ part ∈ parts, c ∈ part := by
  induction parts with
  | nil => cases h
  | cons part parts ih =>
      by_cases hne : parts = []
      · subst hne
        exact Or.inr ⟨part, List.mem_cons_self, by simpa using h⟩
      · rw [List.intercalate_cons_of_ne_nil hne, List.append_assoc, List.mem_append,
          List.singleton_append, List.mem_cons] at h
        rcases h with h | h | h
        · exact Or.inr ⟨part, List.mem_cons_self, h⟩
        · exact Or.inl h
        · exact (ih h).imp_right fun ⟨part', hmem, hc⟩ => ⟨part', List.mem_cons_of_mem _ hmem, hc⟩

/-! ## Reading a source back -/

theorem takeWhile_colon {front : Text} (h : ':' ∉ front) (rest : Text) :
    (front ++ ':' :: rest).takeWhile (· != ':') = front := by
  rw [List.takeWhile_append_of_pos]
  · simp
  · intro c hc
    simpa using fun heq : c = ':' => h (heq ▸ hc)

theorem dropWhile_colon {front : Text} (h : ':' ∉ front) (rest : Text) :
    (front ++ ':' :: rest).dropWhile (· != ':') = ':' :: rest := by
  rw [List.dropWhile_append_of_pos]
  · simp
  · intro c hc
    simpa using fun heq : c = ':' => h (heq ▸ hc)

/-- A source expression as it is written, of a scheme, a host pattern and a port. -/
def Source.text (scheme : WebScheme) (pattern : Text) (port : Option ℕ) : Text :=
  scheme.text ++ "://".toList ++ pattern ++ port.elim [] fun p => ':' :: Nat.toDigits 10 p

theorem parseAuthority_text (scheme : WebScheme) {pattern : Text} (h : ':' ∉ pattern)
    (port : Option ℕ) :
    parseAuthority scheme (pattern ++ port.elim [] fun p => ':' :: Nat.toDigits 10 p) =
      some (.host scheme pattern port) := by
  unfold parseAuthority
  cases port with
  | none =>
      have hdrop : pattern.dropWhile (· != ':') = [] := by
        rw [List.dropWhile_eq_nil_iff]
        intro c hc
        simpa using fun heq : c = ':' => h (heq ▸ hc)
      simp [hdrop]
  | some p =>
      have hdigits : (Nat.toDigits 10 p).all Char.isDigit = true :=
        List.all_eq_true.mpr fun c hc => Nat.isDigit_of_mem_toDigits (by decide) (by decide) hc
      have hne : (Nat.toDigits 10 p).isEmpty = false := by
        rw [List.isEmpty_eq_false_iff]
        exact Nat.toDigits_ne_nil
      simp only [Option.elim_some, dropWhile_colon h, takeWhile_colon h, hdigits, hne,
        Nat.ofDigitChars_ten_toDigits, Bool.not_false, Bool.and_self, if_true]

theorem parseSource_text (scheme : WebScheme) {pattern : Text} (h : ':' ∉ pattern)
    (port : Option ℕ) :
    parseSource (Source.text scheme pattern port) = some (.host scheme pattern port) := by
  cases scheme with
  | http => exact parseAuthority_text .http h port
  | https => exact parseAuthority_text .https h port

/-! ## Hosts -/

/-- Lower case changes ASCII characters only: a fact about a character and its lower case
is checked on those and on the characters that stay. -/
theorem toLower_cases {P : Char → Char → Prop}
    (hascii : ∀ n < 128, P (Char.ofNat n) (Char.ofNat n).toLower) (hsame : ∀ c, P c c) (c : Char) :
    P c c.toLower := by
  by_cases hc : c.toNat < 128
  · have := hascii c.toNat hc
    rwa [Char.ofNat_toNat] at this
  · have heq : c.toLower = c := by
      unfold Char.toLower
      rw [dif_neg]
      rintro ⟨-, hle⟩
      exact hc (Nat.lt_of_le_of_lt hle (by decide))
    rw [heq]
    exact hsame c

theorem toLower_toLower (c : Char) : c.toLower.toLower = c.toLower :=
  toLower_cases (P := fun c d => c.toLower = d → d.toLower = d) (by decide)
    (fun _ h => h) c rfl

theorem toLower_eq_star {c : Char} : c.toLower = '*' ↔ c = '*' :=
  toLower_cases (P := fun c d => d = '*' ↔ c = '*') (by decide) (fun _ => Iff.rfl) c

theorem toLower_eq_dot {c : Char} : c.toLower = '.' ↔ c = '.' :=
  toLower_cases (P := fun c d => d = '.' ↔ c = '.') (by decide) (fun _ => Iff.rfl) c

theorem lower_lower (t : Text) : lower (lower t) = lower t := by
  rw [lower, lower, List.map_map]
  exact List.map_congr_left fun c _ => toLower_toLower c

/-- A host matches itself, however it is written. -/
theorem hostMatches_of_eq {pattern host : Text} (h : lower pattern = lower host) :
    hostMatches pattern host = true := by
  unfold hostMatches
  split
  · rename_i rest
    rw [List.isSuffixOf_iff_suffix, ← h]
    exact ⟨['*'], rfl⟩
  · simpa using h

theorem hostMatches_wildcard (domain host : Text) :
    hostMatches ('*' :: '.' :: domain) host = true ↔ ('.' :: lower domain) <:+ lower host := by
  show ('.' :: lower domain).isSuffixOf (lower host) = true ↔ _
  rw [List.isSuffixOf_iff_suffix]

/-- A pattern matches the same hosts in lower case. -/
theorem hostMatches_lower (pattern host : Text) :
    hostMatches (lower pattern) host = hostMatches pattern host := by
  by_cases hwild : ∃ rest, pattern = '*' :: '.' :: rest
  · obtain ⟨rest, rfl⟩ := hwild
    show ('.' :: lower (lower rest)).isSuffixOf (lower host) = _
    rw [lower_lower]
    rfl
  · have hplain : ∀ {t : Text}, (¬∃ rest, t = '*' :: '.' :: rest) →
        hostMatches t host = (lower t == lower host) := by
      intro t ht
      unfold hostMatches
      split
      · rename_i rest
        exact absurd ⟨rest, rfl⟩ ht
      · rfl
    have hlower : ¬∃ rest, lower pattern = '*' :: '.' :: rest := by
      rintro ⟨rest, heq⟩
      obtain ⟨c, t, rfl, hc, ht⟩ := List.map_eq_cons_iff.mp heq
      obtain ⟨d, t', rfl, hd, -⟩ := List.map_eq_cons_iff.mp ht
      exact hwild ⟨t', by rw [toLower_eq_star.mp hc, toLower_eq_dot.mp hd]⟩
    rw [hplain hwild, hplain hlower, lower_lower]

/-- A pattern under a domain admits hosts under that domain only. -/
theorem hostMatches_under {domain pattern host : Text} (hunder : ('.' :: domain) <:+ pattern)
    (h : hostMatches pattern host = true) : ('.' :: lower domain) <:+ lower host := by
  obtain ⟨front, rfl⟩ := hunder
  unfold hostMatches at h
  split at h
  · -- the wildcard label is dropped: what is left of the pattern still ends with the domain
    rename_i rest heq
    rw [List.isSuffixOf_iff_suffix] at h
    refine List.IsSuffix.trans ?_ h
    cases front with
    | nil => cases heq
    | cons c front =>
        have htail : front ++ '.' :: domain = '.' :: rest := (List.cons.inj heq).2
        refine ⟨lower front, ?_⟩
        show lower front ++ '.' :: lower domain = lower ('.' :: rest)
        rw [← htail]
        simp [lower]
  · have hlower : lower front ++ '.' :: lower domain = lower host := by
      simpa [lower] using h
    exact ⟨lower front, hlower⟩

theorem selfMatches_host {page url : Origin} (h : selfMatches page url = true) :
    lower page.host = lower url.host := by
  simp only [selfMatches, Bool.and_eq_true, beq_iff_eq] at h
  exact h.1

end Wallermax.Base.Csp
