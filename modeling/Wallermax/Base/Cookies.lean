import Mathlib.Data.List.Sort
import Wallermax.Base.Cut
import Wallermax.Base.Table
import Wallermax.Base.Trim
import Wallermax.Base.Uri

/-!
# Cookies, on the side of the user agent

How a browser reads a `Set-Cookie` line, where it keeps what it read, and which cookies it
sends back: the parsing, the storage model and the retrieval of the cookie standard. A
cookie replaces the one with its name, domain, scope and path, and nothing else.
-/

namespace Wallermax.Base.Cookies

def isWsp (c : Char) : Bool := c == ' ' || c == '\t'

/-- A name and a value that survive being written into a line of cookies. -/
structure Pair : Type where
  name : Text
  value : Text
  name_ne_nil : name ≠ []
  semicolon_not_mem_name : ';' ∉ name
  equals_not_mem_name : '=' ∉ name
  semicolon_not_mem_value : ';' ∉ value
  trim_name : trimBy isWsp name = name
  trim_value : trimBy isWsp value = value

def Pair.text (pair : Pair) : Text := pair.name ++ '=' :: pair.value

/-! ## Reading a line -/

/-- A `Set-Cookie` line: the pair, and the attributes with their names in lower case. -/
structure SetCookie : Type where
  pair : Pair
  attributes : List (Text × Text)

/-- A text cut at its first equals sign, both parts trimmed. -/
def cutPair (t : Text) : Text × Option Text :=
  match t.span (· != '=') with
  | (name, []) => (trimBy isWsp name, none)
  | (name, _ :: value) => (trimBy isWsp name, some (trimBy isWsp value))

/-- The pair of a piece between semicolons. Of the conditions only the one on an empty name
can fail there. -/
def parsePair (t : Text) : Option Pair :=
  match cutPair t with
  | (_, none) => none
  | (name, some value) =>
      if h : name ≠ [] ∧ ';' ∉ name ∧ '=' ∉ name ∧ ';' ∉ value ∧
          trimBy isWsp name = name ∧ trimBy isWsp value = value then
        some ⟨name, value, h.1, h.2.1, h.2.2.1, h.2.2.2.1, h.2.2.2.2.1, h.2.2.2.2.2⟩
      else none

def parseAttribute (t : Text) : Text × Text :=
  ((cutPair t).1.map Char.toLower, (cutPair t).2.getD [])

def parseSetCookie (line : Text) : Option SetCookie :=
  match line.splitOn ';' with
  | [] => none
  | piece :: pieces => (parsePair piece).map fun pair => ⟨pair, pieces.map parseAttribute⟩

/-- The last attribute of a name. -/
def SetCookie.attribute (c : SetCookie) (name : String) : Option Text :=
  ((c.attributes.filter (·.1 = name.toList)).getLast?).map (·.2)

/-- Seconds with an optional minus sign. -/
def parseDelta (t : Text) : Option ℤ :=
  let negative := t.head? == some '-'
  let digits := if negative then t.tail else t
  if digits ≠ [] ∧ digits.all Char.isDigit then
    some (if negative then -(Nat.ofDigitChars 10 digits 0 : ℤ) else Nat.ofDigitChars 10 digits 0)
  else none

/-! ## Keeping and sending -/

structure Cookie : Type where
  pair : Pair
  domain : Text
  host_only : Bool
  path : Text
  secure : Bool
  /-- The instant from which it is gone; `none` for the end of the session. -/
  expires : Option ℕ

/-- Where an answer comes from, or a request goes to. -/
structure Place : Type where
  host : Text
  path : Text
  secure : Bool
  rooted : path.head? = some '/'

/-- What a user agent knows beyond the lines: which hosts are addresses, under which names
anybody may register, and how dates are written. -/
structure UserAgent : Type where
  isAddress : Text → Bool
  publicSuffix : Text → Bool
  parseDate : Text → Option ℕ

variable (ua : UserAgent)

/-- A host is the domain, or a name under it. -/
def UserAgent.domainMatches (host domain : Text) : Bool :=
  host == domain || (('.' :: domain).isSuffixOf host && !ua.isAddress host)

def UserAgent.expiry (now : ℕ) (c : SetCookie) : Option ℕ :=
  match (c.attribute "max-age").bind parseDelta with
  | some delta => some (if delta ≤ 0 then 0 else now + delta.toNat)
  | none => (c.attribute "expires").bind ua.parseDate

/-- The path attribute, or the directory of the place. -/
def cookiePath (place : Place) (c : SetCookie) : Text :=
  match (c.attribute "path").filter fun t => t.head? == some '/' with
  | some path => path
  | none =>
      let directory := ((place.path.reverse.dropWhile (· != '/')).drop 1).reverse
      if directory = [] then ['/'] else directory

/-- The domain attribute, without the dot in front that older servers write. -/
def SetCookie.domain (c : SetCookie) : Option Text :=
  ((c.attribute "domain").map fun t => (if t.head? = some '.' then t.tail else t).map
    Char.toLower).filter (· ≠ [])

/-- The cookie a line leaves, if the place may set it. -/
def UserAgent.accept (place : Place) (now : ℕ) (c : SetCookie) : Option Cookie :=
  let secure := c.attributes.any (·.1 = "secure".toList)
  let kept (domain : Text) (host_only : Bool) : Cookie :=
    { pair := c.pair
      domain := domain
      host_only := host_only
      path := cookiePath place c
      secure := secure
      expires := ua.expiry now c }
  if secure && !place.secure then none
  else match c.domain with
  | none => some (kept place.host true)
  | some domain =>
      if ua.publicSuffix domain then
        if place.host = domain then some (kept place.host true) else none
      else if ua.domainMatches place.host domain then some (kept domain false)
      else none

/-- Two cookies of which the jar keeps one. -/
def SameKey (c d : Cookie) : Prop :=
  c.pair.name = d.pair.name ∧ c.domain = d.domain ∧ c.host_only = d.host_only ∧ c.path = d.path

instance (c d : Cookie) : Decidable (SameKey c d) := by
  unfold SameKey
  infer_instance

/-- A cookie takes the place of its predecessor, and keeps its rank. -/
def put (jar : List Cookie) (c : Cookie) : List Cookie :=
  if jar.any fun d => SameKey c d then jar.map fun d => if SameKey c d then c else d
  else jar ++ [c]

def UserAgent.receive (jar : List Cookie) (place : Place) (now : ℕ) (line : Text) :
    List Cookie :=
  match (parseSetCookie line).bind (ua.accept place now) with
  | none => jar
  | some c => put jar c

def pathMatches (path cookie_path : Text) : Bool :=
  path == cookie_path || (cookie_path.isPrefixOf path &&
    (cookie_path.getLast? == some '/' || (path.drop cookie_path.length).head? == some '/'))

def Cookie.live (c : Cookie) (now : ℕ) : Bool :=
  match c.expires with
  | none => true
  | some expires => now < expires

def UserAgent.covers (c : Cookie) (host : Text) : Bool :=
  if c.host_only then host == c.domain else ua.domainMatches host c.domain

def UserAgent.sends (place : Place) (now : ℕ) (c : Cookie) : Bool :=
  c.live now && ua.covers c place.host && pathMatches place.path c.path &&
    (!c.secure || place.secure)

/-- The cookies of a request: those of longer paths first, older ones first among equals. -/
def UserAgent.cookies (jar : List Cookie) (place : Place) (now : ℕ) : List Cookie :=
  (jar.filter (ua.sends place now)).insertionSort fun c d => d.path.length ≤ c.path.length

/-- The `Cookie` line of a request. -/
def UserAgent.cookieLine (jar : List Cookie) (place : Place) (now : ℕ) : Option Text :=
  match ua.cookies jar place now with
  | [] => none
  | cs => some ("; ".toList.intercalate (cs.map (·.pair.text)))

/-! ## What is written is read -/

theorem semicolon_not_mem_text (pair : Pair) : ';' ∉ pair.text := by
  unfold Pair.text
  simp [pair.semicolon_not_mem_name, pair.semicolon_not_mem_value]

theorem cutPair_text (pair : Pair) : cutPair pair.text = (pair.name, some pair.value) := by
  unfold cutPair Pair.text
  rw [span_append_cons pair.equals_not_mem_name]
  simp [pair.trim_name, pair.trim_value]

theorem parsePair_text (pair : Pair) : parsePair pair.text = some pair := by
  unfold parsePair
  rw [cutPair_text]
  exact dif_pos ⟨pair.name_ne_nil, pair.semicolon_not_mem_name, pair.equals_not_mem_name,
    pair.semicolon_not_mem_value, pair.trim_name, pair.trim_value⟩

theorem parseSetCookie_text (pair : Pair) {attributes : List Text}
    (h : ∀ t ∈ attributes, ';' ∉ t) :
    parseSetCookie ([';'].intercalate (pair.text :: attributes)) =
      some ⟨pair, attributes.map parseAttribute⟩ := by
  have hsplit : ([';'].intercalate (pair.text :: attributes)).splitOn ';' =
      pair.text :: attributes := by
    refine List.splitOn_intercalate ';' ?_ (List.cons_ne_nil _ _)
    intro t ht
    rcases List.mem_cons.mp ht with rfl | ht
    · exact semicolon_not_mem_text pair
    · exact h t ht
  unfold parseSetCookie
  rw [hsplit]
  simp [parsePair_text]

theorem intercalate_pair {α : Type} (a b : α) (x : List α) (xs : List (List α)) :
    [a, b].intercalate (x :: xs) = [a].intercalate (x :: xs.map (b :: ·)) := by
  induction xs generalizing x with
  | nil => simp
  | cons y xs ih =>
      rw [List.intercalate_cons_cons, ih y, List.map_cons, List.intercalate_cons_cons]
      cases xs with
      | nil => simp
      | cons z xs => simp [List.intercalate_cons_cons]

/-- The pieces of a `Cookie` line: the pairs, with a space in front of all but the first. -/
theorem splitOn_cookieLine (c : Cookie) (cs : List Cookie) :
    ("; ".toList.intercalate ((c :: cs).map (·.pair.text))).splitOn ';' =
      c.pair.text :: cs.map (' ' :: ·.pair.text) := by
  have hline : "; ".toList.intercalate ((c :: cs).map (·.pair.text)) =
      [';'].intercalate (c.pair.text :: cs.map (' ' :: ·.pair.text)) := by
    rw [List.map_cons, show "; ".toList = [';', ' '] from rfl, intercalate_pair, List.map_map]
    rfl
  rw [hline]
  refine List.splitOn_intercalate ';' ?_ (List.cons_ne_nil _ _)
  intro t ht
  rcases List.mem_cons.mp ht with rfl | ht
  · exact semicolon_not_mem_text c.pair
  · obtain ⟨d, _, rfl⟩ := List.mem_map.mp ht
    simp [semicolon_not_mem_text]

theorem parseDelta_digits (n : ℕ) : parseDelta (Nat.toDigits 10 n) = some (n : ℤ) := by
  have hdigit : ∀ c ∈ Nat.toDigits 10 n, c.isDigit = true := fun c hc =>
    Nat.isDigit_of_mem_toDigits (by decide) (by decide) hc
  have hminus : ((Nat.toDigits 10 n).head? == some '-') = false := by
    rw [beq_eq_false_iff_ne]
    intro hhead
    exact absurd (hdigit '-' (List.mem_of_mem_head? hhead)) (by decide)
  unfold parseDelta
  simp only [hminus, Bool.false_eq_true, if_false]
  rw [if_pos ⟨Nat.toDigits_ne_nil, List.all_eq_true.mpr hdigit⟩, Nat.ofDigitChars_ten_toDigits]

/-! ## One cookie of the jar -/

theorem UserAgent.pair_of_accept {place : Place} {now : ℕ} {c : SetCookie} {d : Cookie}
    (h : ua.accept place now c = some d) : d.pair = c.pair := by
  unfold UserAgent.accept at h
  dsimp only at h
  split at h
  · cases h
  · cases hdomain : c.domain with
    | none =>
        simp only [hdomain] at h
        obtain rfl := Option.some.inj h
        rfl
    | some domain =>
        simp only [hdomain] at h
        split at h <;> split at h
        · obtain rfl := Option.some.inj h
          rfl
        · cases h
        · obtain rfl := Option.some.inj h
          rfl
        · cases h

theorem UserAgent.covers_of_sameKey {c d : Cookie} (h : SameKey c d) (host : Text) :
    ua.covers c host = ua.covers d host := by
  unfold UserAgent.covers
  rw [h.2.1, h.2.2.1]

/-- **A jar after a line**: the new cookie, and the others without the one it replaces. -/
theorem mem_put {jar : List Cookie} {c d : Cookie} :
    d ∈ put jar c ↔ d = c ∨ (d ∈ jar ∧ ¬SameKey c d) := by
  unfold put
  split
  · rename_i hany
    obtain ⟨e, he, hsame⟩ := List.any_eq_true.mp hany
    constructor
    · intro hd
      obtain ⟨f, hf, hd⟩ := List.mem_map.mp hd
      by_cases hsame : SameKey c f
      · rw [if_pos hsame] at hd
        exact .inl hd.symm
      · rw [if_neg hsame] at hd
        exact .inr ⟨hd ▸ hf, hd ▸ hsame⟩
    · rintro (rfl | ⟨hd, hother⟩)
      · exact List.mem_map.mpr ⟨e, he, if_pos (of_decide_eq_true hsame)⟩
      · exact List.mem_map.mpr ⟨d, hd, if_neg hother⟩
  · rename_i hany
    rw [List.mem_append, List.mem_singleton, or_comm]
    refine or_congr_right ⟨fun hd => ⟨hd, fun hsame => hany ?_⟩, And.left⟩
    exact List.any_eq_true.mpr ⟨d, hd, decide_eq_true hsame⟩

/-- A jar in which no two cookies have one key. -/
def Distinct (jar : List Cookie) : Prop := ∀ c ∈ jar, ∀ d ∈ jar, SameKey c d → c = d

theorem SameKey.symm {c d : Cookie} (h : SameKey c d) : SameKey d c :=
  ⟨h.1.symm, h.2.1.symm, h.2.2.1.symm, h.2.2.2.symm⟩

theorem Distinct.put {jar : List Cookie} (h : Distinct jar) (c : Cookie) :
    Distinct (put jar c) := by
  intro d hd e he hsame
  rcases mem_put.mp hd with rfl | ⟨hd, hdc⟩ <;> rcases mem_put.mp he with rfl | ⟨he, hec⟩
  · rfl
  · exact absurd hsame hec
  · exact absurd hsame.symm hdc
  · exact h d hd e he hsame

theorem UserAgent.mem_cookies {jar : List Cookie} {place : Place} {now : ℕ} {c : Cookie} :
    c ∈ ua.cookies jar place now ↔ c ∈ jar ∧ ua.sends place now c = true := by
  unfold UserAgent.cookies
  rw [(List.perm_insertionSort _ _).mem_iff, List.mem_filter]

theorem pathMatches_root (place : Place) : pathMatches place.path ['/'] = true := by
  obtain ⟨rest, hpath⟩ := List.head?_eq_some_iff.mp place.rooted
  unfold pathMatches
  rw [hpath]
  simp

end Wallermax.Base.Cookies
