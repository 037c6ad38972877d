import Wallermax.Base.UrlHost
import Wallermax.Base.UrlOrigin

/-!
# The host of an absolute URL

The part of the WHATWG URL parser that finds the host of an absolute `http` or `https`
URL: the authority ends at a slash, a backslash, a question mark or a hash, the host
stands behind the last `@` of it, and in front of a port below 2^16. What the host parser
makes of the host, and a URL of another scheme, are parameters.
-/

namespace Wallermax.Base.UrlAuthority

open Wallermax.Base.UrlOrigin (isSlash isSlash_visible)
open Wallermax.Base.UrlScheme (clean readScheme isC0OrSpace isTabOrNewline)

/-! ## Reading -/

/-- Ends the authority of a special URL. -/
def isEnd (c : Char) : Bool := isSlash c || c == '?' || c == '#'

/-- The host and what follows it, a colon between brackets being the host's. -/
def cutHost : Bool → Text → Text × Text
  | _, [] => ([], [])
  | bracketed, c :: t =>
    if c = ':' ∧ ¬bracketed then ([], c :: t)
    else
      let cut := cutHost (if c = '[' then true else if c = ']' then false else bracketed) t
      (c :: cut.1, cut.2)

/-- A port there may be: digits, of a number below 2^16. -/
def isPort : Text → Bool
  | [] => true
  | _ :: digits => digits.all Char.isDigit && Nat.ofDigitChars 10 digits 0 < 0x10000

/-- The authority states and the host state, behind the scheme's colon. -/
def readHost (host : Text → Option Text) (t : Text) : Option Text :=
  let authority := (t.dropWhile isSlash).takeWhile (!isEnd ·)
  let cut := cutHost false (authority.rtakeWhile (· != '@'))
  if cut.1 = [] ∨ !isPort cut.2 then none else host cut.1

/-- What is left of the parser: the host parser, and the host of a URL with a scheme of
another kind, behind its colon; `none` for a failure. -/
structure Parser : Type where
  host : Text → Option Text
  other : Text → Text → Option (Option Text)

def isWeb (scheme : Text) : Bool := scheme == "http".toList || scheme == "https".toList

/-- The scheme and the host of the URL a string stands for, without a base. -/
def Parser.read (parser : Parser) (t : Text) : Option (Text × Option Text) :=
  match readScheme (clean t) with
  | none => none
  | some name =>
    let scheme := name.map Char.toLower
    let rest := (clean t).drop (name.length + 1)
    if isWeb scheme then (readHost parser.host rest).map fun host => (scheme, some host)
    else (parser.other scheme rest).map fun host => (scheme, host)

/-- The cleaning of a text behind a scheme. -/
def cleanBack (t : Text) : Text := (t.rdropWhile isC0OrSpace).filter (!isTabOrNewline ·)

/-! ## Without a scheme, behind one -/

theorem not_tab_of_visible {c : Char} (h : isC0OrSpace c = false) :
    isTabOrNewline c = false := by
  cases htab : isTabOrNewline c with
  | false => rfl
  | true =>
      rw [UrlScheme.isC0OrSpace_of_tab htab] at h
      cases h

theorem cleanBack_append {c : Char} (h : isC0OrSpace c = false) (front : Text)
    (hfront : ∀ d ∈ front, isTabOrNewline d = false) (t : Text) :
    cleanBack (front ++ c :: t) = front ++ c :: cleanBack t := by
  have hself : front.filter (!isTabOrNewline ·) = front := by
    rw [List.filter_eq_self]
    intro d hd
    simp [hfront d hd]
  rw [cleanBack, UrlScheme.rdropWhile_append_neg h, List.filter_append, hself,
    List.filter_cons_of_pos (by simp [not_tab_of_visible h]), cleanBack]

/-- A text that starts with no scheme character is relative. -/
theorem read_relative (parser : Parser) {c : Char} (hscheme : UrlScheme.isSchemeChar c = false)
    (hvisible : isC0OrSpace c = false) (t : Text) : parser.read (c :: t) = none := by
  have hclean : clean (c :: t) = c :: cleanBack t := by
    rw [clean, List.dropWhile_cons_of_neg (by simp [hvisible])]
    exact cleanBack_append hvisible [] (fun _ hd => absurd hd List.not_mem_nil) t
  have hnone : readScheme (c :: cleanBack t) = none := by
    have htake : (c :: cleanBack t).takeWhile UrlScheme.isSchemeChar = [] :=
      List.takeWhile_cons_of_neg (by simp [hscheme])
    unfold readScheme
    rw [htake]
    split
    · rfl
    · rfl
  unfold Parser.read
  rw [hclean, hnone]

theorem readHost_slash (host : Text → Option Text) {c : Char} (h : isSlash c = true) (t : Text) :
    readHost host (c :: t) = readHost host t := by
  unfold readHost
  rw [List.dropWhile_cons_of_pos h]

/-- **The host of a web URL** is read behind its slashes. -/
theorem read_web (parser : Parser) {scheme : Text} (hweb : isWeb scheme = true) (t : Text) :
    parser.read (scheme ++ "://".toList ++ t) =
      (readHost parser.host (cleanBack t)).map fun host => (scheme, some host) := by
  have hscheme : UrlScheme.wellFormed scheme = true ∧ UrlScheme.cleanFront scheme = scheme ∧
      scheme.map Char.toLower = scheme := by
    simp only [isWeb, Bool.or_eq_true, beq_iff_eq] at hweb
    rcases hweb with rfl | rfl <;> decide
  have hclean : clean (scheme ++ "://".toList ++ t) = scheme ++ ':' :: '/' :: '/' :: cleanBack t := by
    have hslashes : cleanBack ('/' :: '/' :: t) = '/' :: '/' :: cleanBack t :=
      cleanBack_append rfl ['/'] (forall_mem_of_all rfl) t
    have hcolon := UrlScheme.clean_colon scheme ('/' :: '/' :: t)
    rw [hscheme.2.1] at hcolon
    rw [List.append_assoc]
    exact hcolon.trans (congrArg (fun back => scheme ++ ':' :: back) hslashes)
  unfold Parser.read
  rw [hclean, UrlScheme.readScheme_append hscheme.1]
  have hdrop : (scheme ++ ':' :: '/' :: '/' :: cleanBack t).drop (scheme.length + 1) =
      '/' :: '/' :: cleanBack t := by
    rw [← List.drop_drop, List.drop_left]
    rfl
  simp only [hdrop, hscheme.2.2, hweb, if_true]
  rw [readHost_slash _ rfl, readHost_slash _ rfl]

/-! ## A host as it is written -/

theorem cutHost_append {bracketed : Bool} {t : Text} (rest : Text)
    (ht : ∀ c ∈ t, c ≠ '[' ∧ c ≠ ']' ∧ (c = ':' → bracketed = true)) :
    cutHost bracketed (t ++ rest) =
      (t ++ (cutHost bracketed rest).1, (cutHost bracketed rest).2) := by
  induction t with
  | nil => rfl
  | cons c t ih =>
      obtain ⟨hopen, hclose, hcolon⟩ := ht c List.mem_cons_self
      have hinside : ¬(c = ':' ∧ ¬bracketed = true) := fun hc => hc.2 (hcolon hc.1)
      rw [List.cons_append, cutHost, if_neg hinside]
      simp only [if_neg hopen, if_neg hclose, ih fun d hd => ht d (List.mem_cons_of_mem c hd)]
      rfl

theorem cutHost_portText (port : Option Text) :
    cutHost false (portText port) = ([], portText port) := by
  cases port with
  | none => rfl
  | some digits => rfl

theorem cutHost_written {host : UrlHost} (hhost : host.isValid = true) (port : Option Text) :
    cutHost false (host.text ++ portText port) = (host.text, portText port) := by
  cases host with
  | name t =>
      have hname : ∀ c ∈ t, c ≠ '[' ∧ c ≠ ']' ∧ (c = ':' → false = true) := by
        intro c hc
        obtain ⟨hopen, hclose, hcolon, -⟩ :=
          UrlHost.isNameChar_cases ((UrlHost.isName_iff.mp hhost).2 c hc)
        exact ⟨hopen, hclose, fun heq => absurd heq hcolon⟩
      show cutHost false (t ++ portText port) = _
      rw [cutHost_append _ hname, cutHost_portText, List.append_nil]
      rfl
  | literal t =>
      have hliteral : ∀ c ∈ t, c ≠ '[' ∧ c ≠ ']' ∧ (c = ':' → true = true) := by
        intro c hc
        obtain ⟨hopen, hclose, -⟩ :=
          UrlHost.isLiteralChar_cases ((UrlHost.isLiteral_iff.mp hhost).2 c hc)
        exact ⟨hopen, hclose, fun _ => rfl⟩
      have htext : (UrlHost.literal t).text ++ portText port =
          '[' :: (t ++ ']' :: portText port) := by
        rw [UrlHost.text, List.cons_append, List.append_assoc]
        rfl
      have hbehind : cutHost true (']' :: portText port) = ([']'], portText port) := by
        rw [cutHost, if_neg (by simp)]
        simp only [if_neg (show ¬ ']' = '[' by decide), if_true, cutHost_portText]
      rw [htext, cutHost, if_neg (by simp)]
      simp only [if_true, cutHost_append _ hliteral, hbehind]
      rfl

/-- No character of a host and a port ends an authority or its user information. -/
theorem written_chars {host : UrlHost} (hhost : host.isValid = true) {port : Option Text}
    (hport : ∀ digits ∈ port, digits.all Char.isDigit = true) :
    ∀ c ∈ host.text ++ portText port, isEnd c = false ∧ c ≠ '@' := by
  have hother : ∀ (p : Char → Bool), (∀ d ∈ "/\\?#@".toList, p d = false) → ∀ c, p c = true →
      isEnd c = false ∧ c ≠ '@' := by
    intro p hp c hc
    have hne : ∀ d ∈ "/\\?#@".toList, c ≠ d := by
      rintro d hd rfl
      rw [hp _ hd] at hc
      cases hc
    simp only [isEnd, UrlOrigin.isSlash, Bool.or_eq_false_iff, beq_eq_false_iff_ne]
    exact ⟨⟨⟨⟨hne '/' (by simp), hne '\\' (by simp)⟩, hne '?' (by simp)⟩, hne '#' (by simp)⟩,
      hne '@' (by simp)⟩
  have hname := hother UrlHost.isNameChar (forall_mem_of_all (by decide))
  have hliteral := hother UrlHost.isLiteralChar (forall_mem_of_all (by decide))
  intro c hc
  rcases List.mem_append.mp hc with hc | hc
  · cases host with
    | name t => exact hname c ((UrlHost.isName_iff.mp hhost).2 c hc)
    | literal t =>
        rcases List.mem_cons.mp hc with rfl | hc
        · decide
        rcases List.mem_append.mp hc with hc | hc
        · exact hliteral c ((UrlHost.isLiteral_iff.mp hhost).2 c hc)
        · obtain rfl := List.mem_singleton.mp hc
          decide
  · cases port with
    | none => cases hc
    | some digits =>
        rcases List.mem_cons.mp hc with rfl | hc
        · decide
        · have hdigit := List.all_eq_true.mp (hport digits rfl) c hc
          exact hliteral c (by rw [UrlHost.isLiteralChar, hdigit]; rfl)

theorem text_ne_nil {host : UrlHost} (hhost : host.isValid = true) : host.text ≠ [] := by
  cases host with
  | name t => exact (UrlHost.isName_iff.mp hhost).1
  | literal t => exact List.cons_ne_nil _ _

/-- **A host in front of a port and a path** is the one that is read. -/
theorem readHost_written (parseHost : Text → Option Text) {host : UrlHost}
    (hhost : host.isValid = true) {port : Option Text}
    (hport : ∀ digits ∈ port, digits.all Char.isDigit = true) {tail : Text}
    (htail : Uri.Stops (!isEnd ·) tail) :
    readHost parseHost (host.text ++ portText port ++ tail) =
      if isPort (portText port) then parseHost host.text else none := by
  have hchars := written_chars hhost hport
  have hne := text_ne_nil hhost
  have hslash : (host.text ++ portText port ++ tail).dropWhile isSlash =
      host.text ++ portText port ++ tail := by
    obtain ⟨c, rest, hrest⟩ := List.exists_cons_of_ne_nil hne
    have hc := (hchars c (by rw [hrest]; simp)).1
    simp only [isEnd, Bool.or_eq_false_iff] at hc
    rw [hrest]
    exact List.dropWhile_cons_of_neg (by simp [hc.1.1])
  have hauthority : (host.text ++ portText port ++ tail).takeWhile (!isEnd ·) =
      host.text ++ portText port :=
    (Uri.cut_append (fun c hc => by simp [(hchars c hc).1]) htail).1
  have huser : (host.text ++ portText port).rtakeWhile (· != '@') =
      host.text ++ portText port := by
    rw [List.rtakeWhile_eq_self_iff]
    exact fun c hc => bne_iff_ne.mpr (hchars c hc).2
  unfold readHost
  simp only [hslash, hauthority, huser, cutHost_written hhost port]
  cases isPort (portText port) with
  | true => simp [hne]
  | false => simp

end Wallermax.Base.UrlAuthority
