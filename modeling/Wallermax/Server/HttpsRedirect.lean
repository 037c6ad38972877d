import Wallermax.Base.UrlHost
import Wallermax.Manager.MetricsLines
import Wallermax.Proxy.IpAddr

/-!
# The redirect to HTTPS

`redirect_target`: the host of the request, the port of the TLS listener, and what was
asked for. The brackets of an IPv6 address are taken off with the port and put back only
where a port follows, and the target is pasted behind the authority as it is; so an IPv6
host loses its brackets where the port is 443, and `*` becomes a part of the authority.
-/

namespace Wallermax.Server

open Wallermax.Base
open Wallermax.Manager.Metrics (splitOnce trimChars_eq_self isTokenChar_of_isDigit
  isWhitespace_of_isTokenChar)
open Wallermax.Proxy (IpAddr)
open Wallermax.Templates (trimChars)

/-! ## The text of addresses -/

def ipv4Text (bits : BitVec 32) : Text :=
  let octet : ℕ → Text := fun i => Nat.toDigits 10 (bits.toNat / 256 ^ i % 256)
  octet 3 ++ '.' :: (octet 2 ++ '.' :: (octet 1 ++ '.' :: octet 0))

def segments (bits : BitVec 128) : List ℕ :=
  [7, 6, 5, 4, 3, 2, 1, 0].map fun i => bits.toNat / 65536 ^ i % 65536

structure Span : Type where
  start : ℕ
  len : ℕ

/-- The longest run of zeros, the first of those that are equally long. -/
def zeroes (segments : List ℕ) : Span :=
  (segments.zipIdx.foldl (fun (longest, current) (segment, i) =>
    if segment = 0 then
      let current : Span := ⟨if current.len = 0 then i else current.start, current.len + 1⟩
      (if longest.len < current.len then current else longest, current)
    else (longest, ⟨0, 0⟩)) ((⟨0, 0⟩, ⟨0, 0⟩) : Span × Span)).1

/-- `fmt_subslice`. -/
def segmentsText : List ℕ → Text
  | [] => []
  | first :: tail => Nat.toDigits 16 first ++ tail.flatMap fun segment => ':' :: Nat.toDigits 16 segment

def ipv6Text (bits : BitVec 128) : Text :=
  let segments := segments bits
  if segments.take 6 = [0, 0, 0, 0, 0, 0xFFFF] then
    "::ffff:".toList ++ ipv4Text (bits.setWidth 32)
  else
    let zeroes := zeroes segments
    if 1 < zeroes.len then
      segmentsText (segments.take zeroes.start) ++ "::".toList ++
        segmentsText (segments.drop (zeroes.start + zeroes.len))
    else segmentsText segments

/-- `IpAddr`'s `Display`. -/
def ipText : IpAddr → Text
  | .V4 bits => ipv4Text bits
  | .V6 bits => ipv6Text bits

example : ipText (.V6 0x20010DB8000000000001000000000001) = "2001:db8::1:0:0:1".toList := by
  decide +kernel
example : ipText (.V6 0xFFFF0A000001) = "::ffff:10.0.0.1".toList := by decide +kernel

/-! ## The target -/

structure SocketAddr : Type where
  ip : IpAddr
  port : ℕ

/-- The `Host` header, where it is there and ASCII, and the path and query of the URI. -/
structure Request : Type where
  host : Option Text
  path_and_query : Option Text

/-- `strip_port`. -/
def stripPort (host : Text) : Text :=
  match host with
  | '[' :: rest => if rest.contains ']' then rest.takeWhile (· != ']') else host
  | _ => if host.count ':' = 1 then host.takeWhile (· != ':') else host

/-- `https_authority`. -/
def httpsAuthority (host_header : Option Text) (tls_addr : SocketAddr) : Text :=
  let host := (host_header.map stripPort).getD (ipText tls_addr.ip)
  if tls_addr.port = 443 then host
  else if host.contains ':' then '[' :: (host ++ "]:".toList) ++ Nat.toDigits 10 tls_addr.port
  else host ++ ':' :: Nat.toDigits 10 tls_addr.port

/-- `redirect_target`. -/
def redirectTarget (request : Request) (tls_addr : SocketAddr) : Text :=
  let host := (request.host.map trimChars).filter (· ≠ [])
  let path := request.path_and_query.getD ['/']
  "https://".toList ++ httpsAuthority host tls_addr ++ path

/-! ## Requests -/

/-- A `Host` header: a name, an IPv4 address or an IPv6 address in brackets, and a port. -/
structure HostHeader : Type where
  host : UrlHost
  valid : host.isValid = true
  port : Option Text
  digits : ∀ digits ∈ port, digits.all Char.isDigit = true

def HostHeader.text (header : HostHeader) : Text := header.host.text ++ portText header.port

/-- What `PathAndQuery` holds of a request target: `*`, or a path that is rooted or empty. -/
structure PathAndQuery : Type where
  data : Text
  plain : '#' ∉ data
  rooted : data = ['*'] ∨ ∀ c ∈ data.head?, c = '/' ∨ c = '?'

namespace PathAndQuery

/-- `PathAndQuery::as_str`. -/
def asStr (target : PathAndQuery) : Text := if target.data = [] then ['/'] else target.data

/-- `PathAndQuery::path`. -/
def path (target : PathAndQuery) : Text :=
  let path := target.data.takeWhile (· != '?')
  if path = [] then ['/'] else path

/-- `PathAndQuery::query`. -/
def query (target : PathAndQuery) : Option Text := (splitOnce '?' target.data).map (·.2)

end PathAndQuery

/-- A request as it is sent, perhaps without a header. -/
structure Asked : Type where
  host : Option HostHeader
  target : PathAndQuery

def Asked.request (asked : Asked) : Request where
  host := asked.host.map HostHeader.text
  path_and_query := some asked.target.asStr

/-- The TLS address as a host. -/
def SocketAddr.host (tls_addr : SocketAddr) : UrlHost :=
  match tls_addr.ip with
  | .V4 bits => .name (ipv4Text bits)
  | .V6 bits => .literal (ipv6Text bits)

/-- The host that is asked. -/
def Asked.urlHost (asked : Asked) (tls_addr : SocketAddr) : UrlHost :=
  (asked.host.map HostHeader.host).getD tls_addr.host

/-- The parts of an `https` URL; an empty path is the root. -/
structure HttpsUrl : Type where
  host : UrlHost
  port : Option ℕ
  path : Text
  query : Option Text
deriving DecidableEq

def readHttps (t : Text) : Option HttpsUrl :=
  let uri := Uri.parse t
  if uri.scheme = some "https".toList ∧ uri.fragment = none then
    (uri.authority.bind readHostPort).map fun authority =>
      ⟨authority.host, authority.port, if uri.path = [] then ['/'] else uri.path, uri.query⟩
  else none

/-- The URL that was asked for, at the TLS port. -/
def KeepsTarget (asked : Asked) (tls_addr : SocketAddr) : Prop :=
  readHttps (redirectTarget asked.request tls_addr) =
    some ⟨asked.urlHost tls_addr, if tls_addr.port = 443 then none else some tls_addr.port,
      asked.target.path, asked.target.query⟩

/-! ## The text of addresses is a host -/

theorem isNameChar_of_isDigit {c : Char} (h : c.isDigit = true) : UrlHost.isNameChar c = true := by
  rw [UrlHost.isNameChar, isAlphanum_of_isDigit h, Bool.true_or]

theorem isLiteralChar_of_isDigit {c : Char} (h : c.isDigit = true) :
    UrlHost.isLiteralChar c = true := by
  rw [UrlHost.isLiteralChar, h, Bool.true_or]

/-- Every character of an IPv4 address is a digit or a dot. -/
theorem mem_ipv4Text {bits : BitVec 32} {c : Char} (h : c ∈ ipv4Text bits) :
    c.isDigit = true ∨ c = '.' := by
  have hdigit : ∀ n, c ∈ Nat.toDigits 10 n → c.isDigit = true := fun n hc =>
    Nat.isDigit_of_mem_toDigits (by decide) (by decide) hc
  simp only [ipv4Text, List.mem_append, List.mem_cons] at h
  rcases h with h | rfl | h | rfl | h | rfl | h
  · exact Or.inl (hdigit _ h)
  · exact Or.inr rfl
  · exact Or.inl (hdigit _ h)
  · exact Or.inr rfl
  · exact Or.inl (hdigit _ h)
  · exact Or.inr rfl
  · exact Or.inl (hdigit _ h)

theorem isName_ipv4Text (bits : BitVec 32) : UrlHost.isName (ipv4Text bits) = true := by
  refine UrlHost.isName_iff.mpr ⟨?_, fun c hc => ?_⟩
  · unfold ipv4Text
    simp
  · rcases mem_ipv4Text hc with hdigit | rfl
    · exact isNameChar_of_isDigit hdigit
    · decide

theorem isLiteralChar_ipv4Text {bits : BitVec 32} {c : Char} (h : c ∈ ipv4Text bits) :
    UrlHost.isLiteralChar c = true := by
  rcases mem_ipv4Text h with hdigit | rfl
  · exact isLiteralChar_of_isDigit hdigit
  · decide

theorem isLiteralChar_toDigits (n : ℕ) :
    ∀ c ∈ Nat.toDigits 16 n, UrlHost.isLiteralChar c = true := by
  induction n using Nat.strongRecOn with
  | ind n ih =>
      intro c hc
      have hdigit : ∀ k < 16, UrlHost.isLiteralChar (Nat.digitChar k) = true := by decide
      rw [Nat.toDigits_eq_if (by decide)] at hc
      split at hc
      · rw [List.mem_singleton.mp hc]
        exact hdigit n ‹_›
      · rcases List.mem_append.mp hc with hc | hc
        · exact ih (n / 16) (by omega) c hc
        · rw [List.mem_singleton.mp hc]
          exact hdigit (n % 16) (by omega)

theorem isLiteralChar_segmentsText (segments : List ℕ) :
    ∀ c ∈ segmentsText segments, UrlHost.isLiteralChar c = true := by
  intro c hc
  cases segments with
  | nil => cases hc
  | cons first tail =>
      rcases List.mem_append.mp hc with hc | hc
      · exact isLiteralChar_toDigits first c hc
      · obtain ⟨segment, -, hc⟩ := List.mem_flatMap.mp hc
        rcases List.mem_cons.mp hc with rfl | hc
        · decide
        · exact isLiteralChar_toDigits segment c hc

theorem colon_mem_segmentsText {a b : ℕ} (segments : List ℕ) :
    ':' ∈ segmentsText (a :: b :: segments) := by
  refine List.mem_append_right _ (List.mem_flatMap.mpr ⟨b, List.mem_cons_self, ?_⟩)
  exact List.mem_cons_self

theorem isLiteral_ipv6Text (bits : BitVec 128) : UrlHost.isLiteral (ipv6Text bits) = true := by
  unfold ipv6Text
  dsimp only
  split
  · refine UrlHost.isLiteral_iff.mpr ⟨?_, fun c hc => ?_⟩
    · exact List.mem_append_left _ (by decide)
    · have hprefix : ∀ c ∈ "::ffff:".toList, UrlHost.isLiteralChar c = true :=
        forall_mem_of_all (by decide)
      rcases List.mem_append.mp hc with hc | hc
      · exact hprefix c hc
      · exact isLiteralChar_ipv4Text hc
  · split
    · refine UrlHost.isLiteral_iff.mpr ⟨?_, fun c hc => ?_⟩
      · exact List.mem_append_left _ (List.mem_append_right _ (by decide))
      · have hgap : ∀ c ∈ "::".toList, UrlHost.isLiteralChar c = true :=
          forall_mem_of_all (by decide)
        rcases List.mem_append.mp hc with hc | hc
        · rcases List.mem_append.mp hc with hc | hc
          · exact isLiteralChar_segmentsText _ c hc
          · exact hgap c hc
        · exact isLiteralChar_segmentsText _ c hc
    · exact UrlHost.isLiteral_iff.mpr
        ⟨colon_mem_segmentsText _, isLiteralChar_segmentsText _⟩

theorem SocketAddr.isValid_host (tls_addr : SocketAddr) : tls_addr.host.isValid = true := by
  unfold SocketAddr.host
  split
  · exact isName_ipv4Text _
  · exact isLiteral_ipv6Text _

/-! ## The authority -/

/-- A host without its brackets. -/
def bare : UrlHost → Text
  | .name t => t
  | .literal t => t

theorem contains_colon_bare {host : UrlHost} (h : host.isValid = true) :
    (bare host).contains ':' = host.isBracketed := by
  cases host with
  | name t =>
      obtain ⟨-, hchars⟩ := UrlHost.isName_iff.mp h
      have hnot : ':' ∉ t := fun hmem => (UrlHost.isNameChar_cases (hchars _ hmem)).2.2.1 rfl
      simpa [bare, UrlHost.isBracketed] using hnot
  | literal t =>
      obtain ⟨hcolon, -⟩ := UrlHost.isLiteral_iff.mp h
      simpa [bare, UrlHost.isBracketed] using hcolon

/-- The brackets and the port are taken off. -/
theorem stripPort_text (header : HostHeader) : stripPort header.text = bare header.host := by
  obtain ⟨host, hvalid, port, hdigits⟩ := header
  cases host with
  | name t =>
      obtain ⟨-, hchars⟩ := UrlHost.isName_iff.mp hvalid
      have hcolon : ∀ c ∈ t, (c != ':') = true := fun c hc =>
        bne_iff_ne.mpr (UrlHost.isNameChar_cases (hchars c hc)).2.2.1
      have hzero : t.count ':' = 0 := by
        rw [List.count_eq_zero]
        exact fun hmem => by simpa using hcolon _ hmem
      have hcut := Uri.cut_append hcolon (stops_portText port)
      show stripPort (t ++ portText port) = t
      unfold stripPort
      split
      · rename_i rest heq
        have hbracket : ('[' : Char) ∈ t ++ portText port := heq ▸ List.mem_cons_self
        rcases List.mem_append.mp hbracket with hmem | hmem
        · exact absurd rfl (UrlHost.isNameChar_cases (hchars _ hmem)).1
        · cases port with
          | none => cases hmem
          | some digits =>
              rcases List.mem_cons.mp hmem with heq | hmem
              · cases heq
              · have := List.all_eq_true.mp (hdigits digits rfl) _ hmem
                cases this
      · rw [hcut.1, List.count_append, hzero]
        cases port with
        | none =>
            show (if 0 + List.count ':' [] = 1 then t else t ++ []) = t
            rw [if_neg (by decide), List.append_nil]
        | some digits =>
            have hdigit : digits.count ':' = 0 := by
              rw [List.count_eq_zero]
              intro hmem
              have hcolon := List.all_eq_true.mp (hdigits digits rfl) _ hmem
              revert hcolon
              decide
            exact if_pos (by simp [portText, hdigit])
  | literal t =>
      obtain ⟨-, hchars⟩ := UrlHost.isLiteral_iff.mp hvalid
      have hclose : ∀ c ∈ t, (c != ']') = true := fun c hc =>
        bne_iff_ne.mpr (UrlHost.isLiteralChar_cases (hchars c hc)).2.1
      have hstops : Uri.Stops (· != ']') (']' :: portText port) := Uri.stops_cons rfl _
      have htext : (UrlHost.literal t).text ++ portText port =
          '[' :: (t ++ ']' :: portText port) := by
        rw [UrlHost.text, List.cons_append, List.append_assoc]
        rfl
      show stripPort ((UrlHost.literal t).text ++ portText port) = t
      rw [htext]
      simp [stripPort, (Uri.cut_append hclose hstops).1]

theorem isTokenChar_of_isNameChar {c : Char} (h : UrlHost.isNameChar c = true) :
    Exposition.isTokenChar c = true := by
  have hmarks : ∀ c ∈ "-._~!$&'()*+,;=%".toList, Exposition.isTokenChar c = true :=
    forall_mem_of_all (by decide)
  rw [UrlHost.isNameChar, Bool.or_eq_true, List.contains_iff_mem] at h
  rcases h with h | h
  · have hrange := toNat_of_isAlphanum h
    simp only [Exposition.isTokenChar, Bool.and_eq_true, decide_eq_true_eq]
    omega
  · exact hmarks c h

theorem isTokenChar_of_isLiteralChar {c : Char} (h : UrlHost.isLiteralChar c = true) :
    Exposition.isTokenChar c = true := by
  have hmarks : ∀ c ∈ "abcdefABCDEF:.".toList, Exposition.isTokenChar c = true :=
    forall_mem_of_all (by decide)
  rw [UrlHost.isLiteralChar, Bool.or_eq_true, List.contains_iff_mem] at h
  rcases h with h | h
  · exact isTokenChar_of_isDigit h
  · exact hmarks c h

/-- No white space is written in a header. -/
theorem isTokenChar_text (header : HostHeader) :
    ∀ c ∈ header.text, Exposition.isTokenChar c = true := by
  obtain ⟨host, hvalid, port, hdigits⟩ := header
  intro c hc
  rcases List.mem_append.mp hc with hc | hc
  · cases host with
    | name t => exact isTokenChar_of_isNameChar ((UrlHost.isName_iff.mp hvalid).2 c hc)
    | literal t =>
        rcases List.mem_cons.mp hc with rfl | hc
        · decide
        · rcases List.mem_append.mp hc with hc | hc
          · exact isTokenChar_of_isLiteralChar ((UrlHost.isLiteral_iff.mp hvalid).2 c hc)
          · rw [List.mem_singleton.mp hc]
            decide
  · cases port with
    | none => cases hc
    | some digits =>
        rcases List.mem_cons.mp hc with rfl | hc
        · decide
        · exact isTokenChar_of_isDigit (List.all_eq_true.mp (hdigits digits rfl) c hc)

theorem ne_nil_text (header : HostHeader) : header.text ≠ [] := by
  obtain ⟨host, hvalid, port, hdigits⟩ := header
  cases host with
  | name t =>
      obtain ⟨hne, -⟩ := UrlHost.isName_iff.mp hvalid
      exact List.append_ne_nil_of_left_ne_nil hne _
  | literal t => exact List.cons_ne_nil _ _

theorem trimChars_text (header : HostHeader) : trimChars header.text = header.text :=
  trimChars_eq_self
    (fun c hc => isWhitespace_of_isTokenChar (isTokenChar_text header c (List.mem_of_mem_head? hc)))
    fun c hc => isWhitespace_of_isTokenChar (isTokenChar_text header c (List.mem_of_mem_getLast? hc))

/-- The authority of the redirect: without brackets at the default port. -/
theorem httpsAuthority_request (asked : Asked) (tls_addr : SocketAddr) :
    httpsAuthority ((asked.request.host.map trimChars).filter (· ≠ [])) tls_addr =
      if tls_addr.port = 443 then bare (asked.urlHost tls_addr)
      else (asked.urlHost tls_addr).text ++ portText (some (Nat.toDigits 10 tls_addr.port)) := by
  have hvalid : (asked.urlHost tls_addr).isValid = true := by
    unfold Asked.urlHost
    cases asked.host with
    | none => exact tls_addr.isValid_host
    | some header => exact header.valid
  have hhost : (((asked.request.host.map trimChars).filter (· ≠ [])).map stripPort).getD
      (ipText tls_addr.ip) = bare (asked.urlHost tls_addr) := by
    unfold Asked.urlHost Asked.request
    cases asked.host with
    | none =>
        show ipText tls_addr.ip = bare tls_addr.host
        unfold SocketAddr.host ipText
        cases tls_addr.ip with
        | V4 bits => rfl
        | V6 bits => rfl
    | some header =>
        simp [Option.filter_some, trimChars_text, ne_nil_text, stripPort_text]
  unfold httpsAuthority
  rw [hhost]
  dsimp only
  split
  · rfl
  · rw [contains_colon_bare hvalid]
    cases asked.urlHost tls_addr with
    | name t => rfl
    | literal t => simp [UrlHost.isBracketed, UrlHost.text, bare, portText]

/-! ## Reading the target -/

/-- The URL of an authority and what is behind it. -/
theorem readHttps_append {authority tail : Text}
    (hauthority : ∀ c ∈ authority, Uri.isAuthorityChar c = true)
    (hstops : Uri.Stops Uri.isAuthorityChar tail) (hplain : '#' ∉ tail) :
    readHttps ("https://".toList ++ authority ++ tail) =
      (readHostPort authority).map fun read => ⟨read.host, read.port,
        if tail.takeWhile (· != '?') = [] then ['/'] else tail.takeWhile (· != '?'),
        (splitOnce '?' tail).map (·.2)⟩ := by
  have hpath : ∀ c ∈ tail.takeWhile (· != '?'), Uri.isPathChar c = true := by
    intro c hc
    have hquestion := List.mem_takeWhile_imp hc
    have hhash : c ≠ '#' := by
      rintro rfl
      exact hplain ((List.takeWhile_prefix _).subset hc)
    simp only [Uri.isPathChar, Bool.and_eq_true, bne_iff_ne]
    exact ⟨bne_iff_ne.mp hquestion, hhash⟩
  have hrest : Uri.Stops Uri.isPathChar (tail.dropWhile (· != '?')) := by
    intro c hc
    have hnot := Uri.stops_dropWhile (· != '?') tail c hc
    have heq : c = '?' := by simpa using hnot
    rw [heq]
    rfl
  have hcut := Uri.cut_append hpath hrest
  rw [List.takeWhile_append_dropWhile] at hcut
  have hquery : Uri.readQuery (tail.dropWhile (· != '?')) =
      ((splitOnce '?' tail).map (·.2), []) := by
    unfold splitOnce
    cases hdrop : tail.dropWhile (· != '?') with
    | nil => rfl
    | cons c query =>
        have heq : c = '?' := by
          have hnot := Uri.stops_dropWhile (· != '?') tail c (by rw [hdrop]; rfl)
          simpa using hnot
        have hhash : ∀ d ∈ query, Uri.isQueryChar d = true := by
          intro d hd
          refine bne_iff_ne.mpr ?_
          rintro rfl
          refine hplain ((List.dropWhile_suffix (· != '?')).subset ?_)
          rw [hdrop]
          exact List.mem_cons_of_mem _ hd
        have hall := Uri.cut_append hhash (Uri.stops_nil _)
        rw [List.append_nil] at hall
        rw [heq]
        show (some (query.takeWhile Uri.isQueryChar), query.dropWhile Uri.isQueryChar) = _
        rw [hall.1, hall.2]
        rfl
  have htext : "https://".toList ++ authority ++ tail =
      "https".toList ++ ':' :: ('/' :: '/' :: (authority ++ tail)) := by
    rw [List.append_assoc]
    rfl
  have hscheme : Uri.readScheme ("https".toList ++ ':' :: ('/' :: '/' :: (authority ++ tail))) =
      (some "https".toList, '/' :: '/' :: (authority ++ tail)) :=
    Uri.readScheme_append (by decide) (forall_mem_of_all (by decide))
  have hparse : Uri.parse ("https://".toList ++ authority ++ tail) =
      ⟨some "https".toList, some authority, tail.takeWhile (· != '?'),
        (splitOnce '?' tail).map (·.2), none⟩ := by
    rw [htext]
    unfold Uri.parse
    rw [hscheme]
    dsimp only
    rw [Uri.readAuthority_append hauthority hstops]
    dsimp only
    rw [hcut.1, hcut.2, hquery]
    rfl
  unfold readHttps
  rw [hparse]
  dsimp only
  rw [if_pos ⟨rfl, rfl⟩]
  rfl

theorem isAuthorityChar_of_isDigit {c : Char} (h : c.isDigit = true) :
    Uri.isAuthorityChar c = true :=
  (UrlHost.isNameChar_cases (isNameChar_of_isDigit h)).2.2.2

theorem isAuthorityChar_bare {host : UrlHost} (h : host.isValid = true) :
    ∀ c ∈ bare host, Uri.isAuthorityChar c = true := by
  intro c hc
  cases host with
  | name t => exact (UrlHost.isNameChar_cases ((UrlHost.isName_iff.mp h).2 c hc)).2.2.2
  | literal t => exact (UrlHost.isLiteralChar_cases ((UrlHost.isLiteral_iff.mp h).2 c hc)).2.2

theorem isAuthorityChar_text {host : UrlHost} (h : host.isValid = true) {digits : Text}
    (hdigits : ∀ c ∈ digits, c.isDigit = true) :
    ∀ c ∈ host.text ++ portText (some digits), Uri.isAuthorityChar c = true := by
  intro c hc
  rcases List.mem_append.mp hc with hc | hc
  · have hbare := isAuthorityChar_bare h
    cases host with
    | name t => exact hbare c hc
    | literal t =>
        rcases List.mem_cons.mp hc with rfl | hc
        · decide
        · rcases List.mem_append.mp hc with hc | hc
          · exact hbare c hc
          · rw [List.mem_singleton.mp hc]
            decide
  · rcases List.mem_cons.mp hc with rfl | hc
    · decide
    · exact isAuthorityChar_of_isDigit (hdigits c hc)

theorem Asked.isValid_urlHost (asked : Asked) (tls_addr : SocketAddr) :
    (asked.urlHost tls_addr).isValid = true := by
  unfold Asked.urlHost
  cases asked.host with
  | none => exact tls_addr.isValid_host
  | some header => exact header.valid

/-- The authority, and that it is one. -/
theorem isAuthorityChar_httpsAuthority (asked : Asked) (tls_addr : SocketAddr) :
    ∀ c ∈ httpsAuthority ((asked.request.host.map trimChars).filter (· ≠ [])) tls_addr,
      Uri.isAuthorityChar c = true := by
  have hvalid := asked.isValid_urlHost tls_addr
  rw [httpsAuthority_request]
  split
  · exact isAuthorityChar_bare hvalid
  · exact isAuthorityChar_text hvalid fun c hc =>
      Nat.isDigit_of_mem_toDigits (by decide) (by decide) hc

/-! ## Targets -/

/-- A target that is a path and a query. -/
theorem PathAndQuery.asStr_cases (target : PathAndQuery) (h : target.data ≠ ['*']) :
    Uri.Stops Uri.isAuthorityChar target.asStr ∧ '#' ∉ target.asStr ∧
      (if target.asStr.takeWhile (· != '?') = [] then ['/']
        else target.asStr.takeWhile (· != '?')) = target.path ∧
      (splitOnce '?' target.asStr).map (·.2) = target.query := by
  obtain ⟨data, hplain, hrooted⟩ := target
  have hhead := hrooted.resolve_left h
  unfold asStr path query
  by_cases hnil : data = []
  · subst hnil
    have hroot : '#' ∉ ['/'] := by decide
    exact ⟨Uri.stops_cons rfl [], hroot, rfl, rfl⟩
  · dsimp only
    rw [if_neg hnil]
    refine ⟨fun c hc => ?_, hplain, rfl, rfl⟩
    rcases hhead c hc with rfl | rfl
    · rfl
    · rfl

/-- Only with its brackets in front is a literal read. -/
theorem bare_ne_text {host : UrlHost} (h : host.isValid = true) (hbracket : host.isBracketed = true)
    (tail rest : Text) : bare host ++ tail ≠ host.text ++ rest := by
  cases host with
  | name t => cases hbracket
  | literal t =>
      intro heq
      obtain ⟨hcolon, hchars⟩ := UrlHost.isLiteral_iff.mp h
      obtain ⟨c, t', rfl⟩ := List.exists_cons_of_ne_nil (List.ne_nil_of_mem hcolon)
      have hfirst := congrArg List.head? heq
      simp only [bare, UrlHost.text, List.cons_append, List.head?_cons, Option.some_inj] at hfirst
      exact (UrlHost.isLiteralChar_cases (hchars c List.mem_cons_self)).1 hfirst

theorem redirectTarget_request (asked : Asked) (tls_addr : SocketAddr) :
    redirectTarget asked.request tls_addr = "https://".toList ++
      (if tls_addr.port = 443 then bare (asked.urlHost tls_addr)
        else (asked.urlHost tls_addr).text ++ portText (some (Nat.toDigits 10 tls_addr.port))) ++
      asked.target.asStr := by
  rw [← httpsAuthority_request]
  rfl

/-- A URL with the host that was asked for begins with it as it is written. -/
theorem text_of_readHttps {authority tail path : Text} {host : UrlHost} {port : Option ℕ}
    {query : Option Text} (hauthority : ∀ c ∈ authority, Uri.isAuthorityChar c = true)
    (hstops : Uri.Stops Uri.isAuthorityChar tail) (hplain : '#' ∉ tail)
    (h : readHttps ("https://".toList ++ authority ++ tail) = some ⟨host, port, path, query⟩) :
    ∃ written, authority = host.text ++ portText written ∧
      ∀ digits ∈ written, digits.all Char.isDigit = true := by
  rw [readHttps_append hauthority hstops hplain] at h
  obtain ⟨read, hread, heq⟩ := Option.map_eq_some_iff.mp h
  obtain ⟨written, hwritten, hdigits, -⟩ := readHostPort_some hread
  have hhost : read.host = host := congrArg HttpsUrl.host heq
  exact ⟨written, by rw [hwritten, hhost], hdigits⟩

/-- **When the redirect keeps the target**: the port is not the default one or the host has no
brackets to lose, and the target is not the asterisk. -/
theorem keepsTarget_iff (asked : Asked) (tls_addr : SocketAddr) :
    KeepsTarget asked tls_addr ↔
      (tls_addr.port = 443 → (asked.urlHost tls_addr).isBracketed = false) ∧
        asked.target.data ≠ ['*'] := by
  have hvalid := asked.isValid_urlHost tls_addr
  have hauthority := isAuthorityChar_httpsAuthority asked tls_addr
  have hdigits : ∀ c ∈ Nat.toDigits 10 tls_addr.port, c.isDigit = true := fun c hc =>
    Nat.isDigit_of_mem_toDigits (by decide) (by decide) hc
  unfold KeepsTarget
  rw [redirectTarget_request]
  rw [httpsAuthority_request] at hauthority
  constructor
  · intro hkeeps
    have htarget : asked.target.data ≠ ['*'] := by
      intro hstar
      -- the asterisk is read as the end of the authority
      have hasStr : asked.target.asStr = ['*'] := by
        unfold PathAndQuery.asStr
        rw [hstar]
        rfl
      have hchars : ∀ c ∈ (if tls_addr.port = 443 then bare (asked.urlHost tls_addr)
          else (asked.urlHost tls_addr).text ++
            portText (some (Nat.toDigits 10 tls_addr.port))) ++ ['*'],
          Uri.isAuthorityChar c = true := by
        intro c hc
        rcases List.mem_append.mp hc with hc | hc
        · exact hauthority c hc
        · rw [List.mem_singleton.mp hc]
          rfl
      rw [hasStr, ← List.append_nil (_ ++ ['*']), List.append_assoc "https://".toList] at hkeeps
      obtain ⟨written, hwritten, hall⟩ :=
        text_of_readHttps hchars (Uri.stops_nil _) List.not_mem_nil hkeeps
      split at hwritten
      · cases hhost : asked.urlHost tls_addr with
        | literal t =>
            rw [hhost] at hwritten hvalid
            exact bare_ne_text hvalid rfl _ _ hwritten
        | name t =>
            rw [hhost] at hwritten
            have hport := List.append_cancel_left hwritten
            cases written with
            | none => cases hport
            | some digits => cases hport
      · rw [List.append_assoc] at hwritten
        have hport := List.append_cancel_left hwritten
        cases written with
        | none => cases hport
        | some digits =>
            have hmem : '*' ∈ digits := by
              have hcut := List.tail_eq_of_cons_eq hport
              rw [← hcut]
              exact List.mem_append_right _ List.mem_cons_self
            have hdigit := List.all_eq_true.mp (hall digits rfl) _ hmem
            revert hdigit
            decide
    obtain ⟨hstops, hplain, -, -⟩ := asked.target.asStr_cases htarget
    refine ⟨fun hport => ?_, htarget⟩
    by_contra hbracket
    rw [if_pos hport] at hkeeps hauthority
    obtain ⟨written, hwritten, -⟩ := text_of_readHttps hauthority hstops hplain hkeeps
    rw [← List.append_nil (bare _)] at hwritten
    exact bare_ne_text hvalid (by simpa using hbracket) _ _ hwritten
  · rintro ⟨hbracket, htarget⟩
    obtain ⟨hstops, hplain, hpath, hquery⟩ := asked.target.asStr_cases htarget
    rw [readHttps_append hauthority hstops hplain, hpath, hquery]
    split
    · rename_i hport
      have hname := hbracket hport
      have htext : bare (asked.urlHost tls_addr) =
          (asked.urlHost tls_addr).text ++ portText none := by
        cases hhost : asked.urlHost tls_addr with
        | name t => exact (List.append_nil t).symm
        | literal t =>
            rw [hhost] at hname
            cases hname
      have hnone : ∀ digits ∈ (none : Option Text), digits.all Char.isDigit = true := nofun
      rw [htext, readHostPort_append hvalid hnone]
      rfl
    · have hport : ∀ digits ∈ some (Nat.toDigits 10 tls_addr.port),
          digits.all Char.isDigit = true := by
        intro digits hsome
        cases hsome
        exact List.all_eq_true.mpr hdigits
      rw [readHostPort_append hvalid hport]
      have hvalue : portValue (some (Nat.toDigits 10 tls_addr.port)) = some tls_addr.port := by
        show (if _ = [] then none else _) = _
        rw [if_neg Nat.toDigits_ne_nil, Nat.ofDigitChars_ten_toDigits]
      rw [hvalue]
      rfl

/-- `[::1]`, asked for a page by a listener on the default port. -/
def loopback : Asked where
  host := some ⟨.literal "::1".toList, by decide, none, by decide⟩
  target := ⟨"/".toList, by decide, Or.inr fun _ hc => Or.inl (Option.some_inj.mp hc).symm⟩

/-- The redirect goes to `https://::1/`, which is no URL. -/
theorem loopback_lost :
    redirectTarget loopback.request ⟨.V4 0xCB007109, 443⟩ = "https://::1/".toList ∧
      ¬KeepsTarget loopback ⟨.V4 0xCB007109, 443⟩ := by
  unfold KeepsTarget
  exact ⟨by decide +kernel, by decide +kernel⟩

end Wallermax.Server
