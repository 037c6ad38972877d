import Wallermax.Auth.Redirects
import Wallermax.Base.Reads
import Wallermax.Content.Dates
import Wallermax.Manager.Metrics

/-!
# The endpoint client

`http_get_text`: one `GET` and the redirects behind it. A round trip connects to an address
of the URL's host, sends the request and reads the answer: the head up to its empty line,
then the body up to its announced length or the end of the connection. A chunked body is
put together from the text of the whole. What the resolver, the sockets and TLS do is
given, for every round trip anew.
-/

namespace Wallermax.Manager.Http

open Wallermax.Base
open Wallermax.Auth (containsText)
open Wallermax.Content (signedValue)
open Wallermax.Manager.Metrics (lines splitOnce isAsciiSpace)
open Wallermax.Templates (byteLength stripPrefix trimChars eqIgnoreAsciiCase)

def MAX_REDIRECTS : ℕ := 3

/-! ## Numbers -/

def parseU16 (raw : Text) : Option ℕ :=
  ((signedValue false raw).filter fun n => decide (n < 0x10000)).map Int.toNat

/-- `str::parse` for a `usize` of 64 bits. -/
def parseUsize (raw : Text) : Option ℕ :=
  ((signedValue false raw).filter fun n => decide (n < 0x10000000000000000)).map Int.toNat

def hexValue (c : Char) : Option ℕ :=
  if c.isDigit then some (c.toNat - 48)
  else if 97 ≤ c.toNat ∧ c.toNat ≤ 102 then some (c.toNat - 87)
  else if 65 ≤ c.toNat ∧ c.toNat ≤ 70 then some (c.toNat - 55)
  else none

/-- The value of hexadecimal digits behind what has been read. -/
def hexDigits (value : ℕ) : Text → Option ℕ
  | [] => some value
  | c :: digits => (hexValue c).bind fun d => hexDigits (16 * value + d) digits

/-- `usize::from_str_radix` for the radix 16. -/
def fromHex (raw : Text) : Option ℕ :=
  let digits := (stripPrefix ['+'] raw).getD raw
  if digits = [] then none
  else (hexDigits 0 digits).filter fun n => decide (n < 0x10000000000000000)

/-! ## URLs -/

structure Target : Type where
  url : Text
  tls : Bool
  authority : Text
  path : Text
deriving DecidableEq

inductive Answer : Type where
  | body (text : Text)
  | redirect (status : ℕ) (location : Text)
deriving DecidableEq

/-- The scheme of a URL, whether it is `https`, and what is behind it. -/
def stripScheme (url : Text) : Option (Bool × Text) :=
  match stripPrefix "https://".toList url with
  | some rest => some (true, rest)
  | none => (stripPrefix "http://".toList url).map fun rest => (false, rest)

/-- `parse_url`. -/
def parseUrl (url : Text) : Except String Target :=
  match stripScheme url with
  | none =>
      .error ("the manager speaks `http://` and `https://` to the local server; `" ++
        String.ofList url ++ "` matches neither")
  | some (tls, rest) =>
      let (authority, path) := match splitOnce '/' rest with
        | some (authority, path) => (authority, '/' :: path)
        | none => (rest, ['/'])
      if authority = [] then .error ("no host in `" ++ String.ofList url ++ "`")
      else .ok ⟨url, tls, authority, path⟩

/-- `rsplit_once('/')`, the part in front. -/
def directory (path : Text) : Text :=
  (path.reverse.dropWhile (· != '/')).tail.reverse

/-- `resolve_location`. -/
def resolveLocation (current : Target) (location : Text) : Except String Target :=
  let location := trimChars location
  if "http://".toList <+: location ∨ "https://".toList <+: location then parseUrl location
  else match stripPrefix "//".toList location with
  | some rest => parseUrl ((if current.tls then "https://".toList else "http://".toList) ++ rest)
  | none =>
      let path := if ['/'] <+: location then location
        else directory current.path ++ '/' :: location
      let scheme := if current.tls then "https:".toList else "http:".toList
      .ok ⟨scheme ++ "//".toList ++ current.authority ++ path, current.tls, current.authority, path⟩

/-- `host_of`. -/
def hostOf (authority : Text) : Text :=
  match authority with
  | '[' :: rest => rest.takeWhile (· != ']')
  | _ => if 1 < authority.count ':' then authority else authority.takeWhile (· != ':')

/-- `same_host`. -/
def sameHost (one other : Target) : Bool :=
  eqIgnoreAsciiCase (hostOf one.authority) (hostOf other.authority)

/-- The host and the port's text. -/
def splitPort (authority : Text) : Except String (Text × Text) :=
  match authority with
  | '[' :: rest =>
      match splitOnce ']' rest with
      | none => .error ("unterminated IPv6 address in `" ++ String.ofList authority ++ "`")
      | some (host, ':' :: port) => .ok (host, port)
      | some (host, []) => .ok (host, [])
      | some (_, tail) =>
          .error ("garbage after the IPv6 address in `" ++ String.ofList authority ++ "`: `" ++
            String.ofList tail ++ "`")
  | _ =>
      if 1 < authority.count ':' then .ok (authority, [])
      else .ok ((splitOnce ':' authority).getD (authority, []))

/-- `host_port`. -/
def hostPort (authority : Text) (default_port : ℕ) : Except String (Text × ℕ) := do
  let (host, port) ← splitPort authority
  if port = [] then return (host, default_port)
  else match parseU16 port with
    | some port => return (host, port)
    | none => throw ("invalid port in `" ++ String.ofList authority ++ "`")

/-! ## Reading an answer -/

/-- The errors of a read. -/
inductive ReadError : Type where
  | timedOut
  | other (message : String)

/-- The empty line behind a head. -/
def headEnd : List UInt8 := [13, 10, 13, 10]

/-- `find_head`. -/
def findHead (buf : List UInt8) : Option ℕ :=
  (splitFirst headEnd buf).map fun (before, _) => before.length

def containsHead (buf : List UInt8) : Bool := (findHead buf).isSome

def reaches (want : ℕ) (buf : List UInt8) : Bool := decide (want ≤ buf.length)

def looksLikeTls : List UInt8 → Bool
  | first :: second :: _ => 20 ≤ first && first ≤ 23 && second == 3
  | _ => false

structure Head : Type where
  status : ℕ
  location : Option Text
  content_length : Option ℕ
  chunked : Bool
deriving DecidableEq

/-- The loop body of `parse_head`. -/
def Head.add (parsed : Head) (header : Text) : Head :=
  match splitOnce ':' header with
  | none => parsed
  | some (name, value) =>
    let name := trimChars name
    let value := trimChars value
    if eqIgnoreAsciiCase name "location".toList then { parsed with location := some value }
    else if eqIgnoreAsciiCase name "content-length".toList then
      { parsed with content_length := parseUsize value }
    else if eqIgnoreAsciiCase name "transfer-encoding".toList &&
        containsText "chunked".toList (value.map Char.toLower) then
      { parsed with chunked := true }
    else parsed

/-- `parse_head`; `debug` writes a text with its escapes. -/
def parseHead (debug : Text → String) (head url : Text) : Except String Head :=
  let status_line := (lines head).head?.getD []
  match ((status_line.splitOnP isAsciiSpace).filter (· ≠ []))[1]?.bind parseU16 with
  | none =>
      .error ("malformed status line from " ++ String.ofList url ++ ": " ++ debug status_line)
  | some status => .ok (((lines head).drop 1).foldl Head.add ⟨status, none, none, false⟩)

/-- The text cut behind so many octets; nothing where that is inside a character. -/
def cutAt (n : ℕ) : Text → Option (Text × Text)
  | [] => if n = 0 then some ([], []) else none
  | c :: t =>
    if n = 0 then some ([], c :: t)
    else if c.utf8Size ≤ n then
      (cutAt (n - c.utf8Size) t).map fun (front, back) => (c :: front, back)
    else none

/-- The line end behind a chunk. -/
def stripNewline (tail : Text) : Option Text :=
  (stripPrefix ['\r', '\n'] tail).or (stripPrefix ['\n'] tail)

theorem length_of_splitOnce {c : Char} {t front rest : Text}
    (h : splitOnce c t = some (front, rest)) : rest.length < t.length := by
  unfold splitOnce at h
  split at h
  · cases h
  · rename_i d tail hdrop
    cases h
    have hsuffix := (List.dropWhile_suffix (l := t) (· != c)).length_le
    rw [hdrop, List.length_cons] at hsuffix
    omega

theorem eq_append_of_cutAt {n : ℕ} {t front back : Text} (h : cutAt n t = some (front, back)) :
    t = front ++ back := by
  induction t generalizing n front with
  | nil =>
      rw [cutAt, Option.ite_none_right_eq_some, Option.some_inj, Prod.mk.injEq] at h
      rw [← h.2.1, ← h.2.2]
      rfl
  | cons c t ih =>
      rw [cutAt] at h
      split at h
      · cases h
        rfl
      · rw [Option.ite_none_right_eq_some] at h
        obtain ⟨⟨front', back'⟩, hcut, heq⟩ := Option.map_eq_some_iff.mp h.2
        cases heq
        rw [ih hcut, List.cons_append]

theorem length_of_stripNewline {t rest : Text} (h : stripNewline t = some rest) :
    rest.length < t.length := by
  unfold stripNewline stripPrefix at h
  rcases Option.or_eq_some_iff.mp h with h | ⟨-, h⟩
  · rw [Option.ite_none_right_eq_some, Option.some_inj] at h
    have hle := h.1.length_le
    rw [← h.2, List.length_drop]
    simp only [List.length_cons, List.length_nil] at hle ⊢
    omega
  · rw [Option.ite_none_right_eq_some, Option.some_inj] at h
    have hle := h.1.length_le
    rw [← h.2, List.length_drop]
    simp only [List.length_cons, List.length_nil] at hle ⊢
    omega

/-- `dechunk`; nothing where a slice would be inside a character. -/
def dechunk (body : Text) : Option Text :=
  match _hline : splitOnce '\n' body with
  | none => some []
  | some (size_line, remainder) =>
    match fromHex (trimChars size_line) with
    | none => some []
    | some size =>
      if size = 0 then some []
      else
        match _hcut : cutAt (min (byteLength remainder) size) remainder with
        | none => none
        | some (data, tail) =>
          match _hstrip : stripNewline tail with
          | none => some data
          | some rest => (dechunk rest).map (data ++ ·)
termination_by body.length
decreasing_by
  have hline := length_of_splitOnce _hline
  have hcut := congrArg List.length (eq_append_of_cutAt _hcut)
  have hstrip := length_of_stripNewline _hstrip
  rw [List.length_append] at hcut
  omega

section

variable (debug : Text → String)

/-- What an answer is, by its status. -/
def classify (url : Text) (parsed : Head) (body : Text) : Except String Answer :=
  if 200 ≤ parsed.status ∧ parsed.status < 300 then .ok (.body body)
  else if 300 ≤ parsed.status ∧ parsed.status < 400 then
    match parsed.location with
    | some location => .ok (.redirect parsed.status location)
    | none =>
        .error ("GET " ++ String.ofList url ++ " answered " ++ toString parsed.status ++
          " without a Location to follow")
  else .error ("GET " ++ String.ofList url ++ " answered " ++ toString parsed.status)

/-- `fetch_once` behind the head: `read_until` the announced length or the end, a transport
error being an end too. Nothing where the length overflows (and without the check would wrap) or
where `dechunk` panics. -/
def readBody (url : Text) (parsed : Head) (head_end : ℕ) (response : List UInt8)
    (reads : List (Read ReadError)) : Option (Except String Answer) := do
  let response ← match parsed.content_length with
    | some length =>
        if head_end + 4 + length < 0x10000000000000000 then
          some (fill (fun _ => false) (reaches (head_end + 4 + length)) (fun _ => false)
            response reads).buffer
        else none
    | none => some (fill (fun _ => false) (fun _ => false) (fun _ => false) response reads).buffer
  let body := decodeLossy (response.drop (head_end + 4))
  let body ← if parsed.chunked then dechunk body else some body
  return classify url parsed body

/-- `fetch_once` from the first read on. -/
def readAnswer (url : Text) (reads : List (Read ReadError)) : Option (Except String Answer) :=
  let truncated : List UInt8 → Option (Except String Answer) := fun response =>
    if looksLikeTls response then
      some (.error ("GET " ++ String.ofList url ++ " did not answer HTTP — that port is " ++
        "speaking TLS; an `https://` origin is needed"))
    else some (.error ("truncated answer from " ++ String.ofList url))
  match fill (fun _ => false) containsHead (fun _ => false) [] reads with
  | .failed .timedOut _ =>
      some (.error (String.ofList url ++ " did not answer within the timeout"))
  | .failed (.other message) _ =>
      some (.error ("could not read from " ++ String.ofList url ++ ": " ++ message))
  | .ended response => truncated response
  | .full response => truncated response
  | .stopped response reads =>
    match splitFirst headEnd response with
    | none => truncated response
    | some (head, _) =>
      match parseHead debug (decodeLossy head) url with
      | .error message => some (.error message)
      | .ok parsed => readBody url parsed head.length response reads

/-! ## Round trips -/

/-- What a round trip is up against. A refused connection is told with its address; one that
is accepted takes the request, in a TLS session where a name is given, and the calls of
`read` return the answer. -/
structure Hop (A : Type) : Type where
  resolve : Text → ℕ → Except String (List A)
  connect : A → Except String Unit
  exchange : A → Option Text → Text → Except String (List (Read ReadError))

/-- What the client does on the network. -/
inductive Event (A : Type) : Type where
  | dialled (host : Text) (port : ℕ) (address : A)
  | requested (address : A) (request : Text)

variable {A : Type}

/-- `resolve_all`. -/
def resolveAll (hop : Hop A) (authority : Text) (default_port : ℕ) :
    Except String (Text × ℕ × List A) := do
  let (host, port) ← hostPort authority default_port
  match hop.resolve host port with
  | .error error => throw ("could not resolve `" ++ String.ofList authority ++ "`: " ++ error)
  | .ok [] => throw ("no address answered for `" ++ String.ofList authority ++ "`")
  | .ok addresses => return (host, port, addresses)

/-- The loop of `connect`: every address up to one that accepts, and that one. -/
def connectFirst (hop : Hop A) (authority : Text) (last : String) :
    List A → List A × Except String A
  | [] =>
      ([], .error ("every address of `" ++ String.ofList authority ++
        "` refused the connection — last tried " ++ last))
  | address :: addresses =>
    match hop.connect address with
    | .ok () => ([address], .ok address)
    | .error error =>
      let (dialled, answer) := connectFirst hop authority error addresses
      (address :: dialled, answer)

def requestText (target : Target) : Text :=
  "GET ".toList ++ target.path ++ " HTTP/1.1\r\nHost: ".toList ++ target.authority ++
    "\r\nUser-Agent: wallermax-manager\r\nAccept: */*\r\nConnection: close\r\n\r\n".toList

/-- `fetch_once`. -/
def fetchOnce (hop : Hop A) (target : Target) :
    List (Event A) × Option (Except String Answer) :=
  match resolveAll hop target.authority (if target.tls then 443 else 80) with
  | .error error =>
      ([], some (.error ("could not reach " ++ String.ofList target.url ++ ": " ++ error)))
  | .ok (host, port, addresses) =>
    match connectFirst hop target.authority "" addresses with
    | (dialled, .error error) =>
        (dialled.map (.dialled host port),
          some (.error ("could not reach " ++ String.ofList target.url ++ ": " ++ error)))
    | (dialled, .ok address) =>
      let name := if target.tls then some (hostOf target.authority) else none
      let events := dialled.map (.dialled host port) ++ [.requested address (requestText target)]
      match hop.exchange address name (requestText target) with
      | .error error => (events, some (.error error))
      | .ok reads => (events, readAnswer debug target.url reads)

/-- The loop of `http_get_text`, with the round trips left to it. -/
def follow (hops : ℕ → Hop A) (url : Text) :
    ℕ → ℕ → Target → Text → List (Event A) × Option (Except String Text)
  | 0, _, _, trail =>
      ([], some (.error ("GET " ++ String.ofList url ++ " redirected more than " ++
        toString MAX_REDIRECTS ++ " times: " ++ String.ofList trail)))
  | left + 1, i, target, trail =>
    match fetchOnce debug (hops i) target with
    | (events, none) => (events, none)
    | (events, some (.error error)) => (events, some (.error error))
    | (events, some (.ok (.body text))) => (events, some (.ok text))
    | (events, some (.ok (.redirect status location))) =>
      match resolveLocation target location with
      | .error error => (events, some (.error error))
      | .ok next =>
        if sameHost target next then
          let (more, answer) :=
            follow hops url left (i + 1) next (trail ++ " -> ".toList ++ next.url)
          (events ++ more, answer)
        else
          (events, some (.error ("GET " ++ String.ofList url ++ " answered " ++ toString status ++
            " pointing at another host (`" ++ String.ofList location ++
            "`) — only same-host redirects are followed")))

/-- `http_get_text`. -/
def httpGetText (hops : ℕ → Hop A) (url : Text) :
    List (Event A) × Option (Except String Text) :=
  match parseUrl url with
  | .error error => ([], some (.error error))
  | .ok target => follow debug hops url (MAX_REDIRECTS + 1) 0 target target.url

end

end Wallermax.Manager.Http
