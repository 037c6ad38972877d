import Wallermax.Proxy.IpAddr
import Wallermax.Tenants.Forms

/-!
# The client's address behind trusted proxies

`X-Forwarded-For` is read from right to left past the trusted proxies. What a
proxy appended stands to the right of what the client wrote, so the client's
part should not matter once the proxies' part names an address that is not
trusted.

It does matter when client and proxy share a field line: a line with an octet
that is not visible ASCII is dropped as a whole, with the address the proxy
wrote into it, and the lines before it decide.
-/

namespace Wallermax.Proxy

open Wallermax.Tenants

/-- The octets of a header value. -/
abbrev HeaderValue : Type := List UInt8

/-- The octets `HeaderValue::to_str` accepts. -/
def isVisibleAscii (b : UInt8) : Bool := (0x20 ≤ b && b < 0x7F) || b == 0x09

def octetChar (b : UInt8) : Char := Char.ofNat b.toNat

/-- `HeaderValue::to_str`. -/
def toStr (value : HeaderValue) : Option (List Char) :=
  if value.all isVisibleAscii then some (value.map octetChar) else none

/-- `forwarded_for_values`: the lines of the field that `to_str` accepts. -/
def forwardedForValues (headers : List (String × HeaderValue)) : List (List Char) :=
  (headers.filter fun h => h.1 == "x-forwarded-for").filterMap fun h => toStr h.2

/-- The addresses of one value: the parts between commas that parse. -/
def valueAddresses (value : List Char) : List IpAddr :=
  (value.splitOn ',').filterMap fun part => parseIpAddr (trim (String.ofList part))

def isTrusted (trusted : List Cidr) (ip : IpAddr) : Bool :=
  trusted.any fun cidr => cidr.contains ip

/-- `resolve_client_ip`. -/
def resolveClientIp (peer : IpAddr) (xff_values : List (List Char)) (trusted : List Cidr) :
    IpAddr :=
  if !isTrusted trusted peer then peer
  else
    match xff_values.flatMap valueAddresses with
    | [] => peer
    | first :: rest =>
        match (first :: rest).reverse.find? fun ip => !isTrusted trusted ip with
        | some ip => ip
        | none => first

/-! ## What the proxies appended -/

/-- The right-most address that is not trusted. -/
def rightmostUntrusted (trusted : List Cidr) (addresses : List IpAddr) : Option IpAddr :=
  addresses.reverse.find? fun ip => !isTrusted trusted ip

/-- The addresses of a list of field lines. -/
def lineAddresses (lines : List HeaderValue) : List IpAddr :=
  (lines.filterMap toStr).flatMap valueAddresses

/-- The client's part of the field: whole lines, and what it wrote into the line
the proxy appended to, if it wrote one. -/
structure ClientPart : Type where
  earlier : List HeaderValue
  sameLine : Option HeaderValue

/-- The field line the proxies end up with. -/
def ClientPart.lastLine (p : ClientPart) (suffix : HeaderValue) : HeaderValue :=
  match p.sameLine with
  | none => suffix
  | some written => written ++ [0x2C, 0x20] ++ suffix

/-- The header map the server receives. -/
def ClientPart.headers (p : ClientPart) (suffix : HeaderValue) :
    List (String × HeaderValue) :=
  (p.earlier ++ [p.lastLine suffix]).map fun line => ("x-forwarded-for", line)

/-- What the client wrote into the proxy's line is visible ASCII, or its earlier
lines alone name the address the proxies saw. -/
def ClientPart.Harmless (p : ClientPart) (trusted : List Cidr) (seen : IpAddr) : Prop :=
  (∀ written ∈ p.sameLine, written.all isVisibleAscii = true) ∨
    rightmostUntrusted trusted (lineAddresses p.earlier) = some seen

/-! ## Splitting at the proxy's comma -/

theorem isWhitespace_space : isWhitespace ' ' = true := rfl

/-- A space in front of a part is trimmed. -/
theorem trim_space_cons (part : List Char) :
    trim (String.ofList (' ' :: part)) = trim (String.ofList part) := by
  unfold trim
  rw [String.toList_ofList, String.toList_ofList,
    List.dropWhile_cons_of_pos isWhitespace_space]

theorem valueAddresses_space_cons (value : List Char) :
    valueAddresses (' ' :: value) = valueAddresses value := by
  unfold valueAddresses
  rw [List.splitOn_cons_eq_if_modifyHead, if_neg (by decide)]
  cases value.splitOn ',' with
  | nil => rfl
  | cons part parts =>
      rw [List.modifyHead_cons, List.filterMap_cons, List.filterMap_cons, trim_space_cons]

theorem valueAddresses_append (written suffix : List Char) :
    valueAddresses (written ++ ',' :: ' ' :: suffix) =
      valueAddresses written ++ valueAddresses suffix := by
  have hsplit : (written ++ ',' :: ' ' :: suffix).splitOn ',' =
      written.splitOn ',' ++ (' ' :: suffix).splitOn ',' :=
    List.splitOn_append_cons_self written (' ' :: suffix)
  calc valueAddresses (written ++ ',' :: ' ' :: suffix)
      = valueAddresses written ++ valueAddresses (' ' :: suffix) := by
        unfold valueAddresses
        rw [hsplit, List.filterMap_append]
    _ = valueAddresses written ++ valueAddresses suffix := by
        rw [valueAddresses_space_cons]

theorem lineAddresses_append (xs ys : List HeaderValue) :
    lineAddresses (xs ++ ys) = lineAddresses xs ++ lineAddresses ys := by
  unfold lineAddresses
  rw [List.filterMap_append, List.flatMap_append]

theorem lineAddresses_singleton {line : HeaderValue} (h : line.all isVisibleAscii = true) :
    lineAddresses [line] = valueAddresses (line.map octetChar) := by
  have htoStr : toStr line = some (line.map octetChar) := if_pos h
  unfold lineAddresses
  rw [List.filterMap_cons_some htoStr]
  simp

theorem lineAddresses_dropped {line : HeaderValue} (h : line.all isVisibleAscii = false) :
    lineAddresses [line] = [] := by
  have htoStr : toStr line = none := if_neg (by rw [h]; exact Bool.false_ne_true)
  unfold lineAddresses
  rw [List.filterMap_cons_none htoStr]
  rfl

/-- A suffix with an address is visible ASCII. -/
theorem visible_of_rightmost {trusted : List Cidr} {suffix : HeaderValue} {seen : IpAddr}
    (h : rightmostUntrusted trusted (lineAddresses [suffix]) = some seen) :
    suffix.all isVisibleAscii = true := by
  cases hvisible : suffix.all isVisibleAscii with
  | true => rfl
  | false =>
      rw [lineAddresses_dropped hvisible] at h
      cases h

/-! ## The walk from the right -/

theorem rightmostUntrusted_append (trusted : List Cidr) (xs ys : List IpAddr) :
    rightmostUntrusted trusted (xs ++ ys) =
      (rightmostUntrusted trusted ys).or (rightmostUntrusted trusted xs) := by
  unfold rightmostUntrusted
  rw [List.reverse_append, List.find?_append]

theorem isTrusted_of_rightmostUntrusted {trusted : List Cidr} {addresses : List IpAddr}
    {ip : IpAddr} (h : rightmostUntrusted trusted addresses = some ip) :
    isTrusted trusted ip = false := by
  simpa using List.find?_some h

theorem forwardedForValues_headers (p : ClientPart) (suffix : HeaderValue) :
    forwardedForValues (p.headers suffix) =
      (p.earlier ++ [p.lastLine suffix]).filterMap toStr := by
  unfold forwardedForValues ClientPart.headers
  rw [List.filter_eq_self.mpr, List.filterMap_map]
  · rfl
  · intro h hh
    obtain ⟨line, _, rfl⟩ := List.mem_map.mp hh
    rfl

/-- An address that is not trusted is the answer exactly when it is the
right-most such address: both fallbacks give trusted ones. -/
theorem resolveClientIp_eq_iff {peer seen : IpAddr} {trusted : List Cidr}
    (values : List (List Char)) (hpeer : isTrusted trusted peer = true)
    (hseen : isTrusted trusted seen = false) :
    resolveClientIp peer values trusted = seen ↔
      rightmostUntrusted trusted (values.flatMap valueAddresses) = some seen := by
  have hne : peer ≠ seen := by
    intro heq
    rw [heq, hseen] at hpeer
    cases hpeer
  unfold resolveClientIp rightmostUntrusted
  rw [hpeer]
  cases values.flatMap valueAddresses with
  | nil => exact iff_of_false hne (by simp)
  | cons first rest =>
      show (match (first :: rest).reverse.find? fun ip => !isTrusted trusted ip with
        | some ip => ip
        | none => first) = seen ↔ _
      cases hfind : (first :: rest).reverse.find? fun ip => !isTrusted trusted ip with
      | some ip => simp
      | none =>
          have hfirst : isTrusted trusted first = true := by
            have hall := List.find?_eq_none.mp hfind first (by simp)
            simpa using hall
          have hne' : first ≠ seen := by
            intro heq
            rw [heq, hseen] at hfirst
            cases hfirst
          exact iff_of_false hne' (by simp)

/-- One client part: the answer is the address the proxies saw exactly when the
part is harmless. -/
theorem resolve_eq_seen_iff {peer seen : IpAddr} {trusted : List Cidr}
    {suffix : HeaderValue} (hpeer : isTrusted trusted peer = true)
    (hsuffix : rightmostUntrusted trusted (lineAddresses [suffix]) = some seen)
    (p : ClientPart) :
    resolveClientIp peer (forwardedForValues (p.headers suffix)) trusted = seen ↔
      p.Harmless trusted seen := by
  have hvisible := visible_of_rightmost hsuffix
  rw [resolveClientIp_eq_iff _ hpeer (isTrusted_of_rightmostUntrusted hsuffix),
    forwardedForValues_headers]
  show rightmostUntrusted trusted (lineAddresses (p.earlier ++ [p.lastLine suffix])) =
    some seen ↔ _
  rw [lineAddresses_append, rightmostUntrusted_append]
  rcases p with ⟨earlier, sameLine⟩
  cases sameLine with
  | none =>
      have hlast : ClientPart.lastLine ⟨earlier, none⟩ suffix = suffix := rfl
      rw [hlast, hsuffix]
      exact iff_of_true rfl (Or.inl fun written hwritten => by cases hwritten)
  | some written =>
      have hlast : ClientPart.lastLine ⟨earlier, some written⟩ suffix =
          written ++ [0x2C, 0x20] ++ suffix := rfl
      have hall : (written ++ [0x2C, 0x20] ++ suffix).all isVisibleAscii =
          written.all isVisibleAscii := by
        have hseparator : isVisibleAscii 0x2C = true ∧ isVisibleAscii 0x20 = true := by
          decide
        simp [List.all_append, hvisible, hseparator.1, hseparator.2]
      rw [hlast]
      cases hwritten : written.all isVisibleAscii with
      | true =>
          rw [lineAddresses_singleton (hall.trans hwritten)]
          have hmap : (written ++ [0x2C, 0x20] ++ suffix).map octetChar =
              written.map octetChar ++ ',' :: ' ' :: suffix.map octetChar := by
            rw [List.append_assoc, List.map_append]
            rfl
          rw [hmap, valueAddresses_append, ← lineAddresses_singleton hvisible,
            rightmostUntrusted_append, hsuffix]
          refine iff_of_true rfl (Or.inl ?_)
          intro other hother
          cases hother
          exact hwritten
      | false =>
          -- the whole line is dropped, and the earlier ones decide
          rw [lineAddresses_dropped (hall.trans hwritten)]
          show rightmostUntrusted trusted (lineAddresses earlier) = some seen ↔ _
          constructor
          · exact Or.inr
          · rintro (hnone | hearlier)
            · rw [hnone written rfl] at hwritten
              cases hwritten
            · exact hearlier

/-- **When a client cannot choose its address.** Behind a trusted peer, for a
suffix whose right-most untrusted address is `seen`, two client parts give the
same answer and that answer is `seen` exactly when both are harmless. -/
theorem resolve_agree_iff (peer seen : IpAddr) (trusted : List Cidr) (suffix : HeaderValue)
    (hpeer : isTrusted trusted peer = true)
    (hsuffix : rightmostUntrusted trusted (lineAddresses [suffix]) = some seen)
    (A B : ClientPart) :
    (resolveClientIp peer (forwardedForValues (A.headers suffix)) trusted =
        resolveClientIp peer (forwardedForValues (B.headers suffix)) trusted ∧
      resolveClientIp peer (forwardedForValues (B.headers suffix)) trusted = seen) ↔
      A.Harmless trusted seen ∧ B.Harmless trusted seen := by
  have hA := resolve_eq_seen_iff hpeer hsuffix A
  have hB := resolve_eq_seen_iff hpeer hsuffix B
  constructor
  · rintro ⟨hsame, hseen⟩
    exact ⟨hA.mp (hsame.trans hseen), hB.mp hseen⟩
  · rintro ⟨hharmlessA, hharmlessB⟩
    have hseenA := hA.mpr hharmlessA
    have hseenB := hB.mpr hharmlessB
    exact ⟨hseenA.trans hseenB.symm, hseenB⟩

/-! ## One octet that is not visible ASCII -/

/-- The octets of an ASCII text. -/
def asciiOctets (text : String) : HeaderValue :=
  text.toList.map fun c => UInt8.ofNat c.toNat

def loopback : IpAddr := .V4 0x7F000001

def loopbackOnly : List Cidr := [⟨loopback, 32⟩]

/-- What the proxy at the loopback address appends. -/
def appended : HeaderValue := asciiOctets "198.51.100.7"

/-- A client that writes an address into the proxy's line. -/
def sameLineGuess : ClientPart where
  earlier := []
  sameLine := some (asciiOctets "6.6.6.6")

/-- A client that sends the address as a line of its own, and the octet 0x80 in
the line the proxy appends to. -/
def obsTextGuess : ClientPart where
  earlier := [asciiOctets "6.6.6.6"]
  sameLine := some [0x80]

theorem resolve_agree_iff_sameLineGuess :
    isTrusted loopbackOnly loopback = true ∧
      rightmostUntrusted loopbackOnly (lineAddresses [appended]) = some (.V4 0xC6336407) ∧
      ((resolveClientIp loopback (forwardedForValues (sameLineGuess.headers appended))
            loopbackOnly =
          resolveClientIp loopback (forwardedForValues (obsTextGuess.headers appended))
            loopbackOnly ∧
        resolveClientIp loopback (forwardedForValues (obsTextGuess.headers appended))
            loopbackOnly = .V4 0xC6336407) ↔
        sameLineGuess.Harmless loopbackOnly (.V4 0xC6336407) ∧
          obsTextGuess.Harmless loopbackOnly (.V4 0xC6336407)) := by
  have hpeer : isTrusted loopbackOnly loopback = true := by decide +kernel
  have hsuffix : rightmostUntrusted loopbackOnly (lineAddresses [appended]) =
      some (.V4 0xC6336407) := by
    decide +kernel
  exact ⟨hpeer, hsuffix, resolve_agree_iff loopback _ loopbackOnly appended hpeer hsuffix
    sameLineGuess obsTextGuess⟩

/-- The proxy saw 198.51.100.7 both times; the second client is 6.6.6.6. -/
theorem obsTextGuess_chooses :
    isTrusted loopbackOnly loopback = true ∧
      rightmostUntrusted loopbackOnly (lineAddresses [appended]) = some (.V4 0xC6336407) ∧
      resolveClientIp loopback (forwardedForValues (sameLineGuess.headers appended))
          loopbackOnly = .V4 0xC6336407 ∧
      resolveClientIp loopback (forwardedForValues (obsTextGuess.headers appended))
          loopbackOnly = .V4 0x06060606 := by
  decide +kernel

end Wallermax.Proxy
