import Wallermax.Base.Uri
import Wallermax.Tenants.HostNames

/-!
# Classifying the host of a request

A request names its host in the authority of its URI or in one `Host` header, in any
case, with a port or without, and as DNS has it with a dot at its end or without. The
bindings are in normal form, so without the dot; `host_name` takes the port off a
request's host and leaves the dot.
-/

namespace Wallermax.Tenants

open Wallermax.Base
open Wallermax.Templates (hostName eqIgnoreAsciiCase)

/-- What `request_host` reads of a request: the host of the URI's authority, and the
`Host` headers, `none` for a value that is no text. -/
structure HostRequest : Type where
  authority : Option String
  hosts : List (Option String)

/-- `request_host`. -/
def requestHost (request : HostRequest) : Option String :=
  match request.authority with
  | some host => some host
  | none =>
    match request.hosts with
    | [value] => value
    | _ => none

/-! ## Naming a host -/

/-- A host as a URI has it: a registered name or an IP literal in brackets. -/
def IsHost (host : List Char) : Prop :=
  (∀ c ∈ host, isWhitespace c = false) ∧
    ((∀ c ∈ host, c ≠ ':' ∧ c ≠ ']') ∨ ∃ literal, host = literal ++ [']'] ∧ ']' ∉ literal)

/-- `:port`, or nothing. -/
def IsPort (port : List Char) : Prop :=
  port = [] ∨ ∃ digits, port = ':' :: digits ∧ ∀ c ∈ digits, c.isDigit = true

/-- The header's value names the host. -/
def HeaderNames (value host : List Char) : Prop :=
  ∃ front port back, value = front ++ (host ++ port ++ back) ∧ IsPort port ∧
    (∀ c ∈ front, isWhitespace c = true) ∧ ∀ c ∈ back, isWhitespace c = true

/-- The request names the host; an authority goes before the headers. -/
def HostRequest.Names (request : HostRequest) (host : List Char) : Prop :=
  IsHost host ∧
    match request.authority with
    | some name => name.toList = host
    | none => ∃ value, request.hosts = [some value] ∧ HeaderNames value.toList host

/-- No host, or more than one. -/
def HostRequest.NamesNone (request : HostRequest) : Prop :=
  request.authority = none ∧ request.hosts.length ≠ 1

/-- The host is the binding's, in any case. -/
def HostBinding.Is (b : HostBinding) (host : List Char) : Prop :=
  host.map Char.toLower = b.hostname.toList

/-- The host is the binding's with the trailing dot. -/
def HostBinding.IsDotted (b : HostBinding) (host : List Char) : Prop :=
  host.map Char.toLower = b.hostname.toList ++ ['.']

/-- What classification is to make of a request. -/
structure ClassifiesRight (bindings : List HostBinding) (request : HostRequest) : Prop where
  mapped : ∀ b ∈ bindings, ∀ host, request.Names host → b.Is host ∨ b.IsDotted host →
    classify (requestHost request) bindings = b.hostClass
  unmapped : ∀ host, request.Names host →
    (∀ b ∈ bindings, ¬b.Is host ∧ ¬b.IsDotted host) →
    classify (requestHost request) bindings = .main
  nameless : request.NamesNone → classify (requestHost request) bindings = .main

/-- The request dots a mapped name, and not one of the main organization's. -/
def HostRequest.Dots (request : HostRequest) (bindings : List HostBinding) : Prop :=
  ∃ host, request.Names host ∧ ∃ b ∈ bindings, b.IsDotted host ∧ b.hostClass ≠ .main

/-! ## Reading the host back -/

section

variable {host port front back : List Char}

theorem IsPort.visible (h : IsPort port) : ∀ c ∈ port, isWhitespace c = false ∧ c ≠ ']' := by
  have hdigit : ∀ n < 128, (Char.ofNat n).isDigit = true →
      isWhitespace (Char.ofNat n) = false ∧ Char.ofNat n ≠ ']' := by decide
  rcases h with rfl | ⟨digits, rfl, hdigits⟩
  · intro c hc
    cases hc
  · intro c hc
    rcases List.mem_cons.mp hc with rfl | hc
    · decide
    · have hlt : c.toNat < 128 :=
        Nat.lt_of_le_of_lt (Char.isDigit_iff_toNat.mp (hdigits c hc)).2 (by decide)
      have := hdigit c.toNat hlt
      rw [Char.ofNat_toNat] at this
      exact this (hdigits c hc)

/-- The white space around a text that has none goes. -/
theorem trimBy_around {text : List Char} (h : ∀ c ∈ text, isWhitespace c = false)
    (hfront : ∀ c ∈ front, isWhitespace c = true) (hback : ∀ c ∈ back, isWhitespace c = true) :
    trimBy isWhitespace (front ++ (text ++ back)) = text := by
  by_cases hne : text = []
  · subst hne
    have hall : ∀ c ∈ front ++ ([] ++ back), isWhitespace c = true := by
      intro c hc
      rcases List.mem_append.mp hc with hc | hc
      · exact hfront c hc
      · exact hback c hc
    rw [trimBy, List.dropWhile_eq_nil_iff.mpr hall]
    rfl
  · exact trimBy_stretch hfront hback hne (fun c hc => h c (List.mem_of_mem_head? hc))
      fun c hc => h c (List.mem_of_mem_getLast? hc)

/-- The name before a port that is there, or all of it. -/
theorem beforePort (hhost : ∀ c ∈ host, c ≠ ':' ∧ c ≠ ']') (hport : IsPort port) :
    (if (host ++ port).contains ':' then
      ((host ++ port).reverse.dropWhile (· != ':')).tail.reverse else host ++ port) = host := by
  rcases hport with rfl | ⟨digits, rfl, hdigits⟩
  · rw [List.append_nil, if_neg]
    simpa using fun hc => (hhost ':' hc).1 rfl
  · have hskip : ∀ c ∈ digits.reverse, (c != ':') = true := by
      intro c hc
      have hdigit := hdigits c (List.mem_reverse.mp hc)
      rw [bne_iff_ne]
      rintro rfl
      cases hdigit
    rw [if_pos (by simp), List.reverse_append, List.reverse_cons, List.append_assoc,
      List.dropWhile_append_of_pos hskip]
    simp

/-- **`host_name`** takes the port off a host. -/
theorem hostName_of_headerNames {raw : String} (hhost : IsHost host)
    (h : HeaderNames raw.toList host) : hostName raw = host := by
  obtain ⟨front, port, back, hraw, hport, hfront, hback⟩ := h
  have hvisible : ∀ c ∈ host ++ port, isWhitespace c = false := by
    intro c hc
    rcases List.mem_append.mp hc with hc | hc
    · exact hhost.1 c hc
    · exact (hport.visible c hc).1
  have htrim : (trim raw).toList = host ++ port := by
    rw [toList_trim, hraw]
    exact trimBy_around hvisible hfront hback
  simp only [hostName, htrim]
  rcases hhost.2 with hname | ⟨literal, rfl, hliteral⟩
  · have hbracket : (host ++ port).contains ']' = false := by
      rw [Bool.eq_false_iff, ne_eq, List.contains_iff_mem, List.mem_append, not_or]
      exact ⟨fun hc => (hname _ hc).2 rfl, fun hc => (hport.visible _ hc).2 rfl⟩
    rw [if_neg (Bool.eq_false_iff.mp hbracket)]
    exact beforePort hname hport
  · have htake : (literal ++ [']'] ++ port).takeWhile (· != ']') = literal := by
      rw [List.append_assoc, List.takeWhile_append_of_pos]
      · simp
      · intro c hc
        rw [bne_iff_ne]
        rintro rfl
        exact hliteral hc
    rw [if_pos (by simp), htake]

theorem HostRequest.Names.requestHost {request : HostRequest} (h : request.Names host) :
    ∃ raw, Tenants.requestHost request = some raw ∧ hostName raw = host := by
  obtain ⟨hhost, hnames⟩ := h
  unfold Tenants.requestHost
  cases hauthority : request.authority with
  | some name =>
      rw [hauthority] at hnames
      refine ⟨name, rfl, hostName_of_headerNames hhost ⟨[], [], [], ?_, .inl rfl, ?_, ?_⟩⟩
      · simpa using hnames
      · exact fun c hc => by cases hc
      · exact fun c hc => by cases hc
  | none =>
      rw [hauthority] at hnames
      obtain ⟨value, hvalue, hheader⟩ := hnames
      rw [hvalue]
      exact ⟨value, rfl, hostName_of_headerNames hhost hheader⟩

end

/-! ## Finding the binding -/

section

variable {bindings : List HostBinding} {host : List Char} {raw : String}

theorem names_iff {b : HostBinding} (hb : NormalForm b.hostname) (hraw : hostName raw = host) :
    b.names raw = true ↔ b.Is host := by
  unfold HostBinding.names eqIgnoreAsciiCase HostBinding.Is
  rw [beq_iff_eq, hraw, (normalForm_iff.mp hb).2.2, eq_comm]

theorem classify_of_is (hnormal : ∀ b ∈ bindings, NormalForm b.hostname)
    (hdistinct : (bindings.map HostBinding.hostname).Nodup) {b : HostBinding} (hb : b ∈ bindings)
    (hraw : hostName raw = host) (h : b.Is host) : classify (some raw) bindings = b.hostClass := by
  have hfind : bindings.find? (HostBinding.names raw) = some b := by
    cases hfound : bindings.find? (HostBinding.names raw) with
    | none =>
        have hmiss := List.find?_eq_none.mp hfound b hb
        exact absurd ((names_iff (hnormal b hb) hraw).mpr h) hmiss
    | some b' =>
        have hb' := List.mem_of_find?_eq_some hfound
        have h' := (names_iff (hnormal b' hb') hraw).mp (List.find?_some hfound)
        have hsame : b'.hostname = b.hostname := String.toList_inj.mp (h'.symm.trans h)
        rw [List.inj_on_of_nodup_map hdistinct hb' hb hsame]
  rw [classify, hfind]

theorem classify_of_none (hnormal : ∀ b ∈ bindings, NormalForm b.hostname)
    (hraw : hostName raw = host) (h : ∀ b ∈ bindings, ¬b.Is host) :
    classify (some raw) bindings = .main := by
  have hfind : bindings.find? (HostBinding.names raw) = none := by
    rw [List.find?_eq_none]
    intro b hb hnames
    exact h b hb ((names_iff (hnormal b hb) hraw).mp hnames)
  rw [classify, hfind]

/-- A name in normal form does not end with a dot. -/
theorem not_is_of_dotted {b b' : HostBinding} (hb' : NormalForm b'.hostname)
    (h : b.IsDotted host) : ¬b'.Is host := by
  intro h'
  apply (normalForm_iff.mp hb').2.1
  rw [← h', h]
  simp

theorem classify_of_dotted (hnormal : ∀ b ∈ bindings, NormalForm b.hostname)
    (hraw : hostName raw = host) {b : HostBinding} (h : b.IsDotted host) :
    classify (some raw) bindings = .main :=
  classify_of_none hnormal hraw fun _ hb' => not_is_of_dotted (hnormal _ hb') h

end

/-- **Hosts classify** by the binding they name, unless the request has the trailing dot
of a name that another tree than the main one serves. -/
theorem classifiesRight_iff (bindings : List HostBinding) (request : HostRequest)
    (hnormal : ∀ b ∈ bindings, NormalForm b.hostname)
    (hdistinct : (bindings.map HostBinding.hostname).Nodup) :
    ClassifiesRight bindings request ↔ ¬request.Dots bindings := by
  constructor
  · rintro hright ⟨host, hnames, b, hb, hdotted, hclass⟩
    obtain ⟨raw, hhost, hraw⟩ := hnames.requestHost
    have hmain := hright.mapped b hb host hnames (.inr hdotted)
    rw [hhost, classify_of_dotted hnormal hraw hdotted] at hmain
    exact hclass hmain.symm
  · intro hdots
    constructor
    · intro b hb host hnames his
      obtain ⟨raw, hhost, hraw⟩ := hnames.requestHost
      rw [hhost]
      rcases his with his | hdotted
      · exact classify_of_is hnormal hdistinct hb hraw his
      · rw [classify_of_dotted hnormal hraw hdotted]
        by_contra hclass
        exact hdots ⟨host, hnames, b, hb, hdotted, fun heq => hclass heq.symm⟩
    · intro host hnames hnone
      obtain ⟨raw, hhost, hraw⟩ := hnames.requestHost
      rw [hhost]
      exact classify_of_none hnormal hraw fun b hb => (hnone b hb).1
    · rintro ⟨hauthority, hlength⟩
      have hnone : requestHost request = none := by
        simp only [requestHost, hauthority]
        split
        · rename_i value hvalue
          rw [hvalue] at hlength
          exact absurd rfl hlength
        · rfl
      rw [hnone, classify]

/-! ## A dotted host -/

/-- The CMS and a tenant are mapped. -/
def twoHosts : List HostBinding :=
  [⟨"cms.example", "cms", "/srv/views"⟩, ⟨"acme.example", "acme", "/srv/sites/acme"⟩]

theorem twoHosts_normal : ∀ b ∈ twoHosts, NormalForm b.hostname := by
  have hall : ∀ b ∈ twoHosts, normalizeHostname b.hostname = b.hostname := by decide
  exact hall

theorem classifiesRight_twoHosts :
    ClassifiesRight twoHosts ⟨none, [some " ACME.example:8080"]⟩ ↔
      ¬HostRequest.Dots ⟨none, [some " ACME.example:8080"]⟩ twoHosts :=
  classifiesRight_iff twoHosts _ twoHosts_normal (by decide)

/-- The tenant's host with its dot is the main host. -/
theorem dotted_host_main :
    (∀ b ∈ twoHosts, NormalForm b.hostname) ∧
      (twoHosts.map HostBinding.hostname).Nodup ∧
      ¬ClassifiesRight twoHosts ⟨none, [some "acme.example."]⟩ := by
  refine ⟨twoHosts_normal, by decide, ?_⟩
  intro hright
  have hnames : HostRequest.Names ⟨none, [some "acme.example."]⟩ "acme.example.".toList := by
    refine ⟨⟨forall_mem_of_all (by decide), .inl (forall_mem_of_all (by decide))⟩,
      "acme.example.", rfl, [], [], [], ?_, .inl rfl, ?_, ?_⟩
    · simp
    · exact fun c hc => by cases hc
    · exact fun c hc => by cases hc
  have hclass := hright.mapped ⟨"acme.example", "acme", "/srv/sites/acme"⟩ (by simp [twoHosts])
    _ hnames (.inr (by unfold HostBinding.IsDotted; decide))
  revert hclass
  decide +kernel

end Wallermax.Tenants
