import Wallermax.Manager.Http

/-!
# Redirects stay on the host

The host a redirect is checked for and the host that is dialled are read off the authority
by two functions. Where the second one reads a host at all, it is the first one's, so
every address dialled along a chain of redirects is one of the first URL's host.
-/

namespace Wallermax.Manager.Http

open Wallermax.Base
open Wallermax.Templates (eqIgnoreAsciiCase)
open Wallermax.Manager.Metrics (splitOnce)

variable {A : Type}

def Event.isRequest : Event A → Bool
  | dialled _ _ _ => false
  | requested _ _ => true

/-- At most the first request and `MAX_REDIRECTS` more, each to an address dialled before,
and every address dialled was resolved for a host that is the original one but for case. -/
structure StaysOnHost (hops : ℕ → Hop A) (original : Text) (events : List (Event A)) : Prop where
  requests : (events.filter Event.isRequest).length ≤ MAX_REDIRECTS + 1
  dialled : ∀ host port address, .dialled host port address ∈ events →
    eqIgnoreAsciiCase host original = true ∧
      ∃ i addresses, (hops i).resolve host port = .ok addresses ∧ address ∈ addresses
  requested : ∀ address request, .requested address request ∈ events →
    ∃ host port, .dialled host port address ∈ events

/-! ## One host, read twice -/

theorem takeWhile_of_splitOnce {c : Char} {t front rest : Text}
    (h : splitOnce c t = some (front, rest)) : t.takeWhile (· != c) = front := by
  unfold splitOnce at h
  split at h
  · cases h
  · cases h
    rfl

theorem takeWhile_of_splitOnce_none {c : Char} {t : Text} (h : splitOnce c t = none) :
    t.takeWhile (· != c) = t := by
  have hdrop : t.dropWhile (· != c) = [] := by
    unfold splitOnce at h
    split at h
    · assumption
    · cases h
  have hsplit := List.takeWhile_append_dropWhile (p := (· != c)) (l := t)
  rwa [hdrop, List.append_nil] at hsplit

theorem hostOf_of_splitPort {authority host port : Text}
    (h : splitPort authority = .ok (host, port)) : host = hostOf authority := by
  unfold splitPort at h
  unfold hostOf
  split at h
  · rename_i rest
    show host = rest.takeWhile (· != ']')
    split at h
    · cases h
    · rename_i hsplit
      cases h
      exact (takeWhile_of_splitOnce hsplit).symm
    · rename_i hsplit
      cases h
      exact (takeWhile_of_splitOnce hsplit).symm
    · cases h
  · split at h
    · rename_i hcolons
      cases h
      rw [if_pos hcolons]
    · rename_i hcolons
      rw [if_neg hcolons]
      cases hsplit : splitOnce ':' authority with
      | none =>
          rw [hsplit] at h
          cases h
          exact (takeWhile_of_splitOnce_none hsplit).symm
      | some found =>
          obtain ⟨front, rest⟩ := found
          rw [hsplit] at h
          cases h
          exact (takeWhile_of_splitOnce hsplit).symm

theorem hostOf_of_hostPort {authority host : Text} {default_port port : ℕ}
    (h : hostPort authority default_port = .ok (host, port)) : host = hostOf authority := by
  unfold hostPort at h
  cases hsplit : splitPort authority with
  | error message =>
      rw [hsplit] at h
      cases h
  | ok found =>
      obtain ⟨front, text⟩ := found
      rw [hsplit] at h
      obtain rfl := hostOf_of_splitPort hsplit
      simp only [bind, Except.bind] at h
      split at h
      · cases h
        rfl
      · split at h
        · cases h
          rfl
        · cases h

/-! ## One round trip -/

theorem resolveAll_ok {hop : Hop A} {authority host : Text} {default_port port : ℕ}
    {addresses : List A} (h : resolveAll hop authority default_port = .ok (host, port, addresses)) :
    host = hostOf authority ∧ hop.resolve host port = .ok addresses := by
  unfold resolveAll at h
  cases hport : hostPort authority default_port with
  | error message =>
      rw [hport] at h
      cases h
  | ok found =>
      obtain ⟨host', port'⟩ := found
      rw [hport] at h
      obtain rfl := hostOf_of_hostPort hport
      simp only [bind, Except.bind] at h
      split at h
      · cases h
      · cases h
      · rename_i hresolve
        cases h
        exact ⟨rfl, hresolve⟩

/-- Only addresses that were resolved are tried, and the one taken is one of them. -/
theorem connectFirst_spec (hop : Hop A) (authority : Text) (last : String) (addresses : List A) :
    (∀ a ∈ (connectFirst hop authority last addresses).1, a ∈ addresses) ∧
      ∀ a, (connectFirst hop authority last addresses).2 = .ok a →
        a ∈ (connectFirst hop authority last addresses).1 := by
  induction addresses generalizing last with
  | nil =>
      rw [connectFirst]
      exact ⟨fun a ha => ha, fun a h => by cases h⟩
  | cons address addresses ih =>
      rw [connectFirst]
      cases hop.connect address with
      | ok _ =>
          refine ⟨fun a ha => ?_, fun a h => ?_⟩
          · rw [List.mem_singleton.mp ha]
            exact List.mem_cons_self
          · cases h
            exact List.mem_cons_self
      | error error =>
          obtain ⟨hmem, hok⟩ := ih error
          refine ⟨fun a ha => ?_, fun a h => ?_⟩
          · rcases List.mem_cons.mp ha with rfl | ha
            · exact List.mem_cons_self
            · exact List.mem_cons_of_mem _ (hmem a ha)
          · exact List.mem_cons_of_mem _ (hok a h)

/-- What a round trip to a target does on the network. -/
structure TripEvents (hop : Hop A) (target : Target) (events : List (Event A)) : Prop where
  requests : (events.filter Event.isRequest).length ≤ 1
  dialled : ∀ host port address, .dialled host port address ∈ events →
    host = hostOf target.authority ∧
      ∃ addresses, hop.resolve host port = .ok addresses ∧ address ∈ addresses
  requested : ∀ address request, .requested address request ∈ events →
    ∃ host port, .dialled host port address ∈ events

theorem filter_dialled (host : Text) (port : ℕ) (addresses : List A) :
    (addresses.map (Event.dialled host port)).filter Event.isRequest = [] := by
  rw [List.filter_eq_nil_iff]
  intro e he
  obtain ⟨a, -, rfl⟩ := List.mem_map.mp he
  exact Bool.false_ne_true

/-- The addresses tried, then at most one request to the one that accepts. -/
theorem tripEvents_of_dialled {hop : Hop A} {target : Target} {host : Text} {port : ℕ}
    {addresses dialled : List A} (hhost : host = hostOf target.authority)
    (hresolve : hop.resolve host port = .ok addresses) (hmem : ∀ a ∈ dialled, a ∈ addresses)
    (requests : List (Event A)) (hrequests : requests.length ≤ 1)
    (hrequested : ∀ e ∈ requests, ∃ a ∈ dialled, ∃ request, e = .requested a request) :
    TripEvents hop target (dialled.map (.dialled host port) ++ requests) := by
  constructor
  · rw [List.filter_append, filter_dialled, List.nil_append]
    exact (List.length_filter_le _ _).trans hrequests
  · intro host' port' address h
    rcases List.mem_append.mp h with h | h
    · obtain ⟨a, ha, heq⟩ := List.mem_map.mp h
      cases heq
      exact ⟨hhost, addresses, hresolve, hmem address ha⟩
    · obtain ⟨a, -, request, heq⟩ := hrequested _ h
      cases heq
  · intro address request h
    rcases List.mem_append.mp h with h | h
    · obtain ⟨a, -, heq⟩ := List.mem_map.mp h
      cases heq
    · obtain ⟨a, ha, request', heq⟩ := hrequested _ h
      cases heq
      exact ⟨host, port, List.mem_append_left _ (List.mem_map_of_mem ha)⟩

theorem tripEvents_nil (hop : Hop A) (target : Target) : TripEvents hop target [] where
  requests := Nat.zero_le 1
  dialled _ _ _ h := by cases h
  requested _ _ h := by cases h

theorem fetchOnce_events (debug : Text → String) (hop : Hop A) (target : Target) :
    TripEvents hop target (fetchOnce debug hop target).1 := by
  unfold fetchOnce
  split
  · exact tripEvents_nil hop target
  · rename_i host port addresses hresolved
    obtain ⟨hhost, hresolve⟩ := resolveAll_ok hresolved
    obtain ⟨hmem, hok⟩ := connectFirst_spec hop target.authority "" addresses
    split
    · rename_i dialled error hconnect
      rw [hconnect] at hmem
      have hevents := tripEvents_of_dialled hhost hresolve hmem [] (Nat.zero_le 1) fun e he => by cases he
      rwa [List.append_nil] at hevents
    · rename_i dialled address hconnect
      rw [hconnect] at hmem hok
      have hevents := tripEvents_of_dialled hhost hresolve hmem
        [.requested address (requestText target)] le_rfl fun e he =>
          ⟨address, hok address rfl, _, List.mem_singleton.mp he⟩
      dsimp only
      split
      · exact hevents
      · exact hevents

/-! ## Along the chain -/

/-- Round trips with so many left, from a target on. -/
structure ChainEvents (hops : ℕ → Hop A) (left : ℕ) (target : Target)
    (events : List (Event A)) : Prop where
  requests : (events.filter Event.isRequest).length ≤ left
  dialled : ∀ host port address, .dialled host port address ∈ events →
    host.map Char.toLower = (hostOf target.authority).map Char.toLower ∧
      ∃ i addresses, (hops i).resolve host port = .ok addresses ∧ address ∈ addresses
  requested : ∀ address request, .requested address request ∈ events →
    ∃ host port, .dialled host port address ∈ events

theorem TripEvents.chain {hops : ℕ → Hop A} {i : ℕ} {target : Target}
    {events : List (Event A)} (h : TripEvents (hops i) target events) (left : ℕ) :
    ChainEvents hops (left + 1) target events where
  requests := h.requests.trans (Nat.le_add_left 1 left)
  dialled host port address hmem := by
    obtain ⟨rfl, addresses, hresolve, haddress⟩ := h.dialled host port address hmem
    exact ⟨rfl, i, addresses, hresolve, haddress⟩
  requested := h.requested

/-- One more round trip in front, to a target of the same host. -/
theorem ChainEvents.prepend {hops : ℕ → Hop A} {i left : ℕ} {target next : Target}
    {events more : List (Event A)} (h : TripEvents (hops i) target events)
    (hmore : ChainEvents hops left next more) (hsame : sameHost target next = true) :
    ChainEvents hops (left + 1) target (events ++ more) := by
  have hhost : (hostOf target.authority).map Char.toLower =
      (hostOf next.authority).map Char.toLower := beq_iff_eq.mp hsame
  constructor
  · rw [List.filter_append, List.length_append]
    have hfirst := h.requests
    have hrest := hmore.requests
    omega
  · intro host port address hmem
    rcases List.mem_append.mp hmem with hmem | hmem
    · exact (h.chain left).dialled host port address hmem
    · rw [hhost]
      exact hmore.dialled host port address hmem
  · intro address request hmem
    rcases List.mem_append.mp hmem with hmem | hmem
    · obtain ⟨host, port, hdialled⟩ := h.requested address request hmem
      exact ⟨host, port, List.mem_append_left _ hdialled⟩
    · obtain ⟨host, port, hdialled⟩ := hmore.requested address request hmem
      exact ⟨host, port, List.mem_append_right _ hdialled⟩

theorem follow_events (debug : Text → String) (hops : ℕ → Hop A) (url : Text) (left i : ℕ)
    (target : Target) (trail : Text) :
    ChainEvents hops left target (follow debug hops url left i target trail).1 := by
  induction left generalizing i target trail with
  | zero =>
      rw [follow]
      constructor
      · exact le_rfl
      · intro _ _ _ h
        cases h
      · intro _ _ h
        cases h
  | succ left ih =>
      have htrip := fetchOnce_events debug (hops i) target
      rw [follow]
      split
      · rename_i hfetch
        rw [hfetch] at htrip
        exact htrip.chain _
      · rename_i hfetch
        rw [hfetch] at htrip
        exact htrip.chain _
      · rename_i hfetch
        rw [hfetch] at htrip
        exact htrip.chain _
      · rename_i hfetch
        rw [hfetch] at htrip
        split
        · exact htrip.chain _
        · split
          · rename_i next _ hsame
            exact ChainEvents.prepend htrip (ih (i + 1) next _) hsame
          · exact htrip.chain _

/-- **Redirects never leave the host.** For every URL, whatever the resolver, the servers
and their answers do, and for every authority the host that is dialled is the one that
`same_host` compares. -/
theorem redirects_stay (debug : Text → String) (hops : ℕ → Hop A) (url : Text) :
    (∀ message, parseUrl url = .error message → (httpGetText debug hops url).1 = []) ∧
      (∀ target, parseUrl url = .ok target →
        StaysOnHost hops (hostOf target.authority) (httpGetText debug hops url).1) ∧
      ∀ authority default_port host port,
        hostPort authority default_port = .ok (host, port) → host = hostOf authority := by
  refine ⟨fun message hparse => ?_, fun target hparse => ?_,
    fun _ _ _ _ hport => hostOf_of_hostPort hport⟩
  · rw [httpGetText, hparse]
  · rw [httpGetText, hparse]
    have hchain := follow_events debug hops url (MAX_REDIRECTS + 1) 0 target target.url
    refine ⟨hchain.requests, fun host port address hmem => ?_, hchain.requested⟩
    obtain ⟨hhost, hresolved⟩ := hchain.dialled host port address hmem
    exact ⟨beq_iff_eq.mpr hhost, hresolved⟩

end Wallermax.Manager.Http
