import Mathlib.Data.Nat.Digits.Defs
import Wallermax.Base.Ascii
import Wallermax.Base.Uri

/-!
# The host and the port of an authority

RFC 3986 without user information: a registered name, which an IPv4 address is one of, or
an IPv6 address between brackets, and a port of digits. A colon outside the brackets begins
the port, so an IPv6 address cannot stand without them.
-/

namespace Wallermax.Base

inductive UrlHost : Type where
  | name (text : Text)
  | literal (text : Text)
deriving DecidableEq

structure HostPort : Type where
  host : UrlHost
  port : Option ℕ
deriving DecidableEq

namespace UrlHost

/-- The characters of names: unreserved, sub-delimiters and the sign of an escape. -/
def isNameChar (c : Char) : Bool := c.isAlphanum || "-._~!$&'()*+,;=%".toList.contains c

/-- The characters of IPv6 addresses. -/
def isLiteralChar (c : Char) : Bool :=
  c.isDigit || "abcdefABCDEF:.".toList.contains c

def isName (t : Text) : Bool := !t.isEmpty && t.all isNameChar

def isLiteral (t : Text) : Bool := t.contains ':' && t.all isLiteralChar

def isValid : UrlHost → Bool
  | name t => isName t
  | literal t => isLiteral t

def text : UrlHost → Text
  | name t => t
  | literal t => '[' :: (t ++ [']'])

def isBracketed : UrlHost → Bool
  | name _ => false
  | literal _ => true

end UrlHost

/-! ## Reading -/

/-- A port without digits is none. -/
def portValue (port : Option Text) : Option ℕ :=
  port.bind fun digits => if digits = [] then none else some (Nat.ofDigitChars 10 digits 0)

/-- The port behind a host. -/
def readPort : Text → Option (Option ℕ)
  | [] => some none
  | ':' :: digits =>
    if digits.all Char.isDigit then some (portValue (some digits)) else none
  | _ => none

def readHostPort : Text → Option HostPort
  | '[' :: t =>
    match t.dropWhile (· != ']') with
    | ']' :: port =>
      if UrlHost.isLiteral (t.takeWhile (· != ']')) then
        (readPort port).map fun port => ⟨.literal (t.takeWhile (· != ']')), port⟩
      else none
    | _ => none
  | t =>
    if UrlHost.isName (t.takeWhile (· != ':')) then
      (readPort (t.dropWhile (· != ':'))).map fun port => ⟨.name (t.takeWhile (· != ':')), port⟩
    else none

/-- A port as it is written. -/
def portText (port : Option Text) : Text := port.elim [] fun digits => ':' :: digits

/-! ## Characters -/

section

variable {c : Char} {t : Text}

theorem UrlHost.isNameChar_cases (h : isNameChar c = true) :
    c ≠ '[' ∧ c ≠ ']' ∧ c ≠ ':' ∧ Uri.isAuthorityChar c = true := by
  refine ⟨?_, ?_, ?_, ?_⟩
  · rintro rfl
    revert h
    decide
  · rintro rfl
    revert h
    decide
  · rintro rfl
    revert h
    decide
  · simp only [Uri.isAuthorityChar, Bool.and_eq_true, bne_iff_ne]
    refine ⟨⟨?_, ?_⟩, ?_⟩ <;>
    · rintro rfl
      revert h
      decide

theorem UrlHost.isLiteralChar_cases (h : isLiteralChar c = true) :
    c ≠ '[' ∧ c ≠ ']' ∧ Uri.isAuthorityChar c = true := by
  refine ⟨?_, ?_, ?_⟩
  · rintro rfl
    revert h
    decide
  · rintro rfl
    revert h
    decide
  · simp only [Uri.isAuthorityChar, Bool.and_eq_true, bne_iff_ne]
    refine ⟨⟨?_, ?_⟩, ?_⟩ <;>
    · rintro rfl
      revert h
      decide

theorem UrlHost.isName_iff : isName t = true ↔ t ≠ [] ∧ ∀ c ∈ t, isNameChar c = true := by
  rw [isName, Bool.and_eq_true, Bool.not_eq_true', List.isEmpty_eq_false_iff, List.all_eq_true]

theorem UrlHost.isLiteral_iff :
    isLiteral t = true ↔ ':' ∈ t ∧ ∀ c ∈ t, isLiteralChar c = true := by
  rw [isLiteral, Bool.and_eq_true, List.contains_iff_mem, List.all_eq_true]

end

/-! ## Reading what was written -/

theorem readPort_portText {port : Option Text}
    (h : ∀ digits ∈ port, digits.all Char.isDigit = true) :
    readPort (portText port) = some (portValue port) := by
  cases port with
  | none => rfl
  | some digits => exact if_pos (h digits rfl)

theorem stops_portText (port : Option Text) : Uri.Stops (· != ':') (portText port) := by
  cases port with
  | none => exact Uri.stops_nil _
  | some digits => exact Uri.stops_cons rfl digits

/-- **A host and a port are read back.** -/
theorem readHostPort_append {host : UrlHost} (hhost : host.isValid = true) {port : Option Text}
    (hport : ∀ digits ∈ port, digits.all Char.isDigit = true) :
    readHostPort (host.text ++ portText port) = some ⟨host, portValue port⟩ := by
  cases host with
  | name t =>
      obtain ⟨hne, hchars⟩ := UrlHost.isName_iff.mp hhost
      have hcolon : ∀ c ∈ t, (c != ':') = true := fun c hc =>
        bne_iff_ne.mpr (UrlHost.isNameChar_cases (hchars c hc)).2.2.1
      have hcut := Uri.cut_append hcolon (stops_portText port)
      have hbracket : ∀ rest, t ++ portText port ≠ '[' :: rest := by
        intro rest heq
        obtain ⟨c, t', rfl⟩ := List.exists_cons_of_ne_nil hne
        rw [List.cons_append, List.cons.injEq] at heq
        exact (UrlHost.isNameChar_cases (hchars c List.mem_cons_self)).1 heq.1
      show readHostPort (t ++ portText port) = _
      unfold readHostPort
      split
      · rename_i rest heq
        exact absurd heq (hbracket rest)
      · have hname : UrlHost.isName t = true := hhost
        rw [hcut.1, hcut.2, if_pos hname, readPort_portText hport]
        rfl
  | literal t =>
      obtain ⟨-, hchars⟩ := UrlHost.isLiteral_iff.mp hhost
      have hclose : ∀ c ∈ t, (c != ']') = true := fun c hc =>
        bne_iff_ne.mpr (UrlHost.isLiteralChar_cases (hchars c hc)).2.1
      have hstops : Uri.Stops (· != ']') (']' :: portText port) := Uri.stops_cons rfl _
      have hcut := Uri.cut_append hclose hstops
      have htext : (UrlHost.literal t).text ++ portText port =
          '[' :: (t ++ ']' :: portText port) := by
        rw [UrlHost.text, List.cons_append, List.append_assoc]
        rfl
      have hliteral : UrlHost.isLiteral t = true := hhost
      rw [htext]
      simp only [readHostPort, hcut.1, hcut.2, if_pos hliteral, readPort_portText hport,
        Option.map_some]

theorem readPort_some {t : Text} {port : Option ℕ} (h : readPort t = some port) :
    ∃ written, t = portText written ∧ (∀ digits ∈ written, digits.all Char.isDigit = true) ∧
      port = portValue written := by
  unfold readPort at h
  split at h
  · cases h
    exact ⟨none, rfl, nofun, rfl⟩
  · rename_i digits
    rw [Option.ite_none_right_eq_some, Option.some_inj] at h
    refine ⟨some digits, rfl, ?_, h.2.symm⟩
    intro d hd
    cases hd
    exact h.1
  · cases h

/-- **What is read was written.** -/
theorem readHostPort_some {t : Text} {read : HostPort} (h : readHostPort t = some read) :
    ∃ written, t = read.host.text ++ portText written ∧
      (∀ digits ∈ written, digits.all Char.isDigit = true) ∧ read.port = portValue written := by
  unfold readHostPort at h
  split at h
  · rename_i t
    split at h
    · rename_i port hdrop
      rw [Option.ite_none_right_eq_some] at h
      obtain ⟨value, hport, rfl⟩ := Option.map_eq_some_iff.mp h.2
      obtain ⟨written, hwritten, hdigits, hvalue⟩ := readPort_some hport
      refine ⟨written, ?_, hdigits, hvalue⟩
      have hsplit := List.takeWhile_append_dropWhile (p := (· != ']')) (l := t)
      rw [hdrop, hwritten] at hsplit
      rw [UrlHost.text, List.cons_append, List.append_assoc]
      exact congrArg ('[' :: ·) hsplit.symm
    · cases h
  · rw [Option.ite_none_right_eq_some] at h
    obtain ⟨value, hport, rfl⟩ := Option.map_eq_some_iff.mp h.2
    obtain ⟨written, hwritten, hdigits, hvalue⟩ := readPort_some hport
    refine ⟨written, ?_, hdigits, hvalue⟩
    rw [← hwritten]
    exact List.takeWhile_append_dropWhile.symm

end Wallermax.Base
