import Wallermax.Base.Cut
import Wallermax.Content.Dates
import Wallermax.Proxy.IpAddr

/-!
# Trusted networks

`parse_cidr`, and what the networks it accepts contain. An address is read bit by bit
from its most significant one: a network has no bit at or behind its prefix length, and
contains the addresses of its family that share its first bits.
-/

namespace Wallermax.Proxy

open Wallermax.Base
open Wallermax.Content

/-! ## Parsing -/

def parseU8 (raw : List Char) : Option ℕ :=
  ((signedValue false raw).filter fun n => decide (n < 0x100)).map Int.toNat

/-- The longest prefix of the address's family. -/
def IpAddr.maxPrefix : IpAddr → ℕ
  | .V4 _ => 32
  | .V6 _ => 128

/-- `network_is_normalized`. -/
def Cidr.networkIsNormalized (cidr : Cidr) : Bool := cidr.masked cidr.network == cidr.network

/-- The network as written, its host bits not yet looked at. -/
def readCidr (value : String) : Option Cidr :=
  match value.toList.span (· != '/') with
  | (address, '/' :: prefixLen) => do
      let prefixLen ← parseU8 prefixLen
      let address ← parseIpAddr (String.ofList address)
      if address.maxPrefix < prefixLen then none else some ⟨address, prefixLen⟩
  | _ => (parseIpAddr value).map fun address => ⟨address, address.maxPrefix⟩

/-- `parse_cidr`. -/
def parseCidr (value : String) : Option Cidr :=
  (readCidr value).filter Cidr.networkIsNormalized

example : parseCidr "10.0.0.0/8" = some ⟨.V4 0x0A000000, 8⟩ := by decide +kernel
example : parseCidr "10.0.0.1/8" = none := by decide +kernel

/-- `MAX << (width - prefixLen)`; nothing where the subtraction or the shift overflows. -/
def checkedMask (width prefixLen : ℕ) : Option (BitVec width) :=
  if prefixLen = 0 then some 0
  else if prefixLen ≤ width ∧ width - prefixLen < width then
    some (BitVec.allOnes width <<< (width - prefixLen))
  else none

/-! ## Addresses bit by bit -/

/-- The bit at a place, counted from the most significant one. -/
def IpAddr.bit (address : IpAddr) (i : ℕ) : Bool :=
  match address with
  | .V4 bits => bits.getMsbD i
  | .V6 bits => bits.getMsbD i

def IpAddr.SameFamily : IpAddr → IpAddr → Prop
  | .V4 _, .V4 _ => True
  | .V6 _, .V6 _ => True
  | _, _ => False

/-- The value stands for the network: a literal, or a literal and the length of a prefix
behind which it has no bits. -/
def Denotes (value : String) (cidr : Cidr) : Prop :=
  (parseIpAddr value = some cidr.network ∧ cidr.prefixLen = cidr.network.maxPrefix) ∨
    ∃ literal prefixLen : String, value = literal ++ "/" ++ prefixLen ∧
      parseIpAddr literal = some cidr.network ∧ parseU8 prefixLen.toList = some cidr.prefixLen ∧
      cidr.prefixLen ≤ cidr.network.maxPrefix ∧
      ∀ i, cidr.prefixLen ≤ i → cidr.network.bit i = false

theorem getMsbD_mask {width prefixLen : ℕ} (h : prefixLen ≤ width) (i : ℕ) :
    (mask width prefixLen).getMsbD i = decide (i < prefixLen) := by
  unfold mask
  by_cases hzero : prefixLen = 0
  · subst hzero
    simp
  · rw [if_neg hzero, BitVec.getMsbD_shiftLeft, BitVec.getMsbD_allOnes]
    exact decide_eq_decide.mpr (by omega)

/-- An address agrees with another under a mask when they share the masked bits. -/
theorem and_mask_eq_iff {width prefixLen : ℕ} (h : prefixLen ≤ width) (a b : BitVec width) :
    a &&& mask width prefixLen = b ↔
      (∀ i < prefixLen, a.getMsbD i = b.getMsbD i) ∧ ∀ i, prefixLen ≤ i → b.getMsbD i = false := by
  constructor
  · rintro rfl
    refine ⟨fun i hi => ?_, fun i hi => ?_⟩
    · rw [BitVec.getMsbD_and, getMsbD_mask h, decide_eq_true hi, Bool.and_true]
    · rw [BitVec.getMsbD_and, getMsbD_mask h, decide_eq_false (by omega), Bool.and_false]
  · rintro ⟨hsame, hnone⟩
    refine BitVec.eq_of_getMsbD_eq fun i _ => ?_
    rw [BitVec.getMsbD_and, getMsbD_mask h]
    by_cases hi : i < prefixLen
    · rw [decide_eq_true hi, Bool.and_true, hsame i hi]
    · rw [decide_eq_false hi, Bool.and_false, hnone i (by omega)]

theorem networkIsNormalized_iff {cidr : Cidr} (h : cidr.prefixLen ≤ cidr.network.maxPrefix) :
    cidr.networkIsNormalized = true ↔ ∀ i, cidr.prefixLen ≤ i → cidr.network.bit i = false := by
  obtain ⟨network, prefixLen⟩ := cidr
  unfold Cidr.networkIsNormalized
  rw [beq_iff_eq]
  cases network with
  | V4 bits =>
      have hle : prefixLen ≤ 32 := h
      show IpAddr.V4 (bits &&& mask 32 prefixLen) = .V4 bits ↔ _
      rw [IpAddr.V4.injEq, and_mask_eq_iff hle]
      exact ⟨And.right, fun hnone => ⟨fun _ _ => rfl, hnone⟩⟩
  | V6 bits =>
      have hle : prefixLen ≤ 128 := h
      show IpAddr.V6 (bits &&& mask 128 prefixLen) = .V6 bits ↔ _
      rw [IpAddr.V6.injEq, and_mask_eq_iff hle]
      exact ⟨And.right, fun hnone => ⟨fun _ _ => rfl, hnone⟩⟩

/-- **What a network contains.** -/
theorem contains_iff_bits {cidr : Cidr} (h : cidr.prefixLen ≤ cidr.network.maxPrefix)
    (hnone : ∀ i, cidr.prefixLen ≤ i → cidr.network.bit i = false) (address : IpAddr) :
    cidr.contains address = true ↔ cidr.network.SameFamily address ∧
      ∀ i < cidr.prefixLen, address.bit i = cidr.network.bit i := by
  obtain ⟨network, prefixLen⟩ := cidr
  cases network with
  | V4 bits =>
      cases address with
      | V4 other =>
          have hle : prefixLen ≤ 32 := h
          show (IpAddr.V4 (other &&& mask 32 prefixLen) == .V4 bits) = true ↔ _
          rw [beq_iff_eq, IpAddr.V4.injEq, and_mask_eq_iff hle]
          exact ⟨fun hboth => ⟨trivial, hboth.1⟩, fun hboth => ⟨hboth.2, hnone⟩⟩
      | V6 other => exact ⟨fun hfalse => Bool.noConfusion hfalse, fun hboth => hboth.1.elim⟩
  | V6 bits =>
      cases address with
      | V4 other => exact ⟨fun hfalse => Bool.noConfusion hfalse, fun hboth => hboth.1.elim⟩
      | V6 other =>
          have hle : prefixLen ≤ 128 := h
          show (IpAddr.V6 (other &&& mask 128 prefixLen) == .V6 bits) = true ↔ _
          rw [beq_iff_eq, IpAddr.V6.injEq, and_mask_eq_iff hle]
          exact ⟨fun hboth => ⟨trivial, hboth.1⟩, fun hboth => ⟨hboth.2, hnone⟩⟩

/-! ## A literal has no slash -/

/-- A reader took the text up to the rest, and no slash. -/
def Reads (text rest : List Char) : Prop := ∃ used, text = used ++ rest ∧ '/' ∉ used

theorem Reads.refl (text : List Char) : Reads text text := ⟨[], rfl, by simp⟩

theorem Reads.trans {a b c : List Char} (hab : Reads a b) (hbc : Reads b c) : Reads a c := by
  obtain ⟨used, rfl, hused⟩ := hab
  obtain ⟨used', rfl, hused'⟩ := hbc
  exact ⟨used ++ used', (List.append_assoc _ _ _).symm, by simp [hused, hused']⟩

theorem Reads.cons {c : Char} (hc : c ≠ '/') {text rest : List Char} (h : Reads text rest) :
    Reads (c :: text) rest := by
  obtain ⟨used, rfl, hused⟩ := h
  refine ⟨c :: used, rfl, ?_⟩
  rw [List.mem_cons, not_or]
  exact ⟨hc.symm, hused⟩

theorem Reads.not_mem {text : List Char} (h : Reads text []) : '/' ∉ text := by
  obtain ⟨used, rfl, hused⟩ := h
  rwa [List.append_nil]

theorem toDigit_slash (radix : ℕ) : toDigit radix '/' = none := by
  unfold toDigit
  exact if_neg (Nat.lt_irrefl radix)

theorem reads_readDigits (radix : ℕ) (text : List Char) : Reads text (readDigits radix text).2 := by
  induction text with
  | nil => exact Reads.refl []
  | cons c rest ih =>
      unfold readDigits
      split
      · exact Reads.refl _
      · rename_i d hd
        have hc : c ≠ '/' := by
          rintro rfl
          rw [toDigit_slash] at hd
          cases hd
        exact ih.cons hc

theorem reads_readNumber {radix max_digits : ℕ} {allowZeroPrefix : Bool} {limit n : ℕ}
    {text rest : List Char}
    (h : readNumber radix max_digits allowZeroPrefix limit text = some (n, rest)) :
    Reads text rest := by
  have hdigits := reads_readDigits radix text
  unfold readNumber at h
  dsimp only at h
  split_ifs at h
  cases h
  exact hdigits

theorem reads_readSeparator {α : Type} {separator : Char} (hseparator : separator ≠ '/') {index : ℕ}
    {inner : List Char → Option (α × List Char)}
    (hinner : ∀ text value rest, inner text = some (value, rest) → Reads text rest)
    {text : List Char} {value : α} {rest : List Char}
    (h : readSeparator separator index inner text = some (value, rest)) : Reads text rest := by
  unfold readSeparator at h
  split at h
  · exact hinner _ _ _ h
  · split at h
    · split at h
      · rename_i c tail hc
        rw [hc]
        exact (hinner _ _ _ h).cons hseparator
      · cases h
    · cases h

theorem reads_readIpv4Addr {text : List Char} {octets : ℕ × ℕ × ℕ × ℕ} {rest : List Char}
    (h : readIpv4Addr text = some (octets, rest)) : Reads text rest := by
  have hoctet : ∀ {index : ℕ} {text : List Char} {n : ℕ} {rest : List Char},
      readSeparator '.' index (readNumber 10 3 false 256) text = some (n, rest) →
        Reads text rest :=
    fun h => reads_readSeparator (by decide) (fun _ _ _ hn => reads_readNumber hn) h
  unfold readIpv4Addr at h
  simp only [Option.bind_eq_bind, Option.bind_eq_some_iff] at h
  obtain ⟨⟨a, ta⟩, ha, ⟨b, tb⟩, hb, ⟨c, tc⟩, hc, ⟨d, td⟩, hd, hout⟩ := h
  cases hout
  exact (hoctet ha).trans ((hoctet hb).trans ((hoctet hc).trans (hoctet hd)))

theorem reads_readGroups (left : ℕ) (groups : List ℕ) (text : List Char) :
    Reads text (readGroups left groups text).2.2 := by
  induction left generalizing groups text with
  | zero => exact Reads.refl text
  | succ left ih =>
      unfold readGroups
      dsimp only
      split
      · rename_i hipv4
        split at hipv4
        · cases hipv4
        · exact reads_readSeparator (by decide) (fun _ _ _ h => reads_readIpv4Addr h) hipv4
      · split
        · rename_i group rest hgroup
          exact (reads_readSeparator (by decide) (fun _ _ _ h => reads_readNumber h) hgroup).trans
            (ih _ _)
        · exact Reads.refl text

theorem reads_readIpv6Addr {text : List Char} {groups : List ℕ} {rest : List Char}
    (h : readIpv6Addr text = some (groups, rest)) : Reads text rest := by
  have hhead := reads_readGroups 8 [] text
  unfold readIpv6Addr at h
  dsimp only at h
  split at h
  · cases h
    exact hhead
  · split at h
    · cases h
    · split at h
      · rename_i text' htail
        rw [htail] at hhead
        cases h
        exact hhead.trans (((reads_readGroups _ [] text').cons (by decide)).cons (by decide))
      · cases h

theorem slash_not_mem_of_parseIpAddr {text : String} {address : IpAddr}
    (h : parseIpAddr text = some address) : '/' ∉ text.toList := by
  unfold parseIpAddr at h
  split at h
  · rename_i hread
    split at h
    · rename_i hrest
      rw [hrest] at hread
      exact (reads_readIpv4Addr hread).not_mem
    · cases h
  · split at h
    · rename_i hread
      split at h
      · rename_i hrest
        rw [hrest] at hread
        exact (reads_readIpv6Addr hread).not_mem
      · cases h
    · cases h

/-! ## The accepted values -/

/-- The network that was read, by the form of the value. -/
theorem readCidr_eq_some_iff (value : String) (cidr : Cidr) :
    readCidr value = some cidr ↔
      (parseIpAddr value = some cidr.network ∧ cidr.prefixLen = cidr.network.maxPrefix) ∨
        ∃ literal prefixLen : String, value = literal ++ "/" ++ prefixLen ∧
          parseIpAddr literal = some cidr.network ∧
          parseU8 prefixLen.toList = some cidr.prefixLen ∧
          cidr.prefixLen ≤ cidr.network.maxPrefix := by
  obtain ⟨network, length⟩ := cidr
  constructor
  · intro h
    unfold readCidr at h
    split at h
    · rename_i address prefixLen hspan
      simp only [Option.bind_eq_bind, Option.bind_eq_some_iff] at h
      obtain ⟨n, hn, a, ha, hout⟩ := h
      split at hout
      · cases hout
      · rename_i hle
        cases hout
        refine Or.inr ⟨String.ofList address, String.ofList prefixLen, ?_, ha, ?_, Nat.not_lt.mp hle⟩
        · apply String.toList_inj.mp
          simp [eq_append_of_span hspan]
        · rwa [String.toList_ofList]
    · obtain ⟨a, ha, hout⟩ := Option.map_eq_some_iff.mp h
      cases hout
      exact Or.inl ⟨ha, rfl⟩
  · rintro (⟨ha, hlength⟩ | ⟨literal, prefixLen, rfl, ha, hn, hle⟩)
    · unfold readCidr
      rw [span_of_not_mem (slash_not_mem_of_parseIpAddr ha)]
      dsimp only at ha hlength ⊢
      rw [ha, hlength]
      rfl
    · have htext : (literal ++ "/" ++ prefixLen).toList = literal.toList ++ '/' :: prefixLen.toList := by
        simp
      dsimp only at ha hn hle
      unfold readCidr
      rw [htext, span_append_cons (slash_not_mem_of_parseIpAddr ha)]
      simp only [hn, String.ofList_toList, ha, Option.bind_eq_bind, Option.bind_some]
      rw [if_neg (Nat.not_lt.mpr hle)]

theorem prefixLen_le_of_readCidr {value : String} {cidr : Cidr} (h : readCidr value = some cidr) :
    cidr.prefixLen ≤ cidr.network.maxPrefix := by
  obtain ⟨-, hlength⟩ | ⟨-, -, -, -, -, hle⟩ := (readCidr_eq_some_iff value cidr).mp h
  · exact Nat.le_of_eq hlength
  · exact hle

/-- A literal alone has no bit behind its prefix. -/
theorem bit_of_maxPrefix_le (address : IpAddr) {i : ℕ} (h : address.maxPrefix ≤ i) :
    address.bit i = false := by
  cases address with
  | V4 bits => exact BitVec.getMsbD_of_ge bits i h
  | V6 bits => exact BitVec.getMsbD_of_ge bits i h

theorem parseCidr_eq_some_iff (value : String) (cidr : Cidr) :
    parseCidr value = some cidr ↔
      readCidr value = some cidr ∧ ∀ i, cidr.prefixLen ≤ i → cidr.network.bit i = false := by
  unfold parseCidr
  rw [Option.filter_eq_some_iff]
  exact and_congr_right fun hread => networkIsNormalized_iff (prefixLen_le_of_readCidr hread)

theorem parseCidr_iff_denotes (value : String) (cidr : Cidr) :
    parseCidr value = some cidr ↔ Denotes value cidr := by
  rw [parseCidr_eq_some_iff, readCidr_eq_some_iff]
  constructor
  · rintro ⟨hliteral | ⟨literal, prefixLen, hvalue, ha, hn, hle⟩, hnone⟩
    · exact Or.inl hliteral
    · exact Or.inr ⟨literal, prefixLen, hvalue, ha, hn, hle, hnone⟩
  · rintro (⟨ha, hlength⟩ | ⟨literal, prefixLen, hvalue, ha, hn, hle, hnone⟩)
    · refine ⟨Or.inl ⟨ha, hlength⟩, fun i hi => bit_of_maxPrefix_le cidr.network ?_⟩
      rwa [← hlength]
    · exact ⟨Or.inr ⟨literal, prefixLen, hvalue, ha, hn, hle⟩, hnone⟩

theorem checkedMask_eq {width prefixLen : ℕ} (h : prefixLen ≤ width) :
    checkedMask width prefixLen = some (mask width prefixLen) := by
  unfold checkedMask mask
  by_cases hzero : prefixLen = 0
  · rw [if_pos hzero, if_pos hzero]
  · rw [if_neg hzero, if_neg hzero, if_pos ⟨h, by omega⟩]

/-- **The trusted networks**: `parse_cidr` accepts the literals and the normalized blocks; a
network contains the addresses of its family with its first bits; and no shift overflows, on
an accepted value or on one that is turned down for its host bits. -/
theorem parseCidr_spec :
    (∀ value cidr, parseCidr value = some cidr ↔ Denotes value cidr) ∧
      (∀ value cidr, parseCidr value = some cidr → ∀ address,
        cidr.contains address = true ↔ cidr.network.SameFamily address ∧
          ∀ i < cidr.prefixLen, address.bit i = cidr.network.bit i) ∧
      ∀ value cidr, readCidr value = some cidr →
        checkedMask cidr.network.maxPrefix cidr.prefixLen =
          some (mask cidr.network.maxPrefix cidr.prefixLen) := by
  refine ⟨parseCidr_iff_denotes, ?_, ?_⟩
  · intro value cidr h address
    obtain ⟨hread, hnone⟩ := (parseCidr_eq_some_iff value cidr).mp h
    exact contains_iff_bits (prefixLen_le_of_readCidr hread) hnone address
  · intro value cidr hread
    exact checkedMask_eq (prefixLen_le_of_readCidr hread)

/-- The network of all IPv4 addresses, at prefix 0. -/
theorem parseCidr_spec_everything :
    (⟨.V4 0, 0⟩ : Cidr).contains (.V4 0xC6336407) = true ∧
      checkedMask 32 0 = some (mask 32 0) :=
  ⟨(parseCidr_spec.2.1 "0.0.0.0/0" ⟨.V4 0, 0⟩ (by decide +kernel) (.V4 0xC6336407)).mpr
      ⟨trivial, by simp⟩,
    parseCidr_spec.2.2 "0.0.0.0/0" ⟨.V4 0, 0⟩ (by decide +kernel)⟩

end Wallermax.Proxy
