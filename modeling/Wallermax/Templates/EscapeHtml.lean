import Wallermax.Base.Escaping
import Wallermax.Server.HtmlErrorPage

/-!
# HTML escaping

The escaper of the server's own pages and the one the sandbox gives to templates, which
works on the UTF-16 code units of a JavaScript string. Both replace seven characters in
turn, the ampersand first, and both come to replacing them at once.
-/

namespace Wallermax.Templates

open Wallermax.Base
open Wallermax.Server

/-! ## JavaScript strings -/

abbrev JsString : Type := List UInt16

/-- The code units of a character: one, or a surrogate pair. -/
def utf16 (c : Char) : List UInt16 :=
  if c.toNat < 0x10000 then [UInt16.ofNat c.toNat]
  else
    [UInt16.ofNat (0xD800 + (c.toNat - 0x10000) / 0x400),
      UInt16.ofNat (0xDC00 + (c.toNat - 0x10000) % 0x400)]

def jsString (text : Text) : JsString := text.flatMap utf16

inductive JsValue (Other : Type) : Type where
  | null
  | undefined
  | string (s : JsString)
  | other (value : Other)

section

variable {Other : Type} (text_of : Other → JsString)

/-- `String(unsafe)`. -/
def JsValue.toJsString : JsValue Other → JsString
  | .null => jsString "null".toList
  | .undefined => jsString "undefined".toList
  | .string s => s
  | .other value => text_of value

/-- `replace` with a global expression that matches one character; the replacement has no
dollar sign, so it is taken as it is. -/
def jsReplace (c : Char) (replacement : Text) (s : JsString) : JsString :=
  s.flatMap fun unit =>
    if unit = UInt16.ofNat c.toNat then jsString replacement else [unit]

/-- `escapeHtml`. -/
def escapeHtml (unsafe_value : JsValue Other) : JsString :=
  match unsafe_value with
  | .null | .undefined => []
  | unsafe_value =>
    let s := unsafe_value.toJsString text_of
    let s := jsReplace '&' "&amp;".toList s
    let s := jsReplace '<' "&lt;".toList s
    let s := jsReplace '>' "&gt;".toList s
    let s := jsReplace '"' "&quot;".toList s
    let s := jsReplace '\'' "&#039;".toList s
    let s := jsReplace '/' "&#x2F;".toList s
    jsReplace '`' "&#96;".toList s

end

/-! ## The entities -/

/-- The seven characters, each with what follows the ampersand of its entity. -/
def entityBodies : List (Char × Text) :=
  [('&', "amp;".toList), ('<', "lt;".toList), ('>', "gt;".toList), ('"', "quot;".toList),
    ('\'', "#039;".toList), ('/', "#x2F;".toList), ('`', "#96;".toList)]

def entities : EscapeTable Char where
  marker := '&'
  bodies := entityBodies
  marker_first := rfl
  symbols_nodup := by decide
  free := EscapeTable.free_of_all (by decide +kernel)
  no_prefix := by decide +kernel

/-- The same entities in code units. -/
def unitEntities : EscapeTable UInt16 where
  marker := UInt16.ofNat '&'.toNat
  bodies := entityBodies.map fun entry => (UInt16.ofNat entry.1.toNat, jsString entry.2)
  marker_first := rfl
  symbols_nodup := by decide +kernel
  free := EscapeTable.free_of_all (by decide +kernel)
  no_prefix := by decide +kernel

/-- Every entity is an ampersand and its body. -/
theorem entity_texts :
    "&amp;".toList = '&' :: "amp;".toList ∧ "&lt;".toList = '&' :: "lt;".toList ∧
      "&gt;".toList = '&' :: "gt;".toList ∧ "&quot;".toList = '&' :: "quot;".toList ∧
      "&#039;".toList = '&' :: "#039;".toList ∧ "&#x2F;".toList = '&' :: "#x2F;".toList ∧
      "&#96;".toList = '&' :: "#96;".toList := by
  decide +kernel

theorem escapeHtmlText_eq (text : Text) :
    escapeHtmlText text = replaceInTurn entities.entities text := by
  obtain ⟨hamp, hlt, hgt, hquot, hapos, hslash, hgrave⟩ := entity_texts
  unfold escapeHtmlText
  rw [hamp, hlt, hgt, hquot, hapos, hslash, hgrave]
  simp only [replaceInTurn, EscapeTable.entities, entities, entityBodies, List.map_cons,
    List.map_nil, List.foldl_cons, List.foldl_nil]
  rfl

theorem jsString_marker (body : Text) :
    jsString ('&' :: body) = UInt16.ofNat '&'.toNat :: jsString body := rfl

theorem jsReplace_entity (c : Char) (body : Text) (s : JsString) :
    jsReplace c ('&' :: body) s =
      replaceSymbol (UInt16.ofNat c.toNat) (UInt16.ofNat '&'.toNat :: jsString body) s := by
  rw [← jsString_marker]
  rfl

theorem replaceInTurn_unitEntities (s : JsString) :
    replaceInTurn unitEntities.entities s =
      entityBodies.foldl (fun s entry => jsReplace entry.1 ('&' :: entry.2) s) s := by
  have hbodies : unitEntities.bodies = entityBodies.map fun entry =>
      (UInt16.ofNat entry.1.toNat, jsString entry.2) := rfl
  rw [replaceInTurn, EscapeTable.entities, List.foldl_map, hbodies, List.foldl_map]
  simp only [jsReplace_entity]
  rfl

theorem escapeHtml_eq {Other : Type} (text_of : Other → JsString) (s : JsString) :
    escapeHtml text_of (.string s) = replaceInTurn unitEntities.entities s := by
  obtain ⟨hamp, hlt, hgt, hquot, hapos, hslash, hgrave⟩ := entity_texts
  rw [replaceInTurn_unitEntities]
  unfold escapeHtml
  rw [hamp, hlt, hgt, hquot, hapos, hslash, hgrave]
  simp only [entityBodies, List.foldl_cons, List.foldl_nil]
  rfl

/-! ## Characters and code units -/

theorem toNat_of_mem_entityBodies :
    ∀ entry ∈ entityBodies, entry.1.toNat < 0x80 ∧
      (utf16 entry.1).flatMap (substitute unitEntities.entities) = jsString ('&' :: entry.2) := by
  decide +kernel

/-- A code unit in the ASCII range is a character. -/
theorem toNat_of_mem_utf16 {c : Char} {unit : UInt16} (h : unit ∈ utf16 c)
    (hascii : unit.toNat < 0x80) : unit.toNat = c.toNat := by
  have hbound : c.toNat < 0x110000 := by
    rcases c.valid with hlow | hhigh
    · exact Nat.lt_of_lt_of_le hlow (by decide)
    · exact hhigh.2
  unfold utf16 at h
  split at h
  · obtain rfl := List.mem_singleton.mp h
    rw [UInt16.toNat_ofNat'] at hascii ⊢
    omega
  · simp only [List.mem_cons, List.not_mem_nil, or_false] at h
    rcases h with rfl | rfl
    · rw [UInt16.toNat_ofNat'] at hascii
      omega
    · rw [UInt16.toNat_ofNat'] at hascii
      omega

/-- A character that is no ASCII symbol of the table has no such code unit either. -/
theorem utf16_free {c : Char} (hc : c ∉ entities.symbols) :
    ∀ unit ∈ utf16 c, unit ∉ unitEntities.entities.map Prod.fst := by
  intro unit hunit hmem
  rw [EscapeTable.map_fst_entities] at hmem
  obtain ⟨pair, hpair, rfl⟩ := List.mem_map.mp hmem
  obtain ⟨entry, hentry, rfl⟩ := List.mem_map.mp hpair
  have hascii := (toNat_of_mem_entityBodies entry hentry).1
  have hvalue : (UInt16.ofNat entry.1.toNat).toNat = entry.1.toNat := by
    rw [UInt16.toNat_ofNat']
    omega
  have hlow : (UInt16.ofNat entry.1.toNat).toNat < 0x80 := by
    rw [hvalue]
    exact hascii
  have heq := toNat_of_mem_utf16 hunit hlow
  dsimp only at heq
  rw [hvalue] at heq
  obtain rfl := Char.toNat_inj.mp heq
  exact hc (List.mem_map_of_mem hentry)

/-- **The two escapers agree** on a character. -/
theorem flatMap_substitute_utf16 (c : Char) :
    (utf16 c).flatMap (substitute unitEntities.entities) =
      jsString (substitute entities.entities c) := by
  rcases entities.substitute_cases c with ⟨body, hbody, heq⟩ | ⟨hfree, heq⟩
  · rw [heq]
    exact (toNat_of_mem_entityBodies _ hbody).2
  · rw [heq, flatMap_substitute_of_free (utf16_free hfree), jsString, List.flatMap_singleton]

/-- **Escaping replaces each character by its entity, on its own**: what it writes has none of
the characters but the ampersand, an ampersand only where an entity starts, and is read back.
The sandbox does the same to every string, and to the server's texts what the server does. -/
theorem escaping_at_once {Other : Type} (text_of : Other → JsString) :
    entities.Escapes escapeHtmlText ∧
      unitEntities.Escapes (fun s => escapeHtml text_of (.string s)) ∧
      ∀ text, escapeHtml text_of (.string (jsString text)) = jsString (escapeHtmlText text) := by
  have hpages := entities.escapes_replaceInTurn
  have hsandbox := unitEntities.escapes_replaceInTurn
  rw [← funext escapeHtmlText_eq] at hpages
  rw [← funext (escapeHtml_eq text_of)] at hsandbox
  refine ⟨hpages, hsandbox, fun text => ?_⟩
  rw [hsandbox.at_once, hpages.at_once, jsString, jsString, List.flatMap_assoc,
    List.flatMap_assoc]
  exact List.flatMap_congr fun c _ => flatMap_substitute_utf16 c

end Wallermax.Templates
