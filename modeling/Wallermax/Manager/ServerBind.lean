import Wallermax.Manager.Http
import Wallermax.Manager.SettingsForm
import Wallermax.Proxy.IpAddr

/-!
# The address the server will bind

`server_bind` derives the address of the configured server from the variables and the two
layers, each setting the text of the first that has it, and reads the texts. The server
merges the layers' tables and reads typed values. A table is a table to the server however
it is written; the manager finds a setting only under a header or a dotted key, and reads a
number only in the decimal spelling without a comment behind it.
-/

namespace Wallermax.Manager

open Wallermax.Base Wallermax.Base.Toml
open Wallermax.Manager.Http (parseU16)
open Wallermax.Proxy (IpAddr parseIpAddr)
open Wallermax.Tenants (isWhitespace)

/-! ## The manager's derivation -/

/-- `WALLERMAX_SERVER__HOST` and `WALLERMAX_SERVER__PORT`. -/
structure BindEnv : Type where
  host : Option Text
  port : Option Text

/-- A field of the server's section, under its key, with its default as a text and as a
value. -/
structure ServerField : Type where
  key : Text
  leaf : Text
  split : splitDotted key = some (["server".toList], leaf)
  defaultText : Text
  default : Content

def hostField : ServerField where
  key := "server.host".toList
  leaf := "host".toList
  split := by rfl
  defaultText := "127.0.0.1".toList
  default := .string "127.0.0.1".toList

def portField : ServerField where
  key := "server.port".toList
  leaf := "port".toList
  split := by rfl
  defaultText := "8080".toList
  default := .scalar (.integer 8080)

def ServerField.path (field : ServerField) : List Text := ["server".toList, field.leaf]

section

variable (toml : TomlEditor)

/-- The chain of `or_else` for a field. -/
def fieldText (field : ServerField) (var : Option Text) (localLayer base : Text) : Text :=
  ((var.or (getValue toml localLayer field.key)).or
    (getValue toml base field.key)).getD field.defaultText

/-- `server_bind`. -/
def serverBind (env : BindEnv) (localLayer base : Text) : Option (IpAddr × ℕ) := do
  let host := fieldText toml hostField env.host localLayer base
  let port ← parseU16 (trimBy isWhitespace (fieldText toml portField env.port localLayer base))
  if port = 0 then none
  else
    let host ← parseIpAddr (String.ofList (trimBy isWhitespace host))
    some (host, port)

/-! ## The server's configuration -/

/-- A setting as it reaches the typed configuration. -/
inductive Setting : Type where
  | text (var : Text)
  | value (content : Content)

/-- The typed reading of the layered configuration: the two fields, and whether all the
rest loads and validates. -/
structure ServerReading : Type where
  host : Setting → Option IpAddr
  port : Setting → Option ℕ
  accepts : BindEnv → Text → Text → Bool

/-- A field of the merged configuration: later layers win, the environment last. -/
def layered (field : ServerField) (var : Option Text) (localLayer base : Text) : Setting :=
  match var with
  | some text => .text text
  | none => .value (((settingAt toml localLayer field.path).or
      (settingAt toml base field.path)).getD field.default)

/-- The address the server binds, where it accepts the configuration. -/
def ServerReading.address (server : ServerReading) (env : BindEnv)
    (localLayer base : Text) : Option (IpAddr × ℕ) := do
  guard (server.accepts env localLayer base)
  let host ← server.host (layered toml hostField env.host localLayer base)
  let port ← server.port (layered toml portField env.port localLayer base)
  some (host, port)

/-! ## When the two agree -/

/-- The manager's idea of the address is the server's; on port 0 there is nothing to probe. -/
def BindsAlike (server : ServerReading) (env : BindEnv) (localLayer base : Text) :
    Prop :=
  ∀ host port, server.address toml env localLayer base = some (host, port) →
    serverBind toml env localLayer base = if port = 0 then none else some (host, port)

/-- The item that stands at the field in a layer, under a header or a dotted key. -/
def HeldAt (layer : Text) (field : ServerField) (item : Item) : Prop :=
  ∃ document, toml.parse layer = .ok document ∧
    itemAt document.entries ["server".toList] field.leaf = some item

/-- How the field is spelled: in its variable, or in the highest layer that has it outside
an inline table, or as its default. -/
inductive Spelled (field : ServerField) (var : Option Text) (localLayer base : Text) :
    Text → Prop where
  | env {text : Text} (h : var = some text) : Spelled field var localLayer base text
  | localLayer {item : Item} (hvar : var = none) (h : HeldAt toml localLayer field item) :
      Spelled field var localLayer base (displayText toml item)
  | base {item : Item} (hvar : var = none)
      (hlocal : ∀ other, ¬HeldAt toml localLayer field other) (h : HeldAt toml base field item) :
      Spelled field var localLayer base (displayText toml item)
  | default (hvar : var = none) (hlocal : ∀ other, ¬HeldAt toml localLayer field other)
      (hbase : ∀ other, ¬HeldAt toml base field other) :
      Spelled field var localLayer base field.defaultText

/-- The spelling is the address, as texts: the port in decimal, the host an IP address. -/
structure SpelledAs (env : BindEnv) (localLayer base : Text) (host : IpAddr)
    (port : ℕ) : Prop where
  host : ∀ text, Spelled toml hostField env.host localLayer base text →
    parseIpAddr (String.ofList (trimBy isWhitespace text)) = some host
  port : ∀ text, Spelled toml portField env.port localLayer base text →
    parseU16 (trimBy isWhitespace text) = some port

/-- The spelling is no address with a port: the port reads as 0 or not at all, or the host
does not read. -/
def SpelledAsNone (env : BindEnv) (localLayer base : Text) : Prop :=
  (∀ text, Spelled toml portField env.port localLayer base text →
    ∀ port, parseU16 (trimBy isWhitespace text) = some port → port = 0) ∨
  ∀ text, Spelled toml hostField env.host localLayer base text →
    parseIpAddr (String.ofList (trimBy isWhitespace text)) = none

/-! ## The spelling -/

variable {toml} {field : ServerField} {layer localLayer base text : Text} {var : Option Text}

theorem heldAt_of_getValue (h : getValue toml layer field.key = some text) :
    ∃ item, HeldAt toml layer field item ∧ displayText toml item = text := by
  cases hparse : toml.parse layer with
  | error error =>
      simp only [getValue, hparse] at h
      cases h
  | ok document =>
      rw [getValue_ok hparse field.split] at h
      obtain ⟨item, hitem, hdisplay⟩ := Option.map_eq_some_iff.mp h
      exact ⟨item, ⟨document, hparse, hitem⟩, hdisplay⟩

theorem HeldAt.getValue {item : Item} (h : HeldAt toml layer field item) :
    getValue toml layer field.key = some (displayText toml item) := by
  obtain ⟨document, hparse, hitem⟩ := h
  rw [getValue_ok hparse field.split, hitem]
  rfl

theorem not_heldAt_of_getValue (h : getValue toml layer field.key = none) (item : Item) :
    ¬HeldAt toml layer field item := by
  intro hheld
  rw [hheld.getValue] at h
  cases h

theorem getValue_absent (h : ∀ item, ¬HeldAt toml layer field item) :
    getValue toml layer field.key = none := by
  cases hvalue : getValue toml layer field.key with
  | none => rfl
  | some text =>
      obtain ⟨item, hheld, -⟩ := heldAt_of_getValue hvalue
      exact absurd hheld (h item)

/-- **The manager reads the spelling.** -/
theorem spelled_iff : Spelled toml field var localLayer base text ↔
    fieldText toml field var localLayer base = text := by
  constructor
  · intro h
    unfold fieldText
    cases h with
    | env h =>
        rw [h]
        rfl
    | localLayer hvar h =>
        rw [hvar, h.getValue]
        rfl
    | base hvar hlocal h =>
        rw [hvar, getValue_absent hlocal, h.getValue]
        rfl
    | default hvar hlocal hbase =>
        rw [hvar, getValue_absent hlocal, getValue_absent hbase]
        rfl
  · rintro rfl
    unfold fieldText
    cases hvar : var with
    | some text => exact .env rfl
    | none =>
        cases hlocal : getValue toml localLayer field.key with
        | some text =>
            obtain ⟨item, hheld, rfl⟩ := heldAt_of_getValue hlocal
            exact .localLayer rfl hheld
        | none =>
            cases hbase : getValue toml base field.key with
            | some text =>
                obtain ⟨item, hheld, rfl⟩ := heldAt_of_getValue hbase
                exact .base rfl (not_heldAt_of_getValue hlocal) hheld
            | none =>
                exact .default rfl (not_heldAt_of_getValue hlocal) (not_heldAt_of_getValue hbase)

theorem forall_spelled_iff {P : Text → Prop} :
    (∀ text, Spelled toml field var localLayer base text → P text) ↔
      P (fieldText toml field var localLayer base) := by
  simp only [spelled_iff, forall_eq']

end

/-! ## The address -/

section

variable {toml : TomlEditor} {env : BindEnv} {localLayer base : Text} {host : IpAddr} {port : ℕ}

theorem serverBind_eq_some_iff (hport : port ≠ 0) :
    serverBind toml env localLayer base = some (host, port) ↔
      SpelledAs toml env localLayer base host port := by
  have hspelled : SpelledAs toml env localLayer base host port ↔
      parseIpAddr (String.ofList (trimBy isWhitespace
          (fieldText toml hostField env.host localLayer base))) = some host ∧
        parseU16 (trimBy isWhitespace (fieldText toml portField env.port localLayer base)) =
          some port := by
    constructor
    · exact fun h => ⟨forall_spelled_iff.mp h.host, forall_spelled_iff.mp h.port⟩
    · exact fun h => ⟨forall_spelled_iff.mpr h.1, forall_spelled_iff.mpr h.2⟩
  rw [hspelled, serverBind]
  constructor
  · intro h
    obtain ⟨read, hread, h⟩ := Option.bind_eq_some_iff.mp h
    rw [Option.ite_none_left_eq_some] at h
    obtain ⟨address, haddress, heq⟩ := Option.bind_eq_some_iff.mp h.2
    cases heq
    exact ⟨haddress, hread⟩
  · rintro ⟨haddress, hread⟩
    simp only [hread, haddress, if_neg hport, Option.bind_eq_bind, Option.bind_some]

theorem serverBind_eq_none_iff :
    serverBind toml env localLayer base = none ↔ SpelledAsNone toml env localLayer base := by
  unfold SpelledAsNone
  rw [forall_spelled_iff, forall_spelled_iff, serverBind]
  cases parseU16 (trimBy isWhitespace (fieldText toml portField env.port localLayer base)) with
  | none => simp
  | some read =>
      by_cases hread : read = 0
      · simp [hread]
      · cases parseIpAddr (String.ofList (trimBy isWhitespace
            (fieldText toml hostField env.host localLayer base))) with
        | none => simp [hread]
        | some address => simp [hread]

end

section

variable {α : Type} {toml : TomlEditor} {field : ServerField} {var : Option Text}
  {localLayer base : Text}

/-- The layer does not have the field, or has it outside an inline table, as a text that
reads as the server reads the value. -/
inductive PlainIn (toml : TomlEditor) (field : ServerField) (typed : Setting → Option α)
    (read : Text → Option α) (layer : Text) : Prop where
  | absent (hvalue : settingAt toml layer field.path = none)
      (hitem : ∀ item, ¬HeldAt toml layer field item)
  | plain {v : Value} (hheld : HeldAt toml layer field (.value v))
      (hscalar : v.content.isScalar = true)
      (hread : read (displayText toml (.value v)) = typed (.value v.content))

theorem settingAt_held {layer : Text} {v : Value} (h : HeldAt toml layer field (.value v))
    (hscalar : v.content.isScalar = true) :
    settingAt toml layer field.path = some v.content := by
  obtain ⟨document, hparse, hitem⟩ := h
  rw [settingAt_ok hparse]
  refine (valueAt_of_itemAt hitem []).trans ?_
  rw [Item.at_value]
  exact at_nil_of_isScalar hscalar

/-- Every place that may have the field spells it plainly. -/
structure Plainly (toml : TomlEditor) (field : ServerField) (typed : Setting → Option α)
    (read : Text → Option α) (var : Option Text) (localLayer base : Text) : Prop where
  env : ∀ text ∈ var, read text = typed (.text text)
  localLayer : PlainIn toml field typed read localLayer
  base : PlainIn toml field typed read base
  default : read field.defaultText = typed (.value field.default)

/-- **A field that is spelled plainly** reads as the server reads it. -/
theorem Plainly.read_fieldText {typed : Setting → Option α} {read : Text → Option α}
    (h : Plainly toml field typed read var localLayer base) :
    read (fieldText toml field var localLayer base) =
      typed (layered toml field var localLayer base) := by
  unfold fieldText layered
  cases var with
  | some text => exact h.env text rfl
  | none =>
      cases h.localLayer with
      | plain hheld hscalar hread =>
          rw [hheld.getValue, settingAt_held hheld hscalar]
          exact hread
      | absent hvalue hitem =>
          rw [getValue_absent hitem, hvalue]
          cases h.base with
          | plain hheld hscalar hread =>
              rw [hheld.getValue, settingAt_held hheld hscalar]
              exact hread
          | absent hvalue hitem =>
              rw [getValue_absent hitem, hvalue]
              exact h.default

theorem bindsAlike_of_plainly {server : ServerReading} {env : BindEnv}
    (hhost : Plainly toml hostField server.host
      (fun text => parseIpAddr (String.ofList (trimBy isWhitespace text))) env.host localLayer base)
    (hport : Plainly toml portField server.port (fun text => parseU16 (trimBy isWhitespace text))
      env.port localLayer base) : BindsAlike toml server env localLayer base := by
  intro host port haddress
  obtain ⟨-, -, haddress⟩ := Option.bind_eq_some_iff.mp haddress
  obtain ⟨host', hreadHost, haddress⟩ := Option.bind_eq_some_iff.mp haddress
  obtain ⟨port', hreadPort, heq⟩ := Option.bind_eq_some_iff.mp haddress
  cases heq
  rw [← hhost.read_fieldText] at hreadHost
  rw [← hport.read_fieldText] at hreadPort
  simp only [serverBind, hreadHost, hreadPort, Option.bind_eq_bind, Option.bind_some]

/-- A number that is written in decimal, without a comment, reads as what it is written as. -/
theorem displayText_scalar {v : Value} {value : Scalar} (hcontent : v.content = .scalar value)
    (hfront : ∀ c ∈ v.front, isWhitespace c = true) (hback : ∀ c ∈ v.back, isWhitespace c = true)
    (hne : v.repr ≠ []) (hfirst : ∀ c ∈ v.repr.head?, isWhitespace c = false)
    (hlast : ∀ c ∈ v.repr.getLast?, isWhitespace c = false) :
    displayText toml (.value v) = v.repr := by
  have hdisplay := trim_display hfront hback hne hfirst hlast
  obtain ⟨front, repr, back, content⟩ := v
  obtain rfl : content = .scalar value := hcontent
  exact hdisplay

end

/-! ## An inline table -/

def inlineLayer : Text := "server = \x7b port = 9000 \x7d\n".toList

/-- The editor on a layer with an inline table and on an empty one. -/
def inlineEditor : TomlEditor where
  parse layer :=
    if layer = inlineLayer then
      .ok ⟨[(⟨"server".toList, []⟩, .value ⟨[' '], "\x7b port = 9000 \x7d".toList, [],
        .table [("port".toList, .scalar (.integer 9000))]⟩)], []⟩
    else if layer = [] then .ok ⟨[], []⟩
    else .error "invalid".toList
  print document := document.entries.flatMap printTable ++ document.trailing
  parseValue _ := none
  stringRepr text := '"' :: (text ++ ['"'])
  displayTables _ := []

/-- A server that takes strings for addresses and numbers for ports. -/
def plainServer : ServerReading where
  host
    | .text text => parseIpAddr (String.ofList text)
    | .value (.string text) => parseIpAddr (String.ofList text)
    | .value _ => none
  port
    | .text text => parseU16 text
    | .value (.scalar (.integer n)) => if 0 ≤ n ∧ n < 0x10000 then some n.toNat else none
    | .value _ => none
  accepts _ _ _ := true

end Wallermax.Manager
