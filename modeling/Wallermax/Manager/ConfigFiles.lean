import Mathlib.Data.List.Infix
import Mathlib.Logic.Function.Basic
import Mathlib.Tactic.Common
import Wallermax.Base.Runs
import Wallermax.Base.Uri

/-!
# Editing the configuration pair

Three calls edit the two layers of the configuration: one overwrites a layer, one edits
values of it, one restores a backup. Each ends in `write_raw`: read both layers, validate
the pair with the new text in place, copy the file being replaced to a backup, write a
temporary sibling, rename it over the layer. Every file operation is a step of its own
here, and the steps of several calls come in any order; no lock is taken in between.
-/

namespace Wallermax.Manager

open Wallermax.Base

/-! ## Files -/

inductive ConfigWhich : Type where
  | base
  | localLayer
deriving DecidableEq

def ConfigWhich.other : ConfigWhich → ConfigWhich
  | base => localLayer
  | localLayer => base

def fileName : ConfigWhich → Text
  | .base => "wallermax.toml".toList
  | .localLayer => "wallermax.local.toml".toList

def backupPrefix (which : ConfigWhich) : Text := fileName which ++ ".bak-".toList

/-- The backup of a time stamp, numbered where the name is taken. -/
def backupName (which : ConfigWhich) (stamp n : ℕ) : Text :=
  backupPrefix which ++ (Nat.toDigits 10 stamp ++ if n = 1 then [] else '-' :: Nat.toDigits 10 n)

def tempPrefix : ConfigWhich → Text
  | .base => "wallermax.tmp-".toList
  | .localLayer => "wallermax.local.tmp-".toList

/-- The sibling `write_atomically` writes: the extension replaced. -/
def tempName (which : ConfigWhich) (stamp : ℕ) : Text := tempPrefix which ++ Nat.toDigits 10 stamp

/-- The directory of the configuration. -/
abbrev Disk : Type := Text → Option Text

/-- `read`: a missing file is empty. -/
def readLayer (disk : Disk) (which : ConfigWhich) : Text := (disk (fileName which)).getD []

/-! ## Calls -/

/-- A text that was validated, with the other layer as it was read. -/
structure Job : Type where
  which : ConfigWhich
  content : Text
  other : Text

/-- The file operation a call is at. -/
inductive Phase : Type where
  /-- `set_values` reads the layer it edits; parsing and editing may fail. -/
  | readDocument (which : ConfigWhich) (edit : Text → Option Text)
  /-- `restore_backup` reads the backup. -/
  | readBackup (which : ConfigWhich) (file : Text)
  | readBase (which : ConfigWhich) (content : Text)
  | readLocal (which : ConfigWhich) (content base : Text)
  | backUp (job : Job)
  | copy (job : Job) (candidate : Text)
  /-- `saved` is the backup that was made and what was copied. -/
  | writeTemp (job : Job) (saved : Option (Text × Text))
  | rename (job : Job) (saved : Option (Text × Text)) (temp : Text)
  | returned (ok : Bool)

inductive Request : Type where
  | writeRaw (which : ConfigWhich) (content : Text)
  | setValues (which : ConfigWhich) (edit : Text → Option Text)
  | restoreBackup (which : ConfigWhich) (file : Text)

def Request.phase : Request → Phase
  | writeRaw which content => .readBase which content
  | setValues which edit => .readDocument which edit
  | restoreBackup which file =>
    if file.contains '/' || file.contains '\\' || !(backupPrefix which).isPrefixOf file then
      .returned false
    else .readBackup which file

/-- How a file operation ends: a failed write or copy may leave something in its place. -/
inductive Io : Type where
  | ok
  | failed (left : Option Text)

/-- The candidate of a stamp: the first that does not exist. -/
def isCandidate (disk : Disk) (which : ConfigWhich) (stamp n : ℕ) : Bool :=
  1 ≤ n && (disk (backupName which stamp n)).isNone &&
    (List.range n).all fun m => m == 0 || (disk (backupName which stamp m)).isSome

def leave (disk : Disk) (name : Text) : Option Text → Disk
  | some junk => Function.update disk name (some junk)
  | none => disk

section

variable (valid : Text → Text → Bool)

def Job.accepted (job : Job) : Bool :=
  match job.which with
  | .base => valid job.content job.other
  | .localLayer => valid job.other job.content

/-- The pair with the new text in place. -/
def jobOf (disk : Disk) (content base : Text) : ConfigWhich → Job
  | .base => ⟨.base, content, readLayer disk .localLayer⟩
  | .localLayer => ⟨.localLayer, content, base⟩

/-- A pair that is not valid ends the call. -/
def validated (job : Job) : Phase := if job.accepted valid then .backUp job else .returned false

/-- One file operation: what the call does next and what is on disk. The clock gives the
stamp. -/
def Phase.advance (disk : Disk) (stamp n : ℕ) (io : Io) : Phase → Option (Phase × Disk)
  | readDocument which edit =>
    match io, edit (readLayer disk which) with
    | .ok, some content => some (.readBase which content, disk)
    | _, _ => some (.returned false, disk)
  | readBackup which file =>
    match io, disk file with
    | .ok, some content => some (.readBase which content, disk)
    | _, _ => some (.returned false, disk)
  | readBase which content =>
    match io with
    | .ok => some (.readLocal which content (readLayer disk .base), disk)
    | .failed _ => some (.returned false, disk)
  | readLocal which content base =>
    match io with
    | .ok => some (validated valid (jobOf disk content base which), disk)
    | .failed _ => some (.returned false, disk)
  | backUp job =>
    if (disk (fileName job.which)).isNone then some (.writeTemp job none, disk)
    else if isCandidate disk job.which stamp n then
      some (.copy job (backupName job.which stamp n), disk)
    else none
  | copy job candidate =>
    match io, disk (fileName job.which) with
    | .ok, some content =>
      some (.writeTemp job (some (candidate, content)),
        Function.update disk candidate (some content))
    | .ok, none => some (.returned false, disk)
    | .failed left, _ => some (.returned false, leave disk candidate left)
  | writeTemp job saved =>
    let temp := tempName job.which stamp
    match io with
    | .ok => some (.rename job saved temp, Function.update disk temp (some job.content))
    | .failed left => some (.returned false, leave disk temp left)
  | rename job _ temp =>
    match io, disk temp with
    | .ok, some content =>
      some (.returned true,
        Function.update (Function.update disk temp none) (fileName job.which) (some content))
    | _, _ => some (.returned false, disk)
  | returned _ => none

/-! ## Runs -/

/-- A call, and whether one of its own steps changed a layer. -/
structure Call : Type where
  phase : Phase
  wrote : Bool

/-- The directory and the calls. Beside them, what was replaced. -/
structure ConfigState : Type where
  disk : Disk
  calls : ℕ → Option Call
  replaced : List (ConfigWhich × Text)

def ConfigState.start (disk : Disk) : ConfigState := ⟨disk, fun _ => none, []⟩

/-- The layers that are not what they were, with what they were. -/
def changed (before after : Disk) : List (ConfigWhich × Text) :=
  [.base, .localLayer].filterMap fun which =>
    if before (fileName which) = after (fileName which) then none
    else (before (fileName which)).map (which, ·)

def sameLayers (before after : Disk) : Bool :=
  [ConfigWhich.base, .localLayer].all fun which =>
    before (fileName which) == after (fileName which)

inductive ConfigEvent : Type where
  | call (i : ℕ) (request : Request)
  | op (i stamp n : ℕ) (io : Io)

def configStep (s : ConfigState) : ConfigEvent → Option ConfigState
  | .call i request =>
    if (s.calls i).isSome then none
    else some { s with calls := Function.update s.calls i (some ⟨request.phase, false⟩) }
  | .op i stamp n io => do
    let call ← s.calls i
    let (phase, disk) ← call.phase.advance valid s.disk stamp n io
    some
      { disk := disk
        calls := Function.update s.calls i
          (some ⟨phase, call.wrote || !sameLayers s.disk disk⟩)
        replaced := s.replaced ++ changed s.disk disk }

end

/-! ## What is asked -/

def ValidOnDisk (valid : Text → Text → Bool) (s : ConfigState) : Prop :=
  valid (readLayer s.disk .base) (readLayer s.disk .localLayer) = true

/-- A call that returned an error changed neither layer. -/
def ErrorsChangeNothing (s : ConfigState) : Prop :=
  ∀ i call, s.calls i = some call → call.phase = .returned false → call.wrote = false

/-- What was replaced can be read from a backup of its layer. -/
def BackupsComplete (s : ConfigState) : Prop :=
  ∀ old ∈ s.replaced, ∃ stamp n, s.disk (backupName old.1 stamp n) = some old.2

/-- No other call has come between: a backup's name is still free when it is copied, and
at the rename the temporary file has the call's own text, the other layer reads as it was
validated with, and the layer is what was copied. -/
def Phase.alone (disk : Disk) : Phase → Bool
  | copy _ candidate => (disk candidate).isNone
  | rename job saved temp =>
    decide (disk temp = some job.content) &&
      decide (readLayer disk job.which.other = job.other) &&
      decide (disk (fileName job.which) = saved.map Prod.snd)
  | _ => true

def undisturbed (s : ConfigState) : ConfigEvent → Bool
  | .op i _ _ _ => (s.calls i).all fun call => call.phase.alone s.disk
  | .call _ _ => true

end Wallermax.Manager
