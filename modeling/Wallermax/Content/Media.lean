import Mathlib.Logic.Function.Basic
import Mathlib.Tactic.Common
import Wallermax.Base.Runs
import Wallermax.Base.Uri

/-!
# The media library's files and rows

An upload writes the original, writes the thumbnail and inserts the row, and cleans up
by hand on the branches where a later step fails. A delete removes the row and then the
files. Every one of these is a call the handler awaits. The timeout layer may drop the
handler's future at such a point: the call it was waiting for may then still take
effect, later or never, and nothing after it runs.
-/

namespace Wallermax.Content.Media

open Wallermax.Base

/-! ## Names -/

/-- A stem of `new_stem`: 32 lower-case hex characters. -/
structure Stem : Type where
  text : Text
  length_text : text.length = 32
  hex : ∀ c ∈ text, c.isDigit = true ∨ ('a' ≤ c ∧ c ≤ 'f')
deriving DecidableEq

inductive ImageFormat : Type where
  | png
  | jpeg
  | gif
  | webp
deriving DecidableEq

def ImageFormat.extension : ImageFormat → Text
  | .png => "png".toList
  | .jpeg => "jpg".toList
  | .gif => "gif".toList
  | .webp => "webp".toList

def storedName (stem : Stem) (format : ImageFormat) : Text :=
  stem.text ++ '.' :: format.extension

def thumbName (stem : Stem) : Text := stem.text ++ "_t.png".toList

/-! ## The state -/

/-- A file as it is on disk: cut short by a failed write, or all of it. -/
inductive Contents : Type where
  | torn
  | complete
deriving DecidableEq

/-- A row of `media`, with the columns the two handlers read; its two names are those of
the stem and the format. -/
structure MediaRecord : Type where
  id : ℕ
  organization : Text
  stem : Stem
  format : ImageFormat
deriving DecidableEq

/-- What a handler is doing: waiting for a call, gone while a call is under way, or done. -/
inductive Activity (κ : Type) : Type where
  | running (call : κ)
  | abandoned (call : κ)
  | ended
deriving DecidableEq

/-- The calls of `upload_media`, in the order of its branches. -/
inductive UploadCall : Type where
  | writeOriginal
  | writeThumb
  | insert
  /-- the original is removed because the thumbnail's write failed -/
  | undoOriginal
  /-- the original, and then the thumbnail, because the insert failed -/
  | rollOriginal
  | rollThumb
deriving DecidableEq

/-- The calls of `delete_media` once it has found the row. -/
inductive DeleteCall : Type where
  | deleteRow
  | removeStored
  | removeThumb
deriving DecidableEq

/-- An upload that passed its checks; `inserted` tells whether its row went in. -/
structure Upload : Type where
  format : ImageFormat
  organization : Text
  activity : Activity UploadCall
  inserted : Bool
deriving DecidableEq

structure Deletion : Type where
  record : MediaRecord
  activity : Activity DeleteCall
deriving DecidableEq

structure MediaState : Type where
  disk : Text → Option Contents
  rows : List MediaRecord
  nextId : ℕ
  uploads : Stem → Option Upload
  deletions : ℕ → Option Deletion

def MediaState.init : MediaState where
  disk := fun _ => none
  rows := []
  nextId := 1
  uploads := fun _ => none
  deletions := fun _ => none

/-! ## Calls -/

/-- How a call ends; `never` for one that nobody waits for and that is not carried out. -/
inductive Outcome : Type where
  | done
  | failed
  /-- a write that failed and left part of the file -/
  | torn
  | never
deriving DecidableEq

namespace Activity

variable {κ : Type}

def call? : Activity κ → Option κ
  | running call => some call
  | abandoned call => some call
  | ended => none

/-- What follows when the call has ended: the handler goes on only if it is there. -/
def resume : Activity κ → Activity κ → Activity κ
  | running _, next => next
  | _, _ => ended

/-- The future is dropped. -/
def drop : Activity κ → Option (Activity κ)
  | running call => some (abandoned call)
  | _ => none

def mayEnd (outcome : Outcome) : Activity κ → Bool
  | running _ => outcome != .never
  | abandoned _ => true
  | ended => false

end Activity

namespace MediaState

def put (s : MediaState) (name : Text) (file : Option Contents) : MediaState :=
  { s with disk := Function.update s.disk name file }

/-- `SqliteMediaRepository::create`. -/
def create (s : MediaState) (organization : Text) (stem : Stem) (format : ImageFormat) : MediaState :=
  { s with rows := s.rows ++ [⟨s.nextId, organization, stem, format⟩], nextId := s.nextId + 1 }

/-- `find_by_id`. -/
def findById (s : MediaState) (organization : Text) (id : ℕ) : Option MediaRecord :=
  s.rows.find? fun r => r.id == id && r.organization == organization

/-- `delete` of the repository. -/
def delete (s : MediaState) (organization : Text) (id : ℕ) : MediaState :=
  { s with rows := s.rows.filter fun r => !(r.id == id && r.organization == organization) }

def setUpload (s : MediaState) (stem : Stem) (up : Upload) : MediaState :=
  { s with uploads := Function.update s.uploads stem (some up) }

@[simp] theorem setUpload_self (s : MediaState) (stem : Stem) (up : Upload) :
    (s.setUpload stem up).uploads stem = some up := Function.update_self ..

theorem setUpload_of_ne (s : MediaState) {stem stem' : Stem} (h : stem' ≠ stem) (up : Upload) :
    (s.setUpload stem up).uploads stem' = s.uploads stem' := Function.update_of_ne h ..

def setDeletion (s : MediaState) (d : ℕ) (deletion : Deletion) : MediaState :=
  { s with deletions := Function.update s.deletions d (some deletion) }

@[simp] theorem setDeletion_self (s : MediaState) (d : ℕ) (deletion : Deletion) :
    (s.setDeletion d deletion).deletions d = some deletion := Function.update_self ..

theorem setDeletion_of_ne (s : MediaState) {d d' : ℕ} (h : d' ≠ d) (deletion : Deletion) :
    (s.setDeletion d deletion).deletions d' = s.deletions d' := Function.update_of_ne h ..

end MediaState

@[simp] theorem MediaState.put_self (s : MediaState) (name : Text) (file : Option Contents) :
    (s.put name file).disk name = file := Function.update_self ..

theorem MediaState.put_of_ne (s : MediaState) {name other : Text} (h : other ≠ name)
    (file : Option Contents) : (s.put name file).disk other = s.disk other :=
  Function.update_of_ne h ..

namespace UploadCall

/-- What can come of the call; the removal of a file does not fail. -/
def possible : UploadCall → Outcome → Bool
  | writeOriginal, _ | writeThumb, _ => true
  | insert, outcome => outcome != .torn
  | _, outcome => outcome == .done || outcome == .never

def effect (stem : Stem) (up : Upload) (s : MediaState) : UploadCall → Outcome → MediaState
  | writeOriginal, .done => s.put (storedName stem up.format) (some .complete)
  | writeOriginal, .torn => s.put (storedName stem up.format) (some .torn)
  | writeThumb, .done => s.put (thumbName stem) (some .complete)
  | writeThumb, .torn => s.put (thumbName stem) (some .torn)
  | insert, .done => s.create up.organization stem up.format
  | undoOriginal, .done => s.put (storedName stem up.format) none
  | rollOriginal, .done => s.put (storedName stem up.format) none
  | rollThumb, .done => s.put (thumbName stem) none
  | _, _ => s

/-- The handler's branches. -/
def next : UploadCall → Outcome → Activity UploadCall
  | writeOriginal, .done => .running writeThumb
  | writeOriginal, _ => .ended
  | writeThumb, .done => .running insert
  | writeThumb, _ => .running undoOriginal
  | insert, .done => .ended
  | insert, _ => .running rollOriginal
  | undoOriginal, _ => .ended
  | rollOriginal, _ => .running rollThumb
  | rollThumb, _ => .ended

end UploadCall

/-- The upload when its call has ended. -/
def Upload.resume (up : Upload) (call : UploadCall) (outcome : Outcome) : Upload :=
  { up with
    activity := up.activity.resume (call.next outcome)
    inserted := call == .insert && outcome == .done }

namespace DeleteCall

def possible : DeleteCall → Outcome → Bool
  | _, outcome => outcome != .torn

def effect (record : MediaRecord) (s : MediaState) : DeleteCall → Outcome → MediaState
  | deleteRow, .done => s.delete record.organization record.id
  | removeStored, .done => s.put (storedName record.stem record.format) none
  | removeThumb, .done => s.put (thumbName record.stem) none
  | _, _ => s

/-- The handler's branches: the files go only when a row did. -/
def next (record : MediaRecord) (s : MediaState) : DeleteCall → Outcome → Activity DeleteCall
  | deleteRow, .done =>
    if (s.findById record.organization record.id).isSome then .running removeStored else .ended
  | deleteRow, _ => .ended
  | removeStored, _ => .running removeThumb
  | removeThumb, _ => .ended

end DeleteCall

/-! ## Steps -/

/-- What happens next, in whatever order. -/
inductive Event : Type where
  /-- An upload has passed its checks and drawn a stem. -/
  | upload (stem : Stem) (format : ImageFormat) (organization : Text)
  | uploadCall (stem : Stem) (outcome : Outcome)
  | dropUpload (stem : Stem)
  /-- A delete looks the row up. -/
  | delete (d : ℕ) (organization : Text) (id : ℕ)
  | deleteCall (d : ℕ) (outcome : Outcome)
  | dropDelete (d : ℕ)

def step (s : MediaState) : Event → Option MediaState
  | .upload stem format organization =>
    -- no UUID is drawn twice
    if (s.uploads stem).isNone then
      some (s.setUpload stem ⟨format, organization, .running .writeOriginal, false⟩)
    else none
  | .uploadCall stem outcome => do
    let up ← s.uploads stem
    let call ← up.activity.call?
    if up.activity.mayEnd outcome && call.possible outcome then
      some ((call.effect stem up s outcome).setUpload stem (up.resume call outcome))
    else none
  | .dropUpload stem => do
    let up ← s.uploads stem
    let activity ← up.activity.drop
    some (s.setUpload stem { up with activity := activity })
  | .delete d organization id =>
    if (s.deletions d).isSome then none
    else match s.findById organization id with
    | none => some s
    | some record => some (s.setDeletion d ⟨record, .running .deleteRow⟩)
  | .deleteCall d outcome => do
    let deletion ← s.deletions d
    let call ← deletion.activity.call?
    if deletion.activity.mayEnd outcome && call.possible outcome then
      some ((call.effect deletion.record s outcome).setDeletion d
        { deletion with activity := deletion.activity.resume (call.next deletion.record s outcome) })
    else none
  | .dropDelete d => do
    let deletion ← s.deletions d
    let activity ← deletion.activity.drop
    some (s.setDeletion d { deletion with activity := activity })

/-! ## What is asked -/

/-- Every row has its two files, all of them. -/
def RowsComplete (s : MediaState) : Prop :=
  ∀ r ∈ s.rows, s.disk (storedName r.stem r.format) = some .complete ∧
    s.disk (thumbName r.stem) = some .complete

/-- Nothing is left of an upload that ended without a row. -/
def NothingLeft (s : MediaState) : Prop :=
  ∀ stem up, s.uploads stem = some up → up.activity = .ended → up.inserted = false →
    s.disk (storedName stem up.format) = none ∧ s.disk (thumbName stem) = none

/-! ## Names of different stems -/

theorem storedName_inj {stem stem' : Stem} {format format' : ImageFormat}
    (h : storedName stem format = storedName stem' format') : stem = stem' := by
  have hlen : stem.text.length = stem'.text.length := stem.length_text.trans stem'.length_text.symm
  have htext := (List.append_inj h hlen).1
  cases stem
  cases stem'
  cases htext
  rfl

theorem thumbName_inj {stem stem' : Stem} (h : thumbName stem = thumbName stem') :
    stem = stem' := by
  have htext := List.append_cancel_right h
  cases stem
  cases stem'
  cases htext
  rfl

theorem storedName_ne_thumbName (stem stem' : Stem) (format : ImageFormat) :
    storedName stem format ≠ thumbName stem' := by
  intro h
  have hlen : stem.text.length = stem'.text.length := stem.length_text.trans stem'.length_text.symm
  have hrest := (List.append_inj h hlen).2
  exact absurd (List.cons.inj hrest).1 (by decide)

end Wallermax.Content.Media
