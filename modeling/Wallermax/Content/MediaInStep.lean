import Mathlib.Data.List.Nodup
import Wallermax.Content.Media

/-!
# Media rows and files stay in step

The half about rows holds in every run: a row goes in behind both of its files, and a
file is removed only when its row is gone for good, since a stem is uploaded once. The
half about leftovers holds in the runs whose steps are all `Tidy`. The cleanup removes
neither what a failed write left of its own file nor anything once the future is
dropped between two calls.
-/

namespace Wallermax.Content.Media

open Wallermax.Base

/-! ## What a step can do -/

theorem step_upload {s t : MediaState} {stem : Stem} {format : ImageFormat} {organization : Text}
    (h : step s (.upload stem format organization) = some t) :
    s.uploads stem = none ∧
      t = s.setUpload stem ⟨format, organization, .running .writeOriginal, false⟩ := by
  simp only [step, Option.isNone_iff_eq_none, Option.ite_none_right_eq_some, Option.some.injEq] at h
  exact ⟨h.1, h.2.symm⟩

theorem step_uploadCall {s t : MediaState} {stem : Stem} {outcome : Outcome}
    (h : step s (.uploadCall stem outcome) = some t) :
    ∃ up call, s.uploads stem = some up ∧ up.activity.call? = some call ∧
      up.activity.mayEnd outcome = true ∧ call.possible outcome = true ∧
      t = (call.effect stem up s outcome).setUpload stem (up.resume call outcome) := by
  obtain ⟨up, hup, h⟩ := Option.bind_eq_some_iff.mp h
  obtain ⟨call, hcall, h⟩ := Option.bind_eq_some_iff.mp h
  simp only [Bool.and_eq_true, Option.ite_none_right_eq_some, Option.some.injEq] at h
  exact ⟨up, call, hup, hcall, h.1.1, h.1.2, h.2.symm⟩

/-- Only a running handler is dropped, at the call it waits for. -/
theorem drop_some {γ : Type} {activity dropped : Activity γ} (h : activity.drop = some dropped) :
    ∃ call, activity = .running call ∧ dropped = .abandoned call := by
  cases activity with
  | running call => exact ⟨call, rfl, (Option.some.inj h).symm⟩
  | abandoned call => cases h
  | ended => cases h

theorem step_dropUpload {s t : MediaState} {stem : Stem}
    (h : step s (.dropUpload stem) = some t) :
    ∃ up call, s.uploads stem = some up ∧ up.activity = .running call ∧
      t = s.setUpload stem { up with activity := .abandoned call } := by
  obtain ⟨up, hup, h⟩ := Option.bind_eq_some_iff.mp h
  obtain ⟨activity, hactivity, h⟩ := Option.bind_eq_some_iff.mp h
  obtain ⟨call, hrunning, rfl⟩ := drop_some hactivity
  exact ⟨up, call, hup, hrunning, (Option.some_inj.mp h).symm⟩

theorem step_delete {s t : MediaState} {d : ℕ} {organization : Text} {id : ℕ}
    (h : step s (.delete d organization id) = some t) :
    t = s ∨ ∃ record, s.findById organization id = some record ∧
      t = s.setDeletion d ⟨record, .running .deleteRow⟩ := by
  simp only [step, Option.ite_none_left_eq_some] at h
  cases hfind : s.findById organization id with
  | none =>
      rw [hfind] at h
      exact Or.inl (Option.some_inj.mp h.2).symm
  | some record =>
      rw [hfind] at h
      exact Or.inr ⟨record, rfl, (Option.some_inj.mp h.2).symm⟩

theorem step_deleteCall {s t : MediaState} {d : ℕ} {outcome : Outcome}
    (h : step s (.deleteCall d outcome) = some t) :
    ∃ deletion call, s.deletions d = some deletion ∧ deletion.activity.call? = some call ∧
      t = (call.effect deletion.record s outcome).setDeletion d
        { deletion with
          activity := deletion.activity.resume (call.next deletion.record s outcome) } := by
  obtain ⟨deletion, hdel, h⟩ := Option.bind_eq_some_iff.mp h
  obtain ⟨call, hcall, h⟩ := Option.bind_eq_some_iff.mp h
  simp only [Option.ite_none_right_eq_some, Option.some.injEq] at h
  exact ⟨deletion, call, hdel, hcall, h.2.symm⟩

theorem step_dropDelete {s t : MediaState} {d : ℕ} (h : step s (.dropDelete d) = some t) :
    ∃ deletion call, s.deletions d = some deletion ∧ deletion.activity = .running call ∧
      t = s.setDeletion d { deletion with activity := .abandoned call } := by
  obtain ⟨deletion, hdel, h⟩ := Option.bind_eq_some_iff.mp h
  obtain ⟨activity, hactivity, h⟩ := Option.bind_eq_some_iff.mp h
  obtain ⟨call, hrunning, rfl⟩ := drop_some hactivity
  exact ⟨deletion, call, hdel, hrunning, (Option.some_inj.mp h).symm⟩

/-! ## The two files of a stem -/

/-- The files under the names of a stem. -/
def filesOf (disk : Text → Option Contents) (stem : Stem) (format : ImageFormat) :
    Option Contents × Option Contents :=
  (disk (storedName stem format), disk (thumbName stem))

theorem filesOf_putStored_of_ne {s : MediaState} {stem stem' : Stem} (hne : stem' ≠ stem)
    (format format' : ImageFormat) (file : Option Contents) :
    filesOf (s.put (storedName stem format) file).disk stem' format' =
      filesOf s.disk stem' format' := by
  unfold filesOf
  rw [s.put_of_ne fun h => hne (storedName_inj h),
    s.put_of_ne (storedName_ne_thumbName _ _ _).symm]

theorem filesOf_putThumb_of_ne {s : MediaState} {stem stem' : Stem} (hne : stem' ≠ stem)
    (format' : ImageFormat) (file : Option Contents) :
    filesOf (s.put (thumbName stem) file).disk stem' format' = filesOf s.disk stem' format' := by
  unfold filesOf
  rw [s.put_of_ne (storedName_ne_thumbName _ _ _), s.put_of_ne fun h => hne (thumbName_inj h)]

@[simp] theorem filesOf_putStored (s : MediaState) (stem : Stem) (format : ImageFormat)
    (file : Option Contents) :
    filesOf (s.put (storedName stem format) file).disk stem format =
      (file, s.disk (thumbName stem)) := by
  unfold filesOf
  rw [s.put_self, s.put_of_ne (storedName_ne_thumbName _ _ _).symm]

@[simp] theorem filesOf_putThumb (s : MediaState) (stem : Stem) (format : ImageFormat)
    (file : Option Contents) :
    filesOf (s.put (thumbName stem) file).disk stem format =
      (s.disk (storedName stem format), file) := by
  unfold filesOf
  rw [s.put_self, s.put_of_ne (storedName_ne_thumbName _ _ _)]

/-- An upload's call touches the files of its own stem. -/
theorem UploadCall.filesOf_effect {stem stem' : Stem} (hne : stem' ≠ stem) (up : Upload)
    (s : MediaState) (call : UploadCall) (outcome : Outcome) (format : ImageFormat) :
    filesOf (call.effect stem up s outcome).disk stem' format = filesOf s.disk stem' format := by
  cases call <;> cases outcome <;>
    first
      | rfl
      | exact filesOf_putStored_of_ne hne _ _ _
      | exact filesOf_putThumb_of_ne hne _ _

theorem DeleteCall.filesOf_effect {stem' : Stem} {record : MediaRecord} (hne : stem' ≠ record.stem)
    (s : MediaState) (call : DeleteCall) (outcome : Outcome) (format : ImageFormat) :
    filesOf (call.effect record s outcome).disk stem' format = filesOf s.disk stem' format := by
  cases call <;> cases outcome <;>
    first
      | rfl
      | exact filesOf_putStored_of_ne hne _ _ _
      | exact filesOf_putThumb_of_ne hne _ _

/-- What a call of an upload makes of the files of its stem. -/
def UploadCall.onFiles (files : Option Contents × Option Contents) :
    UploadCall → Outcome → Option Contents × Option Contents
  | writeOriginal, .done => (some .complete, files.2)
  | writeOriginal, .torn => (some .torn, files.2)
  | writeThumb, .done => (files.1, some .complete)
  | writeThumb, .torn => (files.1, some .torn)
  | undoOriginal, .done => (none, files.2)
  | rollOriginal, .done => (none, files.2)
  | rollThumb, .done => (files.1, none)
  | _, _ => files

theorem UploadCall.filesOf_effect_self (stem : Stem) (up : Upload) (s : MediaState)
    (call : UploadCall) (outcome : Outcome) :
    filesOf (call.effect stem up s outcome).disk stem up.format =
      call.onFiles (filesOf s.disk stem up.format) outcome := by
  cases call <;> cases outcome <;>
    first
      | rfl
      | exact filesOf_putStored s stem up.format _
      | exact filesOf_putThumb s stem up.format _

/-- No call of an upload adds a row but the insert. -/
theorem UploadCall.rows_effect {stem : Stem} {up : Upload} {s : MediaState} {call : UploadCall}
    {outcome : Outcome} (h : (call == .insert && outcome == .done) = false) :
    (call.effect stem up s outcome).rows = s.rows := by
  cases call <;> cases outcome <;> first | rfl | cases h

@[simp] theorem UploadCall.deletions_effect (stem : Stem) (up : Upload) (s : MediaState)
    (call : UploadCall) (outcome : Outcome) :
    (call.effect stem up s outcome).deletions = s.deletions := by
  cases call <;> cases outcome <;> rfl

@[simp] theorem UploadCall.uploads_effect (stem : Stem) (up : Upload) (s : MediaState)
    (call : UploadCall) (outcome : Outcome) :
    (call.effect stem up s outcome).uploads = s.uploads := by
  cases call <;> cases outcome <;> rfl

@[simp] theorem DeleteCall.uploads_effect (record : MediaRecord) (s : MediaState)
    (call : DeleteCall) (outcome : Outcome) :
    (call.effect record s outcome).uploads = s.uploads := by
  cases call <;> cases outcome <;> rfl

@[simp] theorem DeleteCall.deletions_effect (record : MediaRecord) (s : MediaState)
    (call : DeleteCall) (outcome : Outcome) :
    (call.effect record s outcome).deletions = s.deletions := by
  cases call <;> cases outcome <;> rfl

theorem DeleteCall.rows_effect {record : MediaRecord} {s : MediaState} {call : DeleteCall}
    {outcome : Outcome} {r : MediaRecord} (h : r ∈ (call.effect record s outcome).rows) :
    r ∈ s.rows := by
  cases call <;> cases outcome <;> first | exact h | exact (List.mem_filter.mp h).1

/-! ## Rows behind their files -/

/-- What is on disk and in the table while an upload is at a call. -/
def StageAt (inserted : Bool) (files : Option Contents × Option Contents) :
    Option UploadCall → Prop
  | none => True
  | some .writeThumb => inserted = false ∧ files.1 = some .complete
  | some .insert => inserted = false ∧ files = (some .complete, some .complete)
  | some _ => inserted = false

def Upload.Stage (up : Upload) (files : Option Contents × Option Contents) : Prop :=
  StageAt up.inserted files up.activity.call?

/-- The row of the stem was inserted, so nothing of its upload runs any more. -/
def Inserted (s : MediaState) (stem : Stem) : Prop :=
  ∃ up, s.uploads stem = some up ∧ up.inserted = true

/-- What holds of a delete that has found a row. -/
structure Knows (s : MediaState) (deletion : Deletion) : Prop where
  inserted : Inserted s deletion.record.stem
  /-- the row is the only one of its stem, as long as it is there -/
  only : ∀ r ∈ s.rows, r.stem = deletion.record.stem → r = deletion.record
  /-- and it is gone when the files are removed -/
  gone : ∀ call, deletion.activity.call? = some call → call ≠ .deleteRow →
    ∀ r ∈ s.rows, r.stem ≠ deletion.record.stem

theorem Knows.setDeletion {s : MediaState} {deletion : Deletion} (h : Knows s deletion) (d : ℕ)
    (deletion' : Deletion) : Knows (s.setDeletion d deletion') deletion :=
  ⟨h.inserted, h.only, h.gone⟩

structure Inv (s : MediaState) : Prop where
  stage : ∀ stem up, s.uploads stem = some up → up.Stage (filesOf s.disk stem up.format)
  rows_inserted : ∀ r ∈ s.rows, Inserted s r.stem
  rows_complete : ∀ r ∈ s.rows, filesOf s.disk r.stem r.format = (some .complete, some .complete)
  rows_distinct : (s.rows.map MediaRecord.stem).Nodup
  records : ∀ d deletion, s.deletions d = some deletion → Knows s deletion

theorem Upload.Stage.not_inserted {up : Upload} {files : Option Contents × Option Contents}
    {call : UploadCall} (h : up.Stage files) (hcall : up.activity.call? = some call) :
    up.inserted = false := by
  unfold Upload.Stage at h
  rw [hcall] at h
  cases call with
  | writeThumb => exact h.1
  | insert => exact h.1
  | _ => exact h

/-- An upload at a call is of another stem than every row and every row found. -/
theorem Inv.ne_of_inserted {s : MediaState} (hI : Inv s) {stem stem' : Stem} {up : Upload}
    {call : UploadCall} (hup : s.uploads stem = some up) (hcall : up.activity.call? = some call)
    (hinserted : Inserted s stem') : stem' ≠ stem := by
  rintro rfl
  obtain ⟨up', hup', htrue⟩ := hinserted
  rw [hup] at hup'
  cases hup'
  have hfalse := (hI.stage _ up hup).not_inserted hcall
  rw [htrue] at hfalse
  cases hfalse

/-- What is asked of the uploads, once one of them is set. -/
theorem forall_setUpload {s : MediaState} {stem : Stem} {up : Upload}
    {P : Stem → Upload → Prop} (hself : P stem up)
    (hother : ∀ stem' up', stem' ≠ stem → s.uploads stem' = some up' → P stem' up') :
    ∀ stem' up', (s.setUpload stem up).uploads stem' = some up' → P stem' up' := by
  intro stem' up' h
  by_cases hne : stem' = stem
  · subst hne
    rw [s.setUpload_self] at h
    cases h
    exact hself
  · rw [s.setUpload_of_ne hne] at h
    exact hother stem' up' hne h

theorem forall_setDeletion {s : MediaState} {d : ℕ} {deletion : Deletion}
    {P : Deletion → Prop} (hself : P deletion)
    (hother : ∀ d' deletion', s.deletions d' = some deletion' → P deletion') :
    ∀ d' deletion', (s.setDeletion d deletion).deletions d' = some deletion' → P deletion' := by
  intro d' deletion' h
  by_cases hne : d' = d
  · subst hne
    rw [s.setDeletion_self] at h
    cases h
    exact hself
  · rw [s.setDeletion_of_ne hne] at h
    exact hother d' deletion' h

theorem Inserted.setUpload {s : MediaState} {stem stem' : Stem} (hne : stem' ≠ stem)
    (h : Inserted s stem') (up : Upload) : Inserted (s.setUpload stem up) stem' := by
  obtain ⟨up', hup', htrue⟩ := h
  exact ⟨up', by rw [s.setUpload_of_ne hne, hup'], htrue⟩

/-- The handler goes on with what the next call needs. -/
theorem stageAt_next {files : Option Contents × Option Contents} {call : UploadCall}
    {inserted : Bool} (h : StageAt inserted files (some call)) (outcome : Outcome) :
    StageAt (call == .insert && outcome == .done) (call.onFiles files outcome)
      (call.next outcome).call? := by
  cases call with
  | writeThumb =>
      have horiginal : files.1 = some .complete := h.2
      cases outcome with
      | done => exact ⟨rfl, Prod.ext horiginal rfl⟩
      | _ => exact rfl
  | writeOriginal =>
      cases outcome with
      | done => exact ⟨rfl, rfl⟩
      | _ => trivial
  | _ => cases outcome <;> first | exact trivial | exact rfl

theorem Upload.stage_resume {up : Upload} {stem : Stem} {s : MediaState} {call : UploadCall}
    {outcome : Outcome} (hcall : up.activity.call? = some call)
    (h : up.Stage (filesOf s.disk stem up.format)) :
    (up.resume call outcome).Stage
      (filesOf (call.effect stem up s outcome).disk stem up.format) := by
  unfold Upload.Stage at h
  rw [hcall] at h
  have hnext := stageAt_next h outcome
  rw [UploadCall.filesOf_effect_self]
  unfold Upload.Stage Upload.resume
  cases up.activity with
  | running _ => exact hnext
  | abandoned _ => trivial
  | ended => trivial

/-! ## Every step keeps it -/

theorem Inv.upload {s : MediaState} (hI : Inv s) {stem : Stem} (hunused : s.uploads stem = none)
    (format : ImageFormat) (organization : Text) :
    Inv (s.setUpload stem ⟨format, organization, .running .writeOriginal, false⟩) := by
  have hkeep : ∀ stem', Inserted s stem' → Inserted
      (s.setUpload stem ⟨format, organization, .running .writeOriginal, false⟩) stem' := by
    intro stem' h
    refine h.setUpload ?_ _
    rintro rfl
    obtain ⟨up, hup, -⟩ := h
    rw [hunused] at hup
    cases hup
  exact
    { stage := forall_setUpload rfl fun stem' up _ hup => hI.stage stem' up hup
      rows_inserted := fun r hr => hkeep _ (hI.rows_inserted r hr)
      rows_complete := hI.rows_complete
      rows_distinct := hI.rows_distinct
      records := fun d deletion hd =>
        { hI.records d deletion hd with inserted := hkeep _ (hI.records d deletion hd).inserted } }

theorem Inv.dropUpload {s : MediaState} (hI : Inv s) {stem : Stem} {up : Upload} {call : UploadCall}
    (hup : s.uploads stem = some up) (hrunning : up.activity = .running call) :
    Inv (s.setUpload stem { up with activity := .abandoned call }) := by
  have hcall : up.activity.call? = some call := by rw [hrunning]; rfl
  have hstage : StageAt up.inserted (filesOf s.disk stem up.format) (some call) := by
    rw [← hcall]
    exact hI.stage stem up hup
  exact
    { stage := forall_setUpload hstage fun stem' up _ hup => hI.stage stem' up hup
      rows_inserted := fun r hr =>
        (hI.rows_inserted r hr).setUpload (hI.ne_of_inserted hup hcall (hI.rows_inserted r hr)) _
      rows_complete := hI.rows_complete
      rows_distinct := hI.rows_distinct
      records := fun d deletion hd =>
        have hknows := hI.records d deletion hd
        { hknows with
          inserted := hknows.inserted.setUpload (hI.ne_of_inserted hup hcall hknows.inserted) _ } }

/-- A row is added with its files complete, and no delete knows its stem. -/
theorem UploadCall.mem_rows_effect {s : MediaState} {stem : Stem} {up : Upload} {call : UploadCall}
    {outcome : Outcome} (hstage : StageAt up.inserted (filesOf s.disk stem up.format) (some call))
    {r : MediaRecord} (hr : r ∈ (call.effect stem up s outcome).rows) :
    r ∈ s.rows ∨ (r.stem = stem ∧ (call == .insert && outcome == .done) = true ∧
      filesOf (call.effect stem up s outcome).disk r.stem r.format =
        (some .complete, some .complete)) := by
  cases hinsert : call == .insert && outcome == .done with
  | false =>
      rw [UploadCall.rows_effect hinsert] at hr
      exact Or.inl hr
  | true =>
      simp only [Bool.and_eq_true, beq_iff_eq] at hinsert
      obtain ⟨rfl, rfl⟩ := hinsert
      rcases List.mem_append.mp hr with hr | hr
      · exact Or.inl hr
      · obtain rfl := List.mem_singleton.mp hr
        exact Or.inr ⟨rfl, rfl, hstage.2⟩

theorem Inv.uploadCall {s : MediaState} (hI : Inv s) {stem : Stem} {up : Upload} {call : UploadCall}
    (hup : s.uploads stem = some up) (hcall : up.activity.call? = some call) (outcome : Outcome) :
    Inv ((call.effect stem up s outcome).setUpload stem (up.resume call outcome)) := by
  have hstage : StageAt up.inserted (filesOf s.disk stem up.format) (some call) := by
    rw [← hcall]
    exact hI.stage stem up hup
  have hother : ∀ {stem'}, Inserted s stem' → stem' ≠ stem ∧ Inserted
      ((call.effect stem up s outcome).setUpload stem (up.resume call outcome)) stem' := by
    intro stem' h
    have hne := hI.ne_of_inserted hup hcall h
    refine ⟨hne, Inserted.setUpload hne ?_ _⟩
    obtain ⟨up', hup', htrue⟩ := h
    exact ⟨up', by rw [UploadCall.uploads_effect, hup'], htrue⟩
  have hrecord : ∀ d deletion, s.deletions d = some deletion → deletion.record.stem ≠ stem :=
    fun d deletion hd => (hother (hI.records d deletion hd).inserted).1
  have hdeletions : (call.effect stem up s outcome).deletions = s.deletions :=
    UploadCall.deletions_effect ..
  refine
    { stage := forall_setUpload (hI.stage stem up hup |> Upload.stage_resume hcall) ?_
      rows_inserted := fun r hr => ?_
      rows_complete := fun r hr => ?_
      rows_distinct := ?_
      records := fun d deletion hd => ?_ }
  · intro stem' up' hne hup'
    rw [UploadCall.uploads_effect] at hup'
    rw [show filesOf (MediaState.setUpload _ _ _).disk stem' up'.format = _ from
      UploadCall.filesOf_effect hne up s call outcome up'.format]
    exact hI.stage stem' up' hup'
  · rcases UploadCall.mem_rows_effect hstage hr with hold | ⟨rfl, hinsert, -⟩
    · exact (hother (hI.rows_inserted r hold)).2
    · exact ⟨_, MediaState.setUpload_self .., hinsert⟩
  · rcases UploadCall.mem_rows_effect hstage hr with hold | ⟨rfl, -, hfiles⟩
    · rw [show filesOf (MediaState.setUpload _ _ _).disk r.stem r.format = _ from
        UploadCall.filesOf_effect (hother (hI.rows_inserted r hold)).1 up s call outcome r.format]
      exact hI.rows_complete r hold
    · exact hfiles
  · show ((call.effect stem up s outcome).rows.map MediaRecord.stem).Nodup
    cases hinsert : call == .insert && outcome == .done with
    | false =>
        rw [UploadCall.rows_effect hinsert]
        exact hI.rows_distinct
    | true =>
        simp only [Bool.and_eq_true, beq_iff_eq] at hinsert
        obtain ⟨rfl, rfl⟩ := hinsert
        show ((s.rows ++ [_]).map MediaRecord.stem).Nodup
        rw [List.map_append, List.nodup_append]
        refine ⟨hI.rows_distinct, List.nodup_singleton _, fun a ha b hb => ?_⟩
        obtain ⟨r, hr, rfl⟩ := List.mem_map.mp ha
        obtain rfl := List.mem_singleton.mp hb
        exact (hother (hI.rows_inserted r hr)).1
  · rw [show (MediaState.setUpload _ _ _).deletions = _ from hdeletions] at hd
    have hknows := hI.records d deletion hd
    refine ⟨(hother hknows.inserted).2, fun r hr hsame => ?_, fun dcall hdcall hpast r hr => ?_⟩
    · rcases UploadCall.mem_rows_effect hstage hr with hold | ⟨hnew, -⟩
      · exact hknows.only r hold hsame
      · exact absurd (hsame.symm.trans hnew) (hrecord d deletion hd)
    · rcases UploadCall.mem_rows_effect hstage hr with hold | ⟨hnew, -⟩
      · exact hknows.gone dcall hdcall hpast r hold
      · rw [hnew]
        exact (hrecord d deletion hd).symm

theorem Inv.delete {s : MediaState} (hI : Inv s) {organization : Text} {id : ℕ}
    {record : MediaRecord} (hfind : s.findById organization id = some record) (d : ℕ) :
    Inv (s.setDeletion d ⟨record, .running .deleteRow⟩) := by
  have hmem : record ∈ s.rows := List.mem_of_find?_eq_some hfind
  have hfound : Knows s ⟨record, .running .deleteRow⟩ :=
    { inserted := hI.rows_inserted record hmem
      only := fun _ hr hsame => List.inj_on_of_nodup_map hI.rows_distinct hr hmem hsame
      gone := fun call hcall hpast => absurd (Option.some_inj.mp hcall).symm hpast }
  exact
    { stage := hI.stage
      rows_inserted := hI.rows_inserted
      rows_complete := hI.rows_complete
      rows_distinct := hI.rows_distinct
      records := fun d' deletion hd =>
        (forall_setDeletion (P := Knows s) hfound hI.records d' deletion hd).setDeletion .. }

theorem Inv.dropDelete {s : MediaState} (hI : Inv s) {d : ℕ} {deletion : Deletion}
    {call : DeleteCall} (hd : s.deletions d = some deletion)
    (hrunning : deletion.activity = .running call) :
    Inv (s.setDeletion d { deletion with activity := .abandoned call }) := by
  have hknows : Knows s { deletion with activity := .abandoned call } :=
    { hI.records d deletion hd with
      gone := fun call' hcall => (hI.records d deletion hd).gone call' (by
        rw [hrunning]
        exact hcall) }
  exact
    { stage := hI.stage
      rows_inserted := hI.rows_inserted
      rows_complete := hI.rows_complete
      rows_distinct := hI.rows_distinct
      records := fun d' deletion' hd' =>
        (forall_setDeletion (P := Knows s) hknows hI.records d' deletion' hd').setDeletion .. }

/-- The files of a row are not touched before the row is gone. -/
theorem Inv.rows_ne_of_remove {s : MediaState} (hI : Inv s) {d : ℕ} {deletion : Deletion}
    {call : DeleteCall} (hd : s.deletions d = some deletion)
    (hcall : deletion.activity.call? = some call) (outcome : Outcome)
    {r : MediaRecord} (hr : r ∈ s.rows) :
    filesOf (call.effect deletion.record s outcome).disk r.stem r.format =
      filesOf s.disk r.stem r.format := by
  by_cases hrow : call = .deleteRow
  · subst hrow
    cases outcome <;> rfl
  · exact DeleteCall.filesOf_effect ((hI.records d deletion hd).gone call hcall hrow r hr) ..

/-- When the handler goes on to the files, no row has them. -/
theorem Inv.gone_next {s : MediaState} (hI : Inv s) {d : ℕ} {deletion : Deletion}
    {call next : DeleteCall} (hd : s.deletions d = some deletion)
    (hcall : deletion.activity.call? = some call) (outcome : Outcome)
    (hnext : (call.next deletion.record s outcome).call? = some next)
    {r : MediaRecord} (hr : r ∈ (call.effect deletion.record s outcome).rows) :
    r.stem ≠ deletion.record.stem := by
  by_cases hrow : call = .deleteRow
  · subst hrow
    cases outcome with
    | done =>
        obtain ⟨hold, hkept⟩ := List.mem_filter.mp hr
        intro hsame
        have heq := (hI.records d deletion hd).only r hold hsame
        simp [heq] at hkept
    | _ => cases hnext
  · exact (hI.records d deletion hd).gone call hcall hrow r (DeleteCall.rows_effect hr)

theorem Inv.deleteCall {s : MediaState} (hI : Inv s) {d : ℕ} {deletion : Deletion}
    {call : DeleteCall} (hd : s.deletions d = some deletion)
    (hcall : deletion.activity.call? = some call) (outcome : Outcome) :
    Inv ((call.effect deletion.record s outcome).setDeletion d
      { deletion with
        activity := deletion.activity.resume (call.next deletion.record s outcome) }) := by
  have hinserted : ∀ {stem}, Inserted s stem → Inserted
      ((call.effect deletion.record s outcome).setDeletion d { deletion with
        activity := deletion.activity.resume (call.next deletion.record s outcome) }) stem := by
    rintro stem ⟨up, hup, htrue⟩
    refine ⟨up, ?_, htrue⟩
    show (call.effect deletion.record s outcome).uploads stem = some up
    rw [DeleteCall.uploads_effect, hup]
  have hdeletions : (call.effect deletion.record s outcome).deletions = s.deletions :=
    DeleteCall.deletions_effect ..
  refine
    { stage := fun stem up hup => ?_
      rows_inserted := fun r hr => hinserted (hI.rows_inserted r (DeleteCall.rows_effect hr))
      rows_complete := fun r hr => ?_
      rows_distinct := ?_
      records := forall_setDeletion (P := Knows _) ?_ fun d' deletion' hd' => ?_ }
  · rw [show (MediaState.setDeletion _ _ _).uploads = _ from DeleteCall.uploads_effect ..] at hup
    have hstage := hI.stage stem up hup
    cases hactive : up.activity.call? with
    | none =>
        unfold Upload.Stage
        rw [hactive]
        trivial
    | some active =>
        -- an upload at a call is not the one whose row was deleted
        have hne : stem ≠ deletion.record.stem :=
          (hI.ne_of_inserted hup hactive (hI.records d deletion hd).inserted).symm
        rw [show filesOf (MediaState.setDeletion _ _ _).disk stem up.format = _ from
          DeleteCall.filesOf_effect hne s call outcome up.format]
        exact hstage
  · have hold := DeleteCall.rows_effect hr
    rw [show filesOf (MediaState.setDeletion _ _ _).disk r.stem r.format = _ from
      hI.rows_ne_of_remove hd hcall outcome hold]
    exact hI.rows_complete r hold
  · have hsub : (call.effect deletion.record s outcome).rows.Sublist s.rows := by
      cases call <;> cases outcome <;> first | exact List.Sublist.refl _ | exact List.filter_sublist
    exact (hsub.map MediaRecord.stem).nodup hI.rows_distinct
  · refine ⟨hinserted (hI.records d deletion hd).inserted, fun r hr =>
      (hI.records d deletion hd).only r (DeleteCall.rows_effect hr), fun next hnext _ r hr => ?_⟩
    have hresumed : (deletion.activity.resume (call.next deletion.record s outcome)).call? =
      some next := hnext
    cases hactivity : deletion.activity with
    | running _ =>
        rw [hactivity] at hresumed
        exact hI.gone_next hd hcall outcome hresumed hr
    | abandoned _ =>
        rw [hactivity] at hresumed
        cases hresumed
    | ended =>
        rw [hactivity] at hresumed
        cases hresumed
  · rw [hdeletions] at hd'
    have hknows := hI.records d' deletion' hd'
    exact ⟨hinserted hknows.inserted, fun r hr => hknows.only r (DeleteCall.rows_effect hr),
      fun next hnext hpast r hr => hknows.gone next hnext hpast r (DeleteCall.rows_effect hr)⟩

theorem Inv.step {s t : MediaState} (hI : Inv s) {e : Event} (h : step s e = some t) : Inv t := by
  cases e with
  | upload stem format organization =>
      obtain ⟨hunused, rfl⟩ := step_upload h
      exact hI.upload hunused format organization
  | uploadCall stem outcome =>
      obtain ⟨up, call, hup, hcall, -, -, rfl⟩ := step_uploadCall h
      exact hI.uploadCall hup hcall outcome
  | dropUpload stem =>
      obtain ⟨up, call, hup, hrunning, rfl⟩ := step_dropUpload h
      exact hI.dropUpload hup hrunning
  | delete d organization id =>
      rcases step_delete h with rfl | ⟨record, hfind, rfl⟩
      · exact hI
      · exact hI.delete hfind d
  | deleteCall d outcome =>
      obtain ⟨deletion, call, hd, hcall, rfl⟩ := step_deleteCall h
      exact hI.deleteCall hd hcall outcome
  | dropDelete d =>
      obtain ⟨deletion, call, hd, hrunning, rfl⟩ := step_dropDelete h
      exact hI.dropDelete hd hrunning

theorem inv_init : Inv .init where
  stage := fun _ _ h => absurd h (Option.some_ne_none _).symm
  rows_inserted := fun _ h => absurd h List.not_mem_nil
  rows_complete := fun _ h => absurd h List.not_mem_nil
  rows_distinct := List.nodup_nil
  records := fun _ _ h => absurd h (Option.some_ne_none _).symm

/-! ## What an upload leaves -/

/-- The call ends with nothing of the upload left behind it, or with the row in. -/
def endsTidily (outcome : Outcome) : Activity UploadCall → Bool
  | .running _ => outcome != .torn
  | .abandoned .writeOriginal => outcome == .failed || outcome == .never
  | .abandoned _ => outcome == .done
  | .ended => true

/-- No write leaves a part of its file; a future is not dropped between the first file's
write or removal and the second's; and what a dropped future was waiting for takes effect,
but for the first write, which does not. -/
def tidy (s : MediaState) : Event → Bool
  | .uploadCall stem outcome => (s.uploads stem).all fun up => endsTidily outcome up.activity
  | .dropUpload stem => (s.uploads stem).all fun up =>
      up.activity != .running .writeThumb && up.activity != .running .rollOriginal
  | _ => true

/-- The files of an upload that may still end without a row. -/
def CleanAt (inserted : Bool) (files : Option Contents × Option Contents) :
    Activity UploadCall → Prop
  | .running .writeOriginal | .abandoned .writeOriginal => files = (none, none)
  | .running .writeThumb | .running .undoOriginal | .abandoned .undoOriginal => files.2 = none
  | .running .rollThumb | .abandoned .rollThumb => files.1 = none
  | .abandoned .writeThumb | .abandoned .rollOriginal => False
  | .ended => inserted = false → files = (none, none)
  | _ => True

structure Clean (s : MediaState) : Prop where
  unused : ∀ stem, s.uploads stem = none → ∀ format, filesOf s.disk stem format = (none, none)
  uploads : ∀ stem up, s.uploads stem = some up →
    CleanAt up.inserted (filesOf s.disk stem up.format) up.activity

theorem cleanAt_running {files : Option Contents × Option Contents} {call : UploadCall}
    {inserted : Bool} {outcome : Outcome} (h : CleanAt inserted files (.running call))
    (hpossible : call.possible outcome = true) (hnever : outcome ≠ .never)
    (htorn : outcome ≠ .torn) :
    CleanAt (call == .insert && outcome == .done) (call.onFiles files outcome)
      (call.next outcome) := by
  cases outcome with
  | never => exact absurd rfl hnever
  | torn => exact absurd rfl htorn
  | done =>
      cases call with
      | writeOriginal => exact (Prod.ext_iff.mp h).2
      | writeThumb => trivial
      | insert => exact fun hnot => absurd hnot (by decide)
      | undoOriginal => exact fun _ => Prod.ext rfl h
      | rollOriginal => exact rfl
      | rollThumb => exact fun _ => Prod.ext h rfl
  | failed =>
      cases call with
      | writeOriginal => exact fun _ => h
      | writeThumb => exact h
      | insert => trivial
      | _ => cases hpossible

theorem cleanAt_abandoned {files : Option Contents × Option Contents} {call : UploadCall}
    {inserted : Bool} {outcome : Outcome} (h : CleanAt inserted files (.abandoned call))
    (htidy : endsTidily outcome (.abandoned call) = true) :
    CleanAt (call == .insert && outcome == .done) (call.onFiles files outcome) .ended := by
  cases call with
  | writeOriginal =>
      intro _
      cases outcome with
      | failed => exact h
      | never => exact h
      | _ => cases htidy
  | writeThumb => exact h.elim
  | rollOriginal => exact h.elim
  | insert =>
      obtain rfl : outcome = .done := beq_iff_eq.mp htidy
      exact fun hnot => absurd hnot (by decide)
  | undoOriginal =>
      obtain rfl : outcome = .done := beq_iff_eq.mp htidy
      exact fun _ => Prod.ext rfl h
  | rollThumb =>
      obtain rfl : outcome = .done := beq_iff_eq.mp htidy
      exact fun _ => Prod.ext h rfl

theorem Clean.uploadCall {s : MediaState} (hC : Clean s) {stem : Stem} {up : Upload}
    {call : UploadCall} {outcome : Outcome} (hup : s.uploads stem = some up)
    (hcall : up.activity.call? = some call) (hmay : up.activity.mayEnd outcome = true)
    (hpossible : call.possible outcome = true) (htidy : endsTidily outcome up.activity = true) :
    Clean ((call.effect stem up s outcome).setUpload stem (up.resume call outcome)) := by
  have hself : CleanAt (call == .insert && outcome == .done)
      (call.onFiles (filesOf s.disk stem up.format) outcome)
      (up.activity.resume (call.next outcome)) := by
    have h := hC.uploads stem up hup
    cases hactivity : up.activity with
    | ended =>
        rw [hactivity] at hcall
        cases hcall
    | running _ =>
        rw [hactivity] at h hcall hmay htidy
        cases hcall
        exact cleanAt_running h hpossible (bne_iff_ne.mp hmay) (bne_iff_ne.mp htidy)
    | abandoned _ =>
        rw [hactivity] at h hcall htidy
        cases hcall
        exact cleanAt_abandoned h htidy
  refine ⟨fun stem' hunused format => ?_, forall_setUpload ?_ fun stem' up' hne hup' => ?_⟩
  · have hne : stem' ≠ stem := by
      rintro rfl
      rw [MediaState.setUpload_self] at hunused
      cases hunused
    rw [MediaState.setUpload_of_ne _ hne, UploadCall.uploads_effect] at hunused
    rw [show filesOf (MediaState.setUpload _ _ _).disk stem' format = _ from
      UploadCall.filesOf_effect hne up s call outcome format]
    exact hC.unused stem' hunused format
  · rw [← UploadCall.filesOf_effect_self stem up s call outcome] at hself
    exact hself
  · rw [UploadCall.uploads_effect] at hup'
    rw [show filesOf (MediaState.setUpload _ _ _).disk stem' up'.format = _ from
      UploadCall.filesOf_effect hne up s call outcome up'.format]
    exact hC.uploads stem' up' hup'

/-- A delete's calls touch the files of an upload whose row went in. -/
theorem Clean.deleteCall {s : MediaState} (hI : Inv s) (hC : Clean s) {d : ℕ} {deletion : Deletion}
    (hd : s.deletions d = some deletion) (call : DeleteCall) (outcome : Outcome)
    (deletion' : Deletion) :
    Clean ((call.effect deletion.record s outcome).setDeletion d deletion') := by
  obtain ⟨known, hknown, htrue⟩ := (hI.records d deletion hd).inserted
  refine ⟨fun stem hunused format => ?_, fun stem up hup => ?_⟩
  · rw [show (MediaState.setDeletion _ _ _).uploads = _ from DeleteCall.uploads_effect ..] at hunused
    have hne : stem ≠ deletion.record.stem := by
      rintro rfl
      rw [hknown] at hunused
      cases hunused
    rw [show filesOf (MediaState.setDeletion _ _ _).disk stem format = _ from
      DeleteCall.filesOf_effect hne s call outcome format]
    exact hC.unused stem hunused format
  · rw [show (MediaState.setDeletion _ _ _).uploads = _ from DeleteCall.uploads_effect ..] at hup
    by_cases hne : stem = deletion.record.stem
    · subst hne
      rw [hknown] at hup
      cases hup
      have hover : known.activity.call? = none := by
        by_contra hnot
        obtain ⟨active, hactive⟩ := Option.ne_none_iff_exists'.mp hnot
        rw [(hI.stage _ known hknown).not_inserted hactive] at htrue
        cases htrue
      cases hactivity : known.activity with
      | ended =>
          intro hnot
          rw [htrue] at hnot
          cases hnot
      | _ =>
          rw [hactivity] at hover
          cases hover
    · rw [show filesOf (MediaState.setDeletion _ _ _).disk stem up.format = _ from
        DeleteCall.filesOf_effect hne s call outcome up.format]
      exact hC.uploads stem up hup

theorem Clean.step {s t : MediaState} (hI : Inv s) (hC : Clean s) {e : Event}
    (htidy : tidy s e = true) (h : step s e = some t) : Clean t := by
  cases e with
  | upload stem format organization =>
      obtain ⟨hunused, rfl⟩ := step_upload h
      refine ⟨fun stem' hstem' format' => ?_, forall_setUpload ?_ fun stem' up _ hup => ?_⟩
      · have hne : stem' ≠ stem := by
          rintro rfl
          rw [MediaState.setUpload_self] at hstem'
          cases hstem'
        rw [MediaState.setUpload_of_ne _ hne] at hstem'
        exact hC.unused stem' hstem' format'
      · exact hC.unused stem hunused format
      · exact hC.uploads stem' up hup
  | uploadCall stem outcome =>
      obtain ⟨up, call, hup, hcall, hmay, hpossible, rfl⟩ := step_uploadCall h
      rw [tidy, hup] at htidy
      exact hC.uploadCall hup hcall hmay hpossible htidy
  | dropUpload stem =>
      obtain ⟨up, call, hup, hrunning, rfl⟩ := step_dropUpload h
      rw [tidy, hup, Option.all_some, hrunning] at htidy
      have hbefore := hC.uploads stem up hup
      rw [hrunning] at hbefore
      refine ⟨fun stem' hstem' format => ?_, forall_setUpload ?_ fun stem' up' _ hup' => ?_⟩
      · by_cases hne : stem' = stem
        · subst hne
          rw [MediaState.setUpload_self] at hstem'
          cases hstem'
        · rw [MediaState.setUpload_of_ne _ hne] at hstem'
          exact hC.unused stem' hstem' format
      · cases call with
        | writeThumb => cases htidy
        | rollOriginal => cases htidy
        | _ => exact hbefore
      · exact hC.uploads stem' up' hup'
  | delete d organization id =>
      rcases step_delete h with rfl | ⟨record, -, rfl⟩
      · exact hC
      · exact ⟨hC.unused, hC.uploads⟩
  | deleteCall d outcome =>
      obtain ⟨deletion, call, hd, -, rfl⟩ := step_deleteCall h
      exact hC.deleteCall hI hd call outcome _
  | dropDelete d =>
      obtain ⟨deletion, call, -, -, rfl⟩ := step_dropDelete h
      exact ⟨hC.unused, hC.uploads⟩

theorem clean_init : Clean .init where
  unused := fun _ _ _ => rfl
  uploads := fun _ _ h => absurd h (Option.some_ne_none _).symm

/-- **In every run every row has both of its files**, whatever fails and whenever a
future is dropped. -/
theorem throughout_rowsComplete (events : List Event) :
    Throughout Media.step RowsComplete .init events := by
  intro pre t _ hrun
  have hI := run_invariant Media.step (fun _ _ _ hI h => Inv.step hI h) inv_init hrun
  exact fun r hr => Prod.ext_iff.mp (hI.rows_complete r hr)

/-- **Rows and files stay in step** in every run, and in the runs whose steps are all tidy
nothing is left of an upload that ended without a row. -/
theorem media_in_step (events : List Event) :
    Throughout Media.step RowsComplete .init events ∧
      (EachStep Media.step (fun s e => tidy s e = true) .init events →
        Throughout Media.step NothingLeft .init events) := by
  refine ⟨throughout_rowsComplete events, fun htidy => ?_⟩
  have hboth := throughout_of_eachStep Media.step (I := fun s => Inv s ∧ Clean s)
    (fun s e t h htidy hstep => ⟨h.1.step hstep, h.2.step h.1 htidy hstep⟩)
    ⟨inv_init, clean_init⟩ htidy
  refine hboth.mono Media.step fun t ht stem up hup hover hnot => ?_
  have hclean := ht.2.uploads stem up hup
  rw [hover] at hclean
  exact Prod.ext_iff.mp (hclean hnot)

/-! ## Runs -/

def stemOf (c : Char) (h : c.isDigit = true) : Stem where
  text := List.replicate 32 c
  length_text := List.length_replicate
  hex := fun d hd => Or.inl (by rw [List.eq_of_mem_replicate hd]; exact h)

/-- One upload goes in and is deleted, another fails at the insert and is rolled back. -/
def tidyRun : List Event :=
  let first := stemOf '0' (by decide)
  let second := stemOf '1' (by decide)
  [.upload first .png [], .uploadCall first .done, .uploadCall first .done,
    .uploadCall first .done, .upload second .jpeg [], .uploadCall second .done,
    .delete 0 [] 1, .uploadCall second .done, .deleteCall 0 .done, .uploadCall second .failed,
    .deleteCall 0 .done, .uploadCall second .done, .dropUpload second, .uploadCall second .done]

theorem media_in_step_tidyRun : Throughout Media.step NothingLeft .init tidyRun :=
  (media_in_step tidyRun).2 (eachStep_of_check Media.step (by decide +kernel))

/-- A write fails half-way and its part of the file stays; and a future dropped while the
thumbnail is written leaves the original. -/
theorem upload_leaves_files :
    ∃ s t, run Media.step .init [.upload (stemOf '0' (by decide)) .png [],
        .uploadCall (stemOf '0' (by decide)) .torn] = some s ∧ ¬NothingLeft s ∧
      run Media.step .init [.upload (stemOf '0' (by decide)) .png [],
        .uploadCall (stemOf '0' (by decide)) .done, .dropUpload (stemOf '0' (by decide)),
        .uploadCall (stemOf '0' (by decide)) .never] = some t ∧ ¬NothingLeft t := by
  refine ⟨_, _, rfl, fun h => ?_, rfl, fun h => ?_⟩
  · have := (h (stemOf '0' (by decide)) _ rfl rfl rfl).1
    exact absurd this (by decide)
  · have := (h (stemOf '0' (by decide)) _ rfl rfl rfl).1
    exact absurd this (by decide)

end Wallermax.Content.Media
