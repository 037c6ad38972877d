import Wallermax.Manager.ConfigRuns

/-!
# One edit alone

The file operations of a single `set_values` with no other call between them. The call ends
well only with the edited layer in place, validated against the other; it ends badly with
both layers as they were; and where the edit is made and is valid it can end well.
-/

namespace Wallermax.Manager

open Wallermax.Base

/-! ## Runs of one call -/

/-- Where the operations of a call lead, the clock and the disk answering as they like. -/
inductive Alone (valid : Text → Text → Bool) (disk : Disk) (phase : Phase) : Phase → Disk → Prop where
  | start : Alone valid disk phase phase disk
  | op {next next' : Phase} {disk' disk'' : Disk} (stamp n : ℕ) (io : Io)
      (h : Alone valid disk phase next disk')
      (hop : next.advance valid disk' stamp n io = some (next', disk'')) :
      Alone valid disk phase next' disk''

/-- A directory: some time stamp is on no backup yet. -/
structure Directory : Type where
  disk : Disk
  free : ∀ which, ∃ stamp, disk (backupName which stamp 1) = none

section

variable {valid : Text → Text → Bool} {disk : Disk} {which : ConfigWhich}
  {edit : Text → Option Text}

/-- The job of the call: the edited layer beside the other as it is. -/
structure Edits (valid : Text → Text → Bool) (disk : Disk) (which : ConfigWhich)
    (edit : Text → Option Text) (job : Job) : Prop where
  edited : edit (readLayer disk which) = some job.content
  pair : job = jobOf disk job.content (readLayer disk .base) which
  accepted : job.accepted valid = true

/-- What a call that edits a layer is about at each operation. -/
def Phase.Edits (valid : Text → Text → Bool) (disk : Disk) (which : ConfigWhich)
    (edit : Text → Option Text) (now : Disk) : Phase → Prop
  | readDocument which' edit' => which' = which ∧ edit' = edit
  | readBackup _ _ => False
  | readBase which' content => which' = which ∧ edit (readLayer disk which) = some content
  | readLocal which' content base =>
    which' = which ∧ edit (readLayer disk which) = some content ∧ base = readLayer disk .base
  | backUp job => Manager.Edits valid disk which edit job
  | copy job _ => Manager.Edits valid disk which edit job
  | writeTemp job _ => Manager.Edits valid disk which edit job
  | rename job _ temp => Manager.Edits valid disk which edit job ∧ now temp = some job.content
  | returned ok => ok = true → ∃ job, Manager.Edits valid disk which edit job ∧
      now (fileName which) = some job.content

theorem jobOf_which (disk : Disk) (content base : Text) (which : ConfigWhich) :
    (jobOf disk content base which).which = which ∧
      (jobOf disk content base which).content = content := by
  cases which <;> exact ⟨rfl, rfl⟩

theorem Edits.which_eq {job : Job} (h : Edits valid disk which edit job) : job.which = which := by
  rw [h.pair]
  exact (jobOf_which _ _ _ _).1

/-- What an operation of the call is about. -/
theorem Phase.advance_edits {phase next : Phase} {now now' : Disk} {stamp n : ℕ} {io : Io}
    (hsame : ∀ which', now (fileName which') = disk (fileName which'))
    (hphase : phase.Edits valid disk which edit now)
    (h : phase.advance valid now stamp n io = some (next, now')) :
    next.Edits valid disk which edit now' := by
  have hread : ∀ which', readLayer now which' = readLayer disk which' := by
    intro which'
    unfold readLayer
    rw [hsame]
  have hfailed : ∀ now', (Phase.returned false).Edits valid disk which edit now' :=
    fun _ hfalse => Bool.noConfusion hfalse
  cases phase with
  | readDocument which' edit' =>
      obtain ⟨rfl, rfl⟩ := hphase
      simp only [Phase.advance] at h
      split at h
      · rename_i content hedit
        cases h
        exact ⟨rfl, hread which' ▸ hedit⟩
      · cases h
        exact hfailed _
  | readBackup which' file => exact hphase.elim
  | readBase which' content =>
      simp only [Phase.advance] at h
      split at h
      · cases h
        exact ⟨hphase.1, hphase.2, hread .base⟩
      · cases h
        exact hfailed _
  | readLocal which' content base =>
      obtain ⟨rfl, hedit, rfl⟩ := hphase
      have hjob : jobOf now content (readLayer disk .base) which' =
          jobOf disk content (readLayer disk .base) which' := by
        cases which' with
        | base => rw [jobOf, jobOf, hread]
        | localLayer => rfl
      obtain ⟨-, hcontent⟩ := jobOf_which disk content (readLayer disk .base) which'
      simp only [Phase.advance] at h
      split at h
      · cases h
        rw [hjob]
        rcases validated_cases valid (jobOf disk content (readLayer disk .base) which')
          with ⟨heq, haccepted⟩ | heq
        · rw [heq]
          exact ⟨by rw [hcontent, hedit], by rw [hcontent], haccepted⟩
        · rw [heq]
          exact hfailed _
      · cases h
        exact hfailed _
  | backUp job =>
      simp only [Phase.advance] at h
      split at h
      · cases h
        exact hphase
      · split at h
        · cases h
          exact hphase
        · cases h
  | copy job candidate =>
      simp only [Phase.advance] at h
      split at h
      · cases h
        exact hphase
      · cases h
        exact hfailed _
      · cases h
        exact hfailed _
  | writeTemp job saved =>
      simp only [Phase.advance] at h
      split at h
      · cases h
        exact ⟨hphase, Function.update_self ..⟩
      · cases h
        exact hfailed _
  | rename job saved temp =>
      obtain ⟨hjob, htemp⟩ := hphase
      simp only [Phase.advance] at h
      split at h
      · rename_i content hcontent
        cases h
        refine fun _ => ⟨job, hjob, ?_⟩
        rw [← hjob.which_eq, Function.update_self, ← hcontent, htemp]
      · cases h
        exact hfailed _
  | returned ok => cases h

/-- **What a call alone leaves**: the layers as they were until it ends well, and then the
edited layer. -/
theorem Alone.edits {phase : Phase} {now : Disk}
    (h : Alone valid disk (.readDocument which edit) phase now) :
    phase.Named ∧ phase.Edits valid disk which edit now ∧
      (phase ≠ .returned true → ∀ which', now (fileName which') = disk (fileName which')) := by
  induction h with
  | start => exact ⟨trivial, ⟨rfl, rfl⟩, fun _ _ => rfl⟩
  | @op next next' disk' disk'' stamp n io _ hop ih =>
      obtain ⟨hnamed, hedits, hsame⟩ := ih
      have hrunning : next ≠ .returned true := by
        rintro rfl
        cases hop
      have hlayers := hsame hrunning
      refine ⟨Phase.advance_named hnamed hop, Phase.advance_edits hlayers hedits hop, ?_⟩
      intro hnot which'
      rw [(Phase.advance_effect hop).layers hnamed hnot which', hlayers which']

/-- A call that ends badly changes neither layer. -/
theorem Alone.error {now : Disk}
    (h : Alone valid disk (.readDocument which edit) (.returned false) now) (which' : ConfigWhich) :
    now (fileName which') = disk (fileName which') :=
  h.edits.2.2 (by simp) which'

/-- A call that ends well leaves the edited layer. -/
theorem Alone.wrote {now : Disk}
    (h : Alone valid disk (.readDocument which edit) (.returned true) now) :
    ∃ content, edit (readLayer disk which) = some content ∧
      (jobOf disk content (readLayer disk .base) which).accepted valid = true ∧
      now (fileName which) = some content := by
  obtain ⟨job, hjob, hnow⟩ := h.edits.2.1 rfl
  exact ⟨job.content, hjob.edited, hjob.pair ▸ hjob.accepted, hnow⟩

end

/-! ## A run that ends well -/

/-- **An edit that is made and valid can be written.** -/
theorem exists_wrote {valid : Text → Text → Bool} (dir : Directory) {which : ConfigWhich}
    (edit : Text → Option Text) {content : Text}
    (hedit : edit (readLayer dir.disk which) = some content)
    (hvalid : (jobOf dir.disk content (readLayer dir.disk .base) which).accepted valid = true) :
    ∃ now, Alone valid dir.disk (.readDocument which edit) (.returned true) now := by
  obtain ⟨stamp, hfree⟩ := dir.free which
  obtain ⟨job, hjob⟩ : ∃ job, jobOf dir.disk content (readLayer dir.disk .base) which = job :=
    ⟨_, rfl⟩
  have hwhich : job.which = which := hjob ▸ (jobOf_which dir.disk content _ which).1
  rw [hjob] at hvalid
  have hbase : Alone valid dir.disk (.readDocument which edit) (.readBase which content)
      dir.disk := by
    refine .op 0 0 .ok .start ?_
    simp only [Phase.advance, hedit]
  have hlocal : Alone valid dir.disk (.readDocument which edit)
      (.readLocal which content (readLayer dir.disk .base)) dir.disk :=
    .op 0 0 .ok hbase rfl
  have hbackUp : Alone valid dir.disk (.readDocument which edit) (.backUp job) dir.disk := by
    refine .op 0 0 .ok hlocal ?_
    simp only [Phase.advance, validated, hjob, if_pos hvalid]
  -- with a file in place its copy comes first
  have hwrite : ∃ saved now, Alone valid dir.disk (.readDocument which edit)
      (.writeTemp job saved) now := by
    cases hfile : dir.disk (fileName which) with
    | none =>
        refine ⟨none, dir.disk, .op 0 0 .ok hbackUp ?_⟩
        simp only [Phase.advance, hwhich, hfile, Option.isNone_none, if_true]
    | some old =>
        have hcandidate : isCandidate dir.disk which stamp 1 = true := by
          simp [isCandidate, hfree]
        have hcopy : Alone valid dir.disk (.readDocument which edit)
            (.copy job (backupName which stamp 1)) dir.disk := by
          refine .op stamp 1 .ok hbackUp ?_
          simp only [Phase.advance, hwhich, hfile, Option.isNone_some, Bool.false_eq_true,
            if_false, hcandidate, if_true]
        refine ⟨some (backupName which stamp 1, old),
          Function.update dir.disk (backupName which stamp 1) (some old), .op 0 0 .ok hcopy ?_⟩
        simp only [Phase.advance, hwhich, hfile]
  obtain ⟨saved, now, hwrite⟩ := hwrite
  have hrename : Alone valid dir.disk (.readDocument which edit)
      (.rename job saved (tempName job.which 0))
      (Function.update now (tempName job.which 0) (some job.content)) :=
    .op 0 0 .ok hwrite rfl
  have hdone : ∃ now', (Phase.rename job saved (tempName job.which 0)).advance valid
      (Function.update now (tempName job.which 0) (some job.content)) 0 0 .ok =
      some (.returned true, now') := by
    simp only [Phase.advance, Function.update_self]
    exact ⟨_, rfl⟩
  obtain ⟨now', hdone⟩ := hdone
  exact ⟨now', .op 0 0 .ok hrename hdone⟩

end Wallermax.Manager
