import Wallermax.Manager.ConfigFiles

/-!
# What interleaved edits leave on disk

A step changes a layer only as the rename that ends a call well, so an error changes
nothing. Where no other call comes between, the pair a rename leaves is the one that was
validated, and the text it replaces is the one that was copied; a copy under a free name
overwrites no earlier backup.
-/

namespace Wallermax.Manager

open Wallermax.Base

/-! ## Names -/

theorem append_ne_of_not_prefix {p q x y : Text} (hpq : ¬p <+: q) (hqp : ¬q <+: p) :
    p ++ x ≠ q ++ y := by
  intro h
  rcases List.prefix_or_prefix_of_prefix (List.prefix_append p x)
    (h ▸ List.prefix_append q y) with hp | hq
  · exact hpq hp
  · exact hqp hq

theorem fileName_ne_backupName (which which' : ConfigWhich) (stamp n : ℕ) :
    fileName which ≠ backupName which' stamp n := by
  intro h
  have hpre : backupPrefix which' <+: fileName which := by
    rw [h]
    exact List.prefix_append ..
  revert hpre
  cases which <;> cases which' <;> decide

theorem fileName_ne_tempName (which which' : ConfigWhich) (stamp : ℕ) :
    fileName which ≠ tempName which' stamp := by
  intro h
  have hpre : tempPrefix which' <+: fileName which := by
    rw [h]
    exact List.prefix_append ..
  revert hpre
  cases which <;> cases which' <;> decide

theorem backupName_ne_tempName (which which' : ConfigWhich) (stamp n stamp' : ℕ) :
    backupName which stamp n ≠ tempName which' stamp' := by
  refine append_ne_of_not_prefix ?_ ?_
  · cases which <;> cases which' <;> decide
  · cases which <;> cases which' <;> decide

theorem fileName_inj {which which' : ConfigWhich} (h : fileName which = fileName which') :
    which = which' := by
  revert h
  cases which <;> cases which' <;> decide

theorem ConfigWhich.other_ne (which : ConfigWhich) : which.other ≠ which := by
  cases which <;> decide

/-! ## What a call does -/

/-- The names a call writes to are its own kind's. -/
def Phase.Named : Phase → Prop
  | copy job candidate => ∃ stamp n, candidate = backupName job.which stamp n
  | rename job _ temp => ∃ stamp, temp = tempName job.which stamp
  | _ => True

/-- What a file operation does to the disk. -/
inductive DiskEffect (disk : Disk) : Phase → Phase → Disk → Prop where
  | same {phase next : Phase} (h : next ≠ .returned true) : DiskEffect disk phase next disk
  | backup {job : Job} {candidate : Text} {next : Phase} (file : Text)
      (h : next ≠ .returned true) :
      DiskEffect disk (.copy job candidate) next (Function.update disk candidate (some file))
  | temp {job : Job} {saved : Option (Text × Text)} {next : Phase} (stamp : ℕ) (file : Text)
      (h : next ≠ .returned true) :
      DiskEffect disk (.writeTemp job saved) next
        (Function.update disk (tempName job.which stamp) (some file))
  | rename {job : Job} {saved : Option (Text × Text)} {temp content : Text}
      (h : disk temp = some content) :
      DiskEffect disk (.rename job saved temp) (.returned true)
        (Function.update (Function.update disk temp none) (fileName job.which) (some content))

section

variable {valid : Text → Text → Bool} {disk disk' : Disk} {phase next : Phase} {stamp n : ℕ}
  {io : Io}

theorem validated_cases (valid : Text → Text → Bool) (job : Job) :
    validated valid job = .backUp job ∧ job.accepted valid = true ∨
      validated valid job = .returned false := by
  unfold validated
  split
  · exact Or.inl ⟨rfl, ‹_›⟩
  · exact Or.inr rfl

theorem DiskEffect.copy_leave {job : Job} {candidate : Text} (left : Option Text) :
    DiskEffect disk (.copy job candidate) (.returned false) (leave disk candidate left) := by
  cases left with
  | none => exact .same (by simp)
  | some junk => exact .backup junk (by simp)

theorem DiskEffect.temp_leave {job : Job} {saved : Option (Text × Text)} (stamp : ℕ)
    (left : Option Text) :
    DiskEffect disk (.writeTemp job saved) (.returned false)
      (leave disk (tempName job.which stamp) left) := by
  cases left with
  | none => exact .same (by simp)
  | some junk => exact .temp stamp junk (by simp)

theorem Phase.advance_effect
    (h : phase.advance valid disk stamp n io = some (next, disk')) :
    DiskEffect disk phase next disk' := by
  cases phase with
  | readDocument which edit =>
      simp only [Phase.advance] at h
      split at h <;> cases h <;> exact .same (by simp)
  | readBackup which file =>
      simp only [Phase.advance] at h
      split at h <;> cases h <;> exact .same (by simp)
  | readBase which content =>
      simp only [Phase.advance] at h
      split at h <;> cases h <;> exact .same (by simp)
  | readLocal which content base =>
      simp only [Phase.advance] at h
      split at h
      · cases h
        refine .same ?_
        rcases validated_cases valid (jobOf disk content base which) with ⟨heq, -⟩ | heq
        · simp [heq]
        · simp [heq]
      · cases h
        exact .same (by simp)
  | backUp job =>
      simp only [Phase.advance] at h
      split at h
      · cases h
        exact .same (by simp)
      · split at h
        · cases h
          exact .same (by simp)
        · cases h
  | copy job candidate =>
      simp only [Phase.advance] at h
      split at h
      · cases h
        exact .backup _ (by simp)
      · cases h
        exact .same (by simp)
      · cases h
        exact .copy_leave _
  | writeTemp job saved =>
      simp only [Phase.advance] at h
      split at h
      · cases h
        exact .temp stamp _ (by simp)
      · cases h
        exact .temp_leave stamp _
  | rename job saved temp =>
      simp only [Phase.advance] at h
      split at h
      · rename_i hio hcontent
        cases h
        exact .rename hcontent
      · cases h
        exact .same (by simp)
  | returned ok => cases h

theorem Phase.advance_named (hnamed : phase.Named)
    (h : phase.advance valid disk stamp n io = some (next, disk')) : next.Named := by
  cases phase with
  | backUp job =>
      simp only [Phase.advance] at h
      split at h
      · cases h
        trivial
      · split at h
        · cases h
          exact ⟨stamp, n, rfl⟩
        · cases h
  | writeTemp job saved =>
      simp only [Phase.advance] at h
      split at h
      · cases h
        exact ⟨stamp, rfl⟩
      · cases h
        trivial
  | readLocal which content base =>
      simp only [Phase.advance] at h
      split at h
      · cases h
        rcases validated_cases valid (jobOf disk content base which) with ⟨heq, -⟩ | heq
        · rw [heq]
          trivial
        · rw [heq]
          trivial
      · cases h
        trivial
  | returned ok => cases h
  | _ =>
      simp only [Phase.advance] at h
      split at h <;> cases h <;> trivial

/-- **A layer changes only at the rename that ends a call well.** -/
theorem DiskEffect.layers (heffect : DiskEffect disk phase next disk') (hnamed : phase.Named)
    (hnot : next ≠ .returned true) (which : ConfigWhich) :
    disk' (fileName which) = disk (fileName which) := by
  cases heffect with
  | same => rfl
  | backup file =>
      obtain ⟨stamp, n, rfl⟩ := hnamed
      exact Function.update_of_ne (fileName_ne_backupName _ _ _ _) _ _
  | temp stamp file => exact Function.update_of_ne (fileName_ne_tempName _ _ _) _ _
  | rename => exact absurd rfl hnot

/-! ## Errors change nothing -/

theorem sameLayers_of_eq (h : ∀ which, disk' (fileName which) = disk (fileName which)) :
    sameLayers disk disk' = true := by
  simp [sameLayers, h]

theorem changed_of_eq (h : ∀ which, disk' (fileName which) = disk (fileName which)) :
    changed disk disk' = [] := by
  simp [changed, h]

theorem mem_changed {old : ConfigWhich × Text} (h : old ∈ changed disk disk') :
    disk (fileName old.1) = some old.2 ∧ disk (fileName old.1) ≠ disk' (fileName old.1) := by
  obtain ⟨which, -, h⟩ := List.mem_filterMap.mp h
  rw [Option.ite_none_left_eq_some] at h
  obtain ⟨text, htext, rfl⟩ := Option.map_eq_some_iff.mp h.2
  exact ⟨htext, h.1⟩

end

theorem configStep_call {valid : Text → Text → Bool} {s t : ConfigState} {i : ℕ}
    {request : Request} (h : configStep valid s (.call i request) = some t) :
    s.calls i = none ∧
      t = { s with calls := Function.update s.calls i (some ⟨request.phase, false⟩) } := by
  simp only [configStep, Option.ite_none_left_eq_some, Option.some.injEq,
    Option.not_isSome_iff_eq_none] at h
  exact ⟨h.1, h.2.symm⟩

theorem configStep_op {valid : Text → Text → Bool} {s t : ConfigState} {i stamp n : ℕ} {io : Io}
    (h : configStep valid s (.op i stamp n io) = some t) :
    ∃ call next disk, s.calls i = some call ∧
      call.phase.advance valid s.disk stamp n io = some (next, disk) ∧
      t =
        { disk := disk
          calls := Function.update s.calls i
            (some ⟨next, call.wrote || !sameLayers s.disk disk⟩)
          replaced := s.replaced ++ changed s.disk disk } := by
  obtain ⟨call, hcall, h⟩ := Option.bind_eq_some_iff.mp h
  obtain ⟨⟨next, disk⟩, hadvance, h⟩ := Option.bind_eq_some_iff.mp h
  exact ⟨call, next, disk, hcall, hadvance, (Option.some_inj.mp h).symm⟩

/-- What is asked of the calls, once one of them is set. -/
theorem forall_update {P : Call → Prop} {calls : ℕ → Option Call} {i : ℕ} {call : Call}
    (hself : P call) (hother : ∀ j other, calls j = some other → P other) :
    ∀ j other, Function.update calls i (some call) j = some other → P other := by
  intro j other h
  by_cases hji : j = i
  · subst hji
    rw [Function.update_self] at h
    cases h
    exact hself
  · rw [Function.update_of_ne hji] at h
    exact hother j other h

/-- A call that has not ended well has written to no layer. -/
structure Call.Harmless (call : Call) : Prop where
  named : call.phase.Named
  wrote : call.phase ≠ .returned true → call.wrote = false

/-- A call starts at a read, or is refused. -/
theorem Request.phase_start (request : Request) {P : Phase → Prop}
    (hdocument : ∀ which edit, P (.readDocument which edit))
    (hbackup : ∀ which file, P (.readBackup which file))
    (hbase : ∀ which content, P (.readBase which content)) (hrefused : P (.returned false)) :
    P request.phase := by
  cases request with
  | writeRaw which content => exact hbase which content
  | setValues which edit => exact hdocument which edit
  | restoreBackup which file =>
      show P (if _ then _ else _)
      split
      · exact hrefused
      · exact hbackup which file

theorem Request.phase_named (request : Request) : request.phase.Named :=
  request.phase_start (P := Phase.Named) (fun _ _ => trivial) (fun _ _ => trivial)
    (fun _ _ => trivial) trivial

theorem harmless_step {valid : Text → Text → Bool} {s t : ConfigState} {e : ConfigEvent}
    (hI : ∀ i call, s.calls i = some call → call.Harmless)
    (h : configStep valid s e = some t) : ∀ i call, t.calls i = some call → call.Harmless := by
  cases e with
  | call i request =>
      obtain ⟨-, rfl⟩ := configStep_call h
      exact forall_update ⟨request.phase_named, fun _ => rfl⟩ hI
  | op i stamp n io =>
      obtain ⟨call, next, disk, hcall, hadvance, rfl⟩ := configStep_op h
      have hbefore := hI i call hcall
      refine forall_update ⟨Phase.advance_named hbefore.named hadvance, fun hnot => ?_⟩ hI
      have hlayers := (Phase.advance_effect hadvance).layers hbefore.named hnot
      have hrunning : call.phase ≠ .returned true := by
        intro hdone
        rw [hdone] at hadvance
        cases hadvance
      show (call.wrote || !sameLayers s.disk disk) = false
      rw [hbefore.wrote hrunning, sameLayers_of_eq hlayers]
      rfl

theorem throughout_errors (valid : Text → Text → Bool) (disk : Disk)
    (events : List ConfigEvent) :
    Throughout (configStep valid) ErrorsChangeNothing (.start disk) events := by
  intro pre t _ hrun
  have hI := run_invariant (configStep valid)
    (I := fun s => ∀ i call, s.calls i = some call → call.Harmless)
    (fun s e t hI h => harmless_step hI h)
    (fun _ _ h => absurd h (Option.some_ne_none _).symm) hrun
  intro i call hcall herror
  exact (hI i call hcall).wrote (by rw [herror]; simp)

/-! ## Undisturbed calls -/

section

variable {valid : Text → Text → Bool} {disk disk' : Disk} {phase next : Phase} {stamp n : ℕ}
  {io : Io}

/-- The text a call is about to put in place was validated. -/
def Phase.Accepted (valid : Text → Text → Bool) : Phase → Prop
  | backUp job => job.accepted valid = true
  | copy job _ => job.accepted valid = true
  | writeTemp job _ => job.accepted valid = true
  | rename job _ _ => job.accepted valid = true
  | _ => True

/-- What was copied is in a backup of the layer. -/
def SavedOn (disk : Disk) (which : ConfigWhich) (saved : Option (Text × Text)) : Prop :=
  ∀ copied ∈ saved, ∃ stamp n, copied.1 = backupName which stamp n ∧
    disk (backupName which stamp n) = some copied.2

def Phase.Saved (disk : Disk) : Phase → Prop
  | writeTemp job saved => SavedOn disk job.which saved
  | rename job saved _ => SavedOn disk job.which saved
  | _ => True

def KeepsBackups (disk disk' : Disk) : Prop :=
  ∀ which stamp n text, disk (backupName which stamp n) = some text →
    disk' (backupName which stamp n) = some text

theorem SavedOn.keep {which : ConfigWhich} {saved : Option (Text × Text)}
    (h : SavedOn disk which saved) (hkeep : KeepsBackups disk disk') :
    SavedOn disk' which saved := by
  intro copied hcopied
  obtain ⟨stamp, n, hname, htext⟩ := h copied hcopied
  exact ⟨stamp, n, hname, hkeep _ _ _ _ htext⟩

theorem Phase.Saved.keep (h : phase.Saved disk) (hkeep : KeepsBackups disk disk') :
    phase.Saved disk' := by
  cases phase with
  | writeTemp job saved => exact SavedOn.keep h hkeep
  | rename job saved temp => exact SavedOn.keep h hkeep
  | _ => trivial

theorem Phase.advance_accepted (haccepted : phase.Accepted valid)
    (h : phase.advance valid disk stamp n io = some (next, disk')) : next.Accepted valid := by
  cases phase with
  | readLocal which content base =>
      simp only [Phase.advance] at h
      split at h
      · cases h
        rcases validated_cases valid (jobOf disk content base which) with ⟨heq, hvalid⟩ | heq
        · rw [heq]
          exact hvalid
        · rw [heq]
          trivial
      · cases h
        trivial
  | backUp job =>
      simp only [Phase.advance] at h
      split at h
      · cases h
        exact haccepted
      · split at h
        · cases h
          exact haccepted
        · cases h
  | returned ok => cases h
  | _ =>
      simp only [Phase.advance] at h
      split at h <;> cases h <;> first | exact haccepted | trivial

theorem Phase.alone_rename {job : Job} {saved : Option (Text × Text)} {temp : Text} :
    (Phase.rename job saved temp).alone disk = true ↔
      disk temp = some job.content ∧ readLayer disk job.which.other = job.other ∧
        disk (fileName job.which) = saved.map Prod.snd := by
  simp only [Phase.alone, Bool.and_eq_true, decide_eq_true_eq, and_assoc]

/-- **A copy under a free name overwrites no backup**, and no other operation does. -/
theorem DiskEffect.keeps (heffect : DiskEffect disk phase next disk') (hnamed : phase.Named)
    (halone : phase.alone disk = true) : KeepsBackups disk disk' := by
  intro which stamp n text htext
  cases heffect with
  | same => exact htext
  | backup file =>
      have hfree : disk _ = none := Option.isNone_iff_eq_none.mp halone
      rw [Function.update_of_ne, htext]
      rintro rfl
      rw [htext] at hfree
      cases hfree
  | temp stamp' file =>
      rw [Function.update_of_ne (backupName_ne_tempName _ _ _ _ _), htext]
  | rename =>
      obtain ⟨stamp', rfl⟩ := hnamed
      rw [Function.update_of_ne (fileName_ne_backupName _ _ _ _).symm,
        Function.update_of_ne (backupName_ne_tempName _ _ _ _ _), htext]

theorem Phase.advance_saved (hnamed : phase.Named) (halone : phase.alone disk = true)
    (hsaved : phase.Saved disk)
    (h : phase.advance valid disk stamp n io = some (next, disk')) : next.Saved disk' := by
  have hkeep := (Phase.advance_effect h).keeps hnamed halone
  cases phase with
  | copy job candidate =>
      simp only [Phase.advance] at h
      split at h
      · rename_i content _
        cases h
        obtain ⟨stamp', n', rfl⟩ := hnamed
        rintro copied hcopied
        cases hcopied
        exact ⟨stamp', n', rfl, Function.update_self ..⟩
      · cases h
        trivial
      · cases h
        trivial
  | backUp job =>
      simp only [Phase.advance] at h
      split at h
      · cases h
        exact fun _ hcopied => absurd hcopied (Option.some_ne_none _).symm
      · split at h
        · cases h
          trivial
        · cases h
  | writeTemp job saved =>
      have hkept := SavedOn.keep hsaved hkeep
      simp only [Phase.advance] at h
      split at h
      · cases h
        exact hkept
      · cases h
        trivial
  | readLocal which content base =>
      simp only [Phase.advance] at h
      split at h
      · cases h
        rcases validated_cases valid (jobOf disk content base which) with ⟨heq, -⟩ | heq
        · rw [heq]
          trivial
        · rw [heq]
          trivial
      · cases h
        trivial
  | returned ok => cases h
  | _ =>
      simp only [Phase.advance] at h
      split at h <;> cases h <;> trivial

/-- **The pair that a rename leaves is the one that was validated.** -/
theorem DiskEffect.keepsValid (heffect : DiskEffect disk phase next disk') (hnamed : phase.Named)
    (haccepted : phase.Accepted valid) (halone : phase.alone disk = true)
    (h : valid (readLayer disk .base) (readLayer disk .localLayer) = true) :
    valid (readLayer disk' .base) (readLayer disk' .localLayer) = true := by
  by_cases hdone : next = .returned true
  · subst hdone
    cases heffect with
    | same hnot => exact absurd rfl hnot
    | backup file hnot => exact absurd rfl hnot
    | temp stamp file hnot => exact absurd rfl hnot
    | rename htemp =>
        rename_i job saved temp content
        obtain ⟨stamp, rfl⟩ := hnamed
        obtain ⟨hown, hother, -⟩ := Phase.alone_rename.mp halone
        obtain rfl : content = job.content := Option.some_inj.mp (htemp.symm.trans hown)
        have hlayer : readLayer (Function.update (Function.update disk
            (tempName job.which stamp) none) (fileName job.which) (some job.content)) job.which =
            job.content := by
          unfold readLayer
          rw [Function.update_self]
          rfl
        have hotherLayer : readLayer (Function.update (Function.update disk
            (tempName job.which stamp) none) (fileName job.which) (some job.content))
            job.which.other = job.other := by
          rw [← hother]
          unfold readLayer
          rw [Function.update_of_ne fun heq => job.which.other_ne (fileName_inj heq),
            Function.update_of_ne (fileName_ne_tempName _ _ _)]
        have hpair : job.accepted valid = true := haccepted
        obtain ⟨which, text, other⟩ := job
        cases which with
        | base =>
            rw [hlayer, show readLayer _ .localLayer = other from hotherLayer]
            exact hpair
        | localLayer =>
            rw [hlayer, show readLayer _ .base = other from hotherLayer]
            exact hpair
  · have hlayers := heffect.layers hnamed hdone
    unfold readLayer
    rw [hlayers, hlayers]
    exact h

/-- **What a rename replaces was copied.** -/
theorem DiskEffect.backedUp (heffect : DiskEffect disk phase next disk') (hnamed : phase.Named)
    (hsaved : phase.Saved disk) (halone : phase.alone disk = true) {old : ConfigWhich × Text}
    (hold : old ∈ changed disk disk') :
    ∃ stamp n, disk (backupName old.1 stamp n) = some old.2 := by
  by_cases hdone : next = .returned true
  · subst hdone
    obtain ⟨htext, hdiffers⟩ := mem_changed hold
    cases heffect with
    | same hnot => exact absurd rfl hnot
    | backup file hnot => exact absurd rfl hnot
    | temp stamp file hnot => exact absurd rfl hnot
    | rename htemp =>
        rename_i job saved temp content
        obtain ⟨stamp, rfl⟩ := hnamed
        have hwhich : old.1 = job.which := by
          by_contra hne
          refine hdiffers ?_
          rw [Function.update_of_ne fun heq => hne (fileName_inj heq),
            Function.update_of_ne (fileName_ne_tempName _ _ _)]
        have hcopied : saved.map Prod.snd = some old.2 := by
          rw [← (Phase.alone_rename.mp halone).2.2, ← hwhich, htext]
        obtain ⟨copied, hmem, hsnd⟩ := Option.map_eq_some_iff.mp hcopied
        obtain ⟨stamp', n', -, hbackup⟩ := hsaved copied hmem
        exact ⟨stamp', n', by rw [hwhich, hbackup, hsnd]⟩
  · rw [changed_of_eq (heffect.layers hnamed hdone)] at hold
    cases hold

end

structure ConfigInv (valid : Text → Text → Bool) (s : ConfigState) : Prop where
  named : ∀ i call, s.calls i = some call → call.phase.Named
  accepted : ∀ i call, s.calls i = some call → call.phase.Accepted valid
  saved : ∀ i call, s.calls i = some call → call.phase.Saved s.disk
  valid : ValidOnDisk valid s
  backups : BackupsComplete s

theorem ConfigInv.step {valid : Text → Text → Bool} {s t : ConfigState} {e : ConfigEvent}
    (hI : ConfigInv valid s) (hC : undisturbed s e = true) (h : configStep valid s e = some t) :
    ConfigInv valid t := by
  cases e with
  | call i request =>
      obtain ⟨-, rfl⟩ := configStep_call h
      exact
        { named := forall_update (P := fun call => call.phase.Named) request.phase_named hI.named
          accepted := forall_update (P := fun call => call.phase.Accepted valid)
            (request.phase_start (P := Phase.Accepted valid) (fun _ _ => trivial)
              (fun _ _ => trivial) (fun _ _ => trivial) trivial) hI.accepted
          saved := forall_update (P := fun call => call.phase.Saved s.disk)
            (request.phase_start (P := Phase.Saved s.disk) (fun _ _ => trivial)
              (fun _ _ => trivial) (fun _ _ => trivial) trivial) hI.saved
          valid := hI.valid
          backups := hI.backups }
  | op i stamp n io =>
      obtain ⟨call, next, disk, hcall, hadvance, rfl⟩ := configStep_op h
      have heffect := Phase.advance_effect hadvance
      have hnamed := hI.named i call hcall
      have halone : call.phase.alone s.disk = true := by
        rw [undisturbed, hcall] at hC
        exact hC
      have hkeep := heffect.keeps hnamed halone
      exact
        { named := forall_update (P := fun call => call.phase.Named)
            (Phase.advance_named hnamed hadvance) hI.named
          accepted := forall_update (P := fun call => call.phase.Accepted valid)
            (Phase.advance_accepted (hI.accepted i call hcall) hadvance) hI.accepted
          saved := forall_update (P := fun call => call.phase.Saved disk)
            (Phase.advance_saved hnamed halone (hI.saved i call hcall) hadvance)
            fun j other hj => (hI.saved j other hj).keep hkeep
          valid := heffect.keepsValid hnamed (hI.accepted i call hcall) halone hI.valid
          backups := by
            intro old hold
            have hbefore : ∃ stamp n, s.disk (backupName old.1 stamp n) = some old.2 := by
              rcases List.mem_append.mp hold with hearlier | hnew
              · exact hI.backups old hearlier
              · exact heffect.backedUp hnamed (hI.saved i call hcall) halone hnew
            obtain ⟨stamp', n', htext⟩ := hbefore
            exact ⟨stamp', n', hkeep _ _ _ _ htext⟩ }

/-- **The pair on disk stays valid and what is replaced stays readable in every run of calls
that no other call comes between**; an error changes nothing in any run. -/
theorem config_stays_valid (valid : Text → Text → Bool) (disk : Disk)
    (hvalid : valid (readLayer disk .base) (readLayer disk .localLayer) = true)
    (events : List ConfigEvent) :
    Throughout (configStep valid) ErrorsChangeNothing (.start disk) events ∧
      (EachStep (configStep valid) (fun s e => undisturbed s e = true) (.start disk) events →
        Throughout (configStep valid) (fun s => ValidOnDisk valid s ∧ BackupsComplete s)
          (.start disk) events) := by
  refine ⟨throughout_errors valid disk events, fun hC => ?_⟩
  have hI : ConfigInv valid (.start disk) :=
    { named := fun _ _ h => absurd h (Option.some_ne_none _).symm
      accepted := fun _ _ h => absurd h (Option.some_ne_none _).symm
      saved := fun _ _ h => absurd h (Option.some_ne_none _).symm
      valid := hvalid
      backups := fun _ h => absurd h List.not_mem_nil }
  exact (throughout_of_eachStep (configStep valid)
    (fun _ _ _ hI hC h => hI.step hC h) hI hC).mono (configStep valid)
    fun _ ht => ⟨ht.valid, ht.backups⟩

/-! ## Runs -/

/-- Not both layers may set the key. -/
def notBoth (base localText : Text) : Bool := !(base == ['1'] && localText == ['1'])

def emptyDisk : Disk := fun name =>
  if name = fileName .base then some ['0'] else if name = fileName .localLayer then some ['0']
  else none

/-- A call's operations from its first read to its rename, at one clock reading. -/
def writeOps (i stamp : ℕ) : List ConfigEvent := List.replicate 6 (.op i stamp 1 .ok)

/-- Two calls one after the other: the second is refused. -/
def serialRun : List ConfigEvent :=
  [.call 0 (.writeRaw .base ['1'])] ++ writeOps 0 7 ++
    [.call 1 (.writeRaw .localLayer ['1']), .op 1 8 1 .ok, .op 1 8 1 .ok]

theorem config_stays_valid_serialRun :
    Throughout (configStep notBoth) (fun s => ValidOnDisk notBoth s ∧ BackupsComplete s)
      (.start emptyDisk) serialRun := by
  exact (config_stays_valid notBoth emptyDisk (by decide) serialRun).2
    (eachStep_of_check (configStep notBoth) (by decide +kernel))

/-- Each call validates its text against the other layer before the other one's rename. -/
theorem interleaved_pair_invalid :
    ∃ s, run (configStep notBoth) (.start emptyDisk)
        ([.call 0 (.writeRaw .base ['1']), .call 1 (.writeRaw .localLayer ['1']),
          .op 0 7 1 .ok, .op 0 7 1 .ok, .op 1 8 1 .ok, .op 1 8 1 .ok] ++
          List.replicate 4 (.op 0 7 1 .ok) ++ List.replicate 4 (.op 1 8 1 .ok)) = some s ∧
      ¬ValidOnDisk notBoth s := by
  have hpair : (run (configStep notBoth) (.start emptyDisk)
        ([.call 0 (.writeRaw .base ['1']), .call 1 (.writeRaw .localLayer ['1']),
          .op 0 7 1 .ok, .op 0 7 1 .ok, .op 1 8 1 .ok, .op 1 8 1 .ok] ++
          List.replicate 4 (.op 0 7 1 .ok) ++ List.replicate 4 (.op 1 8 1 .ok))).map
      (fun s => notBoth (readLayer s.disk .base) (readLayer s.disk .localLayer)) = some false := by
    decide +kernel
  obtain ⟨s, hrun, hinvalid⟩ := Option.map_eq_some_iff.mp hpair
  exact ⟨s, hrun, fun h => Bool.false_ne_true (hinvalid.symm.trans h)⟩

end Wallermax.Manager
