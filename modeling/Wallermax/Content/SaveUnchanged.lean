import Wallermax.Base.Trim
import Wallermax.Content.DatetimeRoundTrip
import Wallermax.Content.History
import Wallermax.Content.PageTree
import Wallermax.Content.PanelPages

/-!
# Saving the edit form unchanged

The edit form of a page shows its visibility as a checkbox and its schedule to the minute.
Posted back as it is, the box and the field decide when the page is public from then on.
A visible page stays so, whatever its schedule; a page that waits for its schedule waits
for the minute it is in, and if that minute has begun, for nothing.
-/

namespace Wallermax.Content

open Wallermax.Base
open Wallermax.Storage
open Wallermax.Tenants

/-! ## The form posted back -/

/-- What a browser posts for a form nobody has touched: a box that is checked sends its
value, a text field its text. -/
def resubmitted (form : PageForm) : PageForm where
  slug := form.slug
  title := form.title
  content := form.content
  body_format := some (bodyFormatStr form.bodyFormat)
  is_published := if form.published then some "on" else none
  parent_id := some (form.parent.elim "" toString)
  position := some (toString (positionOr0 form.position))
  meta_title := some ((trimmed form.meta_title).getD "")
  meta_description := some ((trimmed form.meta_description).getD "")
  og_image := some ((trimmed form.og_image).getD "")
  publish_at := some ((trimmed form.publish_at).getD "")
  revision_note := some ((trimmed form.revision_note).getD "")

/-- The posted form has the box and the schedule as they were rendered. -/
structure PostedBack (page : Page) (now : ℤ) (form : PageForm) : Prop where
  published : form.published = (storedForm page now).published
  schedule : trimmed form.publish_at = trimmed (storedForm page now).publish_at

/-- From the instant on, the two versions of a page are public at the same times. -/
def Unmoved (now : ℤ) (before after : Page) : Prop :=
  ∀ t, now ≤ t → publicVisible t after = publicVisible t before

/-- The schedule is one that a form could have stored. -/
def Schedulable (page : Page) : Prop := ∀ due ∈ page.publish_at, FieldYear due

/-- The page is public, or its schedule, if it has one, is a whole minute. -/
def KeepsSchedule (page : Page) (now : ℤ) : Prop :=
  publicVisible now page = true ∨ ∀ due ∈ page.publish_at, due % 60 = 0

theorem trim_of_forall {text : String} (h : ∀ c ∈ text.toList, isWhitespace c = false) :
    trim text = text := by
  have hchars : trimBy isWhitespace text.toList = text.toList :=
    trimBy_eq_self (fun c hc => h c (List.mem_of_mem_head? hc))
      fun c hc => h c (List.mem_of_mem_getLast? hc)
  have htrim : trim text = String.ofList (trimBy isWhitespace text.toList) := rfl
  rw [htrim, hchars, String.ofList_toList]

theorem isWhitespace_of_isDigit {c : Char} (h : c.isDigit = true) : isWhitespace c = false := by
  have hrange : 48 ≤ c.toNat ∧ c.toNat ≤ 57 := by
    simpa [Char.isDigit, UInt32.le_iff_toNat_le] using h
  simp only [isWhitespace, Bool.or_eq_false_iff, Bool.and_eq_false_iff, decide_eq_false_iff_not,
    beq_eq_false_iff_ne]
  omega

/-- A written date has nothing to trim. -/
theorem not_isWhitespace_of_shape {text : List Char} {s : Stamp} (h : Shape ExactField text s) :
    ∀ c ∈ text, isWhitespace c = false := by
  have hfield : ∀ {width : ℕ} {text : List Char} {value : ℕ}, ExactField width text value →
      ∀ c ∈ text, isWhitespace c = false :=
    fun hfield c hc => isWhitespace_of_isDigit ((digitsValue_some hfield.2).2 c hc)
  have hmark : isWhitespace '-' = false ∧ isWhitespace 'T' = false ∧ isWhitespace ':' = false := by
    decide
  cases h with
  | minutes hY hM hD hh hm =>
      simp only [List.forall_mem_append, List.forall_mem_cons]
      exact ⟨⟨hfield hY, hmark.1, hfield hM, hmark.1, hfield hD⟩, hmark.2.1, hfield hh, hmark.2.2,
        hfield hm⟩
  | seconds hY hM hD hh hm hsec =>
      simp only [List.forall_mem_append, List.forall_mem_cons]
      exact ⟨⟨hfield hY, hmark.1, hfield hM, hmark.1, hfield hD⟩, hmark.2.1, hfield hh, hmark.2.2,
        hfield hm, hmark.2.2, hfield hsec⟩

theorem trimmed_formatDatetimeLocal {seconds : ℤ} (h : FieldYear seconds) :
    trimmed (some (formatDatetimeLocal seconds)) = some (formatDatetimeLocal seconds) := by
  have hshape := shape_formatDatetimeLocal h
  have hne : (formatDatetimeLocal seconds).isEmpty = false := by
    rw [Bool.eq_false_iff]
    intro hempty
    rw [String.isEmpty_iff.mp hempty] at hshape
    generalize htext : "".toList = text at hshape
    cases hshape with
    | minutes => simp at htext
    | seconds => simp at htext
  unfold trimmed
  rw [Option.map_some, trim_of_forall (not_isWhitespace_of_shape hshape), Option.filter_some, hne]
  rfl

/-! ## What the form says -/

theorem published_of_box {form : PageForm} {checked : Bool}
    (h : form.is_published = if checked then some "on" else none) : form.published = checked := by
  unfold PageForm.published
  rw [h]
  cases checked with
  | true => rfl
  | false => rfl

theorem published_storedForm (page : Page) (now : ℤ) :
    (storedForm page now).published = publicVisible now page :=
  published_of_box rfl

/-- The schedule comes back to the minute. -/
theorem schedule_of_postedBack {page : Page} {now : ℤ} {form : PageForm}
    (hyear : Schedulable page) (h : PostedBack page now form) :
    form.schedule = page.publish_at.map fun due => due - due % 60 := by
  unfold PageForm.schedule
  rw [h.schedule]
  show (trimmed (page.publish_at.map formatDatetimeLocal)).bind parseDatetimeLocal = _
  cases hdue : page.publish_at with
  | none => rfl
  | some due =>
      have hfield := hyear due hdue
      rw [Option.map_some, trimmed_formatDatetimeLocal hfield, Option.bind_some,
        parseDatetimeLocal_formatDatetimeLocal hfield]
      rfl

theorem postedBack_resubmitted {page : Page} (hyear : Schedulable page) (now : ℤ) :
    PostedBack page now (resubmitted (storedForm page now)) := by
  constructor
  · exact published_of_box rfl
  · show trimmed (some ((trimmed (page.publish_at.map formatDatetimeLocal)).getD "")) =
      trimmed (page.publish_at.map formatDatetimeLocal)
    cases hdue : page.publish_at with
    | none => rfl
    | some due =>
        rw [Option.map_some, trimmed_formatDatetimeLocal (hyear due hdue), Option.getD_some,
          trimmed_formatDatetimeLocal (hyear due hdue)]

/-! ## What the save stores -/

section Save

variable {max_revisions : ℕ} {db db' : ContentDb} {organization : String} {user : ℕ} {now : ℤ}

theorem findById_of_update {id : ℤ} {i : ℕ} {page : Page} {update : PageUpdate}
    (hpage : Pages.findById db organization id = some (i, page))
    (h : Pages.update max_revisions db organization id update now = .ok (some db')) :
    Pages.findById db' organization id = some (i, Pages.apply update now page) := by
  obtain ⟨j, current, o, pages, revisions, hfind, howner, hpages, rfl, -⟩ := Pages.update_ok h
  obtain ⟨rfl, rfl⟩ := Prod.mk.inj (Option.some.inj (hpage.symm.trans hfind))
  obtain ⟨hmem, hid⟩ := Pages.findById_some hpage
  obtain ⟨o', ho', hrow⟩ := mem_orgScope.mp hmem
  obtain rfl : o = o' := Option.some.inj (howner.symm.trans ho')
  have hsaved : (i, ⟨o, Pages.apply update now page⟩) ∈ pages.rows := by
    rw [Constrained.update?_some hpages]
    exact Table.mem_update.mpr ⟨_, hrow, by simp⟩
  rw [← hid]
  exact findById_of_mem howner hsaved

/-- A save that is answered with a redirect has gone through. -/
theorem update_of_updatePage {id : ℤ} {p : ℕ × Page} {form : PageForm} {location : String}
    (hpage : Pages.findById db organization id = some p)
    (h : updatePage max_revisions db organization user now id (.ok form) =
      (db', .seeOther location)) :
    Pages.update max_revisions db organization id (formUpdate user now form) now =
      .ok (some db') := by
  unfold updatePage at h
  dsimp only at h
  split at h
  · cases h
  · split at h
    · cases h
    · split at h
      · rename_i hupdate
        cases h
        exact hupdate
      · rename_i hnone
        unfold Pages.update at hnone
        rw [hpage] at hnone
        dsimp only at hnone
        split at hnone
        · cases hnone
        · obtain ⟨_, -, heq⟩ := exists_of_map_ok hnone
          cases heq
      · cases h
      · cases h

end Save

/-! ## When nothing moves -/

/-- A page that is public stays public. -/
theorem publicVisible_mono {page : Page} {now t : ℤ} (h : publicVisible now page = true)
    (ht : now ≤ t) : publicVisible t page = true := by
  unfold publicVisible at h ⊢
  rcases Bool.or_eq_true_iff.mp h with hflag | hdue
  · rw [hflag, Bool.true_or]
  · rw [Option.any_eq_true] at hdue
    obtain ⟨due, hsome, hle⟩ := hdue
    have hlater : due ≤ t := le_trans (of_decide_eq_true hle) ht
    rw [hsome, Option.any_some, decide_eq_true hlater, Bool.or_true]

/-- The schedule of a draft, cut to the minute, keeps its instants exactly if it was a whole
minute: cut, it comes earlier, or it has come already and is dropped. -/
theorem minute_unmoved_iff {now due : ℤ} (hdue : now < due) :
    (∀ t, now ≤ t → (normalizeSchedule false (some (due - due % 60)) now).any (fun d => d ≤ t) =
      decide (due ≤ t)) ↔ due % 60 = 0 := by
  have hnormal : normalizeSchedule false (some (due - due % 60)) now =
      if now < due - due % 60 then some (due - due % 60) else none := rfl
  rw [hnormal]
  constructor
  · intro h
    have hthen := h due (by omega)
    by_cases hfuture : now < due - due % 60
    · have hminute := h (due - due % 60) (by omega)
      rw [if_pos hfuture, Option.any_some, decide_eq_decide] at hminute
      have hle := hminute.mp le_rfl
      omega
    · rw [if_neg hfuture, Option.any_none, decide_eq_true le_rfl] at hthen
      cases hthen
  · intro hwhole t _
    rw [hwhole, Int.sub_zero, if_pos hdue, Option.any_some]

/-- What a save of the form stores moves nothing exactly if the page keeps its schedule. -/
theorem unmoved_apply_iff {page : Page} {now : ℤ} (user : ℕ) {form : PageForm}
    (hyear : Schedulable page) (hform : PostedBack page now form) :
    Unmoved now page (Pages.apply (formUpdate user now form) now page) ↔
      KeepsSchedule page now := by
  have hafter : ∀ t, publicVisible t (Pages.apply (formUpdate user now form) now page) =
      (publicVisible now page || (normalizeSchedule (publicVisible now page)
        (page.publish_at.map fun due => due - due % 60) now).any fun due => due ≤ t) := by
    intro t
    rw [← published_storedForm page now, ← hform.published, ← schedule_of_postedBack hyear hform]
    rfl
  unfold Unmoved KeepsSchedule
  simp only [hafter]
  cases hvisible : publicVisible now page with
  | true =>
      refine iff_of_true (fun t ht => ?_) (Or.inl rfl)
      rw [Bool.true_or, publicVisible_mono hvisible ht]
  | false =>
      have hbefore := hvisible
      unfold publicVisible at hbefore ⊢
      rw [Bool.or_eq_false_iff] at hbefore
      simp only [Bool.false_or, hbefore.1, Bool.false_eq_true, false_or]
      cases hdue : page.publish_at with
      | none => exact iff_of_true (fun _ _ => rfl) fun due hmem => by cases hmem
      | some due =>
          rw [hdue, Option.any_some, decide_eq_false_iff_not, not_le] at hbefore
          simp only [Option.any_some, Option.map_some, Option.mem_some, forall_eq']
          exact minute_unmoved_iff hbefore.2

/-- **When an untouched form moves nothing.** For every page whose schedule a form could
have stored and every instant, the form of the page posted back unmodified, if it is saved,
leaves the page public at the same times exactly when the page is public already or its
schedule is a whole minute. -/
theorem save_unmoved_iff (max_revisions : ℕ) (db db' : ContentDb) (organization : String)
    (user : ℕ) (now id : ℤ) (i : ℕ) (page : Page) (form : PageForm) (location : String)
    (hpage : Pages.findById db organization id = some (i, page)) (hyear : Schedulable page)
    (hform : PostedBack page now form)
    (hsaved : updatePage max_revisions db organization user now id (.ok form) =
      (db', .seeOther location)) :
    ∃ page', Pages.findById db' organization id = some (i, page') ∧
      (Unmoved now page page' ↔ KeepsSchedule page now) :=
  ⟨_, findById_of_update hpage (update_of_updatePage hpage hsaved), unmoved_apply_iff user hyear hform⟩

/-! ## A schedule within a minute -/

def dueDraft (due : ℤ) : NewPage := { draftPage with publish_at := some due }

/-- A site with one draft that is due at an instant. -/
def dueSite (due : ℤ) : ContentDb :=
  ((Pages.create 2 emptySite "acme" (dueDraft due) 10).toOption.map Prod.fst).getD emptySite

/-- The draft as the site stores it. -/
def duePage (due : ℤ) : Page := Pages.columns (dueDraft due) 10

/-- Its form posted back untouched. -/
def untouchedSave (due now : ℤ) : ContentDb × PanelAnswer :=
  updatePage 2 (dueSite due) "acme" 1 now 1 (.ok (resubmitted (storedForm (duePage due) now)))

theorem schedulable_duePage {due : ℤ} (h : FieldYear due) : Schedulable (duePage due) := by
  rintro d ⟨⟩
  exact h

theorem save_unmoved_minute :
    ∃ page', Pages.findById (untouchedSave 120 70).1 "acme" 1 = some (1, page') ∧
      (Unmoved 70 (duePage 120) page' ↔ KeepsSchedule (duePage 120) 70) :=
  save_unmoved_iff 2 (dueSite 120) _ "acme" 1 70 1 1 (duePage 120)
    (resubmitted (storedForm (duePage 120) 70)) "/admin/pages/1/edit?ok=guardada"
    (by decide +kernel) (schedulable_duePage ⟨by decide +kernel, by decide +kernel⟩)
    (postedBack_resubmitted (schedulable_duePage ⟨by decide +kernel, by decide +kernel⟩) 70)
    (Prod.ext rfl (by decide +kernel))

/-- Due at half past a minute, saved within it: the page would have been public at 90 and no
longer will be. -/
theorem save_drops_schedule :
    Schedulable (duePage 90) ∧ Pages.findById (dueSite 90) "acme" 1 = some (1, duePage 90) ∧
      (untouchedSave 90 70).2 = .seeOther "/admin/pages/1/edit?ok=guardada" ∧
      ∀ page', Pages.findById (untouchedSave 90 70).1 "acme" 1 = some (1, page') →
        ¬ Unmoved 70 (duePage 90) page' := by
  refine ⟨schedulable_duePage ⟨by decide +kernel, by decide +kernel⟩, by decide +kernel,
    by decide +kernel, ?_⟩
  intro page' hpage hunmoved
  have hgone : (Pages.findById (untouchedSave 90 70).1 "acme" 1).map
      (fun p => publicVisible 90 p.2) = some false := by decide +kernel
  rw [hpage, Option.map_some, Option.some.injEq, hunmoved 90 (by decide)] at hgone
  exact absurd hgone (by decide)

end Wallermax.Content
