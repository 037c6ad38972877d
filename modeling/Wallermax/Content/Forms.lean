import Wallermax.Content.Dates
import Wallermax.Content.Menus
import Wallermax.Tenants.Forms

/-!
# The forms of the content panel

What the panel accepts as a page, a menu and a menu item, with the messages the
forms show. Lengths are byte lengths.
-/

namespace Wallermax.Content

open Wallermax.Storage
open Wallermax.Tenants

def maxListed : ℤ := 200

def maxPageContent : ℕ := 600000

def maxTitle : ℕ := 200

def maxMetaDescription : ℕ := 500

def maxUrlField : ℕ := 500

def maxMenuLabel : ℕ := 200

def maxPosition : ℤ := 99999

def maxRevisionNote : ℕ := 200

def maxAltText : ℕ := 500

/-! ## Fields -/

def startsWith (text : String) (start : String) : Bool :=
  List.isPrefixOf start.toList text.toList

/-- `trimmed`: an empty field is no value. -/
def trimmed (field : Option String) : Option String :=
  (field.map trim).filter fun value => !value.isEmpty

/-- `BodyFormat::parse`. -/
def parseBodyFormat (raw : String) : Option BodyFormat :=
  if trim raw = "jhs" then some .jhs
  else if trim raw = "markdown" then some .markdown
  else none

def bodyFormatStr : BodyFormat → String
  | .jhs => "jhs"
  | .markdown => "markdown"

def parsePosition (raw : Option String) : Except String (Option ℤ) :=
  match trimmed raw with
  | none => .ok none
  | some raw =>
      match (parseI64 raw.toList).filter fun n => decide (0 ≤ n ∧ n ≤ maxPosition) with
      | some value => .ok (some value)
      | none => .error "Position must be a number between 0 and 99,999."

/-- The position a form saves: 0 by default. -/
def positionOr0 (raw : Option String) : ℤ := ((parsePosition raw).toOption.join).getD 0

/-- `valid_slug`. -/
def validSlug (slug : String) : Bool :=
  let chars := slug.toList
  1 ≤ slug.utf8ByteSize && slug.utf8ByteSize ≤ 64 &&
    chars.head? != some '-' && chars.getLast? != some '-' && !containsPair '-' chars &&
    chars.all fun c => c.isLower || c.isDigit || c == '-'

def validateSlug (slug : String) : Except String Unit :=
  if validSlug slug then .ok ()
  else .error ("The slug must be 1-64 characters: lowercase, digits and hyphens " ++
    "(not starting or ending with a hyphen).")

/-- Refuse with a message unless the condition holds. -/
def require (condition : Bool) (message : String) : Except String Unit :=
  if condition then .ok () else .error message

/-! ## Pages -/

/-- `PageForm`, without the round-trip id only the preview reads. -/
structure PageForm : Type where
  slug : String
  title : String
  content : String
  body_format : Option String
  is_published : Option String
  parent_id : Option String
  position : Option String
  meta_title : Option String
  meta_description : Option String
  og_image : Option String
  publish_at : Option String
  revision_note : Option String
deriving DecidableEq

/-- `PageForm::default`. -/
def PageForm.empty : PageForm where
  slug := ""
  title := ""
  content := ""
  body_format := none
  is_published := none
  parent_id := none
  position := none
  meta_title := none
  meta_description := none
  og_image := none
  publish_at := none
  revision_note := none

def PageForm.published (form : PageForm) : Bool :=
  ["on", "true", "1"].any fun value => form.is_published == some value

def PageForm.bodyFormat (form : PageForm) : BodyFormat :=
  (form.body_format.bind parseBodyFormat).getD .jhs

/-- `parent`: only meaningful once the form is valid. -/
def PageForm.parent (form : PageForm) : Option ℤ :=
  (trimmed form.parent_id).bind fun raw => parseI64 raw.toList

def PageForm.schedule (form : PageForm) : Option ℤ :=
  (trimmed form.publish_at).bind parseDatetimeLocal

/-- Within a byte budget, if there at all. -/
def fits (field : Option String) (limit : ℕ) : Bool :=
  (trimmed field).all fun value => value.utf8ByteSize ≤ limit

def validatePageForm (form : PageForm) : Except String Unit := do
  require (!(trim form.title).isEmpty) "The title cannot be empty."
  require (form.title.utf8ByteSize ≤ maxTitle)
    "The title is too long (200 characters at most)."
  validateSlug form.slug
  require (form.content.utf8ByteSize ≤ maxPageContent)
    "The content is too long (600,000 characters at most)."
  require ((trimmed form.body_format).all fun raw => (parseBodyFormat raw).isSome)
    "The content format must be jhs or markdown."
  let _ ← parsePosition form.position
  require ((trimmed form.parent_id).all fun raw => (parseI64 raw.toList).any (0 < ·))
    "The parent must be a page id (or empty for top level)."
  require (fits form.meta_title maxTitle)
    "The SEO title is too long (200 characters at most)."
  require (fits form.meta_description maxMetaDescription)
    "The meta description is too long (500 characters at most)."
  require (fits form.og_image maxUrlField)
    "The social image is too long (500 characters at most)."
  require ((trimmed form.og_image).all fun image =>
      startsWith image "/" || startsWith image "http://" || startsWith image "https://")
    "The social image must be a site path (/assets/…) or an absolute URL."
  require ((trimmed form.publish_at).all fun raw => (parseDatetimeLocal raw).isSome)
    "The scheduled date is not valid: use the YYYY-MM-DDTHH:MM format (UTC)."
  require (fits form.revision_note maxRevisionNote)
    "The revision note is too long (200 characters at most)."

/-! ## Menus -/

structure MenuForm : Type where
  name : String
  title : String
deriving DecidableEq

/-- The checks of `create_menu` and, on the title alone, of `rename_menu`. -/
def validateMenuTitle (title : String) : Except String Unit := do
  require (!(trim title).isEmpty) "The menu title cannot be empty."
  require (title.utf8ByteSize ≤ maxTitle)
    "The menu title is too long (200 characters at most)."

def validateMenuForm (form : MenuForm) : Except String Unit := do
  validateMenuTitle form.title
  require (validSlug form.name)
    ("The menu name must be 1-64 characters: lowercase, digits and hyphens " ++
      "(it is the key templates read: menus.<name>).")

structure ItemForm : Type where
  label : Option String
  page_id : Option String
  url : Option String
  position : Option String
deriving DecidableEq

/-- `ItemForm::default`. -/
def ItemForm.empty : ItemForm where
  label := none
  page_id := none
  url := none
  position := none

def ItemForm.page (form : ItemForm) : Option ℤ :=
  (trimmed form.page_id).bind fun raw => parseI64 raw.toList

/-- `validate_item_form`: one destination, and a linked page is the
organization's. -/
def validateItemForm (db : ContentDb) (organization : String) (form : ItemForm) :
    Except String Unit := do
  let _ ← parsePosition form.position
  require (fits form.label maxMenuLabel)
    "The label is too long (200 characters at most)."
  match form.page, trimmed form.url with
  | some _, some _ => .error "Pick a page or write a URL — not both."
  | none, none => .error "The item needs a destination: a page or a URL."
  | some page, none =>
      require (Pages.findById db organization page).isSome "The chosen page does not exist."
  | none, some url =>
      require (url.utf8ByteSize ≤ maxUrlField)
        "The URL is too long (500 characters at most)."
      require (startsWith url "/" || startsWith url "http://" ||
          startsWith url "https://" || startsWith url "#")
        "The URL must start with /, http://, https:// or #."
      require (trimmed form.label).isSome "Custom links need a label."

/-- The item a form asks for in a menu. -/
def ItemForm.item (form : ItemForm) (menu_id : ℤ) : NewMenuItem where
  menu_id := menu_id
  position := positionOr0 form.position
  label := trimmed form.label
  page_id := form.page
  url := trimmed form.url

/-! ## What a valid form says -/

@[simp] theorem require_ok {condition : Bool} {message : String} :
    require condition message = .ok () ↔ condition = true := by
  unfold require
  split <;> simp_all

/-- A valid item form links a page of the organization or a URL, not both. -/
theorem validateItemForm_ok {db : ContentDb} {organization : String} {form : ItemForm}
    (h : validateItemForm db organization form = .ok ()) :
    (∃ page, form.page = some page ∧ trimmed form.url = none ∧
      (Pages.findById db organization page).isSome) ∨
    (form.page = none ∧ ∃ url, trimmed form.url = some url) := by
  unfold validateItemForm at h
  cases hpos : parsePosition form.position with
  | error e => simp [hpos, bind, Except.bind] at h
  | ok p =>
      cases hfit : require (fits form.label maxMenuLabel)
          "The label is too long (200 characters at most)." with
      | error e => simp [hpos, hfit, bind, Except.bind] at h
      | ok u =>
          simp only [hpos, hfit, bind, Except.bind] at h
          cases hpage : form.page with
          | none =>
              cases hurl : trimmed form.url with
              | none => simp [hpage, hurl] at h
              | some url => exact .inr ⟨rfl, url, rfl⟩
          | some page =>
              cases hurl : trimmed form.url with
              | none =>
                  simp only [hpage, hurl] at h
                  exact .inl ⟨page, rfl, rfl, require_ok.mp h⟩
              | some url => simp [hpage, hurl] at h

end Wallermax.Content
