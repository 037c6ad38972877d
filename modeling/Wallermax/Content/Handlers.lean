import Wallermax.Content.Forms

/-!
# The writing requests of the content panel

The handlers behind the panel's forms as functions from the database to the
database and the answer; one request at one instant. A form arrives as
`read_form` decoded it, an upload as the multipart reader and the image
pipeline did. Where a handler shows its form again, the answer is the message.
-/

namespace Wallermax.Content

open Wallermax.Base
open Wallermax.Accounts
open Wallermax.Storage
open Wallermax.Tenants

inductive PanelAnswer : Type where
  | seeOther (location : String)
  | formError (message : String)
  | notFound (message : String)
  | forbidden (message : String)
deriving DecidableEq

/-- An upload that decoded: the format that was sniffed and the size. -/
structure PreparedImage : Type where
  format : MimeType
  width : ℤ
  height : ℤ
deriving DecidableEq

/-- The upload form, read: `file` is the byte count of the file part, `prepared`
what the image pipeline said of it, `stem` the fresh file name and `written`
whether both files reached the disk. -/
structure Upload : Type where
  alt_text : String
  original_name : Option String
  file : Option ℕ
  prepared : Except String PreparedImage
  stem : String
  written : Bool

inductive Action : Type where
  | createPage (form : Except String PageForm)
  | updatePage (id : ℤ) (form : Except String PageForm)
  | restoreRevision (id revision : ℤ)
  | deletePage (id : ℤ)
  | createMenu (form : Except String MenuForm)
  | renameMenu (id : ℤ) (title : Except String String)
  | deleteMenu (id : ℤ)
  | createItem (menu_id : ℤ) (form : Except String ItemForm)
  | updateItem (menu_id item_id : ℤ) (form : Except String ItemForm)
  | deleteItem (menu_id item_id : ℤ)
  | uploadMedia (upload : Except String Upload)
  | updateAlt (id : ℤ) (alt : Except String String)
  | deleteMedia (id : ℤ)

/-- A request with the organization its host resolved to and the account its
token names. -/
structure PanelRequest : Type where
  organization : String
  user : ℕ
  action : Action
  time : ℤ

/-! ## Pages -/

section Pages

variable (max_revisions : ℕ) (db : ContentDb) (organization : String) (user : ℕ) (now : ℤ)

def newPage (form : PageForm) : NewPage where
  slug := form.slug
  title := form.title
  content := form.content
  body_format := form.bodyFormat
  is_published := form.published
  created_by := some user
  parent_id := form.parent.map Int.toNat
  position := positionOr0 form.position
  meta_title := trimmed form.meta_title
  meta_description := trimmed form.meta_description
  og_image := trimmed form.og_image
  publish_at := normalizeSchedule form.published form.schedule now
  revision_note := trimmed form.revision_note

/-- `create_page`. -/
def createPage (form : Except String PageForm) : ContentDb × PanelAnswer :=
  match form with
  | .error message => (db, .formError message)
  | .ok form =>
    match validatePageForm form with
    | .error message => (db, .formError message)
    | .ok () =>
      if form.parent.any fun parent => (Pages.findById db organization parent).isNone then
        (db, .formError "The parent page does not exist.")
      else match Pages.create max_revisions db organization (newPage user now form) now with
      | .ok (db, id) => (db, .seeOther ("/admin/pages/" ++ toString id ++ "/edit?ok=creada"))
      | .error .duplicate =>
          (db, .formError "That slug already exists: pick another URL identifier.")
      | .error .internal => (db, .formError "Could not save (internal error).")

/-- Why a page cannot hang under a parent. -/
inductive MoveRefusal : Type where
  | itself
  | missing
  | cycle
deriving DecidableEq

/-- The move guard of `update_page` and `restore_revision`. -/
def moveGuard (id : ℤ) : Option ℤ → Option MoveRefusal
  | none => none
  | some parent =>
      if parent = id then some .itself
      else if (Pages.findById db organization parent).isNone then some .missing
      else if (Pages.ancestors db organization parent).any fun a => (a.id : ℤ) == id then
        some .cycle
      else none

def moveMessage : MoveRefusal → String
  | .itself => "A page cannot be its own parent."
  | .missing => "The parent page does not exist."
  | .cycle =>
      "That parent would create a cycle: a page cannot hang from its own descendant."

def formUpdate (form : PageForm) : PageUpdate where
  slug := some form.slug
  title := form.title
  content := form.content
  body_format := form.bodyFormat
  is_published := form.published
  parent_id := form.parent.map Int.toNat
  position := positionOr0 form.position
  meta_title := trimmed form.meta_title
  meta_description := trimmed form.meta_description
  og_image := trimmed form.og_image
  publish_at := normalizeSchedule form.published form.schedule now
  edited_by := some user
  revision_note := trimmed form.revision_note

/-- `update_page`. -/
def updatePage (id : ℤ) (form : Except String PageForm) : ContentDb × PanelAnswer :=
  match form with
  | .error message => (db, .formError message)
  | .ok form =>
    match validatePageForm form with
    | .error message => (db, .formError message)
    | .ok () =>
      match moveGuard db organization id form.parent with
      | some refusal => (db, .formError (moveMessage refusal))
      | none =>
        match Pages.update max_revisions db organization id (formUpdate user now form) now with
        | .ok (some db) =>
            (db, .seeOther ("/admin/pages/" ++ toString id ++ "/edit?ok=guardada"))
        | .ok none => (db, .seeOther "/admin/pages")
        | .error .duplicate =>
            (db, .formError "That slug already exists: pick another URL identifier.")
        | .error .internal => (db, .formError "Could not save (internal error).")

def restoreMessage : MoveRefusal → String
  | .itself =>
      "The parent named by the revision is the page itself: move it to another level " ++
        "before restoring."
  | .missing =>
      "The revision's parent page no longer exists: restore and pick a current parent " ++
        "in the editor."
  | .cycle =>
      "The revision's parent now hangs under this page: restoring would create a cycle."

/-- A restore takes the content from the snapshot and the state from the page. -/
def restoreUpdate (page : Page) (snapshot : PageRevision) (revision : ℤ) : PageUpdate where
  slug := some snapshot.slug
  title := snapshot.title
  content := snapshot.content
  body_format := snapshot.body_format
  is_published := page.is_published
  parent_id := snapshot.parent_id
  position := snapshot.position
  meta_title := snapshot.meta_title
  meta_description := snapshot.meta_description
  og_image := snapshot.og_image
  publish_at := page.publish_at
  edited_by := some user
  revision_note := some ("Restored from revision " ++ toString revision ++ ".")

/-- `restore_revision`. -/
def restoreRevision (id revision : ℤ) : ContentDb × PanelAnswer :=
  match Pages.findById db organization id with
  | none => (db, .seeOther "/admin/pages")
  | some (_, page) =>
    match Pages.findRevision db id revision with
    | none => (db, .seeOther ("/admin/pages/" ++ toString id ++ "/history"))
    | some (snapshot, _) =>
      match moveGuard db organization id (snapshot.parent_id.map fun p : ℕ => (p : ℤ)) with
      | some refusal => (db, .formError (restoreMessage refusal))
      | none =>
        match Pages.update max_revisions db organization id
            (restoreUpdate user page snapshot revision) now with
        | .ok (some db) =>
            (db, .seeOther ("/admin/pages/" ++ toString id ++ "/edit?ok=restored"))
        | .ok none => (db, .seeOther "/admin/pages")
        | .error .duplicate =>
            (db, .formError ("That slug already exists (another page has taken it since): " ++
              "rename it or hand-edit the revision you wanted back."))
        | .error .internal => (db, .formError "Could not restore (internal error).")

/-- `delete_page`. -/
def deletePage (id : ℤ) : ContentDb × PanelAnswer :=
  (Pages.delete db organization id, .seeOther "/admin/pages?ok=eliminada")

end Pages

/-! ## Menus -/

section Menus

variable (db : ContentDb) (organization : String) (now : ℤ)

/-- `create_menu`. -/
def createMenu (form : Except String MenuForm) : ContentDb × PanelAnswer :=
  match form with
  | .error message => (db, .formError message)
  | .ok form =>
    match validateMenuForm form with
    | .error message => (db, .formError message)
    | .ok () =>
      match Menus.create db organization form.name (trim form.title) now with
      | .ok (db, id) => (db, .seeOther ("/admin/menus/" ++ toString id ++ "?ok=created"))
      | .error .duplicate =>
          (db, .formError ("That menu name already exists: it is the key the templates read " ++
            "(menus.<name>)."))
      | .error .internal => (db, .formError "Could not save (internal error).")

/-- `rename_menu`. A failed form is shown on the menu's page, so a menu the
organization does not have redirects to the listing. -/
def renameMenu (id : ℤ) (title : Except String String) : ContentDb × PanelAnswer :=
  let detail (message : String) : PanelAnswer :=
    if (Menus.findById db organization id).isSome then .formError message
    else .seeOther "/admin/menus"
  match title with
  | .error message => (db, detail message)
  | .ok title =>
    match validateMenuTitle title with
    | .error message => (db, detail message)
    | .ok () =>
      match Menus.updateTitle db organization id (trim title) now with
      | some db => (db, .seeOther ("/admin/menus/" ++ toString id ++ "?ok=saved"))
      | none => (db, .seeOther "/admin/menus")

/-- `delete_menu`. -/
def deleteMenu (id : ℤ) : ContentDb × PanelAnswer :=
  (Menus.delete db organization id, .seeOther "/admin/menus?ok=deleted")

/-- `create_item`: the menu is the organization's. -/
def createItem (menu_id : ℤ) (form : Except String ItemForm) : ContentDb × PanelAnswer :=
  if (Menus.findById db organization menu_id).isNone then (db, .seeOther "/admin/menus")
  else match form with
  | .error message => (db, .formError message)
  | .ok form =>
    match validateItemForm db organization form with
    | .error message => (db, .formError message)
    | .ok () =>
      match Menus.addItem db (form.item menu_id) with
      | .ok db => (db, .seeOther ("/admin/menus/" ++ toString menu_id ++ "?ok=item-created"))
      | .error _ => (db, .formError "Could not save (internal error).")

/-- `update_item`: the item is the organization's; the menu of the path is
looked at only when a form is shown again. -/
def updateItem (menu_id item_id : ℤ) (form : Except String ItemForm) :
    ContentDb × PanelAnswer :=
  let again (message : String) : PanelAnswer :=
    if (Menus.findById db organization menu_id).isSome then .formError message
    else .seeOther "/admin/menus"
  match form with
  | .error message => (db, again message)
  | .ok form =>
    if (Menus.findItem db organization item_id).isNone then
      (db, .seeOther ("/admin/menus/" ++ toString menu_id))
    else match validateItemForm db organization form with
    | .error message => (db, again message)
    | .ok () =>
      match Menus.updateItem db organization item_id (form.item menu_id) with
      | .ok (db, some _) =>
          (db, .seeOther ("/admin/menus/" ++ toString menu_id ++ "?ok=item-saved"))
      | .ok (db, none) => (db, .seeOther ("/admin/menus/" ++ toString menu_id))
      | .error _ => (db, again "Could not save (internal error).")

/-- `load_menu_item`: the item must hang in the menu of the path. -/
def loadMenuItem (menu_id item_id : ℤ) : Option (ℕ × MenuItem) :=
  (Menus.findItem db organization item_id).filter fun r => (r.2.menu_id : ℤ) == menu_id

/-- `delete_item`. -/
def deleteItem (menu_id item_id : ℤ) : ContentDb × PanelAnswer :=
  let answer := PanelAnswer.seeOther
    ("/admin/menus/" ++ toString menu_id ++ "?ok=item-deleted")
  if (loadMenuItem db organization menu_id item_id).isSome then
    (Menus.deleteItem db organization item_id, answer)
  else (db, answer)

end Menus

/-! ## Media -/

section Media

variable (db : ContentDb) (organization : String) (user : ℕ) (now : ℤ)

def extension : MimeType → String
  | .png => "png"
  | .jpeg => "jpg"
  | .gif => "gif"
  | .webp => "webp"

def newMedia (upload : Upload) (bytes : ℕ) (prepared : PreparedImage) : Media where
  stored_name := upload.stem ++ "." ++ extension prepared.format
  thumb_name := upload.stem ++ "_t.png"
  original_name := upload.original_name.getD "imagen"
  mime_type := prepared.format
  bytes := bytes
  width := prepared.width
  height := prepared.height
  alt_text := upload.alt_text
  created_at := now
  created_by := some user

/-- `upload_media`. -/
def uploadMedia (upload : Except String Upload) : ContentDb × PanelAnswer :=
  match upload with
  | .error message => (db, .formError message)
  | .ok upload =>
    match upload.file with
    | none => (db, .formError "Pick a file: the upload carried no file field.")
    | some bytes =>
      if bytes = 0 then (db, .formError "The file is empty.")
      else match upload.prepared with
      | .error message => (db, .formError message)
      | .ok prepared =>
        if maxAltText < upload.alt_text.length then
          (db, .formError "El texto alternativo no puede pasar de 500 caracteres.")
        else if !upload.written then
          (db, .formError "No se pudo guardar el archivo en el disco.")
        else match MediaLibrary.create db organization (newMedia user now upload bytes prepared) with
        | .ok (db, id) => (db, .seeOther ("/admin/media/" ++ toString id))
        | .error _ => (db, .formError "No se pudo guardar (error interno).")

def mediaNotFound : PanelAnswer :=
  .notFound "That media file does not exist (or its name is not the canonical one)."

/-- `update_alt`. -/
def updateAlt (id : ℤ) (alt : Except String String) : ContentDb × PanelAnswer :=
  let detail (message : String) : PanelAnswer :=
    if (MediaLibrary.findById db organization id).isSome then .formError message
    else mediaNotFound
  match alt with
  | .error message => (db, detail message)
  | .ok alt =>
    if maxAltText < (trim alt).length then
      (db, detail "El texto alternativo no puede pasar de 500 caracteres.")
    else match MediaLibrary.updateAlt db organization id (trim alt) with
    | some db => (db, .seeOther ("/admin/media/" ++ toString id ++ "?ok=alt"))
    | none => (db, mediaNotFound)

/-- `delete_media`. -/
def deleteMedia (id : ℤ) : ContentDb × PanelAnswer :=
  if (MediaLibrary.findById db organization id).isNone then (db, mediaNotFound)
  else (MediaLibrary.delete db organization id, .seeOther "/admin/media?ok=deleted")

end Media

/-! ## The guard -/

/-- `CmsEditor`: a membership that may edit, in the request's organization. -/
def isEditorOf (db : ContentDb) (user : ℕ) (organization : String) : Bool :=
  (membershipRole db.toPanelDb user organization).any UserRole.isEditor

def perform (max_revisions : ℕ) (db : ContentDb) (r : PanelRequest) :
    ContentDb × PanelAnswer :=
  match r.action with
  | .createPage form => createPage max_revisions db r.organization r.user r.time form
  | .updatePage id form => updatePage max_revisions db r.organization r.user r.time id form
  | .restoreRevision id revision =>
      restoreRevision max_revisions db r.organization r.user r.time id revision
  | .deletePage id => deletePage db r.organization id
  | .createMenu form => createMenu db r.organization r.time form
  | .renameMenu id title => renameMenu db r.organization r.time id title
  | .deleteMenu id => deleteMenu db r.organization id
  | .createItem menu_id form => createItem db r.organization menu_id form
  | .updateItem menu_id item_id form => updateItem db r.organization menu_id item_id form
  | .deleteItem menu_id item_id => deleteItem db r.organization menu_id item_id
  | .uploadMedia upload => uploadMedia db r.organization r.user r.time upload
  | .updateAlt id alt => updateAlt db r.organization id alt
  | .deleteMedia id => deleteMedia db r.organization id

/-- One request of the panel. -/
def handle (max_revisions : ℕ) (db : ContentDb) (r : PanelRequest) :
    ContentDb × PanelAnswer :=
  if isEditorOf db r.user r.organization then perform max_revisions db r
  else (db, .forbidden
    "CMS membership required — this account is not part of the CMS organization.")

/-- The content machine: requests one after another. -/
def step (max_revisions : ℕ) (db : ContentDb) (r : PanelRequest) : Option ContentDb :=
  some (handle max_revisions db r).1

end Wallermax.Content
