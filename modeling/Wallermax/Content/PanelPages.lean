import Wallermax.Base.ParentTree
import Wallermax.Content.PublicPages

/-!
# The reading requests of the content panel

The listings, forms and details of the panel, behind its guard, and the dispatch
of all the content `GET`s. A foreign id answers like a missing one.
-/

namespace Wallermax.Content

open Wallermax.Base
open Wallermax.Accounts
open Wallermax.Storage
open Wallermax.Tenants

def dashboardActivityRows : ℤ := 8

def dashboardScheduledRows : ℤ := 5

def mediaPageSize : ℤ := 24

/-! ## The page tree -/

/-- `sort_by_key(|page| (page.position, page.id))`. -/
def TreeOrder (p q : PageSummary) : Prop :=
  p.position < q.position ∨ (p.position = q.position ∧ p.id ≤ q.id)

instance : DecidableRel TreeOrder := fun p q =>
  inferInstanceAs (Decidable (p.position < q.position ∨ _))

/-- A depth-first walk below a parent; a kept page contributes a row before its
children. A page is below the top level at one depth, so no branch is longer
than the listing. -/
def walkTree (pages : List PageSummary) (keep : PageSummary → Bool)
    (row : PageSummary → ℕ → Value) : ℕ → Option ℕ → ℕ → List Value
  | 0, _, _ => []
  | fuel + 1, parent, depth =>
      (pages.filter fun page => page.parent_id == parent && keep page).flatMap fun page =>
        row page depth :: walkTree pages keep row fuel (some page.id) (depth + 1)

/-- The tree of the pages listed for an editor. -/
def pageTree (db : ContentDb) (organization : String) (now : ℤ)
    (keep : PageSummary → Bool) (row : PageSummary → ℕ → Value) : List Value :=
  let pages := (Pages.list db organization now true maxListed).insertionSort TreeOrder
  walkTree pages keep row pages.length none 0

section Walk

variable {pages : List PageSummary} {keep : PageSummary → Bool}
  {row : PageSummary → ℕ → Value}

/-- The parent a listed page names. -/
def linkIn (pages : List PageSummary) (i : ℕ) : Option ℕ :=
  (pages.find? fun page => page.id == i).bind PageSummary.parent_id

/-- The walk below this parent is at its depth: a climb over listed pages leads
from the parent to the top. -/
def AtDepth (pages : List PageSummary) : Option ℕ → ℕ → Prop
  | none, depth => depth = 0
  | some i, depth => ∃ d top, depth = d + 1 ∧ climb (linkIn pages) d i = some top ∧
      linkIn pages top = none ∧
      ∀ k ≤ d, ∀ j, climb (linkIn pages) k i = some j → j ∈ pages.map PageSummary.id

theorem linkIn_of_mem (hnodup : (pages.map PageSummary.id).Nodup) {page : PageSummary}
    (h : page ∈ pages) : linkIn pages page.id = page.parent_id := by
  cases hfind : pages.find? fun p => p.id == page.id with
  | none =>
      have := List.find?_eq_none.mp hfind page h
      simp at this
  | some other =>
      have hid : other.id = page.id := by simpa using List.find?_some hfind
      have hsame := List.inj_on_of_nodup_map hnodup (List.mem_of_find?_eq_some hfind) h hid
      rw [linkIn, hfind, Option.bind_some, hsame]

/-- The children of the parent are one level further down. -/
theorem AtDepth.child (hnodup : (pages.map PageSummary.id).Nodup) {parent : Option ℕ}
    {depth : ℕ} (h : AtDepth pages parent depth) {page : PageSummary} (hpage : page ∈ pages)
    (hparent : page.parent_id = parent) : AtDepth pages (some page.id) (depth + 1) := by
  have hlink := (linkIn_of_mem hnodup hpage).trans hparent
  have hself : page.id ∈ pages.map PageSummary.id := List.mem_map_of_mem hpage
  cases parent with
  | none =>
      obtain rfl : depth = 0 := h
      refine ⟨0, page.id, rfl, rfl, hlink, ?_⟩
      intro k hk j hj
      obtain rfl : k = 0 := by omega
      exact Option.some.inj hj ▸ hself
  | some i =>
      obtain ⟨d, top, rfl, hclimb, htop, hlisted⟩ := h
      have hup : ∀ k, climb (linkIn pages) (k + 1) page.id = climb (linkIn pages) k i := by
        intro k
        rw [climb_succ, hlink, Option.bind_some]
      refine ⟨d + 1, top, rfl, (hup d).trans hclimb, htop, ?_⟩
      intro k hk j hj
      cases k with
      | zero => exact Option.some.inj hj ▸ hself
      | succ k => exact hlisted k (by omega) j ((hup k).symm.trans hj)

theorem AtDepth.le_length {i depth : ℕ} (h : AtDepth pages (some i) depth) :
    depth ≤ pages.length := by
  obtain ⟨d, top, rfl, hclimb, htop, hlisted⟩ := h
  have hlt := climb_lt_length hclimb htop hlisted
  rw [List.length_map] at hlt
  omega

/-- Where the fuel and the depth make up the listing, more fuel adds nothing. -/
theorem walkTree_succ (hnodup : (pages.map PageSummary.id).Nodup) {fuel depth : ℕ}
    {parent : Option ℕ} (h : AtDepth pages parent depth)
    (hfuel : pages.length ≤ fuel + depth) :
    walkTree pages keep row (fuel + 1) parent depth =
      walkTree pages keep row fuel parent depth := by
  induction fuel generalizing parent depth with
  | zero =>
      have hleaf : (pages.filter fun page => page.parent_id == parent && keep page) = [] := by
        rw [List.filter_eq_nil_iff]
        intro page hpage hchild
        have hparent : page.parent_id = parent := by
          simp only [Bool.and_eq_true, beq_iff_eq] at hchild
          exact hchild.1
        have hle := (h.child hnodup hpage hparent).le_length
        omega
      simp only [walkTree, hleaf, List.flatMap_nil]
  | succ fuel ih =>
      rw [walkTree, walkTree]
      apply List.flatMap_congr
      intro page hpage
      obtain ⟨hmem, hchild⟩ := List.mem_filter.mp hpage
      have hparent : page.parent_id = parent := by
        simp only [Bool.and_eq_true, beq_iff_eq] at hchild
        exact hchild.1
      rw [ih (h.child hnodup hmem hparent) (by omega)]

/-- **The listing's length is fuel enough** for the walk from the top level. -/
theorem walkTree_of_le (hnodup : (pages.map PageSummary.id).Nodup) {fuel : ℕ}
    (hfuel : pages.length ≤ fuel) :
    walkTree pages keep row fuel none 0 = walkTree pages keep row pages.length none 0 := by
  induction fuel, hfuel using Nat.le_induction with
  | base => rfl
  | succ fuel hle ih =>
      have htop : AtDepth pages none 0 := rfl
      rw [walkTree_succ hnodup htop (by omega)]
      exact ih

theorem pageTree_of_le {db : ContentDb} {organization : String} {now : ℤ} {fuel : ℕ}
    (hfuel : ((Pages.list db organization now true maxListed).insertionSort
      TreeOrder).length ≤ fuel) :
    walkTree ((Pages.list db organization now true maxListed).insertionSort TreeOrder) keep
      row fuel none 0 = pageTree db organization now keep row := by
  apply walkTree_of_le _ hfuel
  exact ((List.perm_insertionSort _ _).map _).nodup_iff.mpr Pages.list_ids_nodup

end Walk

/-- A row of `walk_page_tree`. -/
def pageRow (now : ℤ) (page : PageSummary) (depth : ℕ) : Value :=
  .object [("id", .number page.id), ("slug", .string page.slug),
    ("title", .string page.title), ("is_published", .bool page.is_published),
    ("estado", .string (estadoBadge page.is_published page.publish_at now)),
    ("publish_at_h", .date page.publish_at),
    ("updated_at_h", .string (formatTimestamp page.updated_at)),
    ("depth", .number depth)]

/-- A row of `walk_parent_options`. -/
def parentOption (page : PageSummary) (depth : ℕ) : Value :=
  .object [("id", .number page.id),
    ("label", .string ("".pushn (Char.ofNat 0xA0) (depth * 3) ++ page.title))]

/-- `parent_options`: without the page itself and its branch. -/
def parentOptions (db : ContentDb) (organization : String) (now : ℤ)
    (exclude : Option ℤ) : List Value :=
  pageTree db organization now (fun page => some (page.id : ℤ) != exclude) parentOption

/-- `form_data`, without an error. -/
def formData (form : PageForm) (id : Option ℤ) (parents : List Value) : Value :=
  .object [("id", id.elim .null .number), ("slug", .string form.slug),
    ("title", .string form.title), ("content", .string form.content),
    ("body_format", .string (bodyFormatStr form.bodyFormat)),
    ("is_published", .bool form.published), ("is_new", .bool id.isNone),
    ("parent_id", form.parent.elim .null .number),
    ("position", .number (positionOr0 form.position)),
    ("meta_title", .textOrEmpty (trimmed form.meta_title)),
    ("meta_description", .textOrEmpty (trimmed form.meta_description)),
    ("og_image", .textOrEmpty (trimmed form.og_image)),
    ("publish_at", .textOrEmpty (trimmed form.publish_at)),
    ("revision_note", .textOrEmpty (trimmed form.revision_note)),
    ("parents", .array parents)]

/-- The form of a stored page; the checkbox states whether it is visible. -/
def storedForm (page : Page) (now : ℤ) : PageForm where
  slug := page.slug
  title := page.title
  content := page.content
  body_format := some (bodyFormatStr page.body_format)
  is_published := if publicVisible now page then some "on" else none
  parent_id := page.parent_id.map toString
  position := some (toString page.position)
  meta_title := page.meta_title
  meta_description := page.meta_description
  og_image := page.og_image
  publish_at := page.publish_at.map formatDatetimeLocal
  revision_note := none

section Panel

variable {α : Type*} [Field α] [LinearOrder α] (env : Environment α) (settings : Settings)
  (db : ContentDb) (r : ReadRequest)

/-! ## Pages -/

/-- `dashboard`. -/
def dashboard : Response :=
  let total := Pages.count db r.organization
  let published := Pages.countPublished db r.organization r.time
  let programadas := Pages.scheduledPending db r.organization r.time dashboardScheduledRows
  let actividad := Pages.recentRevisions db r.organization dashboardActivityRows
  renderView env settings db r "admin/dashboard.jhs"
    [("stats", .object [("pages", .number total), ("published", .number published),
        ("drafts", .number (total - published)),
        ("scheduled", .number (Pages.countScheduled db r.organization r.time)),
        ("menus", .number (Menus.count db r.organization)),
        ("media", .number (MediaLibrary.count db r.organization)),
        ("users", .number db.users.rows.length)]),
      ("actividad", .array (actividad.map fun row =>
        .object [("page_id", .number row.page_id), ("title", .string row.title),
          ("slug", .string row.slug), ("revision", .number row.revision),
          ("note", .text row.note),
          ("created_at_h", .string (formatTimestamp row.created_at)),
          ("editor", .text row.edited_by_name)])),
      ("programadas", .array (programadas.map fun page =>
        .object [("id", .number page.id), ("slug", .string page.slug),
          ("title", .string page.title), ("publish_at_h", .date page.publish_at)]))]

def adminResult (now : ℤ) (hit : SearchHit) : Value :=
  .object [("id", .number hit.id), ("slug", .string hit.slug), ("title", .string hit.title),
    ("is_published", .bool hit.is_published),
    ("estado", .string (estadoBadge hit.is_published hit.publish_at now)),
    ("publish_at_h", .date hit.publish_at),
    ("updated_at_h", .string (formatTimestamp hit.updated_at)),
    ("fragmento", .array (fragmentSegments hit.fragment))]

/-- `list_pages`: the tree, or the ranked hits of a filter. -/
def listPages : Response :=
  let filter := (listingQuery r.pairs).1
  if !filter.isEmpty then
    let hits := search env.fts db r.organization r.time filter true maxListed 0
    renderView env settings db r "admin/pages.jhs"
      [("admin_pages", .array []), ("admin_resultados", .array (hits.map (adminResult r.time))),
        ("filtro", .string filter)]
  else renderView env settings db r "admin/pages.jhs"
    [("admin_pages", .array (pageTree db r.organization r.time (fun _ => true)
        (pageRow r.time))),
      ("admin_resultados", .null), ("filtro", .string "")]

def pageFormView (form : PageForm) (id : Option ℤ) : Response :=
  renderView env settings db r "admin/page_form.jhs"
    [("form", formData form id (parentOptions db r.organization r.time id)),
      ("form_error", .null), ("preview_html", .null)]

/-- `new_page_form`. -/
def newPageForm : Response := pageFormView env settings db r PageForm.empty none

/-- `edit_page_form`. -/
def editPageForm (id : ℤ) : Response :=
  match Pages.findById db r.organization id with
  | none => .seeOther "/admin/pages"
  | some (_, page) => pageFormView env settings db r (storedForm page r.time) (some id)

def pageHeading (page : ℕ × Page) : Value :=
  .object [("id", .number page.1), ("title", .string page.2.title),
    ("slug", .string page.2.slug)]

/-- `page_history`: the revisions are read by the id the lookup has checked. -/
def pageHistory (id : ℤ) : Response :=
  match Pages.findById db r.organization id with
  | none => .seeOther "/admin/pages"
  | some page =>
      let revisions := Pages.revisions db id
      let current := revisions.head?.map RevisionSummary.revision
      renderView env settings db r "admin/page_history.jhs"
        [("page", pageHeading page),
          ("revisiones", .array (revisions.map fun revision =>
            .object [("revision", .number revision.revision),
              ("title", .string revision.title), ("slug", .string revision.slug),
              ("estado", .string
                (estadoBadge revision.is_published revision.publish_at r.time)),
              ("publish_at_h", .date revision.publish_at),
              ("note", .textOrEmpty revision.note),
              ("edited_by_name", .textOrEmpty revision.edited_by_name),
              ("created_at_h", .string (formatTimestamp revision.created_at)),
              ("is_current", .bool (some revision.revision == current))]))]

/-- `page_revision`. -/
def pageRevision (id revision : ℤ) : Response :=
  match Pages.findById db r.organization id with
  | none => .seeOther "/admin/pages"
  | some page =>
    match Pages.findRevision db id revision with
    | none => .seeOther ("/admin/pages/" ++ toString id ++ "/history")
    | some (snapshot, edited_by_name) =>
        renderView env settings db r "admin/page_revision.jhs"
          [("page", pageHeading page),
            ("revision", .object [("revision", .number snapshot.revision),
              ("slug", .string snapshot.slug), ("title", .string snapshot.title),
              ("content", .string snapshot.content),
              ("body_format", .string (bodyFormatStr snapshot.body_format)),
              ("parent_id", .id snapshot.parent_id),
              ("position", .number snapshot.position),
              ("meta_title", .textOrEmpty snapshot.meta_title),
              ("meta_description", .textOrEmpty snapshot.meta_description),
              ("og_image", .textOrEmpty snapshot.og_image),
              ("estado", .string
                (estadoBadge snapshot.is_published snapshot.publish_at r.time)),
              ("publish_at_h", .date snapshot.publish_at),
              ("note", .textOrEmpty snapshot.note),
              ("edited_by_name", .textOrEmpty edited_by_name),
              ("created_at_h", .string (formatTimestamp snapshot.created_at))]),
            ("form_error", .null)]

/-! ## Menus -/

/-- `list_menus`. -/
def listMenus : Response :=
  renderView env settings db r "admin/menus.jhs"
    [("admin_menus", .array ((Menus.list db r.organization).map fun menu =>
        .object [("id", .number menu.1), ("name", .string menu.2.name),
          ("title", .string menu.2.title), ("items", .number (Menus.countItems db menu.1)),
          ("updated_at_h", .string (formatTimestamp menu.2.updated_at))])),
      ("form_error", .null)]

def menuHeading (menu : ℕ × Menu) : Value :=
  .object [("id", .number menu.1), ("name", .string menu.2.name),
    ("title", .string menu.2.title)]

/-- An item and the page it was joined with. -/
def itemRow (entry : (ℕ × MenuItem) × Option MenuPageProjection) : Value :=
  .object [("id", .number entry.1.1), ("position", .number entry.1.2.position),
    ("label", .text entry.1.2.label),
    ("page", entry.2.elim .null fun page =>
      .object [("slug", .string page.slug), ("title", .string page.title),
        ("is_published", .bool page.is_published)]),
    ("url", .text entry.1.2.url), ("is_page", .bool entry.1.2.page_id.isSome),
    ("href", .string (match entry.2, entry.1.2.url with
      | some page, _ => "/p/" ++ page.slug
      | none, some url => url
      | none, none => ""))]

/-- `menu_detail`: the items are read by the id the lookup has checked. -/
def menuDetail (id : ℤ) : Response :=
  match Menus.findById db r.organization id with
  | none => .seeOther "/admin/menus"
  | some menu =>
      renderView env settings db r "admin/menu_detail.jhs"
        [("menu", menuHeading menu),
          ("items", .array ((Menus.itemsWithPages db id).map itemRow)), ("form_error", .null)]

/-- `render_item_form_view`. -/
def itemFormView (menu_id : ℤ) (form : ItemForm) (item_id : Option ℤ) : Response :=
  match Menus.findById db r.organization menu_id with
  | none => .seeOther "/admin/menus"
  | some menu =>
      renderView env settings db r "admin/menu_item_form.jhs"
        [("menu", menuHeading menu),
          ("form", .object [("menu_id", .number menu_id),
            ("item_id", item_id.elim .null .number), ("is_new", .bool item_id.isNone),
            ("label", .textOrEmpty form.label), ("page_id", form.page.elim .null .number),
            ("url", .textOrEmpty form.url), ("position", .number (positionOr0 form.position))]),
          ("page_options", .array ((Pages.list db r.organization r.time true maxListed).map
            fun page => .object [("id", .number page.id), ("title", .string page.title),
              ("is_published", .bool page.is_published)])),
          ("form_error", .null)]

/-- `new_item_form`. -/
def newItemForm (menu_id : ℤ) : Response :=
  itemFormView env settings db r menu_id ItemForm.empty none

/-- `edit_item_form`. -/
def editItemForm (menu_id item_id : ℤ) : Response :=
  match loadMenuItem db r.organization menu_id item_id with
  | none => .seeOther ("/admin/menus/" ++ toString menu_id)
  | some (_, item) =>
      itemFormView env settings db r menu_id
        { label := item.label
          page_id := item.page_id.map toString
          url := item.url
          position := some (toString item.position) } (some item_id)

/-! ## Media -/

def mediaUrl (media : ℕ × Media) : String :=
  "/media/" ++ toString media.1 ++ "/" ++ media.2.stored_name

/-- `media_item_data`. -/
def mediaItemData (media : ℕ × Media) : Value :=
  .object [("id", .number media.1), ("original_name", .string media.2.original_name),
    ("stored_name", .string media.2.stored_name), ("url", .string (mediaUrl media)),
    ("thumb_url", .string ("/media/thumb/" ++ toString media.1)),
    ("mime_type", .string (mimeStr media.2.mime_type)), ("width", .number media.2.width),
    ("height", .number media.2.height), ("bytes", .number media.2.bytes),
    ("size_h", .string (env.humanBytes media.2.bytes)),
    ("alt_text", .string media.2.alt_text),
    ("created_at_h", .string (formatTimestamp media.2.created_at))]

/-- `list_media`. -/
def listMedia : Response :=
  let total : ℤ := MediaLibrary.count db r.organization
  let page := clampPage (listingQuery r.pairs).2 (max (pagesFor total mediaPageSize) 1)
  let items := MediaLibrary.listPaged db r.organization mediaPageSize
    ((page - 1) * mediaPageSize)
  renderView env settings db r "admin/media_list.jhs"
    [("media_items", .array (items.map (mediaItemData env))), ("form_error", .null),
      ("alt_text", .string ""),
      ("paginacion", paginationValue page total mediaPageSize "/admin/media")]

/-- `media_detail`. -/
def mediaDetail (id : ℤ) : Response :=
  match MediaLibrary.findById db r.organization id with
  | none => mediaMissing
  | some media =>
      renderView env settings db r "admin/media_detail.jhs"
        [("item", mediaItemData env media),
          ("markdown_snippet", .string
            ("![" ++ media.2.alt_text ++ "](" ++ mediaUrl media ++ ")")),
          ("html_snippet", .string ("<img src=\"" ++ mediaUrl media ++ "\" alt=\"" ++
            media.2.alt_text ++ "\" width=\"" ++ toString media.2.width ++ "\" height=\"" ++
            toString media.2.height ++ "\">")),
          ("form_error", .null)]

/-! ## The dispatch -/

/-- `utf8_percent_encode`. -/
def pathSafe (c : Char) : Bool :=
  (c.isAlphanum && c.toNat < 0x80) || c == '-' || c == '_' || c == '.' || c == '~'

/-- `CmsEditor` in front of a panel page. -/
def guarded (page : Response) : Response :=
  match r.user with
  | none => .seeOther ("/login?redirect=" ++
      String.ofList (percentEncode pathSafe r.path.toList))
  | some user =>
      if isEditorOf db user.user_id r.organization then page
      else .forbidden
        "CMS membership required — this account is not part of the CMS organization."

/-- One content `GET`. -/
def answer : Response :=
  match r.action with
  | .publicPage slug => publicPage env settings db r slug
  | .pageIndex => pageIndex env settings db r
  | .rssFeed => rssFeed settings db r
  | .atomFeed => atomFeed settings db r
  | .sitemap => sitemap settings db r
  | .serveMedia id filename => serveMedia env db r id filename
  | .serveThumb id => serveThumb env db r id
  | .dashboard => guarded db r (dashboard env settings db r)
  | .listPages => guarded db r (listPages env settings db r)
  | .newPageForm => guarded db r (newPageForm env settings db r)
  | .editPageForm id => guarded db r (editPageForm env settings db r id)
  | .pageHistory id => guarded db r (pageHistory env settings db r id)
  | .pageRevision id revision => guarded db r (pageRevision env settings db r id revision)
  | .listMenus => guarded db r (listMenus env settings db r)
  | .menuDetail id => guarded db r (menuDetail env settings db r id)
  | .newItemForm menu_id => guarded db r (newItemForm env settings db r menu_id)
  | .editItemForm menu_id item_id =>
      guarded db r (editItemForm env settings db r menu_id item_id)
  | .listMedia => guarded db r (listMedia env settings db r)
  | .mediaDetail id => guarded db r (mediaDetail env settings db r id)

end Panel

end Wallermax.Content
