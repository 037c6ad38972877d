import Wallermax.Content.Ancestors
import Wallermax.Content.PublicPages

/-!
# What hidden pages show

A page is hidden while neither its flag nor an elapsed schedule makes it public.
Two databases that differ in what hidden pages say look the same to an anonymous
visitor of a visible page, its listing, feeds, sitemap and menus, but for one
read: the ancestor walk behind the breadcrumbs does not ask for visibility.
-/

namespace Wallermax.Content

open Wallermax.Base
open Wallermax.Accounts
open Wallermax.Storage
open Wallermax.Tenants

/-- Two editions of a page: its slug, title, content and metadata may differ. -/
def SameDraft (p q : Page) : Prop :=
  q = { p with
    slug := q.slug
    title := q.title
    content := q.content
    body_format := q.body_format
    meta_title := q.meta_title
    meta_description := q.meta_description
    og_image := q.og_image }

/-- A page and its edition, the same while it is visible. -/
def Edition (now : ℤ) (p q : ℕ × Page) : Prop :=
  p.1 = q.1 ∧ SameDraft p.2 q.2 ∧ (publicVisible now p.2 = true → q.2 = p.2)

/-- The page rows are related one by one, with the same owners. -/
def PagesRel (R : ℕ × Page → ℕ × Page → Prop) (db db' : ContentDb) : Prop :=
  List.Forall₂ (fun r r' => r.2.organization_id = r'.2.organization_id ∧
    R (r.1, r.2.columns) (r'.1, r'.2.columns)) db.pages.rows db'.pages.rows

/-- The databases differ in what hidden pages say and in the history. -/
structure HiddenVariant (now : ℤ) (db db' : ContentDb) : Prop where
  users : db'.users = db.users
  organizations : db'.organizations = db.organizations
  memberships : db'.memberships = db.memberships
  menus : db'.menus = db.menus
  menu_items : db'.menu_items = db.menu_items
  pages : PagesRel (Edition now) db db'

/-! ## Related rows -/

section Rel

variable {R : ℕ × Page → ℕ × Page → Prop} {l l' : List (ℕ × Page)}

theorem find?_rel {α : Type} {S : α → α → Prop} {m n : List α} {f : α → Bool}
    (hf : ∀ a b, S a b → f a = f b) (h : List.Forall₂ S m n) :
    Option.Rel S (m.find? f) (n.find? f) := by
  induction h with
  | nil => exact .none
  | @cons a b m n hab _ ih =>
      rw [List.find?_cons, List.find?_cons, ← hf a b hab]
      cases f a with
      | true => exact .some hab
      | false => exact ih

/-- A filter that sees only rows on which related ones agree. -/
theorem filter_rel {f : ℕ × Page → Bool} (hf : ∀ p q, R p q → f p = f q)
    (heq : ∀ p q, R p q → f p = true → p = q) (h : List.Forall₂ R l l') :
    l.filter f = l'.filter f := by
  induction h with
  | nil => rfl
  | @cons p q l l' hpq _ ih =>
      rw [List.filter_cons, List.filter_cons, ← hf p q hpq, ih]
      cases hp : f p with
      | true => rw [heq p q hpq hp]
      | false => rfl

theorem eq_of_rel (heq : ∀ p ∈ l, ∀ q, R p q → p = q) (h : List.Forall₂ R l l') :
    l = l' := by
  induction h with
  | nil => rfl
  | @cons p q l l' hpq _ ih =>
      rw [heq p (List.mem_cons_self ..) q hpq,
        ih fun x hx => heq x (List.mem_cons_of_mem p hx)]

/-- Lists that read alike do so at each row. -/
theorem exists_rel_of_map_eq {β : Type} {g : ℕ × Page → β} (h : List.Forall₂ R l l')
    (hmap : l.map g = l'.map g) {p : ℕ × Page} (hp : p ∈ l) :
    ∃ q, R p q ∧ g p = g q := by
  induction h with
  | nil => cases hp
  | @cons x y l l' hxy _ ih =>
      simp only [List.map_cons, List.cons.injEq] at hmap
      rcases List.mem_cons.mp hp with rfl | hp
      · exact ⟨y, hxy, hmap.1⟩
      · exact ih hmap.2 hp

variable {db db' : ContentDb}

theorem pagesOf_rel (h : PagesRel R db db') (horg : db'.organizations = db.organizations)
    (organization : String) :
    List.Forall₂ R (pagesOf db organization) (pagesOf db' organization) := by
  have howner : db'.owner organization = db.owner organization := by
    rw [ContentDb.owner, ContentDb.owner, horg]
  unfold pagesOf orgScope
  rw [howner]
  unfold PagesRel at h
  generalize db.pages.rows = rows at h ⊢
  generalize db'.pages.rows = rows' at h ⊢
  induction h with
  | nil => exact .nil
  | @cons r r' rows rows' hr _ ih =>
      rw [List.filter_cons, List.filter_cons, ← hr.1]
      split
      · exact .cons hr.2 ih
      · exact ih

theorem findById_rel (hid : ∀ p q, R p q → p.1 = q.1) (h : PagesRel R db db')
    (horg : db'.organizations = db.organizations) (organization : String) (id : ℤ) :
    Option.Rel R (Pages.findById db organization id) (Pages.findById db' organization id) :=
  find?_rel (fun p q hpq => by rw [hid p q hpq]) (pagesOf_rel h horg organization)

end Rel

/-! ## Two editions of a site -/

section Edition

variable {now : ℤ} {p q : ℕ × Page}

theorem Edition.visible (h : Edition now p q) :
    publicVisible now p.2 = publicVisible now q.2 := by
  rw [h.2.1]
  rfl

theorem Edition.eq (h : Edition now p q) (hp : publicVisible now p.2 = true) : p = q :=
  Prod.ext h.1 (h.2.2 hp).symm

theorem Edition.symm (h : Edition now p q) : Edition now q p := by
  refine ⟨h.1.symm, ?_, ?_⟩
  · unfold SameDraft
    rw [h.2.1]
  · intro hq
    exact (h.2.2 (h.visible.trans hq)).symm

theorem Edition.parent (h : Edition now p q) :
    p.1 = q.1 ∧ p.2.parent_id = q.2.parent_id := by
  refine ⟨h.1, ?_⟩
  rw [h.2.1]

end Edition

section Variant

variable {now : ℤ} {db db' : ContentDb} {organization : String}

theorem HiddenVariant.symm (h : HiddenVariant now db db') : HiddenVariant now db' db where
  users := h.users.symm
  organizations := h.organizations.symm
  memberships := h.memberships.symm
  menus := h.menus.symm
  menu_items := h.menu_items.symm
  pages := h.pages.flip.imp fun _ _ hr => ⟨hr.1.symm, hr.2.symm⟩

theorem HiddenVariant.pagesOf (h : HiddenVariant now db db') (organization : String) :
    List.Forall₂ (Edition now) (pagesOf db organization) (pagesOf db' organization) :=
  pagesOf_rel h.pages h.organizations organization

/-- What visitors are listed. -/
theorem listed_variant (h : HiddenVariant now db db') :
    Pages.listed db' organization now false = Pages.listed db organization now false := by
  refine (filter_rel ?_ ?_ (h.pagesOf organization)).symm
  · intro p q hpq
    rw [hpq.visible]
  · intro p q hpq hp
    exact hpq.eq (by simpa using hp)

theorem children_variant (h : HiddenVariant now db db') (parent_id : Option ℕ) :
    Pages.children db' organization now parent_id false =
      Pages.children db organization now parent_id false := by
  have hfilter := filter_rel
    (f := fun p : ℕ × Page => p.2.parent_id == parent_id && (publicVisible now p.2 || false))
    (fun p q hpq => by rw [hpq.visible, hpq.parent.2])
    (fun p q hpq hp => hpq.eq (by simp_all)) (h.pagesOf organization)
  rw [Pages.children, Pages.children, ← hfilter]

/-- The slug of a visible page names that page in every edition: it is unique. -/
theorem findBySlug_variant (h : HiddenVariant now db db') {slug : String} {p : ℕ × Page}
    (hp : Pages.findBySlug db organization slug = some p)
    (hvisible : publicVisible now p.2 = true) :
    Pages.findBySlug db' organization slug = some p := by
  have hmem : p ∈ Wallermax.Content.pagesOf db organization := List.mem_of_find?_eq_some hp
  have hslug : p.2.slug = slug := by simpa using List.find?_some hp
  have hmem' : p ∈ Wallermax.Content.pagesOf db' organization := by
    have hlisted : p ∈ Pages.listed db organization now false :=
      List.mem_filter.mpr ⟨hmem, by simpa using hvisible⟩
    rw [← listed_variant h] at hlisted
    exact List.mem_of_mem_filter hlisted
  cases hfind : Pages.findBySlug db' organization slug with
  | none =>
      have := List.find?_eq_none.mp hfind p hmem'
      simp [hslug] at this
  | some q =>
      have hq : q ∈ Wallermax.Content.pagesOf db' organization :=
        List.mem_of_find?_eq_some hfind
      have hqslug : q.2.slug = slug := by simpa using List.find?_some hfind
      obtain ⟨i, page⟩ := p
      obtain ⟨j, other⟩ := q
      obtain rfl : j = i := orgScope_key_inj hq hmem' (hqslug.trans hslug.symm)
      rw [orgScope_inj hq hmem']

/-- The join of a menu item, as far as it shows. -/
theorem resolveItem_variant (h : HiddenVariant now db db') (item : MenuItem) :
    Menus.resolveItem db' now item = Menus.resolveItem db now item := by
  have hjoin : Option.Rel (Edition now) (joinedPage db item) (joinedPage db' item) := by
    unfold joinedPage
    cases item.page_id with
    | none => exact .none
    | some id =>
        have hfind := find?_rel (f := fun r : ℕ × Owned Page => r.1 == id)
          (fun r r' hr => by rw [hr.2.1]) h.pages
        simp only [Option.bind_some, Table.find?]
        generalize db.pages.rows.find? _ = found at hfind ⊢
        generalize db'.pages.rows.find? _ = found' at hfind ⊢
        cases hfind with
        | none => exact .none
        | some hr => exact .some hr.2
  unfold Menus.resolveItem
  generalize joinedPage db item = joined at hjoin ⊢
  generalize joinedPage db' item = joined' at hjoin ⊢
  cases item.page_id with
  | none => rfl
  | some id =>
      cases hjoin with
      | none => rfl
      | @some p q hpq =>
          simp only [← hpq.visible]
          split
          · rename_i hvisible
            rw [hpq.eq hvisible]
          · rfl

theorem resolved_variant (h : HiddenVariant now db db') :
    Menus.resolved db' organization now = Menus.resolved db organization now := by
  have hlist : Menus.list db' organization = Menus.list db organization := by
    rw [Menus.list, Menus.list, menusOf, menusOf, h.menus, ContentDb.owner, ContentDb.owner,
      h.organizations]
  simp only [Menus.resolved, hlist, Menus.itemsIn, h.menu_items, resolveItem_variant h]

/-- The walk from a page whose visible ancestors are all there are. -/
theorem ancestors_variant (h : HiddenVariant now db db') {i : ℕ}
    (hall : ∀ a ∈ Pages.ancestorsLoop db organization i maxAncestorHops i [],
      publicVisible now a.2 = true) :
    Pages.ancestors db' organization i = Pages.ancestors db organization i := by
  have hwalk : List.Forall₂ (Edition now)
      (Pages.ancestorsLoop db organization i maxAncestorHops i [])
      (Pages.ancestorsLoop db' organization i maxAncestorHops i []) :=
    ancestorsLoop_rel (fun p q => Edition.parent)
      (findById_rel (fun p q hpq => hpq.1) h.pages h.organizations organization) .nil
  rw [Pages.ancestors, Pages.ancestors,
    eq_of_rel (fun a ha q haq => haq.eq (hall a ha)) hwalk]

end Variant

/-! ## What an anonymous visitor sees -/

section Visitors

variable {α : Type*} [Preorder α]

/-- The visible page, the listing, the feeds, the sitemap and the menus are the
same. -/
structure SameForVisitors (env : Environment α) (settings : Settings) (r : ReadRequest)
    (slug : String) (p : ℕ × Page) (db db' : ContentDb) : Prop where
  found : Pages.findBySlug db' r.organization slug = some p
  globals : pageGlobals settings db' r p = pageGlobals settings db r p
  response : publicPage env settings db' r slug = publicPage env settings db r slug
  listing : pageIndex env settings db' r = pageIndex env settings db r
  rss : rssFeed settings db' r = rssFeed settings db r
  atom : atomFeed settings db' r = atomFeed settings db r
  sitemap : sitemap settings db' r = sitemap settings db r
  menus : Menus.resolved db' r.organization r.time = Menus.resolved db r.organization r.time

variable {env : Environment α} {settings : Settings} {db db' : ContentDb}
  {r : ReadRequest}

theorem viewerIsEditor_anonymous (hanon : r.user = none) :
    viewerIsEditor settings db r = false := by
  simp [viewerIsEditor, exposedUser, hanon]

theorem baseData_variant (h : HiddenVariant r.time db db') :
    baseData settings db' r = baseData settings db r := by
  have hpages : pagesGlobal db' r.organization r.time =
      pagesGlobal db r.organization r.time := by
    rw [pagesGlobal, pagesGlobal, Pages.list, Pages.list, listed_variant h]
  have hrole : memberRole db' settings r = memberRole db settings r := by
    simp only [memberRole, membershipRole, findOrganization, h.memberships, h.organizations]
  rw [baseData, baseData, hpages, menusGlobal, menusGlobal, resolved_variant h, hrole]

theorem homeEntry_variant (h : HiddenVariant r.time db db') (base : String) :
    homeEntry settings db' r base = homeEntry settings db r base := by
  unfold homeEntry
  cases settings.default_page with
  | none => rfl
  | some slug =>
      simp only [Option.bind_some]
      cases hfind : Pages.findBySlug db r.organization slug with
      | some p =>
          by_cases hp : publicVisible r.time p.2 = true
          · rw [findBySlug_variant h hfind hp]
          · cases hother : Pages.findBySlug db' r.organization slug with
            | none => simp [hp]
            | some q =>
                by_cases hq : publicVisible r.time q.2 = true
                · have hback := findBySlug_variant h.symm hother hq
                  obtain rfl := Option.some.inj (hback.symm.trans hfind)
                  exact absurd hq hp
                · simp [hp, hq]
      | none =>
          cases hother : Pages.findBySlug db' r.organization slug with
          | none => rfl
          | some q =>
              by_cases hq : publicVisible r.time q.2 = true
              · rw [findBySlug_variant h.symm hother hq] at hfind
                cases hfind
              · simp [hq]

/-- The breadcrumbs are all that can differ. -/
theorem sameForVisitors_of_ancestors (hanon : r.user = none) {slug : String}
    {p : ℕ × Page} (hfound : Pages.findBySlug db r.organization slug = some p)
    (hvisible : publicVisible r.time p.2 = true) (h : HiddenVariant r.time db db')
    (hancestors : Pages.ancestors db' r.organization p.1 =
      Pages.ancestors db r.organization p.1) :
    SameForVisitors env settings r slug p db db' := by
  have hglobals : pageGlobals settings db' r p = pageGlobals settings db r p := by
    simp only [pageGlobals, parentLink, breadcrumbs, childrenLinks, hancestors,
      viewerIsEditor_anonymous hanon, children_variant h, editedByName, h.users]
  have hfound' := findBySlug_variant h hfound hvisible
  have hlisted : Pages.listed db' r.organization r.time false =
      Pages.listed db r.organization r.time false := listed_variant h
  exact
    { found := hfound'
      globals := hglobals
      response := by
        simp only [publicPage, renderPublicPage, hfound, hfound', hvisible,
          baseData_variant h, hglobals, Bool.not_true, Bool.false_and]
      listing := by
        simp only [pageIndex, renderView, baseData_variant h, Pages.countPublished,
          Pages.listPaged, hlisted]
      rss := by rw [rssFeed, rssFeed, Pages.feedEntries, Pages.feedEntries, hlisted]
      atom := by rw [atomFeed, atomFeed, Pages.feedEntries, Pages.feedEntries, hlisted]
      sitemap := by
        rw [Wallermax.Content.sitemap, Wallermax.Content.sitemap,
          funext (homeEntry_variant h), Pages.list, Pages.list, hlisted]
      menus := resolved_variant h }

/-- The database with one page's title changed. -/
def retitled (db : ContentDb) (i : ℕ) : ContentDb :=
  { db with
    pages := db.pages.modify (fun j _ => j == i)
      (fun v => { v with columns := { v.columns with title := v.columns.title ++ "*" } })
      (fun _ => rfl) (fun _ _ => ⟨rfl, rfl⟩) }

/-- An edition with this page's title changed. -/
def Retitled (now : ℤ) (i : ℕ) (p q : ℕ × Page) : Prop :=
  Edition now p q ∧ (p.1 = i → q.2.title = p.2.title ++ "*")

theorem retitled_rel {now : ℤ} {i : ℕ}
    (hidden : ∀ v, (i, v) ∈ db.pages.rows → publicVisible now v.columns = false) :
    PagesRel (Retitled now i) db (retitled db i) := by
  refine List.forall₂_map_right_iff.mpr (List.forall₂_same.mpr ?_)
  rintro ⟨j, v⟩ hv
  by_cases hj : j = i
  · subst hj
    have hpage := hidden v hv
    simp [Retitled, Edition, SameDraft, hpage]
  · simp [Retitled, Edition, SameDraft, hj]

theorem retitled_variant {now : ℤ} {i : ℕ}
    (hidden : ∀ v, (i, v) ∈ db.pages.rows → publicVisible now v.columns = false) :
    HiddenVariant now db (retitled db i) where
  users := rfl
  organizations := rfl
  memberships := rfl
  menus := rfl
  menu_items := rfl
  pages := (retitled_rel hidden).imp fun _ _ hr => ⟨hr.1, hr.2.1⟩

theorem append_star_ne (title : String) : title ++ "*" ≠ title := by
  intro h
  have := congrArg String.length h
  simp at this

/-- A hidden page among the ancestors shows its title. -/
theorem globals_retitled_ne {p q : ℕ × Page}
    (hidden : ∀ v, (q.1, v) ∈ db.pages.rows → publicVisible r.time v.columns = false)
    (hq : q ∈ Pages.ancestorsLoop db r.organization p.1 maxAncestorHops p.1 []) :
    pageGlobals settings (retitled db q.1) r p ≠ pageGlobals settings db r p := by
  intro h
  have hcrumbs : breadcrumbs (retitled db q.1) r p = breadcrumbs db r p := by
    simp only [pageGlobals, Value.object.injEq, List.cons.injEq, Prod.mk.injEq,
      Value.array.injEq, true_and] at h
    exact h.2.2.1
  have hwalk : List.Forall₂ (Retitled r.time q.1)
      (Pages.ancestorsLoop db r.organization p.1 maxAncestorHops p.1 [])
      (Pages.ancestorsLoop (retitled db q.1) r.organization p.1 maxAncestorHops p.1 []) :=
    ancestorsLoop_rel (fun _ _ hr => hr.1.parent)
      (findById_rel (fun _ _ hr => hr.1.1) (retitled_rel hidden) rfl r.organization) .nil
  simp only [breadcrumbs, Pages.ancestors, List.map_map] at hcrumbs
  obtain ⟨q', hrel, heq⟩ := exists_rel_of_map_eq hwalk hcrumbs.symm hq
  have htexts : q.2.slug = q'.2.slug ∧ q.2.title = q'.2.title := by
    simpa [summary] using heq
  exact append_star_ne q.2.title ((hrel.2 rfl).symm.trans htexts.2.symm)

/-- **What hidden pages show.** A visible page, its listing, feeds, sitemap and
menus are the same to anonymous visitors in all editions of the hidden pages
exactly when no page fewer than `maxAncestorHops` parent links above is hidden. -/
theorem hidden_unseen_iff (env : Environment α) (settings : Settings) (db : ContentDb)
    (r : ReadRequest) (slug : String) (p : ℕ × Page) (hanon : r.user = none)
    (hfound : Pages.findBySlug db r.organization slug = some p)
    (hvisible : publicVisible r.time p.2 = true) :
    (∀ db', HiddenVariant r.time db db' → SameForVisitors env settings r slug p db db') ↔
    ∀ k < maxAncestorHops, ∀ i q, climb (parentIn db r.organization) k p.1 = some i →
      Pages.findById db r.organization (i : ℤ) = some q →
        publicVisible r.time q.2 = true := by
  constructor
  · intro hall k hk i q hclimb hq
    by_contra hhidden
    obtain ⟨hmem, hid⟩ := Pages.findById_some hq
    obtain rfl : q.1 = i := Int.ofNat_inj.mp hid
    have hp : p ∈ Wallermax.Content.pagesOf db r.organization :=
      List.mem_of_find?_eq_some hfound
    have hne : (q.1 : ℤ) ≠ p.1 := by
      intro heq
      obtain ⟨i, page⟩ := p
      obtain ⟨j, other⟩ := q
      obtain rfl : j = i := Int.ofNat_inj.mp heq
      rw [orgScope_inj hmem hp] at hhidden
      exact hhidden hvisible
    have hwalk : q ∈ Pages.ancestorsLoop db r.organization p.1 maxAncestorHops p.1 [] :=
      mem_ancestorsLoop.mpr (.inr ⟨hne, k, hk, hclimb, hq⟩)
    have hidden : ∀ v, (q.1, v) ∈ db.pages.rows →
        publicVisible r.time v.columns = false := by
      intro v hv
      obtain ⟨o, _, hrow⟩ := mem_orgScope.mp hmem
      rw [Table.eq_of_mem hv hrow]
      simpa using hhidden
    exact globals_retitled_ne hidden hwalk (hall _ (retitled_variant hidden)).globals
  · intro hall db' hvariant
    apply sameForVisitors_of_ancestors hanon hfound hvisible hvariant
    apply ancestors_variant hvariant
    intro a ha
    rcases mem_ancestorsLoop.mp ha with ha | ⟨_, k, hk, hclimb, hq⟩
    · cases ha
    · exact hall k hk a.1 a hclimb hq

end Visitors

/-! ## A draft above a published page -/

def sitePage (slug title : String) (is_published : Bool) (parent_id : Option ℕ) : Page where
  slug := slug
  title := title
  content := "x"
  is_published := is_published
  created_by := none
  created_at := 0
  updated_at := 0
  parent_id := parent_id
  position := 0
  meta_title := none
  meta_description := none
  og_image := none
  body_format := .markdown
  publish_at := none

/-- A draft of this title with a published page under it, and a published page
under another. -/
def draftSite (title : String) : ContentDb where
  users := Table.empty
  organizations := Table.empty.insert ⟨"acme", "Acme", "acme", 0⟩
  memberships := Memberships.empty
  domains := Constrained.empty
  pages :=
    { rows := [(1, ⟨1, sitePage "borrador" title false none⟩),
        (2, ⟨1, sitePage "ficha" "Ficha" true (some 1)⟩),
        (3, ⟨1, sitePage "tienda" "Tienda" true none⟩),
        (4, ⟨1, sitePage "oferta" "Oferta" true (some 3)⟩)]
      seq := 4
      ids_nodup := by simp
      ids_le_seq := by simp
      checked := by simp [Kind.ownedCheck, pageKind]
      unique := by simp [Kind.ownedCollides, Kind.collides, pageKind, sitePage] }
  menus := Constrained.empty
  media := Constrained.empty
  page_revisions := Table.empty
  menu_items := Constrained.empty

def plainSettings : Settings where
  index_page_size := 10
  default_page := none
  site_url := none
  feed := true
  sitemap := true
  expose_user := true

/-- Views that show nothing but themselves. -/
noncomputable def plainEnvironment : Environment ℝ where
  render := fun view _ => .ok ⟨view, none⟩
  renderString := fun content _ => .ok ⟨content, none⟩
  markdown := fun content => content
  humanBytes := fun bytes => toString bytes
  fts := sqliteFts5
  disk := fun _ => none

/-- A visitor's request for a page. -/
def visit (slug : String) : ReadRequest where
  organization := "acme"
  host := some "acme.example"
  path := "/p/" ++ slug
  pairs := []
  chrome := []
  user := none
  action := .publicPage slug
  time := 10

theorem draftSite_variant : HiddenVariant 10 (draftSite "Secreto") (draftSite "Otro") where
  users := rfl
  organizations := rfl
  memberships := rfl
  menus := rfl
  menu_items := rfl
  pages := by simp [PagesRel, draftSite, Edition, SameDraft, sitePage, publicVisible]

/-- Nothing hidden stands above `oferta`. -/
theorem hidden_unseen_iff_oferta :
    HiddenVariant 10 (draftSite "Secreto") (draftSite "Otro") ∧
      ∀ db', HiddenVariant 10 (draftSite "Secreto") db' →
        SameForVisitors plainEnvironment plainSettings (visit "oferta") "oferta"
          (4, sitePage "oferta" "Oferta" true (some 3)) (draftSite "Secreto") db' := by
  refine ⟨draftSite_variant, ?_⟩
  refine (hidden_unseen_iff plainEnvironment plainSettings (draftSite "Secreto")
    (visit "oferta") "oferta" (4, sitePage "oferta" "Oferta" true (some 3)) rfl
    (by decide) (by decide)).mpr ?_
  intro k _ i q hclimb hq
  have hvisible : ∀ q ∈ pagesOf (draftSite "Secreto") "acme", q.1 ≠ 1 →
      publicVisible 10 q.2 = true := by decide
  obtain ⟨hmem, hid⟩ := Pages.findById_some hq
  obtain rfl : q.1 = i := Int.ofNat_inj.mp hid
  apply hvisible q hmem
  intro hdraft
  rw [hdraft] at hclimb
  by_cases hk : 2 ≤ k
  · rw [climb_none_of_le (m := 2) (by decide) hk] at hclimb
    cases hclimb
  · obtain rfl | rfl : k = 0 ∨ k = 1 := by omega
    · revert hclimb
      decide
    · revert hclimb
      decide

/-- The draft's title stands in the breadcrumbs of the page under it. -/
theorem draft_in_breadcrumbs :
    HiddenVariant 10 (draftSite "Secreto") (draftSite "Otro") ∧
      Pages.findBySlug (draftSite "Secreto") "acme" "ficha" =
        some (2, sitePage "ficha" "Ficha" true (some 1)) ∧
      publicVisible 10 (sitePage "ficha" "Ficha" true (some 1)) = true ∧
      breadcrumbs (draftSite "Secreto") (visit "ficha")
          (2, sitePage "ficha" "Ficha" true (some 1)) =
        [.object [("slug", .string "borrador"), ("title", .string "Secreto")]] ∧
      breadcrumbs (draftSite "Otro") (visit "ficha")
          (2, sitePage "ficha" "Ficha" true (some 1)) =
        [.object [("slug", .string "borrador"), ("title", .string "Otro")]] := by
  exact ⟨draftSite_variant, by decide, rfl, rfl, rfl⟩

end Wallermax.Content
