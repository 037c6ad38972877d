import Wallermax.Content.Handlers
import Wallermax.Content.Views

/-!
# The public content routes

A page, the listing of the published pages, the feeds, the sitemap and the
media files, for the organization a request's host names.
-/

namespace Wallermax.Content

open Wallermax.Base
open Wallermax.Accounts
open Wallermax.Storage
open Wallermax.Tenants

section Pages

variable {α : Type*} [Preorder α] (env : Environment α) (settings : Settings)
  (db : ContentDb) (r : ReadRequest)

/-- The caller of a public page may manage the organization's content. -/
def viewerIsEditor : Bool :=
  (exposedUser settings r).any fun user => isEditorOf db user.user_id r.organization

/-- The body, or the answer that takes its place: a redirect it issues or the
diagnostics of its author. -/
def bodyHtml (data : Globals) (page : Page) : Except Response String :=
  match page.body_format with
  | .markdown => .ok (env.markdown page.content)
  | .jhs =>
      match env.renderString page.content data with
      | .error message => .error (.internal message)
      | .ok output =>
          match output.redirect with
          | some (code, location) => .error (redirectResponse code location)
          | none => .ok output.html

/-- The ancestors' link texts, root first. -/
def breadcrumbs (page : ℕ × Page) : List Value :=
  (Pages.ancestors db r.organization page.1).map fun ancestor =>
    .object [("slug", .string ancestor.slug), ("title", .string ancestor.title)]

/-- The last ancestor. -/
def parentLink (page : ℕ × Page) : Value :=
  ((Pages.ancestors db r.organization page.1).getLast?).elim .null fun parent =>
    .object [("id", .number parent.id), ("slug", .string parent.slug),
      ("title", .string parent.title)]

def childrenLinks (page : ℕ × Page) : List Value :=
  (Pages.children db r.organization r.time (some page.1)
    (viewerIsEditor settings db r)).map fun child =>
      .object [("slug", .string child.slug), ("title", .string child.title),
        ("position", .number child.position)]

/-- The `page` global of a public page. -/
def pageGlobals (page : ℕ × Page) : Value :=
  let visible_now := publicVisible r.time page.2
  .object [("id", .number page.1), ("slug", .string page.2.slug),
    ("title", .string page.2.title), ("is_published", .bool visible_now),
    ("scheduled_for_h", .date (page.2.publish_at.filter fun due =>
      !visible_now && decide (r.time < due))),
    ("created_at_h", .string (formatTimestamp page.2.created_at)),
    ("updated_at_h", .string (formatTimestamp page.2.updated_at)),
    ("author", .text (editedByName db page.2.created_by)),
    ("parent", parentLink db r page), ("breadcrumbs", .array (breadcrumbs db r page)),
    ("children", .array (childrenLinks settings db r page)),
    ("position", .number page.2.position), ("meta_title", .text page.2.meta_title),
    ("meta_description", .text page.2.meta_description),
    ("og_image", .text page.2.og_image)]

def notFoundView (data : Globals) : Response := renderViewWithData env "404.jhs" data 404

/-- `render_public_page`; `none` when no page has the slug. -/
def renderPublicPage (data : Globals) (slug : String) : Option Response :=
  match Pages.findBySlug db r.organization slug with
  | none => none
  | some page =>
      if !publicVisible r.time page.2 && !viewerIsEditor settings db r then
        some (notFoundView env data)
      else match bodyHtml env data page.2 with
      | .error response => some response
      | .ok html =>
          let data := (data.insert "page" (pageGlobals settings db r page)).insert
            "content" (.string html)
          some (renderViewWithData env "cms_page.jhs" data 200)

/-- `public_page`. -/
def publicPage (slug : String) : Response :=
  let data := baseData settings db r
  (renderPublicPage env settings db r data slug).getD (notFoundView env data)

/-- `page_index`. -/
def pageIndex : Response :=
  let page_size : ℤ := settings.index_page_size
  let total : ℤ := Pages.countPublished db r.organization r.time
  let page := clampPage (listingQuery r.pairs).2 (max (pagesFor total page_size) 1)
  let pages := Pages.listPaged db r.organization r.time false page_size
    ((page - 1) * page_size)
  renderView env settings db r "p.jhs"
    [("paginas", .array (pages.map fun pagina =>
      .object [("slug", .string pagina.slug), ("title", .string pagina.title),
        ("updated_at_h", .string (formatTimestamp pagina.updated_at))])),
      ("paginacion", paginationValue page total page_size "/p")]

end Pages

/-! ## Feeds and sitemap -/

def feedMaxItems : ℤ := 20

def sitemapLimit : ℤ := 50000

/-- `xml_escape`. -/
def xmlEscape (value : String) : String :=
  String.ofList (value.toList.flatMap fun c =>
    if c = '&' then "&amp;".toList
    else if c = '<' then "&lt;".toList
    else if c = '>' then "&gt;".toList
    else if c = '"' then "&quot;".toList
    else if c = Char.ofNat 39 then "&apos;".toList
    else [c])

section Feeds

variable (settings : Settings) (db : ContentDb) (r : ReadRequest)

/-- `absolute_origin`: `site_url` speaks for the CMS organization alone. -/
def absoluteOrigin : String :=
  let request_origin := "http://" ++ r.host.getD "127.0.0.1"
  if r.organization = cmsOrganizationKey then settings.site_url.getD request_origin
  else request_origin

/-- A description element, unless it would be blank. -/
def described (before after : String) (text : Option String) : String :=
  match text.filter fun text => !(trim text).isEmpty with
  | none => ""
  | some text => before ++ xmlEscape text ++ after

def rssItem (base : String) (entry : FeedEntry) : String :=
  let link := xmlEscape (base ++ "/p/" ++ entry.slug)
  "    <item>\n      <title>" ++ xmlEscape entry.title ++ "</title>\n      <link>" ++ link ++
    "</link>\n      <guid isPermaLink=\"true\">" ++ link ++ "</guid>\n      <pubDate>" ++
    rfc2822Date entry.updated_at ++ "</pubDate>\n" ++
    described "      <description>" "</description>\n" entry.meta_description ++
    "    </item>\n"

/-- `rss_feed`. -/
def rssFeed : Response :=
  if !settings.feed then .notFound "No route matches GET /feed.xml"
  else
    let base := absoluteOrigin settings r
    .document "application/rss+xml; charset=utf-8"
      ("<?xml version=\"1.0\" encoding=\"UTF-8\"?>\n" ++
        "<rss version=\"2.0\" xmlns:atom=\"http://www.w3.org/2005/Atom\">\n  <channel>\n" ++
        "    <title>" ++ xmlEscape "Pages — wallermax" ++ "</title>\n    <link>" ++
        xmlEscape base ++ "/p</link>\n    " ++
        "<description>Published pages from the wallermax CMS</description>\n    " ++
        "<atom:link rel=\"self\" href=\"" ++ xmlEscape base ++ "/feed.xml\" " ++
        "type=\"application/rss+xml\"/>\n    <language>en</language>\n" ++
        String.join ((Pages.feedEntries db r.organization r.time feedMaxItems).map
          (rssItem base)) ++
        "  </channel>\n</rss>\n")

def atomEntry (base : String) (entry : FeedEntry) : String :=
  let link := xmlEscape (base ++ "/p/" ++ entry.slug)
  "  <entry>\n    <title>" ++ xmlEscape entry.title ++
    "</title>\n    <link rel=\"alternate\" href=\"" ++ link ++ "\"/>\n    <id>" ++ link ++
    "</id>\n    <updated>" ++ isoDatetime entry.updated_at ++ "</updated>\n" ++
    described "    <summary>" "</summary>\n" entry.meta_description ++ "  </entry>\n"

/-- `atom_feed`. -/
def atomFeed : Response :=
  if !settings.feed then .notFound "No route matches GET /atom.xml"
  else
    let base := absoluteOrigin settings r
    let entries := Pages.feedEntries db r.organization r.time feedMaxItems
    .document "application/atom+xml; charset=utf-8"
      ("<?xml version=\"1.0\" encoding=\"UTF-8\"?>\n" ++
        "<feed xmlns=\"http://www.w3.org/2005/Atom\">\n" ++
        "  <title>" ++ xmlEscape "Pages — wallermax" ++ "</title>\n  <id>" ++ xmlEscape base ++
        "/atom.xml</id>\n  <link rel=\"alternate\" type=\"text/html\" href=\"" ++
        xmlEscape base ++ "/p\"/>\n  <link rel=\"self\" href=\"" ++ xmlEscape base ++
        "/atom.xml\"/>\n  <updated>" ++
        isoDatetime (entries.head?.elim r.time FeedEntry.updated_at) ++ "</updated>\n" ++
        String.join (entries.map (atomEntry base)) ++ "</feed>\n")

/-- `sitemap_entry`. -/
def sitemapEntry (loc : String) (lastmod : ℤ) : String :=
  "  <url>\n    <loc>" ++ xmlEscape loc ++ "</loc>\n    <lastmod>" ++ isoDate lastmod ++
    "</lastmod>\n  </url>\n"

/-- The entry of the homepage, while `default_page` names a visible page. -/
def homeEntry (base : String) : String :=
  match settings.default_page.bind (Pages.findBySlug db r.organization) with
  | none => ""
  | some home =>
      if publicVisible r.time home.2 then sitemapEntry (base ++ "/") home.2.updated_at else ""

/-- `sitemap`. -/
def sitemap : Response :=
  if !settings.sitemap then .notFound "No route matches GET /sitemap.xml"
  else
    let base := absoluteOrigin settings r
    .document "application/xml; charset=utf-8"
      ("<?xml version=\"1.0\" encoding=\"UTF-8\"?>\n" ++
        "<urlset xmlns=\"http://www.sitemaps.org/schemas/sitemap/0.9\">\n" ++
        homeEntry settings db r base ++
        String.join ((Pages.list db r.organization r.time false sitemapLimit).map
          fun page => sitemapEntry (base ++ "/p/" ++ page.slug) page.updated_at) ++
        "</urlset>\n")

end Feeds

/-! ## Media -/

def mimeStr : MimeType → String
  | .png => "image/png"
  | .jpeg => "image/jpeg"
  | .gif => "image/gif"
  | .webp => "image/webp"

def mediaMissing : Response :=
  .notFound "That media file does not exist (or its name is not the canonical one)."

section Media

variable {α : Type*} [Preorder α] (env : Environment α) (db : ContentDb) (r : ReadRequest)

/-- `serve_media`: the name of the path is the stored name. -/
def serveMedia (id : ℤ) (filename : String) : Response :=
  match MediaLibrary.findById db r.organization id with
  | none => mediaMissing
  | some (_, record) =>
      if record.stored_name ≠ filename then mediaMissing
      else match env.disk record.stored_name with
      | some bytes => .file (mimeStr record.mime_type) bytes
      | none => mediaMissing

/-- `serve_thumb`: the full file when there is no thumbnail. -/
def serveThumb (id : ℤ) : Response :=
  match MediaLibrary.findById db r.organization id with
  | none => mediaMissing
  | some (_, record) =>
      match env.disk record.thumb_name with
      | some bytes => .file "image/png" bytes
      | none =>
          match env.disk record.stored_name with
          | some bytes => .file (mimeStr record.mime_type) bytes
          | none => mediaMissing

end Media

end Wallermax.Content
