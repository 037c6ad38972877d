import Wallermax.Base.PercentEncoding
import Wallermax.Content.Forms
import Wallermax.Content.Search

/-!
# What a view is rendered with

The globals every template sees (`base_data`) and the scaffolding the listing
routes share. The engine over the views tree, the Markdown renderer, FTS5 and
the media directory are an `Environment`; a handler's answer is what they make
of the globals it computes. One request is read at one instant.
-/

namespace Wallermax.Content

open Wallermax.Base
open Wallermax.Accounts
open Wallermax.Storage
open Wallermax.Tenants

/-- `serde_json::Value`; every number here is an integer. -/
inductive Value : Type where
  | null
  | bool (value : Bool)
  | number (value : ℤ)
  | string (value : String)
  | array (items : List Value)
  | object (fields : List (String × Value))

namespace Value

/-- An `Option` serializes to `null`. -/
def text (value : Option String) : Value := value.elim .null .string

def id (value : Option ℕ) : Value := value.elim .null fun n => .number n

/-- `unwrap_or_default` of a text. -/
def textOrEmpty (value : Option String) : Value := .string (value.getD "")

/-- A formatted date, if there is one. -/
def date (seconds : Option ℤ) : Value := text (seconds.map formatTimestamp)

end Value

/-- `Map<String, Value>`. -/
abbrev Globals : Type := List (String × Value)

def Globals.insert (data : Globals) (key : String) (value : Value) : Globals :=
  (key, value) :: data.filter fun g => g.1 != key

def Globals.extend (data : Globals) (extra : List (String × Value)) : Globals :=
  extra.foldl (fun data g => data.insert g.1 g.2) data

/-- What a render yields; `res.redirect()` records a status and a location. -/
structure RenderOutput : Type where
  html : String
  redirect : Option (ℕ × String)

/-- The engine on a view and on a stored body, the Markdown renderer, the panel's
floating-point sizes, FTS5 and the files under `media_root`. -/
structure Environment (α : Type*) [Preorder α] where
  render : String → Globals → Except String RenderOutput
  renderString : String → Globals → Except String RenderOutput
  markdown : String → String
  humanBytes : ℤ → String
  fts : Fts5 α
  disk : String → Option (List UInt8)

/-- The configuration the content routes read. -/
structure Settings : Type where
  index_page_size : ℕ
  default_page : Option String
  site_url : Option String
  feed : Bool
  sitemap : Bool
  expose_user : Bool

/-- `AuthUser`: the identity a verified token carries. -/
structure AuthUser : Type where
  user_id : ℕ
  username : String
  role : UserRole

inductive ReadAction : Type where
  | publicPage (slug : String)
  | pageIndex
  | rssFeed
  | atomFeed
  | sitemap
  | serveMedia (id : ℤ) (filename : String)
  | serveThumb (id : ℤ)
  | dashboard
  | listPages
  | newPageForm
  | editPageForm (id : ℤ)
  | pageHistory (id : ℤ)
  | pageRevision (id revision : ℤ)
  | listMenus
  | menuDetail (id : ℤ)
  | newItemForm (menu_id : ℤ)
  | editItemForm (menu_id item_id : ℤ)
  | listMedia
  | mediaDetail (id : ℤ)

/-- A `GET` with the organization its host resolved to. `pairs` is the decoded
query string; `chrome` holds the globals that come from the request and the
routing alone: `req`, `theme`, `cms_origin` and `login_url`. -/
structure ReadRequest : Type where
  organization : String
  host : Option String
  path : String
  pairs : List (String × String)
  chrome : Globals
  user : Option AuthUser
  action : ReadAction
  time : ℤ

inductive Response : Type where
  | view (status : ℕ) (html : String)
  | redirect (status : ℕ) (location : String)
  | seeOther (location : String)
  | document (content_type body : String)
  | file (mime_type : String) (bytes : List UInt8)
  | notFound (message : String)
  | forbidden (message : String)
  | internal (message : String)

/-! ## The globals -/

def pagesGlobalLimit : ℤ := 50

/-- `pages_global`: the published pages, newest first. -/
def pagesGlobal (db : ContentDb) (organization : String) (now : ℤ) : Value :=
  .array ((Pages.list db organization now false pagesGlobalLimit).map fun page =>
    .object [("id", .number page.id), ("slug", .string page.slug),
      ("title", .string page.title), ("updated_at", .number page.updated_at),
      ("updated_at_h", .string (formatTimestamp page.updated_at))])

/-- `menus_global`. -/
def menusGlobal (db : ContentDb) (organization : String) (now : ℤ) : Value :=
  .object ((Menus.resolved db organization now).map fun (menu, items) =>
    (menu.2.name, .array (items.map fun item =>
      .object [("label", .string item.label), ("href", .string item.url)])))

/-- `query_global`: the first value wins. -/
def queryGlobal (pairs : List (String × String)) : Value :=
  .object (pairs.foldl (fun fields p =>
    if fields.any fun f => f.1 == p.1 then fields
    else fields ++ [(p.1, .string p.2)]) [])

def userGlobal (user : Option AuthUser) : Value :=
  user.elim .null fun user =>
    .object [("id", .number user.user_id), ("username", .string user.username),
      ("role", .string user.role.asStr)]

/-- The identity the templates are shown. -/
def exposedUser (settings : Settings) (r : ReadRequest) : Option AuthUser :=
  if settings.expose_user then r.user else none

/-- `member_role`: read under `/admin` alone. -/
def memberRole (db : ContentDb) (settings : Settings) (r : ReadRequest) : Value :=
  if startsWith r.path "/admin" then
    .text ((exposedUser settings r).bind fun user =>
      (membershipRole db.toPanelDb user.user_id r.organization).map UserRole.asStr)
  else .null

/-- `base_data`. -/
def baseData (settings : Settings) (db : ContentDb) (r : ReadRequest) : Globals :=
  [("user", userGlobal (exposedUser settings r)), ("path", .string r.path),
    ("query", queryGlobal r.pairs), ("pages", pagesGlobal db r.organization r.time),
    ("menus", menusGlobal db r.organization r.time)] ++ r.chrome ++
  [("member_role", memberRole db settings r), ("organization", .string r.organization)]

section Views

variable {α : Type*} [Preorder α] (env : Environment α) (settings : Settings)
  (db : ContentDb) (r : ReadRequest)

/-- `redirect_response`: a status outside 100 to 999 becomes a 302. -/
def redirectResponse (status : ℕ) (location : String) : Response :=
  .redirect (if 100 ≤ status ∧ status ≤ 999 then status else 302) location

/-- `render_view_with_data`. -/
def renderViewWithData (view : String) (data : Globals) (status : ℕ) : Response :=
  match env.render view data with
  | .error message => .internal message
  | .ok output =>
      match output.redirect with
      | some (code, location) => redirectResponse code location
      | none => .view status output.html

/-- `render_view`. -/
def renderView (view : String) (extra : List (String × Value)) : Response :=
  renderViewWithData env view ((baseData settings db r).extend extra) 200

end Views

/-! ## Listings -/

/-- `listing_query`: the terms and the page number asked for. -/
def listingQuery (pairs : List (String × String)) : String × ℤ :=
  pairs.foldl (fun asked p =>
    if p.1 = "q" then (String.ofList ((trim p.2).toList.take 200), asked.2)
    else if p.1 = "page" then (asked.1, (parseI64 p.2.toList).getD asked.2)
    else asked) ("", 1)

def pagesFor (total page_size : ℤ) : ℤ :=
  total / page_size + if total % page_size = 0 then 0 else 1

def clampPage (requested total_pages : ℤ) : ℤ :=
  max 1 (min requested (max total_pages 1))

def pageLink (base : String) (page : ℤ) : String :=
  base ++ (if base.toList.contains '?' then "&" else "?") ++ "page=" ++ toString page

/-- `pagination_value`. -/
def paginationValue (page total page_size : ℤ) (base : String) : Value :=
  let total_pages := max (pagesFor total page_size) 1
  .object [("pagina", .number page), ("total_paginas", .number total_pages),
    ("total_items", .number total),
    ("anterior", if 1 < page then .string (pageLink base (page - 1)) else .null),
    ("siguiente", if page < total_pages then .string (pageLink base (page + 1)) else .null),
    ("base", .string base)]

/-- `fragment_segments`: split at the markers, with whether each piece is a hit. -/
def fragmentSegments (fragment : String) : List Value :=
  let segment (text : List Char) (hit : Bool) : List Value :=
    if text.isEmpty then []
    else [.object [("texto", .string (String.ofList text)), ("hit", .bool hit)]]
  let (segments, current, in_hit) := fragment.toList.foldl (fun state c =>
    let (segments, current, in_hit) := state
    if c = '⟦' then (segments ++ segment current in_hit, [], true)
    else if c = '⟧' then (segments ++ segment current in_hit, [], false)
    else (segments, current ++ [c], in_hit)) (([] : List Value), ([] : List Char), false)
  segments ++ segment current in_hit

/-- `estado_badge`. -/
def estadoBadge (is_published : Bool) (publish_at : Option ℤ) (now : ℤ) : String :=
  if is_published || publish_at.any (· ≤ now) then "published"
  else if publish_at.isSome then "scheduled"
  else "draft"

end Wallermax.Content
