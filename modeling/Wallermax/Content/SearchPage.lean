import Mathlib.Tactic.Linarith
import Wallermax.Base.FormFields
import Wallermax.Base.Paging
import Wallermax.Content.PublicPages
import Wallermax.Content.SearchInput

/-!
# The public listings, page by page

`/p` and `/search` show one window of their rows and link to the neighbouring ones. What a
view is given of a listing is a `Shown`, and the links in it are the targets of the next
requests.
-/

namespace Wallermax.Content

open Wallermax.Base
open Wallermax.Accounts
open Wallermax.Storage
open Wallermax.Tenants

/-- One page of a listing. -/
structure Shown : Type where
  busqueda : String
  rows : List Value
  page : ℤ
  total : ℤ
  page_size : ℤ
  base : String

namespace Shown

def paginacion (s : Shown) : Value := paginationValue s.page s.total s.page_size s.base

/-- The member of an object, as a link. -/
def link (key : String) : Value → Option Text
  | .object fields =>
    match fields.lookup key with
    | some (.string target) => some target.toList
    | _ => none
  | _ => none

def next (s : Shown) : Option Text := link "siguiente" s.paginacion

def previous (s : Shown) : Option Text := link "anterior" s.paginacion

end Shown

/-! ## The two listings -/

def listedRow (page : PageSummary) : Value :=
  .object [("slug", .string page.slug), ("title", .string page.title),
    ("updated_at_h", .string (formatTimestamp page.updated_at))]

def hitRow (hit : SearchHit) : Value :=
  .object [("slug", .string hit.slug), ("title", .string hit.title),
    ("updated_at_h", .string (formatTimestamp hit.updated_at)),
    ("fragmento", .array (fragmentSegments hit.fragment))]

section Handlers

variable {α : Type*} [Field α] [LinearOrder α] (env : Environment α)
  (refuses : String → Bool) (settings : Settings) (db : ContentDb) (r : ReadRequest)

/-- What `page_index` shows. -/
def indexShown : Shown :=
  let page_size : ℤ := settings.index_page_size
  let total : ℤ := Pages.countPublished db r.organization r.time
  let page := clampPage (listingQuery r.pairs).2 (max (pagesFor total page_size) 1)
  { busqueda := ""
    rows := (Pages.listPaged db r.organization r.time false page_size
      ((page - 1) * page_size)).map listedRow
    page := page
    total := total
    page_size := page_size
    base := "/p" }

omit [Field α] in
theorem pageIndex_eq : pageIndex env settings db r =
    renderView env settings db r "p.jhs"
      [("paginas", .array (indexShown settings db r).rows),
        ("paginacion", (indexShown settings db r).paginacion)] := rfl

/-- One window of a search. -/
def hitsShown (terms : String) (requested : ℤ) : Shown :=
  let page_size : ℤ := settings.index_page_size
  let total : ℤ := searchCount env.fts db r.organization r.time terms false
  let page := clampPage requested (max (pagesFor total page_size) 1)
  { busqueda := terms
    rows := (search env.fts db r.organization r.time terms false page_size
      ((page - 1) * page_size)).map hitRow
    page := page
    total := total
    page_size := page_size
    base := String.ofList ("/search?".toList ++ FormFields.field ['q'] terms.toList) }

/-- What `search_page` shows; nothing when FTS5 refuses the expression, which fails both
statements. -/
def searchShown : Option Shown :=
  let (terms, requested) := listingQuery r.pairs
  let searched := (ftsMatchQuery terms).isSome
  let terms := if searched then terms else ""
  if (ftsMatchQuery terms).any refuses then none
  else some (hitsShown env settings db r terms requested)

/-- `search_page`. -/
def searchPage : Response :=
  match searchShown env refuses settings db r with
  | none => .internal "storage failure"
  | some s => renderView env settings db r "search.jhs"
      [("busqueda", .string s.busqueda), ("resultados", .array s.rows),
        ("total_resultados", .number s.total), ("paginacion", s.paginacion)]

/-! ## Requests for them -/

/-- The fields of a target's query. -/
def queryPairs (target : Text) : List (String × String) :=
  (FormFields.parse ((Uri.parse target).query.getD [])).map fun field =>
    (String.ofList field.1, String.ofList field.2)

/-- The visitor's request for a target. -/
def requestFor (visitor : ReadRequest) (time : ℤ) (target : Text) : ReadRequest :=
  { visitor with
    path := String.ofList (Uri.parse target).path
    pairs := queryPairs target
    time := time }

/-- What a visitor is shown for a target at their `k`-th request. -/
def shownFor (visitor : ReadRequest) (clock : ℕ → ℤ) (k : ℕ) (target : Text) : Option Shown :=
  let r := requestFor visitor (clock k) target
  if r.path = "/p" then some (indexShown settings db r)
  else if r.path = "/search" then searchShown env refuses settings db r
  else none

end Handlers

end Wallermax.Content
