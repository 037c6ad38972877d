import Wallermax.Base.Ascii
import Wallermax.Base.Trim
import Wallermax.Base.XmlPaths
import Wallermax.Content.DatetimeRoundTrip
import Wallermax.Content.PublicPages

/-!
# The feeds and the sitemap as XML

The three documents are written as texts; here each is the text of a tree, so that what a
reader of XML makes of it is known: the pages, one item each, where their titles and
descriptions and the origin of the links have no character that XML does not allow and none
that it reads as another.
-/

namespace Wallermax.Content

open Wallermax.Base
open Wallermax.Base.Xml (Element Content)
open Wallermax.Tenants

/-! ## The trees -/

/-- An element with a text, behind the white space of its line. -/
def line (gap name : String) (text : List Char) : List Char × Element :=
  (gap.toList, .mk name.toList [] (.text text))

def entryLink (base slug : String) : String := base ++ "/p/" ++ slug

/-- The description a feed shows. -/
def shownDescription (entry : FeedEntry) : Option String :=
  entry.meta_description.filter fun text => !(trim text).isEmpty

section

variable (base : String)

def rssItemTree (entry : FeedEntry) : Element :=
  let link := (entryLink base entry.slug).toList
  .mk "item".toList [] (.behind
    ([line "\n      " "title" entry.title.toList, line "\n      " "link" link,
      ("\n      ".toList, .mk "guid".toList [("isPermaLink".toList, "true".toList)] (.text link)),
      line "\n      " "pubDate" (rfc2822Date entry.updated_at).toList] ++
      (shownDescription entry).toList.map fun text =>
        line "\n      " "description" text.toList)
    (.text "\n    ".toList))

def rssTree (entries : List FeedEntry) : Element :=
  .mk "rss".toList [("version".toList, "2.0".toList),
      ("xmlns:atom".toList, "http://www.w3.org/2005/Atom".toList)] (.behind
    [("\n  ".toList, .mk "channel".toList [] (.behind
      ([line "\n    " "title" "Pages — wallermax".toList,
        line "\n    " "link" (base ++ "/p").toList,
        line "\n    " "description" "Published pages from the wallermax CMS".toList,
        ("\n    ".toList, .mk "atom:link".toList [("rel".toList, "self".toList),
          ("href".toList, (base ++ "/feed.xml").toList),
          ("type".toList, "application/rss+xml".toList)] (.text [])),
        line "\n    " "language" "en".toList] ++
        entries.map fun entry => ("\n    ".toList, rssItemTree base entry))
      (.text "\n  ".toList)))]
    (.text "\n".toList))

def atomEntryTree (entry : FeedEntry) : Element :=
  let link := (entryLink base entry.slug).toList
  .mk "entry".toList [] (.behind
    ([line "\n    " "title" entry.title.toList,
      ("\n    ".toList, .mk "link".toList [("rel".toList, "alternate".toList),
        ("href".toList, link)] (.text [])),
      line "\n    " "id" link, line "\n    " "updated" (isoDatetime entry.updated_at).toList] ++
      (shownDescription entry).toList.map fun text => line "\n    " "summary" text.toList)
    (.text "\n  ".toList))

def atomTree (updated : ℤ) (entries : List FeedEntry) : Element :=
  .mk "feed".toList [("xmlns".toList, "http://www.w3.org/2005/Atom".toList)] (.behind
    ([line "\n  " "title" "Pages — wallermax".toList,
      line "\n  " "id" (base ++ "/atom.xml").toList,
      ("\n  ".toList, .mk "link".toList [("rel".toList, "alternate".toList),
        ("type".toList, "text/html".toList), ("href".toList, (base ++ "/p").toList)] (.text [])),
      ("\n  ".toList, .mk "link".toList [("rel".toList, "self".toList),
        ("href".toList, (base ++ "/atom.xml").toList)] (.text [])),
      line "\n  " "updated" (isoDatetime updated).toList] ++
      entries.map fun entry => ("\n  ".toList, atomEntryTree base entry))
    (.text "\n".toList))

def urlTree (loc : String) (lastmod : ℤ) : Element :=
  .mk "url".toList [] (.behind
    [line "\n    " "loc" loc.toList, line "\n    " "lastmod" (isoDate lastmod).toList]
    (.text "\n  ".toList))

def sitemapTree (urls : List (String × ℤ)) : Element :=
  .mk "urlset".toList [("xmlns".toList, "http://www.sitemaps.org/schemas/sitemap/0.9".toList)]
    (.behind (urls.map fun url => ("\n  ".toList, urlTree url.1 url.2)) (.text "\n".toList))

end

/-! ## Slugs and dates -/

/-- The characters of the slugs and the written dates. -/
def isPlainChar (c : Char) : Bool := c.isAlphanum || [' ', ',', ':', '-', '+'].contains c

theorem plainChar_spec {c : Char} (h : isPlainChar c = true) :
    Xml.isChar c = true ∧ Xml.escapeChar c = [c] ∧ c ∉ ['\t', '\n', '\r'] := by
  have hne : ∀ d ∈ ['&', '<', '>', '"', Char.ofNat 39, '\t', '\n', '\r'], c ≠ d := by
    have hnone : ∀ d ∈ ['&', '<', '>', '"', Char.ofNat 39, '\t', '\n', '\r'],
        isPlainChar d = false := forall_mem_of_all (by decide)
    rintro d hd rfl
    rw [hnone c hd] at h
    cases h
  refine ⟨?_, ?_, fun hmem => ?_⟩
  · rw [isPlainChar, Bool.or_eq_true] at h
    rcases h with h | h
    · apply Xml.isChar_of_isNameChar
      unfold Xml.isNameChar Xml.isNameStart
      rcases isAlphanum_iff.mp h with halpha | hdigit
      · rw [halpha]
        rfl
      · rw [hdigit, Bool.or_true]
        rfl
    · have hfixed : ∀ d ∈ [' ', ',', ':', '-', '+'], Xml.isChar d = true :=
        forall_mem_of_all (by decide)
      exact hfixed c (List.contains_iff_mem.mp h)
  · simp only [List.forall_mem_cons] at hne
    unfold Xml.escapeChar
    rw [if_neg hne.1, if_neg hne.2.1, if_neg hne.2.2.1, if_neg hne.2.2.2.1,
      if_neg hne.2.2.2.2.1]
  · exact hne c (List.mem_append_right ['&', '<', '>', '"', Char.ofNat 39] hmem) rfl

theorem allowed_of_plain {text : List Char} (h : text.all isPlainChar = true) :
    text.all Xml.isChar = true := by
  rw [List.all_eq_true] at h ⊢
  exact fun c hc => (plainChar_spec (h c hc)).1

theorem escape_of_plain {text : List Char} (h : text.all isPlainChar = true) :
    Xml.escape text = text :=
  Xml.escape_eq_self fun c hc => (plainChar_spec (List.all_eq_true.mp h c hc)).2.1

theorem plain_padded (width : ℕ) (n : ℤ) : (padded width n).toList.all isPlainChar = true := by
  have hdigits : (toString n.natAbs).toList.all isPlainChar = true := by
    rw [Nat.toString_eq_repr, Nat.toList_repr, List.all_eq_true]
    intro c hc
    rw [isPlainChar, isAlphanum_of_isDigit (isDigit_of_mem_toDigits n.natAbs c hc), Bool.true_or]
  have hzeros : ∀ k, ("".pushn '0' k).toList.all isPlainChar = true := by
    intro k
    rw [toList_pushn, List.all_eq_true]
    intro c hc
    rw [(List.mem_replicate.mp hc).2]
    rfl
  have hminus : "-".toList.all isPlainChar = true := by decide
  unfold padded
  split <;>
    simp only [String.toList_append, List.all_append, hdigits, hzeros, hminus, Bool.and_self]

theorem plain_clock (timeOfDay : ℤ) : (clock timeOfDay).toList.all isPlainChar = true := by
  have hcolon : ":".toList.all isPlainChar = true := by decide
  simp only [clock, String.toList_append, List.all_append, plain_padded, hcolon, Bool.and_self]

theorem plain_isoDate (seconds : ℤ) : (isoDate seconds).toList.all isPlainChar = true := by
  have hminus : "-".toList.all isPlainChar = true := by decide
  simp only [isoDate, String.toList_append, List.all_append, plain_padded, hminus, Bool.and_self]

theorem plain_isoDatetime (seconds : ℤ) :
    (isoDatetime seconds).toList.all isPlainChar = true := by
  have hfixed : ∀ text ∈ ["T", ":", "Z"], text.toList.all isPlainChar = true := by decide
  simp only [List.forall_mem_cons] at hfixed
  simp only [isoDatetime, String.toList_append, List.all_append, plain_isoDate, plain_clock,
    plain_padded, hfixed, Bool.and_self]

theorem plain_getD {names : List String}
    (h : ∀ name ∈ names, name.toList.all isPlainChar = true) (k : ℕ) :
    (names.getD k "").toList.all isPlainChar = true := by
  rw [List.getD_eq_getElem?_getD]
  cases hname : names[k]? with
  | none => rfl
  | some name => exact h name (List.mem_of_getElem? hname)

theorem plain_rfc2822Date (seconds : ℤ) :
    (rfc2822Date seconds).toList.all isPlainChar = true := by
  have hweekdays : ∀ name ∈ weekdays, name.toList.all isPlainChar = true := by decide
  have hmonths : ∀ name ∈ months, name.toList.all isPlainChar = true := by decide
  have hfixed : ∀ text ∈ [", ", " ", ":", " +0000"], text.toList.all isPlainChar = true := by
    decide
  simp only [List.forall_mem_cons] at hfixed
  simp only [rfc2822Date, String.toList_append, List.all_append, plain_getD hweekdays,
    plain_getD hmonths, plain_clock, plain_padded, hfixed, Bool.and_self]

theorem plain_slug {slug : String} (h : validSlug slug = true) :
    slug.toList.all isPlainChar = true := by
  simp only [validSlug, Bool.and_eq_true, List.all_eq_true, Bool.or_eq_true, beq_iff_eq] at h
  rw [List.all_eq_true]
  intro c hc
  rcases h.2 c hc with (hlower | hdigit) | rfl
  · rw [isPlainChar, isAlphanum_of_isLower hlower, Bool.true_or]
  · rw [isPlainChar, isAlphanum_of_isDigit hdigit, Bool.true_or]
  · rfl

/-- No date is empty. -/
theorem date_ne_nil (seconds : ℤ) : (isoDate seconds).toList ≠ [] ∧
    (isoDatetime seconds).toList ≠ [] ∧ (rfc2822Date seconds).toList ≠ [] := by
  refine ⟨?_, ?_, ?_⟩
  · simp only [isoDate, String.toList_append, String.reduceToList]
    simp
  · simp only [isoDatetime, String.toList_append, String.reduceToList]
    simp
  · simp only [rfc2822Date, String.toList_append, String.reduceToList]
    simp

/-! ## The documents are those of the trees -/

theorem toList_xmlEscape (value : String) :
    (xmlEscape value).toList = Xml.escape value.toList := String.toList_ofList

theorem toList_sitemapEntry (loc : String) (lastmod : ℤ) (hloc : loc.toList ≠ []) :
    (sitemapEntry loc lastmod).toList = ' ' :: ' ' :: ((urlTree loc lastmod).write ++ ['\n']) := by
  have hdate := (date_ne_nil lastmod).1
  have hescape := escape_of_plain (plain_isoDate lastmod)
  unfold sitemapEntry urlTree line
  rw [Xml.write_mk _ _ _ (by decide)]
  simp (disch := decide) only [String.toList_append, toList_xmlEscape, List.flatMap_cons,
    List.flatMap_nil, Xml.write_text _ _ hloc, Xml.write_text _ _ hdate, hescape,
    String.reduceToList, Xml.startTag, List.append_nil, List.cons_append, List.nil_append,
    List.append_assoc, Xml.escape_cons_self, Xml.escape_nil]

section

variable (base : String) (entry : FeedEntry)

theorem entryLink_ne_nil (slug : String) : (entryLink base slug).toList ≠ [] := by
  simp only [entryLink, String.toList_append, String.reduceToList]
  simp

theorem shownDescription_ne_nil {text : String} (h : shownDescription entry = some text) :
    text.toList ≠ [] := by
  intro hnil
  have hshown := (Option.filter_eq_some_iff.mp h).2
  obtain rfl : text = "" := String.toList_inj.mp hnil
  exact absurd hshown (by decide)

theorem described_eq (before after : String) :
    described before after entry.meta_description =
      (shownDescription entry).elim "" fun text => before ++ xmlEscape text ++ after := by
  unfold described
  rw [← shownDescription]
  cases shownDescription entry <;> rfl

set_option maxRecDepth 2000 in
theorem toList_rssItem (htitle : entry.title.toList ≠ []) :
    (rssItem base entry).toList =
      ' ' :: ' ' :: ' ' :: ' ' :: ((rssItemTree base entry).write ++ ['\n']) := by
  have hdate := (date_ne_nil entry.updated_at).2.2
  have hescape := escape_of_plain (plain_rfc2822Date entry.updated_at)
  have hlink := entryLink_ne_nil base entry.slug
  unfold rssItem rssItemTree line
  rw [Xml.write_mk _ _ _ (by decide), ← entryLink, described_eq]
  -- both sides are one list of characters around the same values
  cases hshown : shownDescription entry with
  | none =>
      simp (disch := decide) [toList_xmlEscape, Xml.write_text _ _ htitle,
        Xml.write_text _ _ hdate, Xml.write_text _ _ hlink, hescape, Xml.startTag,
        Xml.escape_cons_self, Xml.escape_nil]
  | some text =>
      have htext := shownDescription_ne_nil entry hshown
      simp (disch := decide) [toList_xmlEscape, Xml.write_text _ _ htitle,
        Xml.write_text _ _ hdate, Xml.write_text _ _ hlink, Xml.write_text _ _ htext, hescape,
        Xml.startTag, Xml.escape_cons_self, Xml.escape_nil]

theorem toList_atomEntry (htitle : entry.title.toList ≠ []) :
    (atomEntry base entry).toList = ' ' :: ' ' :: ((atomEntryTree base entry).write ++ ['\n']) := by
  have hdate := (date_ne_nil entry.updated_at).2.1
  have hescape := escape_of_plain (plain_isoDatetime entry.updated_at)
  have hlink := entryLink_ne_nil base entry.slug
  unfold atomEntry atomEntryTree line
  rw [Xml.write_mk _ _ _ (by decide), ← entryLink, described_eq]
  cases hshown : shownDescription entry with
  | none =>
      simp (disch := decide) [toList_xmlEscape, Xml.write_text _ _ htitle,
        Xml.write_text _ _ hdate, Xml.write_text _ _ hlink, Xml.write_empty, hescape,
        Xml.startTag, Xml.escape_cons_self, Xml.escape_nil]
  | some text =>
      have htext := shownDescription_ne_nil entry hshown
      simp (disch := decide) [toList_xmlEscape, Xml.write_text _ _ htitle,
        Xml.write_text _ _ hdate, Xml.write_text _ _ hlink, Xml.write_text _ _ htext,
        Xml.write_empty, hescape, Xml.startTag, Xml.escape_cons_self, Xml.escape_nil]

end

/-- Lines that end where the next begins. -/
theorem flatMap_lines {α : Type} (line : α → List Char) (items : List α) (rest : List Char) :
    items.flatMap (fun item => '\n' :: line item) ++ '\n' :: rest =
      '\n' :: (items.flatMap (fun item => line item ++ ['\n']) ++ rest) := by
  induction items with
  | nil => rfl
  | cons item items ih =>
      rw [List.flatMap_cons, List.append_assoc, ih, List.flatMap_cons, List.append_assoc]
      simp

theorem append_ne_nil {path : String} (hpath : path.toList ≠ []) (base : String) :
    (base ++ path).toList ≠ [] := by
  rw [String.toList_append]
  exact List.append_ne_nil_of_right_ne_nil _ hpath

section

variable (settings : Settings) (db : ContentDb) (r : ReadRequest)

/-- The pages a feed lists. -/
def feedList : List FeedEntry := Pages.feedEntries db r.organization r.time feedMaxItems

/-- When a feed was last changed. -/
def feedUpdated : ℤ := (feedList db r).head?.elim r.time FeedEntry.updated_at

/-- The page that `default_page` names, while it is visible. -/
def homePage : Option (ℕ × Storage.Page) :=
  (settings.default_page.bind (Pages.findBySlug db r.organization)).filter fun home =>
    publicVisible r.time home.2

/-- The pages the sitemap lists. -/
def siteList : List PageSummary := Pages.list db r.organization r.time false sitemapLimit

/-- The locations of the sitemap. -/
def siteUrls (base : String) : List (String × ℤ) :=
  ((homePage settings db r).toList.map fun home => (base ++ "/", home.2.updated_at)) ++
    (siteList db r).map fun page => (entryLink base page.slug, page.updated_at)

set_option maxRecDepth 4000 in
theorem rssFeed_eq (hfeed : settings.feed = true)
    (htitles : ∀ entry ∈ feedList db r, entry.title.toList ≠ []) :
    rssFeed settings db r = .document "application/rss+xml; charset=utf-8" (String.ofList
      (Xml.document (rssTree (absoluteOrigin settings r) (feedList db r)))) := by
  have hitems := List.flatMap_congr fun entry he =>
    toList_rssItem (absoluteOrigin settings r) entry (htitles entry he)
  unfold rssFeed
  rw [if_neg (by simp [hfeed]), ← feedList]
  generalize absoluteOrigin settings r = base at hitems ⊢
  refine congrArg (Response.document _) (String.toList_inj.mp ?_)
  rw [String.toList_ofList, Xml.document_eq]
  unfold rssTree line Xml.declaration
  have hpages : (base ++ "/p").toList ≠ [] := append_ne_nil (by decide) base
  -- the elements first, then the texts, the characters last
  simp (disch := decide) only [Xml.write_mk, Xml.write_text _ _ hpages, Xml.write_empty,
    List.flatMap_cons, List.flatMap_nil, List.flatMap_append, List.flatMap_map]
  simp only [String.toList_append, String.toList_join, toList_xmlEscape, List.flatMap_map, hitems]
  simp (disch := decide) only [Xml.write_text_cons, String.reduceToList, Xml.startTag,
    List.flatMap_cons, List.flatMap_nil, List.cons_append, List.nil_append, List.append_assoc,
    List.append_nil, Xml.escape_append, Xml.escape_cons_self, Xml.escape_nil, flatMap_lines]

set_option maxRecDepth 4000 in
theorem atomFeed_eq (hfeed : settings.feed = true)
    (htitles : ∀ entry ∈ feedList db r, entry.title.toList ≠ []) :
    atomFeed settings db r = .document "application/atom+xml; charset=utf-8"
      (String.ofList (Xml.document
        (atomTree (absoluteOrigin settings r) (feedUpdated db r) (feedList db r)))) := by
  have hitems := List.flatMap_congr fun entry he =>
    toList_atomEntry (absoluteOrigin settings r) entry (htitles entry he)
  unfold atomFeed
  rw [if_neg (by simp [hfeed]), ← feedList]
  generalize absoluteOrigin settings r = base at hitems ⊢
  refine congrArg (Response.document _) (String.toList_inj.mp ?_)
  rw [String.toList_ofList, Xml.document_eq]
  unfold atomTree line Xml.declaration
  have hid : (base ++ "/atom.xml").toList ≠ [] := append_ne_nil (by decide) base
  have hupdated : (feedList db r).head?.elim r.time FeedEntry.updated_at = feedUpdated db r := rfl
  have hdate := (date_ne_nil (feedUpdated db r)).2.1
  have hescape := escape_of_plain (plain_isoDatetime (feedUpdated db r))
  simp (disch := decide) only [Xml.write_mk, Xml.write_text _ _ hid, Xml.write_text _ _ hdate,
    Xml.write_empty, List.flatMap_cons, List.flatMap_nil, List.flatMap_append, List.flatMap_map,
    hescape]
  simp only [String.toList_append, String.toList_join, toList_xmlEscape, List.flatMap_map, hitems,
    hupdated]
  simp (disch := decide) only [Xml.write_text_cons, String.reduceToList, Xml.startTag,
    List.flatMap_cons, List.flatMap_nil, List.cons_append, List.nil_append, List.append_assoc,
    List.append_nil, Xml.escape_append, Xml.escape_cons_self, Xml.escape_nil, flatMap_lines]

theorem homeEntry_eq (base : String) : homeEntry settings db r base =
    (homePage settings db r).elim "" fun home => sitemapEntry (base ++ "/") home.2.updated_at := by
  unfold homeEntry homePage
  cases settings.default_page.bind (Pages.findBySlug db r.organization) with
  | none => rfl
  | some home => cases hvisible : publicVisible r.time home.2 <;> simp [Option.filter, hvisible]

theorem url_ne_nil {base : String} {url : String × ℤ} (h : url ∈ siteUrls settings db r base) :
    url.1.toList ≠ [] := by
  rcases List.mem_append.mp h with h | h
  · obtain ⟨home, -, rfl⟩ := List.mem_map.mp h
    exact append_ne_nil (by decide) base
  · obtain ⟨page, -, rfl⟩ := List.mem_map.mp h
    exact entryLink_ne_nil base page.slug

set_option maxRecDepth 4000 in
theorem sitemap_eq (hsitemap : settings.sitemap = true) :
    sitemap settings db r = .document "application/xml; charset=utf-8" (String.ofList
      (Xml.document (sitemapTree (siteUrls settings db r (absoluteOrigin settings r))))) := by
  have hurls : ((siteUrls settings db r (absoluteOrigin settings r)).flatMap fun url =>
      (sitemapEntry url.1 url.2).toList) =
      (siteUrls settings db r (absoluteOrigin settings r)).flatMap fun url =>
        ' ' :: ' ' :: ((urlTree url.1 url.2).write ++ ['\n']) :=
    List.flatMap_congr fun url hurl =>
      toList_sitemapEntry url.1 url.2 (url_ne_nil settings db r hurl)
  -- the homepage and the pages are one list of locations
  have hentries : (homeEntry settings db r (absoluteOrigin settings r) ++
      String.join ((siteList db r).map fun page =>
        sitemapEntry (absoluteOrigin settings r ++ "/p/" ++ page.slug) page.updated_at)).toList =
      (siteUrls settings db r (absoluteOrigin settings r)).flatMap fun url =>
        (sitemapEntry url.1 url.2).toList := by
    rw [siteUrls, homeEntry_eq, String.toList_append, String.toList_join, List.flatMap_append,
      List.flatMap_map, List.flatMap_map, List.flatMap_map]
    cases homePage settings db r with
    | none => rfl
    | some home =>
        rw [Option.toList_some, List.flatMap_singleton]
        rfl
  rw [hurls, String.toList_append] at hentries
  unfold sitemap
  rw [if_neg (by simp [hsitemap]), ← siteList]
  generalize absoluteOrigin settings r = base at hentries ⊢
  refine congrArg (Response.document "application/xml; charset=utf-8") (String.toList_inj.mp ?_)
  rw [String.toList_ofList, Xml.document_eq]
  unfold sitemapTree Xml.declaration
  simp (disch := decide) only [Xml.write_mk, List.flatMap_map]
  simp only [String.toList_append, List.append_assoc]
  rw [← List.append_assoc (homeEntry settings db r base).toList, hentries]
  simp (disch := decide) only [String.reduceToList, Xml.startTag,
    List.flatMap_cons, List.flatMap_nil, List.cons_append, List.nil_append, List.append_assoc,
    List.append_nil, Xml.escape_cons_self, Xml.escape_nil, flatMap_lines]

end

end Wallermax.Content
