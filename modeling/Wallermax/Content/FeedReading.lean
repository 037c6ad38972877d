import Wallermax.Content.Feeds
import Wallermax.Content.PageTree

/-!
# What is read of the feeds and the sitemap

A reader of XML takes the items of a feed and the locations of a sitemap by the names of
their elements. It finds one for each page, in order. Their texts are the stored ones unless
a title, a description or the host has a character that XML does not allow or that it reads
as another.
-/

namespace Wallermax.Content

open Wallermax.Base
open Wallermax.Base.Xml (Element Content)
open Wallermax.Tenants

/-! ## Pages the form stores -/

/-- A page with the fields of a form that was accepted. -/
def FormStored (page : Storage.Page) : Prop :=
  ∃ form : PageForm, validatePageForm form = .ok () ∧ page.slug = form.slug ∧
    page.title = form.title ∧ page.meta_description = trimmed form.meta_description

/-- What the documents rely on. -/
structure EntryStored (entry : FeedEntry) : Prop where
  slug : entry.slug.toList.all isPlainChar = true
  title : entry.title.toList ≠ []
  shown : shownDescription entry = entry.meta_description

theorem trim_trim (text : String) : trim (trim text) = trim text := by
  have htrim : ∀ text, trim text = String.ofList (trimBy isWhitespace text.toList) := fun _ => rfl
  rw [htrim, htrim, String.toList_ofList, trimBy_eq_self head_trimBy last_trimBy]

theorem bind_ok {ε α β : Type} {first : Except ε α} {next : α → Except ε β} {result : β}
    (h : (first >>= next) = .ok result) : ∃ a, first = .ok a ∧ next a = .ok result := by
  cases first with
  | error message => cases h
  | ok a => exact ⟨a, rfl, h⟩

/-- A valid page form has a title and a slug. -/
theorem validatePageForm_ok {form : PageForm} (h : validatePageForm form = .ok ()) :
    form.title.toList ≠ [] ∧ validSlug form.slug = true := by
  unfold validatePageForm at h
  obtain ⟨_, htitle, h⟩ := bind_ok h
  obtain ⟨_, -, h⟩ := bind_ok h
  obtain ⟨_, hslug, -⟩ := bind_ok h
  constructor
  · intro hnil
    have hempty : form.title = "" := String.toList_inj.mp hnil
    rw [require_ok, hempty] at htitle
    exact absurd htitle (by decide)
  · rw [validateSlug] at hslug
    split at hslug
    · assumption
    · cases hslug

theorem entryStored_of_formStored {page : ℕ × Storage.Page} (h : FormStored page.2) :
    EntryStored (Pages.feedEntry page) := by
  obtain ⟨form, hvalid, hslug, htitle, hdescription⟩ := h
  obtain ⟨htext, hname⟩ := validatePageForm_ok hvalid
  refine ⟨?_, ?_, ?_⟩
  · show page.2.slug.toList.all isPlainChar = true
    rw [hslug]
    exact plain_slug hname
  · show page.2.title.toList ≠ []
    rw [htitle]
    exact htext
  · show page.2.meta_description.filter _ = page.2.meta_description
    cases hstored : page.2.meta_description with
    | none => rfl
    | some text =>
        rw [hstored] at hdescription
        -- what was stored is trimmed, and trimming it again leaves it
        obtain ⟨hmap, hne⟩ := Option.filter_eq_some_iff.mp hdescription.symm
        obtain ⟨raw, -, rfl⟩ := Option.map_eq_some_iff.mp hmap
        rw [Option.filter_eq_some_iff, trim_trim]
        exact ⟨rfl, hne⟩

/-! ## The names in the trees -/

theorem named_mk {name : String} {attributes : Xml.Attributes} {content : Content}
    (hname : Xml.isName name.toList = true) (keys : List String)
    (hkeys : attributes.map Prod.fst = keys.map String.toList)
    (hnames : ∀ key ∈ keys, Xml.isName key.toList = true) (hnodup : (keys.map String.toList).Nodup)
    (hcontent : content.Named) : (Element.mk name.toList attributes content).Named := by
  refine ⟨hname, fun a ha => ?_, hkeys ▸ hnodup, hcontent⟩
  have hmem : a.1 ∈ keys.map String.toList := hkeys ▸ List.mem_map_of_mem ha
  obtain ⟨key, hkey, heq⟩ := List.mem_map.mp hmem
  rw [← heq]
  exact hnames key hkey

theorem named_line (gap : String) {name : String} (text : List Char)
    (hname : Xml.isName name.toList = true) : (line gap name text).2.Named :=
  named_mk hname [] rfl (by simp) (by simp) trivial

theorem named_children {children : List (List Char × Element)} {last : List Char}
    (h : ∀ child ∈ children, child.2.Named) : (Content.behind children (.text last)).Named :=
  (Xml.named_behind _ _).mpr ⟨h, trivial⟩

section

variable (base : String)

theorem named_rssItemTree (entry : FeedEntry) : (rssItemTree base entry).Named := by
  refine named_mk (by decide) [] rfl (by simp) (by simp) (named_children ?_)
  simp only [List.forall_mem_append, List.forall_mem_cons, List.forall_mem_map]
  exact ⟨⟨named_line _ _ (by decide), named_line _ _ (by decide),
    named_mk (by decide) ["isPermaLink"] rfl (by decide) (by decide) trivial,
    named_line _ _ (by decide), by simp⟩, fun text _ => named_line _ _ (by decide)⟩

theorem named_rssTree (entries : List FeedEntry) : (rssTree base entries).Named := by
  refine named_mk (by decide) ["version", "xmlns:atom"] rfl (by decide) (by decide)
    (named_children ?_)
  simp only [List.forall_mem_cons]
  refine ⟨named_mk (by decide) [] rfl (by simp) (by simp) (named_children ?_), by simp⟩
  simp only [List.forall_mem_append, List.forall_mem_cons, List.forall_mem_map]
  exact ⟨⟨named_line _ _ (by decide), named_line _ _ (by decide), named_line _ _ (by decide),
    named_mk (by decide) ["rel", "href", "type"] rfl (by decide) (by decide) trivial,
    named_line _ _ (by decide), by simp⟩, fun entry _ => named_rssItemTree base entry⟩

theorem named_atomEntryTree (entry : FeedEntry) : (atomEntryTree base entry).Named := by
  refine named_mk (by decide) [] rfl (by simp) (by simp) (named_children ?_)
  simp only [List.forall_mem_append, List.forall_mem_cons, List.forall_mem_map]
  exact ⟨⟨named_line _ _ (by decide),
    named_mk (by decide) ["rel", "href"] rfl (by decide) (by decide) trivial,
    named_line _ _ (by decide), named_line _ _ (by decide), by simp⟩,
    fun text _ => named_line _ _ (by decide)⟩

theorem named_atomTree (updated : ℤ) (entries : List FeedEntry) :
    (atomTree base updated entries).Named := by
  refine named_mk (by decide) ["xmlns"] rfl (by decide) (by decide) (named_children ?_)
  simp only [List.forall_mem_append, List.forall_mem_cons, List.forall_mem_map]
  exact ⟨⟨named_line _ _ (by decide), named_line _ _ (by decide),
    named_mk (by decide) ["rel", "type", "href"] rfl (by decide) (by decide) trivial,
    named_mk (by decide) ["rel", "href"] rfl (by decide) (by decide) trivial,
    named_line _ _ (by decide), by simp⟩, fun entry _ => named_atomEntryTree base entry⟩

theorem named_sitemapTree (urls : List (String × ℤ)) : (sitemapTree urls).Named := by
  refine named_mk (by decide) ["xmlns"] rfl (by decide) (by decide) (named_children ?_)
  simp only [List.forall_mem_map]
  intro url _
  refine named_mk (by decide) [] rfl (by simp) (by simp) (named_children ?_)
  simp only [List.forall_mem_cons]
  exact ⟨named_line _ _ (by decide), named_line _ _ (by decide), by simp⟩

end

/-! ## The characters in the trees -/

section

variable (base : String) {entry : FeedEntry}

/-- Every character is one that XML allows. -/
def allowed (text : String) : Bool := text.toList.all Xml.isChar

theorem allowed_eq (text : String) : text.toList.all Xml.isChar = allowed text := rfl

theorem allowed_append (front back : String) :
    allowed (front ++ back) = (allowed front && allowed back) := by
  rw [allowed, String.toList_append, List.all_append]
  rfl

theorem allowed_entryLink (h : EntryStored entry) :
    allowed (entryLink base entry.slug) = allowed base := by
  have hpath : allowed "/p/" = true := by decide
  have hslug : allowed entry.slug = true := allowed_of_plain h.slug
  rw [entryLink, allowed_append, allowed_append, hpath, hslug, Bool.and_true, Bool.and_true]

theorem all_congr_mem {α : Type} {items : List α} {p q : α → Bool}
    (h : ∀ item ∈ items, p item = q item) : items.all p = items.all q := by
  rw [Bool.eq_iff_iff, List.all_eq_true, List.all_eq_true]
  exact forall₂_congr fun item hitem => by rw [h item hitem]

/-- A title and a description. -/
def entryAllowed (entry : FeedEntry) : Bool :=
  allowed entry.title && entry.meta_description.all allowed

theorem all_rssItemTree (h : EntryStored entry) :
    (rssItemTree base entry).all Xml.isChar = (allowed base && entryAllowed entry) := by
  have hlink := allowed_entryLink base h
  have hdate : allowed (rfc2822Date entry.updated_at) = true :=
    allowed_of_plain (plain_rfc2822Date entry.updated_at)
  have hfixed : ∀ text ∈ ["\n      ", "true", "\n    "], allowed text = true := by decide
  simp only [List.forall_mem_cons] at hfixed
  unfold rssItemTree line entryAllowed
  rw [← h.shown]
  simp only [Element.all, Content.all, Xml.all_behind, List.all_append, List.all_cons,
    List.all_map, List.all_nil, allowed_eq, hfixed, hlink, hdate, Bool.true_and, Bool.and_true]
  cases shownDescription entry with
  | none => cases allowed base <;> simp
  | some text =>
      simp only [Option.toList_some, List.all_cons, List.all_nil, Function.comp_apply, Element.all,
        Content.all, Option.all_some, allowed_eq, hfixed, Bool.true_and, Bool.and_true]
      cases allowed base <;> simp

theorem all_rssTree {entries : List FeedEntry} (h : ∀ entry ∈ entries, EntryStored entry) :
    (rssTree base entries).all Xml.isChar = (allowed base && entries.all entryAllowed) := by
  have hfixed : ∀ text ∈ ["\n", "\n  ", "\n    ", "2.0", "http://www.w3.org/2005/Atom", "en",
      "Pages — wallermax", "Published pages from the wallermax CMS", "self", "/p", "/feed.xml",
      "application/rss+xml"], allowed text = true := by decide
  simp only [List.forall_mem_cons] at hfixed
  have hentries : (entries.all fun entry => (rssItemTree base entry).all Xml.isChar) =
      entries.all fun entry => allowed base && entryAllowed entry :=
    all_congr_mem fun entry he => all_rssItemTree base (h entry he)
  unfold rssTree line
  simp only [Element.all, Content.all, Xml.all_behind, List.all_append, List.all_cons,
    List.all_map, List.all_nil, Function.comp_def, allowed_eq, allowed_append, hfixed,
    Bool.true_and, Bool.and_true, hentries]
  cases allowed base <;> simp

theorem all_atomEntryTree (h : EntryStored entry) :
    (atomEntryTree base entry).all Xml.isChar = (allowed base && entryAllowed entry) := by
  have hlink := allowed_entryLink base h
  have hdate : allowed (isoDatetime entry.updated_at) = true :=
    allowed_of_plain (plain_isoDatetime entry.updated_at)
  have hfixed : ∀ text ∈ ["\n    ", "alternate", "\n  "], allowed text = true := by decide
  simp only [List.forall_mem_cons] at hfixed
  unfold atomEntryTree line entryAllowed
  rw [← h.shown]
  simp only [Element.all, Content.all, Xml.all_behind, List.all_append, List.all_cons,
    List.all_map, List.all_nil, allowed_eq, hfixed, hlink, hdate, Bool.true_and, Bool.and_true]
  cases shownDescription entry with
  | none => cases allowed base <;> simp
  | some text =>
      simp only [Option.toList_some, List.all_cons, List.all_nil, Function.comp_apply, Element.all,
        Content.all, Option.all_some, allowed_eq, hfixed, Bool.true_and, Bool.and_true]
      cases allowed base <;> simp

theorem all_atomTree (updated : ℤ) {entries : List FeedEntry}
    (h : ∀ entry ∈ entries, EntryStored entry) : (atomTree base updated entries).all Xml.isChar =
      (allowed base && entries.all entryAllowed) := by
  have hfixed : ∀ text ∈ ["\n", "\n  ", "http://www.w3.org/2005/Atom", "Pages — wallermax",
      "alternate", "text/html", "self", "/p", "/atom.xml"], allowed text = true := by decide
  simp only [List.forall_mem_cons] at hfixed
  have hdate : allowed (isoDatetime updated) = true :=
    allowed_of_plain (plain_isoDatetime updated)
  have hentries : (entries.all fun entry => (atomEntryTree base entry).all Xml.isChar) =
      entries.all fun entry => allowed base && entryAllowed entry :=
    all_congr_mem fun entry he => all_atomEntryTree base (h entry he)
  unfold atomTree line
  simp only [Element.all, Content.all, Xml.all_behind, List.all_append, List.all_cons,
    List.all_map, List.all_nil, Function.comp_def, allowed_eq, allowed_append, hfixed, hdate,
    Bool.true_and, Bool.and_true, hentries]
  cases allowed base <;> simp

theorem all_sitemapTree (urls : List (String × ℤ)) :
    (sitemapTree urls).all Xml.isChar = urls.all fun url => allowed url.1 := by
  have hfixed : ∀ text ∈ ["\n", "\n  ", "\n    ",
      "http://www.sitemaps.org/schemas/sitemap/0.9"], allowed text = true := by decide
  simp only [List.forall_mem_cons] at hfixed
  have hdate : ∀ seconds, allowed (isoDate seconds) = true :=
    fun seconds => allowed_of_plain (plain_isoDate seconds)
  unfold sitemapTree urlTree line
  simp only [Element.all, Content.all, Xml.all_behind, List.all_cons, List.all_map, List.all_nil,
    Function.comp_def, allowed_eq, hfixed, hdate, Bool.true_and, Bool.and_true]

end

/-! ## What a reader takes -/

/-- An item of a feed: the texts of its elements. -/
structure FeedItem : Type where
  titles : List (List Char)
  links : List (List Char)
  descriptions : List (List Char)
deriving DecidableEq

def rssItems (root : Element) : List FeedItem :=
  (root.select ["rss", "channel", "item"]).map fun item =>
    ⟨item.texts ["title"], item.texts ["link"], item.texts ["description"]⟩

def atomItems (root : Element) : List FeedItem :=
  (root.select ["feed", "entry"]).map fun entry =>
    ⟨entry.texts ["title"], entry.values ["link"] "href", entry.texts ["summary"]⟩

def sitemapLocs (root : Element) : List (List (List Char)) :=
  (root.select ["urlset", "url"]).map fun url => url.texts ["loc"]

section

variable (base : String) {f g : List Char → List Char}

theorem filter_name {α : Type} (tree : α → Element) (name : String) (items : List α)
    (h : ∀ item, (tree item).name = name.toList) :
    (items.map tree).filter (fun child => child.name = name.toList) = items.map tree := by
  rw [List.filter_eq_self]
  intro child hchild
  obtain ⟨item, -, rfl⟩ := List.mem_map.mp hchild
  exact decide_eq_true (h item)

theorem select_rssTree (entries : List FeedEntry) :
    (rssTree base entries).select ["rss", "channel", "item"] =
      entries.map (rssItemTree base) := by
  have hitem := filter_name (rssItemTree base) "item" entries fun _ => rfl
  unfold rssTree line
  simpa [Element.select, Element.descend, Xml.name_mk, Xml.content_mk, Xml.elements_behind,
    Content.elements, Function.comp_def] using hitem

theorem select_atomTree (updated : ℤ) (entries : List FeedEntry) :
    (atomTree base updated entries).select ["feed", "entry"] =
      entries.map (atomEntryTree base) := by
  have hentry := filter_name (atomEntryTree base) "entry" entries fun _ => rfl
  unfold atomTree line
  simpa [Element.select, Element.descend, Xml.name_mk, Xml.content_mk, Xml.elements_behind,
    Content.elements, Function.comp_def] using hentry

theorem select_sitemapTree (urls : List (String × ℤ)) :
    (sitemapTree urls).select ["urlset", "url"] = urls.map fun url => urlTree url.1 url.2 := by
  have hurl := filter_name (fun url : String × ℤ => urlTree url.1 url.2) "url" urls
    fun _ => rfl
  unfold sitemapTree
  simpa [Element.select, Element.descend, Xml.name_mk, Xml.content_mk, Xml.elements_behind,
    Content.elements, Function.comp_def] using hurl

/-- The stored title and description of an entry, and its link. -/
def storedItem (entry : FeedEntry) : FeedItem where
  titles := [entry.title.toList]
  links := [(entryLink base entry.slug).toList]
  descriptions := entry.meta_description.toList.map String.toList

def FeedItem.map (f g : List Char → List Char) (item : FeedItem) : FeedItem where
  titles := item.titles.map f
  links := item.links.map g
  descriptions := item.descriptions.map f

theorem rssItems_map {entries : List FeedEntry} (h : ∀ entry ∈ entries, EntryStored entry) :
    rssItems ((rssTree base entries).map f g) =
      entries.map fun entry => (storedItem base entry).map f f := by
  rw [rssItems, Xml.select_map, select_rssTree, List.map_map, List.map_map]
  refine List.map_congr_left fun entry he => ?_
  -- one element of each name below an item
  have htexts : ((rssItemTree base entry).map f g).texts ["title"] = [f entry.title.toList] ∧
      ((rssItemTree base entry).map f g).texts ["link"] =
        [f (entryLink base entry.slug).toList] ∧
      ((rssItemTree base entry).map f g).texts ["description"] =
        (shownDescription entry).toList.map fun text => f text.toList := by
    rw [Xml.texts_map, Xml.texts_map, Xml.texts_map]
    unfold rssItemTree line
    cases shownDescription entry <;>
      simp [Element.descend, Xml.name_mk, Xml.content_mk, Xml.elements_behind, Content.elements,
        Content.map, Content.ownText]
  obtain ⟨htitle, hlink, hdescription⟩ := htexts
  rw [Function.comp_apply, Function.comp_apply, htitle, hlink, hdescription, (h entry he).shown]
  simp [FeedItem.map, storedItem]

theorem atomItems_map {updated : ℤ} {entries : List FeedEntry}
    (h : ∀ entry ∈ entries, EntryStored entry) :
    atomItems ((atomTree base updated entries).map f g) =
      entries.map fun entry => (storedItem base entry).map f g := by
  rw [atomItems, Xml.select_map, select_atomTree, List.map_map, List.map_map]
  refine List.map_congr_left fun entry he => ?_
  have htexts : ((atomEntryTree base entry).map f g).texts ["title"] = [f entry.title.toList] ∧
      ((atomEntryTree base entry).map f g).values ["link"] "href" =
        [g (entryLink base entry.slug).toList] ∧
      ((atomEntryTree base entry).map f g).texts ["summary"] =
        (shownDescription entry).toList.map fun text => f text.toList := by
    rw [Xml.texts_map, Xml.values_map, Xml.texts_map]
    unfold atomEntryTree line
    cases shownDescription entry <;>
      simp [Element.descend, Element.values, Xml.name_mk, Xml.content_mk, Xml.attributes_mk,
        Xml.elements_behind, Content.elements, Content.map, Content.ownText, List.lookup_cons]
  obtain ⟨htitle, hlink, hdescription⟩ := htexts
  rw [Function.comp_apply, Function.comp_apply, htitle, hlink, hdescription, (h entry he).shown]
  simp [FeedItem.map, storedItem]

theorem sitemapLocs_map (urls : List (String × ℤ)) :
    sitemapLocs ((sitemapTree urls).map f g) = urls.map fun url => [f url.1.toList] := by
  rw [sitemapLocs, Xml.select_map, select_sitemapTree, List.map_map, List.map_map]
  refine List.map_congr_left fun url _ => ?_
  rw [Function.comp_apply, Function.comp_apply, Xml.texts_map]
  unfold urlTree line
  simp [Element.descend, Xml.name_mk, Xml.content_mk, Xml.elements_behind, Content.elements,
    Content.map, Content.ownText]

theorem storedItem_map_iff {entry : FeedEntry} :
    (storedItem base entry).map f g = storedItem base entry ↔
      f entry.title.toList = entry.title.toList ∧
      g (entryLink base entry.slug).toList = (entryLink base entry.slug).toList ∧
      ∀ text ∈ entry.meta_description, f text.toList = text.toList := by
  unfold storedItem FeedItem.map
  cases entry.meta_description <;> simp

end

/-! ## Texts that are read as they are -/

/-- XML allows the characters, and none of them is read as a line end. -/
def ReadAsIs (text : String) : Prop := ∀ c ∈ text.toList, Xml.isChar c = true ∧ c ≠ '\r'

/-- XML allows the characters, and none of them is read as a space in an attribute. -/
def OneLine (text : String) : Prop :=
  ∀ c ∈ text.toList, Xml.isChar c = true ∧ c ∉ ['\t', '\n', '\r']

instance (text : String) : Decidable (ReadAsIs text) :=
  decidable_of_iff (text.toList.all fun c => decide (Xml.isChar c = true ∧ c ≠ '\r')) (by
    simp only [List.all_eq_true, decide_eq_true_eq, ReadAsIs])

instance (text : String) : Decidable (OneLine text) :=
  decidable_of_iff (text.toList.all fun c =>
      decide (Xml.isChar c = true ∧ c ∉ ['\t', '\n', '\r'])) (by
    simp only [List.all_eq_true, decide_eq_true_eq, OneLine])

theorem readAsIs_iff {text : String} :
    ReadAsIs text ↔ allowed text = true ∧ Xml.lines text.toList = text.toList := by
  rw [Xml.lines_eq_self_iff, allowed, List.all_eq_true]
  constructor
  · intro h
    exact ⟨fun c hc => (h c hc).1, fun hmem => (h '\r' hmem).2 rfl⟩
  · rintro ⟨hchars, hreturn⟩ c hc
    exact ⟨hchars c hc, fun heq => hreturn (heq ▸ hc)⟩

theorem oneLine_iff {text : String} : OneLine text ↔
    allowed text = true ∧ (Xml.lines text.toList).map Xml.toSpace = text.toList := by
  rw [Xml.value_eq_self_iff, allowed, List.all_eq_true]
  exact ⟨fun h => ⟨fun c hc => (h c hc).1, fun c hc => (h c hc).2⟩,
    fun h c hc => ⟨h.1 c hc, h.2 c hc⟩⟩

theorem OneLine.readAsIs {text : String} (h : OneLine text) : ReadAsIs text :=
  fun c hc => ⟨(h c hc).1, fun heq => (h c hc).2 (by simp [heq])⟩

/-- Behind the origin a link has a path and a slug. -/
theorem forall_mem_entryLink {slug : String} (h : slug.toList.all isPlainChar = true)
    (base : String) {p : Char → Prop} (hplain : ∀ c, isPlainChar c = true → p c) (hslash : p '/') :
    (∀ c ∈ (entryLink base slug).toList, p c) ↔ ∀ c ∈ base.toList, p c := by
  have hslug : ∀ c ∈ slug.toList, p c := fun c hc => hplain c (List.all_eq_true.mp h c hc)
  have hpath : ∀ c ∈ "/p/".toList, p c := by
    have hp : p 'p' := hplain 'p' rfl
    simp [hslash, hp]
  rw [entryLink, String.toList_append, String.toList_append, List.forall_mem_append,
    List.forall_mem_append]
  exact ⟨fun h => h.1.1, fun h => ⟨⟨h, hpath⟩, hslug⟩⟩

theorem readAsIs_entryLink {slug : String} (h : slug.toList.all isPlainChar = true)
    (base : String) : ReadAsIs (entryLink base slug) ↔ ReadAsIs base := by
  refine forall_mem_entryLink (p := fun c => Xml.isChar c = true ∧ c ≠ '\r') h base
    (fun c hc => ?_) (by decide)
  obtain ⟨hchar, -, hspace⟩ := plainChar_spec hc
  exact ⟨hchar, fun heq => hspace (by simp [heq])⟩

theorem oneLine_entryLink {slug : String} (h : slug.toList.all isPlainChar = true)
    (base : String) : OneLine (entryLink base slug) ↔ OneLine base := by
  refine forall_mem_entryLink (p := fun c => Xml.isChar c = true ∧ c ∉ ['\t', '\n', '\r'])
    h base (fun c hc => ?_) (by decide)
  obtain ⟨hchar, -, hspace⟩ := plainChar_spec hc
  exact ⟨hchar, hspace⟩

theorem entryAllowed_iff {entry : FeedEntry} : entryAllowed entry = true ↔
    allowed entry.title = true ∧ ∀ text ∈ entry.meta_description, allowed text = true := by
  unfold entryAllowed
  cases entry.meta_description <;> simp

/-! ## Reading the documents -/

/-- **What is taken of a written document** is what was written, or nothing. -/
theorem parse_items_iff {α : Type} {root : Element} (h : root.Named) (items : Element → α)
    (expected : α) : (Xml.parse (Xml.document root)).map items = some expected ↔
      root.all Xml.isChar = true ∧
        items (root.map Xml.lines (List.map Xml.toSpace ∘ Xml.lines)) = expected := by
  rw [Xml.parse_document h, Xml.read_eq]
  split
  next hall => simp [hall]
  next hall => simp [hall]

/-- The texts of an entry are read as they are stored. -/
def TextsAsIs (entry : FeedEntry) : Prop :=
  ReadAsIs entry.title ∧ ∀ text ∈ entry.meta_description, ReadAsIs text

instance (entry : FeedEntry) : Decidable (TextsAsIs entry) :=
  inferInstanceAs (Decidable (_ ∧ _))

section

variable {base : String}

theorem storedItem_iff {entry : FeedEntry} {g : List Char → List Char} {Origin : Prop}
    (hlink : g (entryLink base entry.slug).toList = (entryLink base entry.slug).toList ↔ Origin) :
    entryAllowed entry = true ∧ (storedItem base entry).map Xml.lines g = storedItem base entry ↔
      Origin ∧ TextsAsIs entry := by
  rw [entryAllowed_iff, storedItem_map_iff, hlink, TextsAsIs, readAsIs_iff]
  constructor
  · rintro ⟨⟨htitle, htext⟩, hlines, horigin, hlinesText⟩
    exact ⟨horigin, ⟨htitle, hlines⟩, fun text hmem =>
      readAsIs_iff.mpr ⟨htext text hmem, hlinesText text hmem⟩⟩
  · rintro ⟨horigin, ⟨htitle, hlines⟩, htext⟩
    exact ⟨⟨htitle, fun text hmem => (readAsIs_iff.mp (htext text hmem)).1⟩, hlines, horigin,
      fun text hmem => (readAsIs_iff.mp (htext text hmem)).2⟩

theorem storedItems_iff {entries : List FeedEntry} {g : List Char → List Char} {Origin : Prop}
    (hlink : ∀ entry ∈ entries,
      g (entryLink base entry.slug).toList = (entryLink base entry.slug).toList ↔ Origin) :
    (entries.all entryAllowed = true ∧
        (entries.map fun entry => (storedItem base entry).map Xml.lines g) =
          entries.map (storedItem base)) ↔
      ∀ entry ∈ entries, Origin ∧ TextsAsIs entry := by
  rw [List.all_eq_true, List.map_inj_left, ← forall₂_and]
  exact forall₂_congr fun entry he => storedItem_iff (hlink entry he)

variable {entries : List FeedEntry} (h : ∀ entry ∈ entries, EntryStored entry)

include h

theorem rss_iff : (Xml.parse (Xml.document (rssTree base entries))).map rssItems =
      some (entries.map (storedItem base)) ↔
    allowed base = true ∧ ∀ entry ∈ entries, ReadAsIs base ∧ TextsAsIs entry := by
  rw [parse_items_iff (named_rssTree base entries), all_rssTree base h, rssItems_map base h,
    Bool.and_eq_true, and_assoc]
  refine and_congr_right fun hbase => storedItems_iff fun entry he => ?_
  have hallowed := allowed_entryLink base (h entry he)
  rw [← readAsIs_entryLink (h entry he).slug, readAsIs_iff, hallowed]
  exact (and_iff_right hbase).symm

theorem atom_iff {updated : ℤ} :
    (Xml.parse (Xml.document (atomTree base updated entries))).map atomItems =
      some (entries.map (storedItem base)) ↔
    allowed base = true ∧ ∀ entry ∈ entries, OneLine base ∧ TextsAsIs entry := by
  rw [parse_items_iff (named_atomTree base updated entries), all_atomTree base updated h,
    atomItems_map base h, Bool.and_eq_true, and_assoc]
  refine and_congr_right fun hbase => storedItems_iff fun entry he => ?_
  have hallowed := allowed_entryLink base (h entry he)
  rw [← oneLine_entryLink (h entry he).slug, oneLine_iff, hallowed]
  exact (and_iff_right hbase).symm

end

theorem sitemap_iff (urls : List (String × ℤ)) :
    (Xml.parse (Xml.document (sitemapTree urls))).map sitemapLocs =
      some (urls.map fun url => [url.1.toList]) ↔ ∀ url ∈ urls, ReadAsIs url.1 := by
  rw [parse_items_iff (named_sitemapTree urls), all_sitemapTree, sitemapLocs_map,
    List.all_eq_true, List.map_inj_left, ← forall₂_and]
  refine forall₂_congr fun url _ => ?_
  rw [readAsIs_iff, List.singleton_inj]

/-! ## The routes -/

/-- The document, where the response is one, parses, and this is taken of it. -/
def ReadsAs {α : Type} (response : Response) (items : Element → α) (expected : α) : Prop :=
  ∀ content_type body, response = .document content_type body →
    (Xml.parse body.toList).map items = some expected

section

variable (settings : Settings) (db : ContentDb) (r : ReadRequest)

/-- The home location, and one for each listed page. -/
def storedLocs (base : String) : List (List (List Char)) :=
  ((homePage settings db r).toList.map fun _ => [(base ++ "/").toList]) ++
    (siteList db r).map fun page => [(entryLink base page.slug).toList]

/-- The three documents are well-formed, and one item is read for each page they list, with
what is stored of it. -/
def FeedsFaithful : Prop :=
  ReadsAs (rssFeed settings db r) rssItems
      ((feedList db r).map (storedItem (absoluteOrigin settings r))) ∧
    ReadsAs (atomFeed settings db r) atomItems
      ((feedList db r).map (storedItem (absoluteOrigin settings r))) ∧
    ReadsAs (sitemap settings db r) sitemapLocs
      (storedLocs settings db r (absoluteOrigin settings r))

/-- XML allows the characters of the origin, the titles and the descriptions, and reads none
of them as another. -/
structure FeedReadable (base : String) (entries : List FeedEntry) : Prop where
  origin : ∀ c ∈ base.toList, Xml.isChar c = true
  links : entries ≠ [] → OneLine base
  texts : ∀ entry ∈ entries, TextsAsIs entry

/-- The same of the origin alone where the sitemap has a location. -/
def SitemapReadable (base : String) : Prop :=
  (homePage settings db r).isSome = true ∨ siteList db r ≠ [] → ReadAsIs base

def FeedsReadable : Prop :=
  (settings.feed = true → FeedReadable (absoluteOrigin settings r) (feedList db r)) ∧
    (settings.sitemap = true → SitemapReadable settings db r (absoluteOrigin settings r))

theorem readsAs_document {α : Type} {content_type : String} {doc : List Char}
    {items : Element → α} {expected : α} :
    ReadsAs (.document content_type (String.ofList doc)) items expected ↔
      (Xml.parse doc).map items = some expected := by
  constructor
  · intro h
    have hdoc := h _ _ rfl
    rwa [String.toList_ofList] at hdoc
  · rintro h _ _ ⟨⟩
    rwa [String.toList_ofList]

theorem readsAs_notFound {α : Type} {message : String} {items : Element → α} {expected : α} :
    ReadsAs (.notFound message) items expected := by
  rintro _ _ ⟨⟩

theorem feedReadable_iff {base : String} {entries : List FeedEntry} :
    FeedReadable base entries ↔
      (allowed base = true ∧ ∀ entry ∈ entries, ReadAsIs base ∧ TextsAsIs entry) ∧
        (allowed base = true ∧ ∀ entry ∈ entries, OneLine base ∧ TextsAsIs entry) := by
  have hallowed : allowed base = true ↔ ∀ c ∈ base.toList, Xml.isChar c = true :=
    List.all_eq_true
  rw [hallowed]
  constructor
  · intro h
    have hlinks : ∀ entry ∈ entries, OneLine base := fun entry he =>
      h.links (List.ne_nil_of_mem he)
    exact ⟨⟨h.origin, fun entry he => ⟨(hlinks entry he).readAsIs, h.texts entry he⟩⟩,
      h.origin, fun entry he => ⟨hlinks entry he, h.texts entry he⟩⟩
  · rintro ⟨-, horigin, hentries⟩
    refine ⟨horigin, fun hne => ?_, fun entry he => (hentries entry he).2⟩
    obtain ⟨entry, he⟩ := List.exists_mem_of_ne_nil _ hne
    exact (hentries entry he).1

variable {db} {r}

theorem entryStored_of_mem (hstored : ∀ page ∈ pagesOf db r.organization, FormStored page.2) :
    ∀ entry ∈ feedList db r, EntryStored entry := by
  intro entry he
  obtain ⟨page, hpage, rfl⟩ := List.mem_map.mp he
  have hmem := (List.perm_insertionSort _ _).mem_iff.mp ((window_sublist _ _ _).subset hpage)
  exact entryStored_of_formStored (hstored page (List.mem_filter.mp hmem).1)

theorem storedLocs_eq (base : String) : storedLocs settings db r base =
    (siteUrls settings db r base).map fun url => [url.1.toList] := by
  rw [siteUrls, List.map_append, List.map_map, List.map_map]
  rfl

theorem urls_readAsIs_iff (hstored : ∀ page ∈ pagesOf db r.organization, FormStored page.2)
    (base : String) : (∀ url ∈ siteUrls settings db r base, ReadAsIs url.1) ↔
      SitemapReadable settings db r base := by
  have hhome : ReadAsIs (base ++ "/") ↔ ReadAsIs base := by
    have hslash : ∀ c ∈ "/".toList, Xml.isChar c = true ∧ c ≠ '\r' :=
      forall_mem_of_all (by decide)
    rw [ReadAsIs, String.toList_append, List.forall_mem_append]
    exact and_iff_left hslash
  have hpages : ∀ page ∈ siteList db r, (ReadAsIs (entryLink base page.slug) ↔ ReadAsIs base) := by
    intro summary hsummary
    obtain ⟨page, hpage, rfl⟩ := List.mem_map.mp hsummary
    have hmem := (List.perm_insertionSort _ _).mem_iff.mp ((window_sublist _ _ _).subset hpage)
    exact readAsIs_entryLink
      (entryStored_of_formStored (hstored page (List.mem_filter.mp hmem).1)).slug base
  rw [siteUrls, List.forall_mem_append, List.forall_mem_map, List.forall_mem_map,
    forall₂_congr hpages, SitemapReadable]
  constructor
  · rintro ⟨hhomes, hlisted⟩ (hsome | hne)
    · obtain ⟨home, heq⟩ := Option.isSome_iff_exists.mp hsome
      exact hhome.mp (hhomes home (by simp [heq]))
    · obtain ⟨page, hpage⟩ := List.exists_mem_of_ne_nil _ hne
      exact hlisted page hpage
  · intro h
    refine ⟨fun home hmem => hhome.mpr (h (.inl ?_)), fun page hpage =>
      h (.inr (List.ne_nil_of_mem hpage))⟩
    rw [Option.mem_toList.mp hmem]
    rfl

/-- **The feeds and the sitemap** give the stored pages back exactly where XML allows the
characters of their texts and of the origin and reads none of them as another. -/
theorem feedsFaithful_iff (hstored : ∀ page ∈ pagesOf db r.organization, FormStored page.2) :
    FeedsFaithful settings db r ↔ FeedsReadable settings db r := by
  have hentries := entryStored_of_mem hstored
  have htitles : ∀ entry ∈ feedList db r, entry.title.toList ≠ [] := fun entry he =>
    (hentries entry he).title
  have hfeeds : ReadsAs (rssFeed settings db r) rssItems
        ((feedList db r).map (storedItem (absoluteOrigin settings r))) ∧
      ReadsAs (atomFeed settings db r) atomItems
        ((feedList db r).map (storedItem (absoluteOrigin settings r))) ↔
      (settings.feed = true → FeedReadable (absoluteOrigin settings r) (feedList db r)) := by
    cases hfeed : settings.feed with
    | false =>
        -- without the feed there is no document to read
        have hrss : rssFeed settings db r = .notFound "No route matches GET /feed.xml" := by
          unfold rssFeed
          exact if_pos (by simp [hfeed])
        have hatom : atomFeed settings db r = .notFound "No route matches GET /atom.xml" := by
          unfold atomFeed
          exact if_pos (by simp [hfeed])
        rw [hrss, hatom]
        exact iff_of_true ⟨readsAs_notFound, readsAs_notFound⟩ (fun h => by cases h)
    | true =>
        rw [rssFeed_eq settings db r hfeed htitles, atomFeed_eq settings db r hfeed htitles,
          readsAs_document, readsAs_document, rss_iff hentries, atom_iff hentries,
          ← feedReadable_iff]
        exact ⟨fun h _ => h, fun h => h rfl⟩
  have hsitemap : ReadsAs (sitemap settings db r) sitemapLocs
        (storedLocs settings db r (absoluteOrigin settings r)) ↔
      (settings.sitemap = true → SitemapReadable settings db r (absoluteOrigin settings r)) := by
    cases hsitemap : settings.sitemap with
    | false =>
        have hnone : sitemap settings db r = .notFound "No route matches GET /sitemap.xml" := by
          unfold sitemap
          exact if_pos (by simp [hsitemap])
        rw [hnone]
        exact iff_of_true readsAs_notFound (fun h => by cases h)
    | true =>
        rw [sitemap_eq settings db r hsitemap, readsAs_document, storedLocs_eq, sitemap_iff,
          urls_readAsIs_iff settings hstored]
        exact ⟨fun h _ => h, fun h => h rfl⟩
  rw [FeedsFaithful, ← and_assoc, hfeeds, hsitemap]
  rfl

end

/-! ## A control character in a title -/

def noteForm (title : String) : PageForm :=
  { PageForm.empty with
    slug := "a"
    title := title
    is_published := some "on"
    meta_description := some " x & y " }

def noteSite (title : String) : ContentDb :=
  (createPage 0 emptySite "acme" 1 10 (.ok (noteForm title))).1

def feedSettings : Settings where
  index_page_size := 10
  default_page := some "a"
  site_url := none
  feed := true
  sitemap := true
  expose_user := false

def feedRequest (host : String) : ReadRequest where
  organization := "acme"
  host := some host
  path := "/feed.xml"
  pairs := []
  chrome := []
  user := none
  action := .rssFeed
  time := 20

theorem noteSite_stored {title : String}
    (hvalid : validatePageForm (noteForm title) = .ok ())
    (hpages : (pagesOf (noteSite title) "acme").map
        (fun page => (page.2.slug, page.2.title, page.2.meta_description)) =
      [("a", title, some "x & y")]) :
    ∀ page ∈ pagesOf (noteSite title) "acme", FormStored page.2 := by
  intro page hpage
  have hfields : (page.2.slug, page.2.title, page.2.meta_description) =
      ("a", title, some "x & y") := by
    have hmem := List.mem_map_of_mem
      (f := fun page : ℕ × Storage.Page =>
        (page.2.slug, page.2.title, page.2.meta_description)) hpage
    rw [hpages] at hmem
    exact List.mem_singleton.mp hmem
  obtain ⟨hslug, htitle, hdescription⟩ := Prod.mk.inj hfields |>.imp_right Prod.mk.inj
  have htrimmed : trimmed (some " x & y ") = some "x & y" := by decide +kernel
  exact ⟨noteForm title, hvalid, hslug, htitle, hdescription.trans htrimmed.symm⟩

theorem feedsFaithful_ampersand :
    FeedsFaithful feedSettings (noteSite "Tom & Jerry") (feedRequest "example.org") := by
  have hstored : ∀ page ∈ pagesOf (noteSite "Tom & Jerry") "acme", FormStored page.2 :=
    noteSite_stored (by decide +kernel) (by decide +kernel)
  refine (feedsFaithful_iff feedSettings hstored).mpr ⟨fun _ => ⟨?_, fun _ => ?_, ?_⟩,
    fun _ _ => ?_⟩
  · exact forall_mem_of_all (by decide +kernel)
  · decide +kernel
  · decide +kernel
  · decide +kernel

/-- The form takes the title, and the feed is no XML. -/
theorem control_in_title :
    (∀ page ∈ pagesOf (noteSite "a\x01") "acme", FormStored page.2) ∧
      ¬FeedsFaithful feedSettings (noteSite "a\x01") (feedRequest "example.org") := by
  have hstored : ∀ page ∈ pagesOf (noteSite "a\x01") "acme", FormStored page.2 :=
    noteSite_stored (by decide +kernel) (by decide +kernel)
  refine ⟨hstored, fun h => ?_⟩
  have hentries := entryStored_of_mem (r := feedRequest "example.org") hstored
  have hrss := h.1
  rw [rssFeed_eq _ _ _ rfl fun entry he => (hentries entry he).title, readsAs_document,
    rss_iff hentries] at hrss
  have hentry : ∃ entry ∈ feedList (noteSite "a\x01") (feedRequest "example.org"),
      '\x01' ∈ entry.title.toList := by decide +kernel
  obtain ⟨entry, he, hmem⟩ := hentry
  -- escaped or not, the character is none of XML's
  have hchar := ((hrss.2 entry he).2.1 '\x01' hmem).1
  exact absurd hchar (by decide)

end Wallermax.Content
