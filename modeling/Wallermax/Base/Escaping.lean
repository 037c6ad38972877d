import Mathlib.Data.List.Infix
import Mathlib.Tactic.Common

/-!
# Escaping

Symbols replaced one after another, each over the whole text the earlier ones left, and the
same replacements made all at once. The two agree where no replacement brings in a symbol
whose turn is still to come. An `EscapeTable` replaces by entities: a marker, itself
replaced, and a body without any symbol of the table, no body the start of another. What
is written so is read back from the left.
-/

namespace Wallermax.Base

variable {α : Type*} [DecidableEq α]

/-! ## In turn and at once -/

/-- One symbol replaced throughout. -/
def replaceSymbol (c : α) (replacement text : List α) : List α :=
  text.flatMap fun d => if d = c then replacement else [d]

/-- The replacements in turn, each over what the earlier ones left. -/
def replaceInTurn (table : List (α × List α)) (text : List α) : List α :=
  table.foldl (fun text entry => replaceSymbol entry.1 entry.2 text) text

/-- What stands for a symbol. -/
def substitute (table : List (α × List α)) (c : α) : List α := (table.lookup c).getD [c]

/-- No replacement has a symbol whose turn comes later, and none has two turns. -/
def InOrder (table : List (α × List α)) : Prop :=
  table.Pairwise fun entry later => later.1 ≠ entry.1 ∧ later.1 ∉ entry.2

theorem substitute_cons_self (c : α) (replacement : List α) (table : List (α × List α)) :
    substitute ((c, replacement) :: table) c = replacement := by
  rw [substitute, List.lookup_cons_self]
  rfl

theorem substitute_cons_of_ne {c d : α} (h : d ≠ c) (replacement : List α)
    (table : List (α × List α)) :
    substitute ((c, replacement) :: table) d = substitute table d := by
  have hne : (d == c) = false := beq_eq_false_iff_ne.mpr h
  rw [substitute, List.lookup_cons, hne]
  rfl

theorem substitute_of_not_mem {table : List (α × List α)} {c : α}
    (h : c ∉ table.map Prod.fst) : substitute table c = [c] := by
  have hnone : table.lookup c = none := by
    rw [List.lookup_eq_none_iff]
    intro entry hentry
    rw [bne_iff_ne]
    rintro rfl
    exact h (List.mem_map_of_mem hentry)
  rw [substitute, hnone]
  rfl

theorem flatMap_substitute_of_free {table : List (α × List α)} {text : List α}
    (h : ∀ c ∈ text, c ∉ table.map Prod.fst) : text.flatMap (substitute table) = text := by
  rw [List.flatMap_congr fun c hc => substitute_of_not_mem (h c hc), List.flatMap_singleton']

/-- **In turn is at once**, for a table in order. -/
theorem replaceInTurn_eq_flatMap {table : List (α × List α)} (h : InOrder table)
    (text : List α) : replaceInTurn table text = text.flatMap (substitute table) := by
  induction table generalizing text with
  | nil => exact (flatMap_substitute_of_free fun _ _ => List.not_mem_nil).symm
  | cons entry table ih =>
      obtain ⟨c, replacement⟩ := entry
      obtain ⟨hentry, htable⟩ := List.pairwise_cons.mp h
      have hfree : ∀ d ∈ replacement, d ∉ table.map Prod.fst := by
        intro d hd hmem
        obtain ⟨later, hlater, rfl⟩ := List.mem_map.mp hmem
        exact (hentry later hlater).2 hd
      show replaceInTurn table (replaceSymbol c replacement text) = _
      rw [ih htable, replaceSymbol, List.flatMap_assoc]
      refine List.flatMap_congr fun d _ => ?_
      by_cases hd : d = c
      · subst hd
        rw [if_pos rfl, substitute_cons_self, flatMap_substitute_of_free hfree]
      · rw [if_neg hd, List.flatMap_singleton, substitute_cons_of_ne hd]

/-! ## Entities -/

/-- The symbols that are replaced, each with the body of its entity. -/
structure EscapeTable (α : Type*) [DecidableEq α] : Type _ where
  marker : α
  bodies : List (α × List α)
  marker_first : (bodies.map Prod.fst).head? = some marker
  symbols_nodup : (bodies.map Prod.fst).Nodup
  free : ∀ entry ∈ bodies, ∀ c ∈ entry.2, c ∉ bodies.map Prod.fst
  no_prefix : bodies.Pairwise fun entry later =>
    ¬ entry.2 <+: later.2 ∧ ¬ later.2 <+: entry.2

namespace EscapeTable

variable (table : EscapeTable α)

def symbols : List α := table.bodies.map Prod.fst

def entities : List (α × List α) := table.bodies.map fun entry => (entry.1, table.marker :: entry.2)

def escape (text : List α) : List α := text.flatMap (substitute table.entities)

/-- The entity a text starts with. -/
def entityAt (text : List α) : Option (α × List α) :=
  table.bodies.find? fun entry => (table.marker :: entry.2).isPrefixOf text

/-- Read the entities back, once so many symbols are skipped. -/
def unescapeFrom : ℕ → List α → List α
  | _, [] => []
  | skip + 1, _ :: text => unescapeFrom skip text
  | 0, c :: text =>
    match table.entityAt (c :: text) with
    | some entry => entry.1 :: unescapeFrom entry.2.length text
    | none => c :: unescapeFrom 0 text

def unescape (text : List α) : List α := table.unescapeFrom 0 text

/-- What it is to escape with a table. -/
structure Escapes (f : List α → List α) : Prop where
  at_once : ∀ text, f text = text.flatMap (substitute table.entities)
  none_left : ∀ text, ∀ c ∈ table.symbols, c ≠ table.marker → c ∉ f text
  marked : ∀ text front back, f text = front ++ table.marker :: back →
    ∃ entry ∈ table.bodies, entry.2 <+: back
  read_back : ∀ text, table.unescape (f text) = text
  append : ∀ text more, f (text ++ more) = f text ++ f more

variable {table}

/-- `free`, checked by running along the bodies. -/
theorem free_of_all {bodies : List (α × List α)}
    (h : (bodies.all fun entry =>
      entry.2.all fun c => !(bodies.map Prod.fst).contains c) = true) :
    ∀ entry ∈ bodies, ∀ c ∈ entry.2, c ∉ bodies.map Prod.fst := by
  intro entry hentry c hc hmem
  have hfree := List.all_eq_true.mp (List.all_eq_true.mp h entry hentry) c hc
  rw [List.contains_iff_mem.mpr hmem] at hfree
  cases hfree

theorem map_fst_entities (table : EscapeTable α) : table.entities.map Prod.fst = table.symbols := by
  rw [entities, List.map_map]
  rfl

theorem marker_mem (table : EscapeTable α) : table.marker ∈ table.symbols :=
  List.mem_of_mem_head? table.marker_first

theorem marker_not_mem {entry : α × List α} (h : entry ∈ table.bodies) :
    table.marker ∉ entry.2 := fun hmem => table.free entry h _ hmem table.marker_mem

/-- What stands for a symbol: its entity, or the symbol itself. -/
theorem substitute_cases (table : EscapeTable α) (c : α) :
    (∃ body, (c, body) ∈ table.bodies ∧
      substitute table.entities c = table.marker :: body) ∨
    (c ∉ table.symbols ∧ substitute table.entities c = [c]) := by
  cases hlookup : table.entities.lookup c with
  | none =>
      have hfree : c ∉ table.entities.map Prod.fst := by
        intro hmem
        obtain ⟨entry, hentry, rfl⟩ := List.mem_map.mp hmem
        have hne := List.lookup_eq_none_iff.mp hlookup entry hentry
        exact bne_iff_ne.mp hne rfl
      exact Or.inr ⟨table.map_fst_entities ▸ hfree, substitute_of_not_mem hfree⟩
  | some replacement =>
      obtain ⟨before, after, heq, -⟩ := List.lookup_eq_some_iff.mp hlookup
      have hmem : (c, replacement) ∈ table.entities := by
        rw [heq]
        exact List.mem_append_right _ List.mem_cons_self
      obtain ⟨⟨d, body⟩, hbody, hentity⟩ := List.mem_map.mp hmem
      cases hentity
      exact Or.inl ⟨body, hbody, by rw [substitute, hlookup]; rfl⟩

theorem escape_cons (c : α) (text : List α) :
    table.escape (c :: text) = substitute table.entities c ++ table.escape text :=
  List.flatMap_cons

/-! ## The entities in turn -/

theorem inOrder_entities (table : EscapeTable α) : InOrder table.entities := by
  obtain ⟨marker, bodies, hfirst, hnodup, hfree, -⟩ := table
  cases bodies with
  | nil => cases hfirst
  | cons first rest =>
      obtain rfl : first.1 = marker := Option.some.inj hfirst
      rw [List.nodup_iff_pairwise_ne, List.pairwise_map, List.pairwise_cons] at hnodup
      obtain ⟨hfirst_ne, hrest⟩ := hnodup
      have hlater : ∀ later ∈ rest, ∀ entry ∈ first :: rest, later.1 ∉ first.1 :: entry.2 := by
        intro later hmem entry hentry hin
        rcases List.mem_cons.mp hin with heq | hin
        · exact hfirst_ne later hmem heq.symm
        · exact hfree entry hentry _ hin (List.mem_map_of_mem (List.mem_cons_of_mem _ hmem))
      rw [InOrder, entities, List.pairwise_map, List.pairwise_cons]
      constructor
      · intro later hmem
        exact ⟨(hfirst_ne later hmem).symm, hlater later hmem first List.mem_cons_self⟩
      · refine hrest.imp_of_mem fun {entry later} hentry hmem hne => ?_
        exact ⟨hne.symm, hlater later hmem entry (List.mem_cons_of_mem _ hentry)⟩

/-! ## What is written -/

theorem not_mem_escape {c : α} (hc : c ∈ table.symbols) (hmarker : c ≠ table.marker)
    (text : List α) : c ∉ table.escape text := by
  intro hmem
  obtain ⟨d, -, hd⟩ := List.mem_flatMap.mp hmem
  rcases table.substitute_cases d with ⟨body, hbody, heq⟩ | ⟨hfree, heq⟩
  · rw [heq] at hd
    rcases List.mem_cons.mp hd with hd | hd
    · exact hmarker hd
    · exact table.free _ hbody c hd hc
  · rw [heq, List.mem_singleton] at hd
    subst hd
    exact hfree hc

/-- A stretch without the marker holds no entity's start. -/
theorem suffix_of_suffix_append {front rest back : List α} (h : table.marker ∉ front)
    (hsuffix : table.marker :: back <:+ front ++ rest) : table.marker :: back <:+ rest := by
  induction front with
  | nil => exact hsuffix
  | cons c front ih =>
      rw [List.mem_cons, not_or] at h
      rcases List.suffix_cons_iff.mp hsuffix with heq | hsuffix
      · exact absurd (List.cons.inj heq).1 h.1
      · exact ih h.2 hsuffix

/-- **Every marker starts an entity.** -/
theorem entity_of_suffix_escape {text back : List α}
    (h : table.marker :: back <:+ table.escape text) : ∃ entry ∈ table.bodies, entry.2 <+: back := by
  induction text with
  | nil => cases List.suffix_nil.mp h
  | cons c text ih =>
      rw [escape_cons] at h
      rcases table.substitute_cases c with ⟨body, hbody, heq⟩ | ⟨hfree, heq⟩
      · rw [heq, List.cons_append] at h
        rcases List.suffix_cons_iff.mp h with heq | h
        · rw [(List.cons.inj heq).2]
          exact ⟨_, hbody, List.prefix_append _ _⟩
        · exact ih (suffix_of_suffix_append (marker_not_mem hbody) h)
      · rw [heq] at h
        apply ih
        apply suffix_of_suffix_append _ h
        rw [List.mem_singleton]
        rintro rfl
        exact hfree table.marker_mem

/-! ## Reading back -/

theorem unescapeFrom_append (front rest : List α) :
    table.unescapeFrom front.length (front ++ rest) = table.unescapeFrom 0 rest := by
  induction front with
  | nil => rfl
  | cons c front ih =>
      rw [List.length_cons, List.cons_append, unescapeFrom]
      exact ih

/-- The entity that is there is found: no other is the start of it or goes on behind it. -/
theorem entityAt_append {entry : α × List α} (h : entry ∈ table.bodies) (rest : List α) :
    table.entityAt (table.marker :: (entry.2 ++ rest)) = some entry := by
  obtain ⟨before, after, heq⟩ := List.append_of_mem h
  have hpairs := table.no_prefix
  rw [heq, List.pairwise_append] at hpairs
  rw [entityAt, List.find?_eq_some_iff_append]
  refine ⟨?_, before, after, heq, fun other hother => ?_⟩
  · rw [List.isPrefixOf_iff_prefix, List.prefix_cons_inj]
    exact List.prefix_append _ _
  · obtain ⟨hnot, hnot'⟩ := hpairs.2.2 other hother entry List.mem_cons_self
    rw [Bool.not_eq_true', ← Bool.not_eq_true, List.isPrefixOf_iff_prefix, List.prefix_cons_inj]
    intro hprefix
    rcases List.prefix_or_prefix_of_prefix hprefix (List.prefix_append entry.2 rest) with h | h
    · exact hnot h
    · exact hnot' h

theorem entityAt_of_ne {c : α} (h : c ≠ table.marker) (text : List α) :
    table.entityAt (c :: text) = none := by
  rw [entityAt, List.find?_eq_none]
  intro entry _ hprefix
  rw [List.isPrefixOf_iff_prefix] at hprefix
  exact h (List.cons_prefix_cons.mp hprefix).1.symm

/-- **What was written is read back.** -/
theorem unescape_escape (text : List α) : table.unescape (table.escape text) = text := by
  induction text with
  | nil => rfl
  | cons c text ih =>
      rw [escape_cons]
      rcases table.substitute_cases c with ⟨body, hbody, heq⟩ | ⟨hfree, heq⟩
      · rw [heq, List.cons_append, unescape, unescapeFrom, entityAt_append hbody]
        dsimp only
        rw [unescapeFrom_append]
        exact congrArg (c :: ·) ih
      · have hne : c ≠ table.marker := by
          rintro rfl
          exact hfree table.marker_mem
        rw [heq, List.singleton_append, unescape, unescapeFrom, entityAt_of_ne hne]
        exact congrArg (c :: ·) ih

/-- **Replacing the entities in turn** is escaping. -/
theorem escapes_replaceInTurn (table : EscapeTable α) :
    table.Escapes (replaceInTurn table.entities) := by
  have heq : replaceInTurn table.entities = table.escape :=
    funext fun text => replaceInTurn_eq_flatMap table.inOrder_entities text
  rw [heq]
  exact
    { at_once := fun _ => rfl
      none_left := fun text c hc hmarker => not_mem_escape hc hmarker text
      marked := fun text front back h => entity_of_suffix_escape ⟨front, h.symm⟩
      read_back := unescape_escape
      append := fun _ _ => List.flatMap_append }

end EscapeTable

end Wallermax.Base
