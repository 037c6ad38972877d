import Mathlib.Algebra.Ring.Parity
import Mathlib.Data.List.Induction
import Wallermax.Base.Trim
import Wallermax.Base.Uri
import Wallermax.Tenants.Forms

/-!
# Command lines

`split_command_line` reads a line once, with two flags: inside quotes, and whether a token
has started. A token is spelled by stretches with quotes around them and stretches without
quotes or whitespace, side by side; whitespace outside quotes ends it.
-/

namespace Wallermax.Manager

open Wallermax.Base
open Wallermax.Tenants

structure SplitState : Type where
  tokens : List Text := []
  current : Text := []
  in_quotes : Bool := false
  token_started : Bool := false

namespace SplitState

/-- The loop of `split_command_line`. -/
def step (s : SplitState) (ch : Char) : SplitState :=
  if ch = '"' then { s with in_quotes := !s.in_quotes, token_started := true }
  else if s.in_quotes then { s with current := s.current ++ [ch] }
  else if isWhitespace ch then
    if s.token_started || !s.current.isEmpty then
      { s with tokens := s.tokens ++ [s.current], current := [], token_started := false }
    else s
  else { s with current := s.current ++ [ch], token_started := true }

/-- The tokens at the end of the line. -/
def collected (s : SplitState) : List Text :=
  if s.token_started || !s.current.isEmpty then s.tokens ++ [s.current] else s.tokens

def read (line : Text) : SplitState := line.foldl step {}

end SplitState

def splitCommandLine (line : Text) : Except String (List Text) :=
  let s := SplitState.read line
  if s.in_quotes then .error ("unbalanced quotes in command line: " ++ String.ofList line)
  else if s.collected.isEmpty then .error "the server command is empty"
  else .ok s.collected

/-! ## Spellings -/

/-- The text is a way to write the token. -/
inductive Spells : Text → Text → Prop
  | quoted {token : Text} (h : '"' ∉ token) : Spells ('"' :: (token ++ ['"'])) token
  | bare {token : Text} (hne : token ≠ [])
      (h : ∀ c ∈ token, c ≠ '"' ∧ isWhitespace c = false) : Spells token token
  | joined {text text' token token' : Text} :
      Spells text token → Spells text' token' → Spells (text ++ text') (token ++ token')

def IsBlank (text : Text) : Prop := ∀ c ∈ text, isWhitespace c = true

/-- The text writes the tokens in order, with whitespace between them and maybe behind. -/
inductive SpellsAll : Text → List Text → Prop
  | last {text token back : Text} :
      Spells text token → IsBlank back → SpellsAll (text ++ back) [token]
  | next {text token gap rest : Text} {tokens : List Text} :
      Spells text token → gap ≠ [] → IsBlank gap → SpellsAll rest tokens →
      SpellsAll (text ++ (gap ++ rest)) (token :: tokens)

/-! ## What a stretch does -/

namespace SplitState

variable {s : SplitState} {c : Char} {text token : Text}

/-- More of the current token. -/
def more (s : SplitState) (text : Text) : SplitState := { s with current := s.current ++ text }

/-- More of the current token, which has started. -/
def start (s : SplitState) (text : Text) : SplitState :=
  { s with current := s.current ++ text, token_started := true }

/-- The current token is complete. -/
def complete (s : SplitState) : SplitState :=
  { s with tokens := s.tokens ++ [s.current], current := [], token_started := false }

@[simp] theorem more_more (s : SplitState) (text text' : Text) :
    (s.more text).more text' = s.more (text ++ text') := by
  rw [more, more, more, List.append_assoc]

@[simp] theorem start_start (s : SplitState) (text text' : Text) :
    (s.start text).start text' = s.start (text ++ text') := by
  rw [start, start, start, List.append_assoc]

theorem step_quote (s : SplitState) :
    s.step '"' = { s with in_quotes := !s.in_quotes, token_started := true } := rfl

theorem step_inside (hc : c ≠ '"') (h : s.in_quotes = true) : s.step c = s.more [c] := by
  rw [step, if_neg hc, if_pos h]
  rfl

theorem step_bare (hc : c ≠ '"') (hwhite : isWhitespace c = false) (h : s.in_quotes = false) :
    s.step c = s.start [c] := by
  rw [step, if_neg hc, if_neg (by simp [h]), if_neg (by simp [hwhite])]
  rfl

/-- Whitespace ends a token that has started. -/
theorem step_white (hc : isWhitespace c = true) (h : s.in_quotes = false) :
    s.step c = if s.token_started || !s.current.isEmpty then s.complete else s := by
  have hne : c ≠ '"' := by
    rintro rfl
    cases hc
  rw [step, if_neg hne, if_neg (by simp [h]), if_pos hc]
  rfl

theorem foldl_inside (htext : '"' ∉ text) (h : s.in_quotes = true) :
    text.foldl step s = s.more text := by
  induction text generalizing s with
  | nil =>
      rw [more, List.append_nil]
      rfl
  | cons c text ih =>
      rw [List.mem_cons, not_or] at htext
      have hmore : (s.more [c]).in_quotes = true := h
      rw [List.foldl_cons, step_inside (Ne.symm htext.1) h, ih htext.2 hmore, more_more]
      rfl

theorem foldl_bare (hne : text ≠ []) (htext : ∀ c ∈ text, c ≠ '"' ∧ isWhitespace c = false)
    (h : s.in_quotes = false) : text.foldl step s = s.start text := by
  induction text generalizing s with
  | nil => exact absurd rfl hne
  | cons c text ih =>
      obtain ⟨hc, hwhite⟩ := htext c List.mem_cons_self
      rw [List.foldl_cons, step_bare hc hwhite h]
      by_cases hnil : text = []
      · subst hnil
        rfl
      · have hstart : (s.start [c]).in_quotes = false := h
        rw [ih hnil (fun d hd => htext d (List.mem_cons_of_mem _ hd)) hstart, start_start]
        rfl

/-- **A spelling is read as its token**, behind what the current token already has. -/
theorem foldl_spells (hspells : Spells text token) (h : s.in_quotes = false) :
    text.foldl step s = s.start token := by
  induction hspells generalizing s with
  | @quoted token hplain =>
      have hinside : (s.step '"').in_quotes = true := by
        rw [step_quote]
        exact congrArg (!·) h
      rw [List.foldl_cons, List.foldl_append, foldl_inside hplain hinside, step_quote]
      show step _ '"' = _
      rw [step_quote, more, start]
      simp
  | bare hne hplain => exact foldl_bare hne hplain h
  | @joined text text' token token' _ _ ih ih' =>
      have hstart : (s.start token).in_quotes = false := h
      rw [List.foldl_append, ih h, ih' hstart, start_start]

/-- Whitespace where no token has started is skipped. -/
theorem foldl_blank (htext : IsBlank text) (h : s.in_quotes = false)
    (hstarted : s.token_started = false) (hcurrent : s.current = []) :
    text.foldl step s = s := by
  induction text with
  | nil => rfl
  | cons c text ih =>
      have hskip : s.step c = s := by
        rw [step_white (htext c List.mem_cons_self) h, hstarted, hcurrent]
        rfl
      rw [List.foldl_cons, hskip]
      exact ih fun d hd => htext d (List.mem_cons_of_mem _ hd)

/-- A gap ends the token in front of it. -/
theorem foldl_gap (hne : text ≠ []) (htext : IsBlank text) (h : s.in_quotes = false)
    (hstarted : s.token_started = true) : text.foldl step s = s.complete := by
  obtain ⟨c, rest, rfl⟩ := List.exists_cons_of_ne_nil hne
  have hcomplete : s.complete.in_quotes = false := h
  rw [List.foldl_cons, step_white (htext c List.mem_cons_self) h, hstarted, Bool.true_or,
    if_pos rfl]
  exact foldl_blank (fun d hd => htext d (List.mem_cons_of_mem _ hd)) hcomplete rfl rfl

/-- **The tokens of a line are collected in order.** -/
theorem foldl_spellsAll {tokens : List Text} (hspells : SpellsAll text tokens)
    (h : s.in_quotes = false) (hstarted : s.token_started = false) (hcurrent : s.current = []) :
    (text.foldl step s).in_quotes = false ∧
      (text.foldl step s).collected = s.tokens ++ tokens := by
  induction hspells generalizing s with
  | @last text token back htoken hback =>
      have hstart : (s.start token).in_quotes = false := h
      have hcollected : (s.start token).collected = s.tokens ++ [token] := by
        show s.tokens ++ [s.current ++ token] = _
        rw [hcurrent, List.nil_append]
      rw [List.foldl_append, foldl_spells htoken h]
      by_cases hnil : back = []
      · subst hnil
        exact ⟨h, hcollected⟩
      · rw [foldl_gap hnil hback hstart rfl]
        exact ⟨h, hcollected⟩
  | @next text token gap rest tokens htoken hne hgap _ ih =>
      have hstart : (s.start token).in_quotes = false := h
      rw [List.foldl_append, List.foldl_append, foldl_spells htoken h,
        foldl_gap hne hgap hstart rfl]
      have hcomplete : (s.start token).complete.in_quotes = false := h
      obtain ⟨hquotes, hcollected⟩ := ih hcomplete rfl rfl
      refine ⟨hquotes, ?_⟩
      rw [hcollected]
      show s.tokens ++ [s.current ++ token] ++ tokens = _
      rw [hcurrent, List.nil_append, List.append_assoc]
      rfl

/-! ## Lines that are refused -/

/-- The line ends inside quotes after an odd number of them. -/
theorem in_quotes_read (line : Text) :
    (read line).in_quotes = true ↔ Odd (line.count '"') := by
  induction line using List.reverseRecOn with
  | nil => simp [read]
  | append_singleton line c ih =>
      rw [read, List.foldl_append, List.count_append]
      show (step (read line) c).in_quotes = true ↔ _
      by_cases hc : c = '"'
      · subst hc
        rw [step_quote, List.count_singleton_self, Nat.odd_add_one, ← ih]
        simp
      · have hsame : (step (read line) c).in_quotes = (read line).in_quotes := by
          unfold step
          rw [if_neg hc]
          split
          · rfl
          · split
            · split
              · rfl
              · rfl
            · rfl
        have hcount : List.count '"' [c] = 0 := List.count_eq_zero_of_not_mem (by simpa using Ne.symm hc)
        rw [hsame, hcount, ih, Nat.add_zero]

/-- A token is complete or has started. -/
def Begun (s : SplitState) : Prop := s.tokens ≠ [] ∨ s.token_started = true

theorem Begun.step (h : Begun s) (c : Char) : Begun (s.step c) := by
  unfold SplitState.step
  split
  · exact Or.inr rfl
  · split
    · exact h
    · split
      · split
        · exact Or.inl (by simp)
        · exact h
      · exact Or.inr rfl

theorem Begun.foldl (h : Begun s) (text : Text) : Begun (text.foldl SplitState.step s) := by
  induction text generalizing s with
  | nil => exact h
  | cons c text ih => exact ih (h.step c)

theorem Begun.collected_ne_nil (h : Begun s) : s.collected ≠ [] := by
  unfold collected
  split
  · simp
  · rename_i hnone
    rw [Bool.or_eq_true, not_or] at hnone
    exact h.resolve_right hnone.1

/-- **No token** comes of whitespace, and of nothing else. -/
theorem collected_read_eq_nil (line : Text) : (read line).collected = [] ↔ IsBlank line := by
  constructor
  · intro h
    by_contra hblank
    obtain ⟨front, hfront, hline⟩ := exists_stretch isWhitespace line
    cases hrest : line.dropWhile isWhitespace with
    | nil =>
        rw [hrest, List.append_nil] at hline
        exact hblank (hline ▸ hfront)
    | cons c rest =>
        have hhead : c ∈ (line.dropWhile isWhitespace).head? := by
          rw [hrest]
          rfl
        have hc : isWhitespace c = false := head_dropWhile c hhead
        have hbegun : Begun (step {} c) := by
          right
          by_cases hquote : c = '"'
          · rw [hquote]
            rfl
          · rw [step_bare hquote hc rfl]
            rfl
        rw [hrest] at hline
        rw [hline, read, List.foldl_append, foldl_blank hfront rfl rfl rfl] at h
        exact (hbegun.foldl rest).collected_ne_nil h
  · intro h
    rw [read, foldl_blank h rfl rfl rfl]
    rfl

end SplitState

theorem splitCommandLine_ok {line : Text} (hquotes : (SplitState.read line).in_quotes = false)
    (hne : (SplitState.read line).collected ≠ []) :
    splitCommandLine line = .ok (SplitState.read line).collected := by
  unfold splitCommandLine
  dsimp only
  rw [if_neg (by simp [hquotes]), if_neg (by simpa using hne)]

theorem splitCommandLine_error (line : Text) :
    (∃ message, splitCommandLine line = .error message) ↔
      (SplitState.read line).in_quotes = true ∨ (SplitState.read line).collected = [] := by
  unfold splitCommandLine
  dsimp only
  split
  · rename_i hquotes
    exact iff_of_true ⟨_, rfl⟩ (Or.inl hquotes)
  · rename_i hquotes
    split
    · rename_i hempty
      exact iff_of_true ⟨_, rfl⟩ (Or.inr (List.isEmpty_iff.mp hempty))
    · rename_i hsome
      rw [List.isEmpty_iff] at hsome
      exact iff_of_false nofun (not_or.mpr ⟨hquotes, hsome⟩)

/-- **Command lines round trip**: tokens spelled with or without quotes and set apart by
whitespace are read back, and a line is refused exactly for an odd number of quotes or for
want of a token, which is a line of whitespace. -/
theorem splitCommandLine_spells :
    (∀ front line tokens, IsBlank front → SpellsAll line tokens →
      splitCommandLine (front ++ line) = .ok tokens) ∧
    ∀ line, ((∃ message, splitCommandLine line = .error message) ↔
        Odd (line.count '"') ∨ (SplitState.read line).collected = []) ∧
      ((SplitState.read line).collected = [] ↔ IsBlank line) := by
  constructor
  · intro front line tokens hfront hline
    have hne : tokens ≠ [] := by
      rintro rfl
      cases hline
    have hread : SplitState.read (front ++ line) = line.foldl SplitState.step {} := by
      rw [SplitState.read, List.foldl_append, SplitState.foldl_blank hfront rfl rfl rfl]
    obtain ⟨hquotes, hcollected⟩ :=
      SplitState.foldl_spellsAll (s := {}) hline rfl rfl rfl
    rw [← hread] at hquotes hcollected
    rw [List.nil_append] at hcollected
    rw [splitCommandLine_ok hquotes (hcollected ▸ hne), hcollected]
  · intro line
    refine ⟨?_, SplitState.collected_read_eq_nil line⟩
    rw [splitCommandLine_error, SplitState.in_quotes_read]

/-- A path with a space, an empty argument, and quotes that open inside a word. -/
theorem splitCommandLine_spells_path :
    splitCommandLine ("  ".toList ++ ("\"/opt/my server\"".toList ++ (" \t".toList ++
      ("\"\"".toList ++ (" ".toList ++ ("--name=\"a b\"".toList ++ [])))))) =
    .ok ["/opt/my server".toList, [], "--name=a b".toList] := by
  have hblank : ∀ {text : Text}, text.all isWhitespace = true → IsBlank text :=
    fun h => List.all_eq_true.mp h
  have hpath : Spells "\"/opt/my server\"".toList "/opt/my server".toList :=
    @Spells.quoted "/opt/my server".toList (by decide)
  have hempty : Spells "\"\"".toList [] := @Spells.quoted [] (by decide)
  have hname : Spells "--name=\"a b\"".toList "--name=a b".toList :=
    .joined (@Spells.bare "--name=".toList (by decide) (forall_mem_of_all (by decide)))
      (@Spells.quoted "a b".toList (by decide))
  exact splitCommandLine_spells.1 _ _ _ (hblank rfl)
    (.next hpath (by decide) (hblank rfl) (.next hempty (by decide) (hblank rfl)
      (.last hname (hblank rfl))))

end Wallermax.Manager
