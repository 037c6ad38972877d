import Wallermax.Base.Trim
import Wallermax.Templates.Engine
import Wallermax.Templates.RequireWorker

/-!
# What counts as an include

The engine and its worker read the same kind of block, `include("name")` with white space
between the pieces. They disagree about the pieces: which characters are white, and which
quote closes the one that was opened.
-/

namespace Wallermax.Templates

open Wallermax.Base

/-! ## The worker's reading -/

/-- `standaloneInclude` of `render-worker.mjs`: the closing quote is the opening one. -/
def workerStandaloneInclude (body : List Char) : Option (List Char) := do
  let rest ← stripPrefix "include".toList (jsTrim body)
  let rest ← stripPrefix ['('] (rest.dropWhile isJsWhitespace)
  match rest.dropWhile isJsWhitespace with
  | [] => none
  | quote :: rest =>
    if quote ≠ '"' ∧ quote ≠ '\'' then none
    else
      let name := rest.takeWhile (· != quote)
      match rest.dropWhile (· != quote) with
      | [] => none
      | _ :: tail => if jsTrim tail ≠ [')'] ∨ name = [] then none else some name

/-! ## Both readings -/

/-- The white space of an include block. -/
@[ext]
structure Gaps : Type where
  front : List Char
  afterName : List Char
  inside : List Char
  beforeParen : List Char
  back : List Char

namespace Gaps

def chars (gaps : Gaps) : List Char :=
  gaps.front ++ (gaps.afterName ++ (gaps.inside ++ (gaps.beforeParen ++ gaps.back)))

def White (white : Char → Bool) (gaps : Gaps) : Prop := ∀ c ∈ gaps.chars, white c = true

/-- The block with these gaps. -/
def text (gaps : Gaps) (quote : Char) (name : List Char) (closing : Char) : List Char :=
  gaps.front ++ ("include".toList ++ (gaps.afterName ++ '(' :: (gaps.inside ++ quote ::
    (name ++ closing :: (gaps.beforeParen ++ ')' :: gaps.back)))))

theorem white_iff {white : Char → Bool} {gaps : Gaps} : gaps.White white ↔
    (∀ c ∈ gaps.front, white c = true) ∧ (∀ c ∈ gaps.afterName, white c = true) ∧
    (∀ c ∈ gaps.inside, white c = true) ∧ (∀ c ∈ gaps.beforeParen, white c = true) ∧
    ∀ c ∈ gaps.back, white c = true := by
  unfold White chars
  simp only [List.forall_mem_append]

end Gaps

/-- The block is an include call of that name. -/
structure IncludeCall (white : Char → Bool) (closes : Char → Char → Bool) (body : List Char)
    (gaps : Gaps) (quote : Char) (name : List Char) (closing : Char) : Prop where
  body_eq : body = gaps.text quote name closing
  white : gaps.White white
  opened : isQuote quote = true
  closed : closes quote closing = true
  name_ne : name ≠ []
  name_open : ∀ c ∈ name, closes quote c = false

/-- The reader, for a kind of white space and of closing quotes. -/
def readCall (white : Char → Bool) (closes : Char → Char → Bool) (body : List Char) :
    Option (List Char) := do
  let rest ← stripPrefix "include".toList (trimBy white body)
  let rest ← stripPrefix ['('] (rest.dropWhile white)
  match rest.dropWhile white with
  | [] => none
  | quote :: rest =>
    if isQuote quote = false then none
    else
      let name := rest.takeWhile (!closes quote ·)
      match rest.dropWhile (!closes quote ·) with
      | [] => none
      | _ :: tail => if trimBy white tail ≠ [')'] ∨ name = [] then none else some name

/-- The opening quote is not looked at again. -/
def closesAny (_ c : Char) : Bool := isQuote c

def closesSame (quote c : Char) : Bool := c == quote

theorem stripPrefix_eq_some_iff {pat text rest : List Char} :
    stripPrefix pat text = some rest ↔ text = pat ++ rest := by
  unfold stripPrefix
  constructor
  · intro h
    split at h
    · rename_i hpre
      obtain ⟨tail, rfl⟩ := hpre
      cases h
      rw [List.drop_left]
    · cases h
  · rintro rfl
    rw [if_pos (List.prefix_append pat rest), List.drop_left]

theorem standaloneInclude_eq (body : List Char) :
    standaloneInclude body = readCall Tenants.isWhitespace closesAny body := by
  have hquote : ∀ text : List Char, (stripPrefix ['"'] text).or (stripPrefix ['\''] text) =
      if isQuote (text.headD 'x') then some text.tail else none := by
    intro text
    cases text with
    | nil => rfl
    | cons c text =>
        by_cases hdouble : c = '"'
        · subst hdouble
          rfl
        · by_cases hsingle : c = '\''
          · subst hsingle
            rfl
          · have hne := Ne.symm hdouble
            have hne' := Ne.symm hsingle
            simp [stripPrefix, isQuote, hdouble, hsingle, hne, hne', List.cons_prefix_cons]
  unfold standaloneInclude readCall
  refine Option.bind_congr fun rest _ => Option.bind_congr fun rest' _ => ?_
  rw [hquote]
  show _ = match trimStart rest' with
    | [] => none
    | quote :: rest => _
  cases trimStart rest' with
  | nil => rfl
  | cons quote rest =>
      cases hq : isQuote quote with
      | false => simp [hq]
      | true => simp [hq, closesAny]; rfl

theorem workerStandaloneInclude_eq (body : List Char) :
    workerStandaloneInclude body = readCall isJsWhitespace closesSame body := by
  unfold workerStandaloneInclude readCall
  refine Option.bind_congr fun rest _ => Option.bind_congr fun rest' _ => ?_
  cases rest'.dropWhile isJsWhitespace with
  | nil => rfl
  | cons quote rest =>
      have hquote : (quote ≠ '"' ∧ quote ≠ '\'') ↔ isQuote quote = false := by
        simp [isQuote]
      simp only [hquote]
      rfl

/-- The pieces of an include call are not white. -/
structure Visible (white : Char → Bool) : Prop where
  letter : white 'i' = false
  opening : white '(' = false
  closing : white ')' = false
  double : white '"' = false
  single : white '\'' = false

theorem Visible.quote {white : Char → Bool} (h : Visible white) {c : Char}
    (hc : isQuote c = true) : white c = false := by
  rcases (by simpa [isQuote] using hc : c = '"' ∨ c = '\'') with rfl | rfl
  · exact h.double
  · exact h.single

section Reader

variable {white : Char → Bool} {closes : Char → Char → Bool} {body name : List Char}

theorem readCall_some (h : readCall white closes body = some name) :
    ∃ gaps quote closing, IncludeCall white closes body gaps quote name closing := by
  unfold readCall at h
  obtain ⟨rest, hinclude, h⟩ := Option.bind_eq_some_iff.mp h
  obtain ⟨rest', hparen, h⟩ := Option.bind_eq_some_iff.mp h
  rw [stripPrefix_eq_some_iff] at hinclude hparen
  obtain ⟨front, back, hfront, hback, hbody⟩ := exists_trimBy white body
  obtain ⟨afterName, hafter, hrest⟩ := exists_stretch white rest
  obtain ⟨inside, hinside, hrest'⟩ := exists_stretch white rest'
  cases hquoted : rest'.dropWhile white with
  | nil => simp [hquoted] at h
  | cons quote text =>
      simp only [hquoted] at h
      split at h
      · cases h
      · rename_i hopened
        cases htail : text.dropWhile (!closes quote ·) with
        | nil => simp [htail] at h
        | cons closing tail =>
            simp only [htail] at h
            split at h
            · cases h
            · rename_i hname
              cases h
              rw [not_or, not_not] at hname
              obtain ⟨beforeParen, afterParen, hbefore, hafter', htext⟩ := exists_trimBy white tail
              have hclosed : closes quote closing = true := by
                have hhead := List.head?_dropWhile_not (!closes quote ·) text
                rw [htail] at hhead
                simpa using hhead
              have hspan : text = text.takeWhile (!closes quote ·) ++ closing :: tail := by
                rw [← htail, List.takeWhile_append_dropWhile]
              refine ⟨⟨front, afterName, inside, beforeParen, afterParen ++ back⟩, quote, closing,
                ?_, ?_, ?_, hclosed, hname.2, ?_⟩
              · rw [hname.1] at htext
                rw [hparen] at hrest
                rw [hquoted] at hrest'
                rw [hbody, hinclude, hrest, hrest']
                nth_rewrite 1 [hspan]
                rw [htext]
                simp [Gaps.text]
              · refine Gaps.white_iff.mpr ⟨hfront, hafter, hinside, hbefore, ?_⟩
                exact List.forall_mem_append.mpr ⟨hafter', hback⟩
              · simpa using hopened
              · intro c hc
                simpa using List.mem_takeWhile_imp hc

theorem readCall_of_call (hwhite : Visible white) {gaps : Gaps}
    {quote closing : Char} (h : IncludeCall white closes body gaps quote name closing) :
    readCall white closes body = some name := by
  obtain ⟨hfront, hafter, hinside, hbefore, hback⟩ := Gaps.white_iff.mp h.white
  have hquote : white quote = false := hwhite.quote h.opened
  have htrim : trimBy white body = "include".toList ++ (gaps.afterName ++ '(' :: (gaps.inside ++
      quote :: (name ++ closing :: (gaps.beforeParen ++ [')'])))) := by
    rw [h.body_eq]
    have hshape : gaps.text quote name closing = gaps.front ++ (("include".toList ++
        (gaps.afterName ++ '(' :: (gaps.inside ++ quote :: (name ++ closing ::
          (gaps.beforeParen ++ [')']))))) ++ gaps.back) := by
      simp [Gaps.text]
    rw [hshape]
    refine trimBy_stretch hfront hback (by simp) ?_ ?_
    · rintro c ⟨⟩
      exact hwhite.letter
    · intro c hc
      have hlast : c = ')' := by
        simpa [List.getLast?_append, List.getLast?_cons] using hc.symm
      rw [hlast]
      exact hwhite.closing
  have htail : trimBy white (gaps.beforeParen ++ [')']) = [')'] := by
    have hparen : ∀ c, some c = some ')' → white c = false := by
      rintro c ⟨⟩
      exact hwhite.closing
    have hstretch := @trimBy_stretch _ white gaps.beforeParen [] [')'] hbefore (by simp) (by simp)
      (fun c hc => hparen c hc.symm) fun c hc => hparen c hc.symm
    simpa using hstretch
  have hopen : ∀ c ∈ name, (!closes quote c) = true := by
    intro c hc
    rw [h.name_open c hc]
    rfl
  have hstrip : ∀ rest : List Char, stripPrefix ['('] ('(' :: rest) = some rest := fun rest =>
    stripPrefix_eq_some_iff.mpr rfl
  unfold readCall
  rw [htrim, stripPrefix_eq_some_iff.mpr rfl, Option.bind_eq_bind, Option.bind_some,
    dropWhile_stretch hafter hwhite.opening, hstrip, Option.bind_some,
    dropWhile_stretch hinside hquote]
  dsimp only
  rw [takeWhile_stretch hopen (by simp [h.closed]), dropWhile_stretch hopen (by simp [h.closed])]
  simp [h.opened, htail, h.name_ne]

/-- **The reader reads include calls**, and gets their names. -/
theorem readCall_eq_some_iff (hwhite : Visible white) :
    readCall white closes body = some name ↔
      ∃ gaps quote closing, IncludeCall white closes body gaps quote name closing := by
  constructor
  · exact readCall_some
  · rintro ⟨gaps, quote, closing, h⟩
    exact readCall_of_call hwhite h

end Reader

theorem standaloneInclude_eq_some_iff {body name : List Char} :
    standaloneInclude body = some name ↔ ∃ gaps quote closing,
      IncludeCall Tenants.isWhitespace closesAny body gaps quote name closing := by
  rw [standaloneInclude_eq]
  exact readCall_eq_some_iff ⟨rfl, rfl, rfl, rfl, rfl⟩

theorem workerStandaloneInclude_eq_some_iff {body name : List Char} :
    workerStandaloneInclude body = some name ↔ ∃ gaps quote closing,
      IncludeCall isJsWhitespace closesSame body gaps quote name closing := by
  rw [workerStandaloneInclude_eq]
  exact readCall_eq_some_iff ⟨rfl, rfl, rfl, rfl, rfl⟩

/-! ## Where they differ -/

def nextLine : Char := Char.ofNat 0x85

def zeroWidthNoBreak : Char := Char.ofNat 0xFEFF

/-- The block is an include for one of the two that the other does not read so: the quotes do not
match or U+0085 is among the white space, or else the name has the other quote in it or U+FEFF is
among the white space. -/
def Odd (body : List Char) : Prop :=
  ∃ gaps quote name closing,
    (IncludeCall Tenants.isWhitespace closesAny body gaps quote name closing ∧
      (closing ≠ quote ∨ nextLine ∈ gaps.chars)) ∨
    (IncludeCall isJsWhitespace closesSame body gaps quote name closing ∧
      ((∃ c ∈ name, isQuote c = true) ∨ zeroWidthNoBreak ∈ gaps.chars))

theorem isJsWhitespace_iff (c : Char) : isJsWhitespace c = true ↔
    (Tenants.isWhitespace c = true ∧ c ≠ nextLine) ∨ c = zeroWidthNoBreak := by
  have hnext : c = nextLine ↔ c.toNat = 0x85 := ⟨fun h => h ▸ rfl, fun h => by
    rw [← Char.ofNat_toNat c, h]; rfl⟩
  have hzero : c = zeroWidthNoBreak ↔ c.toNat = 0xFEFF := ⟨fun h => h ▸ rfl, fun h => by
    rw [← Char.ofNat_toNat c, h]; rfl⟩
  rw [hzero, Ne, hnext]
  simp [isJsWhitespace]

/-- The quotes and the white space around them are determined by the block and the name. -/
theorem gaps_unique {gaps gaps' : Gaps} {quote quote' closing closing' : Char}
    {name : List Char} (h : gaps.text quote name closing = gaps'.text quote' name closing')
    {white : Char → Bool} (hwhite : Visible white)
    (hgaps : gaps.White white) (hgaps' : gaps'.White white) (hquote : isQuote quote = true)
    (hquote' : isQuote quote' = true) : gaps = gaps' ∧ quote = quote' ∧ closing = closing' := by
  obtain ⟨hfront, hafter, hinside, hbefore, -⟩ := Gaps.white_iff.mp hgaps
  obtain ⟨hfront', hafter', hinside', hbefore', -⟩ := Gaps.white_iff.mp hgaps'
  obtain ⟨hf, -, h⟩ := stretch_unique h hfront hfront' hwhite.letter hwhite.letter
  have h : gaps.afterName ++ _ = gaps'.afterName ++ _ := List.append_cancel_left h
  obtain ⟨ha, -, h⟩ := stretch_unique h hafter hafter' hwhite.opening hwhite.opening
  obtain ⟨hi, hq, h⟩ :=
    stretch_unique h hinside hinside' (hwhite.quote hquote) (hwhite.quote hquote')
  obtain ⟨hc, h⟩ := List.cons.inj (List.append_cancel_left h)
  obtain ⟨hb, -, hback⟩ := stretch_unique h hbefore hbefore' hwhite.closing hwhite.closing
  exact ⟨Gaps.ext hf ha hi hb hback, hq, hc⟩

/-- White for one of the two. -/
def isEitherWhitespace (c : Char) : Bool := Tenants.isWhitespace c || isJsWhitespace c

/-- One block, read by both under one name, has one shape. -/
theorem IncludeCall.same_shape {body name : List Char} {gaps gaps' : Gaps}
    {quote quote' closing closing' : Char}
    (h : IncludeCall Tenants.isWhitespace closesAny body gaps quote name closing)
    (h' : IncludeCall isJsWhitespace closesSame body gaps' quote' name closing') :
    gaps = gaps' ∧ quote = quote' ∧ closing = closing' := by
  have hwhite : Visible isEitherWhitespace := ⟨rfl, rfl, rfl, rfl, rfl⟩
  refine gaps_unique (h.body_eq.symm.trans h'.body_eq) hwhite (fun c hc => ?_) (fun c hc => ?_)
    h.opened h'.opened
  · simp [isEitherWhitespace, h.white c hc]
  · simp [isEitherWhitespace, h'.white c hc]

/-- **The two readings of a block** agree unless the block is odd. -/
theorem standaloneInclude_eq_worker_iff (body : List Char) :
    standaloneInclude body = workerStandaloneInclude body ↔ ¬ Odd body := by
  constructor
  · rintro heq ⟨gaps, quote, name, closing, ⟨hcall, hodd⟩ | ⟨hcall, hodd⟩⟩
    · have hread := standaloneInclude_eq_some_iff.mpr ⟨gaps, quote, closing, hcall⟩
      obtain ⟨gaps', quote', closing', hcall'⟩ :=
        workerStandaloneInclude_eq_some_iff.mp (heq ▸ hread)
      obtain ⟨rfl, rfl, rfl⟩ := hcall.same_shape hcall'
      rcases hodd with hne | hnext
      · exact hne (beq_iff_eq.mp hcall'.closed)
      · exact absurd (hcall'.white _ hnext) (by decide)
    · have hread := workerStandaloneInclude_eq_some_iff.mpr ⟨gaps, quote, closing, hcall⟩
      obtain ⟨gaps', quote', closing', hcall'⟩ :=
        standaloneInclude_eq_some_iff.mp (heq.symm ▸ hread)
      obtain ⟨rfl, rfl, rfl⟩ := hcall'.same_shape hcall
      rcases hodd with ⟨c, hc, hquote⟩ | hzero
      · exact absurd (hcall'.name_open c hc) (by simp [closesAny, hquote])
      · exact absurd (hcall'.white _ hzero) (by decide)
  · intro hodd
    ext name
    rw [standaloneInclude_eq_some_iff, workerStandaloneInclude_eq_some_iff]
    constructor
    · rintro ⟨gaps, quote, closing, hcall⟩
      have hnot : ¬ (closing ≠ quote ∨ nextLine ∈ gaps.chars) := fun h =>
        hodd ⟨gaps, quote, name, closing, Or.inl ⟨hcall, h⟩⟩
      rw [not_or, not_not] at hnot
      obtain ⟨rfl, hnext⟩ := hnot
      refine ⟨gaps, closing, closing, hcall.body_eq, fun c hc => ?_, hcall.opened,
        beq_self_eq_true closing, hcall.name_ne, fun c hc => ?_⟩
      · exact (isJsWhitespace_iff c).mpr (Or.inl ⟨hcall.white c hc, fun heq => hnext (heq ▸ hc)⟩)
      · refine beq_eq_false_iff_ne.mpr ?_
        rintro rfl
        exact absurd (hcall.name_open c hc) (by simp [closesAny, hcall.opened])
    · rintro ⟨gaps, quote, closing, hcall⟩
      have hnot : ¬ ((∃ c ∈ name, isQuote c = true) ∨ zeroWidthNoBreak ∈ gaps.chars) := fun h =>
        hodd ⟨gaps, quote, name, closing, Or.inr ⟨hcall, h⟩⟩
      rw [not_or] at hnot
      obtain ⟨hopen, hzero⟩ := hnot
      have hclosing : closing = quote := beq_iff_eq.mp hcall.closed
      refine ⟨gaps, quote, closing, hcall.body_eq, fun c hc => ?_, hcall.opened,
        ?_, hcall.name_ne, fun c hc => ?_⟩
      · rcases (isJsWhitespace_iff c).mp (hcall.white c hc) with ⟨hwhite, -⟩ | rfl
        · exact hwhite
        · exact absurd hc hzero
      · show isQuote closing = true
        rw [hclosing]
        exact hcall.opened
      · exact Bool.eq_false_iff.mpr fun hquote => hopen ⟨c, hc, hquote⟩

end Wallermax.Templates
