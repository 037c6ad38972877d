import Mathlib.Data.List.Induction
import Wallermax.Base.Uri

/-!
# The FTS5 query language

Match expressions as SQLite reads them: the lexer, and the grammar as a relation between
tokens and expressions. Where the grammar is ambiguous, by the precedence of its operators,
the relation has every reading; tokens that are all strings have one, the implicit
conjunction of them.
-/

namespace Wallermax.Base.FtsQuery

/-! ## Tokens -/

inductive Token : Type where
  | lp
  | rp
  | lcp
  | rcp
  | colon
  | comma
  | plus
  | star
  | minus
  | caret
  | and
  | or
  | not
  | string (quoted : Bool) (text : Text)
deriving DecidableEq

def isSpace (c : Char) : Bool := c == ' ' || c == '\t' || c == '\n' || c == '\r'

/-- The characters of words: ASCII letters, digits, `_` and the substitute, and all others
beyond ASCII. -/
def isBareword (c : Char) : Bool :=
  c.isAlphanum || c == '_' || c.toNat == 0x1A || 0x80 ≤ c.toNat

def symbol (c : Char) : Option Token :=
  if c = '(' then some .lp
  else if c = ')' then some .rp
  else if c.toNat = 0x7B then some .lcp
  else if c.toNat = 0x7D then some .rcp
  else if c = ':' then some .colon
  else if c = ',' then some .comma
  else if c = '+' then some .plus
  else if c = '*' then some .star
  else if c = '-' then some .minus
  else if c = '^' then some .caret
  else none

/-- The operators are words in upper case. -/
def word (text : Text) : Token :=
  if text = "AND".toList then .and
  else if text = "OR".toList then .or
  else if text = "NOT".toList then .not
  else .string false text

/-- A string behind its first quote; a quote is written twice. -/
def readQuoted : Text → Option (Text × Text)
  | [] => none
  | '"' :: '"' :: t => (readQuoted t).map fun (text, rest) => ('"' :: text, rest)
  | '"' :: t => some ([], t)
  | c :: t =>
    if c.toNat = 0 then none else (readQuoted t).map fun (text, rest) => (c :: text, rest)

theorem length_readQuoted {t text rest : Text} (h : readQuoted t = some (text, rest)) :
    rest.length < t.length := by
  induction t using readQuoted.induct generalizing text with
  | case1 => cases h
  | case2 t ih =>
      obtain ⟨⟨text', rest'⟩, hread, heq⟩ := Option.map_eq_some_iff.mp h
      cases heq
      have hlt := ih hread
      simp only [List.length_cons]
      omega
  | case3 t hnot =>
      rw [readQuoted.eq_3 t hnot, Option.some_inj, Prod.mk.injEq] at h
      rw [← h.2, List.length_cons]
      omega
  | case4 c t hnot hquote hzero =>
      rw [readQuoted.eq_4 c t hnot hquote, if_pos hzero] at h
      cases h
  | case5 c t hnot hquote hzero ih =>
      rw [readQuoted.eq_4 c t hnot hquote, if_neg hzero] at h
      obtain ⟨⟨text', rest'⟩, hread, heq⟩ := Option.map_eq_some_iff.mp h
      cases heq
      have hlt := ih hread
      simp only [List.length_cons]
      omega

/-- The tokens of a text, up to its end or a NUL; nothing where there is a syntax error. -/
def lex (t : Text) : Option (List Token) :=
  match t with
  | [] => some []
  | c :: t =>
    if c.toNat = 0 then some []
    else if isSpace c then lex t
    else match symbol c with
    | some token => (lex t).map (token :: ·)
    | none =>
      if c = '"' then
        match _hquoted : readQuoted t with
        | none => none
        | some (text, rest) => (lex rest).map (.string true text :: ·)
      else if isBareword c then
        (lex (t.dropWhile isBareword)).map (word (c :: t.takeWhile isBareword) :: ·)
      else none
termination_by t.length
decreasing_by
  · simp
  · simp
  · have hlt := length_readQuoted _hquoted
    simp only [List.length_cons]
    omega
  · have hle := (List.dropWhile_suffix (l := t) isBareword).length_le
    simp only [List.length_cons]
    omega

/-! ## Expressions -/

/-- Strings that follow each other, each perhaps the beginning of its token. -/
abbrev Phrase : Type := List (Text × Bool)

inductive NearSet : Type where
  | phrase (first : Bool) (phrase : Phrase)
  | near (phrases : List Phrase) (distance : Option Text)

structure ColSet : Type where
  excluded : Bool
  columns : List Text

structure CNearSet : Type where
  columns : Option ColSet
  set : NearSet

inductive Expr : Type where
  | conjunction (sets : List CNearSet)
  | and (left right : Expr)
  | or (left right : Expr)
  | not (left right : Expr)
  | columns (set : ColSet) (expr : Expr)

/-! ## The grammar -/

inductive IsStarOpt : List Token → Bool → Prop where
  | none : IsStarOpt [] false
  | star : IsStarOpt [.star] true

inductive IsPhrase : List Token → Phrase → Prop where
  | one {stars : List Token} {q star : Bool} {text : Text} (h : IsStarOpt stars star) :
      IsPhrase (.string q text :: stars) [(text, star)]
  | plus {tokens stars : List Token} {q star : Bool} {text : Text} {phrase : Phrase}
      (hphrase : IsPhrase tokens phrase) (h : IsStarOpt stars star) :
      IsPhrase (tokens ++ .plus :: .string q text :: stars) (phrase ++ [(text, star)])

inductive IsNearPhrases : List Token → List Phrase → Prop where
  | one {tokens : List Token} {phrase : Phrase} (h : IsPhrase tokens phrase) :
      IsNearPhrases tokens [phrase]
  | more {front tokens : List Token} {phrases : List Phrase} {phrase : Phrase}
      (hfront : IsNearPhrases front phrases) (h : IsPhrase tokens phrase) :
      IsNearPhrases (front ++ tokens) (phrases ++ [phrase])

inductive IsNearDist : List Token → Option Text → Prop where
  | none : IsNearDist [] none
  | dist (q : Bool) (text : Text) : IsNearDist [.comma, .string q text] (some text)

inductive IsNearSet : List Token → NearSet → Prop where
  | phrase {tokens : List Token} {phrase : Phrase} (h : IsPhrase tokens phrase) :
      IsNearSet tokens (.phrase false phrase)
  | first {tokens : List Token} {phrase : Phrase} (h : IsPhrase tokens phrase) :
      IsNearSet (.caret :: tokens) (.phrase true phrase)
  | near {tokens dist : List Token} {phrases : List Phrase} {distance : Option Text}
      (h : IsNearPhrases tokens phrases) (hdist : IsNearDist dist distance) :
      IsNearSet (.string false "NEAR".toList :: .lp :: (tokens ++ (dist ++ [.rp])))
        (.near phrases distance)

inductive IsColSetList : List Token → List Text → Prop where
  | one (q : Bool) (text : Text) : IsColSetList [.string q text] [text]
  | more {tokens : List Token} {columns : List Text} (h : IsColSetList tokens columns) (q : Bool)
      (text : Text) : IsColSetList (tokens ++ [.string q text]) (columns ++ [text])

inductive IsColSet : List Token → ColSet → Prop where
  | one (q : Bool) (text : Text) : IsColSet [.string q text] ⟨false, [text]⟩
  | except (q : Bool) (text : Text) : IsColSet [.minus, .string q text] ⟨true, [text]⟩
  | list {tokens : List Token} {columns : List Text} (h : IsColSetList tokens columns) :
      IsColSet (.lcp :: (tokens ++ [.rcp])) ⟨false, columns⟩
  | exceptList {tokens : List Token} {columns : List Text} (h : IsColSetList tokens columns) :
      IsColSet (.minus :: .lcp :: (tokens ++ [.rcp])) ⟨true, columns⟩

inductive IsCNearSet : List Token → CNearSet → Prop where
  | plain {tokens : List Token} {set : NearSet} (h : IsNearSet tokens set) :
      IsCNearSet tokens ⟨none, set⟩
  | columns {front tokens : List Token} {columns : ColSet} {set : NearSet}
      (hcolumns : IsColSet front columns) (h : IsNearSet tokens set) :
      IsCNearSet (front ++ .colon :: tokens) ⟨some columns, set⟩

inductive IsExprList : List Token → List CNearSet → Prop where
  | one {tokens : List Token} {set : CNearSet} (h : IsCNearSet tokens set) :
      IsExprList tokens [set]
  | more {front tokens : List Token} {sets : List CNearSet} {set : CNearSet}
      (hfront : IsExprList front sets) (h : IsCNearSet tokens set) :
      IsExprList (front ++ tokens) (sets ++ [set])

/-- The tokens are read as the expression. -/
inductive IsExpr : List Token → Expr → Prop where
  | list {tokens : List Token} {sets : List CNearSet} (h : IsExprList tokens sets) :
      IsExpr tokens (.conjunction sets)
  | and {front tokens : List Token} {left right : Expr} (hleft : IsExpr front left)
      (hright : IsExpr tokens right) : IsExpr (front ++ .and :: tokens) (.and left right)
  | or {front tokens : List Token} {left right : Expr} (hleft : IsExpr front left)
      (hright : IsExpr tokens right) : IsExpr (front ++ .or :: tokens) (.or left right)
  | not {front tokens : List Token} {left right : Expr} (hleft : IsExpr front left)
      (hright : IsExpr tokens right) : IsExpr (front ++ .not :: tokens) (.not left right)
  | columns {front tokens : List Token} {columns : ColSet} {expr : Expr}
      (hcolumns : IsColSet front columns) (h : IsExpr tokens expr) :
      IsExpr (front ++ .colon :: .lp :: (tokens ++ [.rp])) (.columns columns expr)
  | paren {tokens : List Token} {expr : Expr} (h : IsExpr tokens expr) :
      IsExpr (.lp :: (tokens ++ [.rp])) expr

/-- The text is read as the expression. -/
def Reads (t : Text) (expr : Expr) : Prop := ∃ tokens, lex t = some tokens ∧ IsExpr tokens expr

/-! ## Strings alone -/

/-- A string that is a whole set: in any column, anywhere in it, to its last letter. -/
def alone (text : Text) : CNearSet := ⟨none, .phrase false [(text, false)]⟩

/-- Quoted strings. -/
def strings (texts : List Text) : List Token := texts.map (.string true)

section

variable {texts : List Text} {tokens : List Token}

theorem mem_strings {token : Token} : token ∈ strings texts ↔
    ∃ text ∈ texts, .string true text = token := by
  rw [strings, List.mem_map]

theorem not_mem_strings {token : Token} (h : ∀ text, token ≠ .string true text) :
    token ∉ strings texts := by
  rw [mem_strings]
  rintro ⟨text, -, heq⟩
  exact h text heq.symm

theorem IsPhrase.strings_eq {phrase : Phrase} (h : IsPhrase tokens phrase)
    (htokens : tokens = strings texts) : ∃ text, texts = [text] ∧ phrase = [(text, false)] := by
  cases h with
  | one hstar =>
      cases hstar with
      | none =>
          obtain ⟨text, rfl, heq⟩ := List.map_eq_singleton_iff.mp htokens.symm
          cases heq
          exact ⟨_, rfl, rfl⟩
      | star =>
          have hmem : Token.star ∈ strings texts := by
            rw [← htokens]
            simp
          exact absurd hmem (not_mem_strings nofun)
  | plus =>
      have hmem : Token.plus ∈ strings texts := by
        rw [← htokens]
        simp
      exact absurd hmem (not_mem_strings nofun)

theorem IsCNearSet.strings_eq {set : CNearSet} (h : IsCNearSet tokens set)
    (htokens : tokens = strings texts) : ∃ text, texts = [text] ∧ set = alone text := by
  cases h with
  | plain hset =>
      cases hset with
      | phrase hphrase =>
          obtain ⟨text, htexts, rfl⟩ := hphrase.strings_eq htokens
          exact ⟨text, htexts, rfl⟩
      | first =>
          have hmem : Token.caret ∈ strings texts := by
            rw [← htokens]
            simp
          exact absurd hmem (not_mem_strings nofun)
      | near =>
          have hmem : Token.lp ∈ strings texts := by
            rw [← htokens]
            simp
          exact absurd hmem (not_mem_strings nofun)
  | columns =>
      have hmem : Token.colon ∈ strings texts := by
        rw [← htokens]
        simp
      exact absurd hmem (not_mem_strings nofun)

theorem IsExprList.strings_eq {sets : List CNearSet} (h : IsExprList tokens sets)
    (htokens : tokens = strings texts) : sets = texts.map alone := by
  induction h generalizing texts with
  | one hset =>
      obtain ⟨text, rfl, rfl⟩ := hset.strings_eq htokens
      rfl
  | more hfront hset ih =>
      obtain ⟨before, after, rfl, hbefore, hafter⟩ := List.map_eq_append_iff.mp htokens.symm
      obtain ⟨text, rfl, rfl⟩ := hset.strings_eq hafter.symm
      rw [ih hbefore.symm, List.map_append]
      rfl

theorem isExprList_strings (h : texts ≠ []) : IsExprList (strings texts) (texts.map alone) := by
  induction texts using List.reverseRecOn with
  | nil => exact absurd rfl h
  | append_singleton texts text ih =>
      have hset : IsCNearSet (strings [text]) (alone text) := .plain (.phrase (.one .none))
      cases texts with
      | nil => exact .one hset
      | cons first texts =>
          have hfront := ih (List.cons_ne_nil _ _)
          rw [strings, List.map_append, List.map_append]
          exact .more hfront hset

/-- **Strings are read as their conjunction**, and as nothing else. -/
theorem isExpr_strings (h : texts ≠ []) (expr : Expr) :
    IsExpr (strings texts) expr ↔ expr = .conjunction (texts.map alone) := by
  have hmem : ∀ token, (∀ text, token ≠ Token.string true text) → ∀ front tokens,
      strings texts ≠ front ++ token :: tokens := by
    intro token htoken front tokens heq
    have hnot : token ∉ strings texts := not_mem_strings htoken
    refine hnot ?_
    rw [heq]
    simp
  constructor
  · intro hexpr
    generalize htokens : strings texts = tokens at hexpr
    cases hexpr with
    | list hlist => rw [hlist.strings_eq htokens.symm]
    | and => exact absurd htokens (hmem .and nofun _ _)
    | or => exact absurd htokens (hmem .or nofun _ _)
    | not => exact absurd htokens (hmem .not nofun _ _)
    | columns => exact absurd htokens (hmem .colon nofun _ _)
    | paren => exact absurd htokens (hmem .lp nofun [] _)
  · rintro rfl
    exact .list (isExprList_strings h)

end

/-! ## Writing strings -/

/-- A string in quotes. -/
def quote (text : Text) : Text := '"' :: (text ++ ['"'])

/-- No quote and no NUL. -/
def IsPlain (text : Text) : Prop := ∀ c ∈ text, c ≠ '"' ∧ c.toNat ≠ 0

theorem readQuoted_append {text : Text} (h : IsPlain text) {rest : Text}
    (hrest : rest.head? ≠ some '"') : readQuoted (text ++ '"' :: rest) = some (text, rest) := by
  induction text with
  | nil =>
      cases rest with
      | nil => rfl
      | cons c rest =>
          have hc : c ≠ '"' := fun heq => hrest (by rw [heq]; rfl)
          exact readQuoted.eq_3 _ (fun t heq => hc (List.cons.inj heq).1)
  | cons c text ih =>
      obtain ⟨hquote, hzero⟩ := h c List.mem_cons_self
      have hread := ih fun d hd => h d (List.mem_cons_of_mem _ hd)
      rw [List.cons_append, readQuoted.eq_4 _ _ (fun t heq => absurd heq hquote)
        (fun heq => absurd heq hquote), if_neg hzero, hread]
      rfl

/-- A quoted string in front of what is no quote. -/
theorem lex_quote {text : Text} (h : IsPlain text) {rest : Text} (hrest : rest.head? ≠ some '"') :
    lex (quote text ++ rest) = (lex rest).map (.string true text :: ·) := by
  have hread := readQuoted_append h hrest
  have hquote : quote text ++ rest = '"' :: (text ++ '"' :: rest) := by
    rw [quote, List.cons_append, List.append_assoc]
    rfl
  have hzero : ¬ '"'.toNat = 0 := by decide
  have hspace : isSpace '"' = false := by decide
  have hsymbol : symbol '"' = none := by decide
  rw [hquote, lex.eq_def]
  simp only [hzero, if_false, hspace, Bool.false_eq_true, hsymbol, if_true]
  split
  · rename_i hnone
    rw [hread] at hnone
    cases hnone
  · rename_i hsome
    rw [hread] at hsome
    cases hsome
    rfl

theorem lex_space (t : Text) : lex (' ' :: t) = lex t := by
  have hzero : ¬ ' '.toNat = 0 := by decide
  have hspace : isSpace ' ' = true := by decide
  rw [lex.eq_def]
  simp only [hzero, if_false, hspace, if_true]

/-- **Quoted strings are lexed as they were written.** -/
theorem lex_quotes {texts : List Text} (h : ∀ text ∈ texts, IsPlain text) :
    lex ([' '].intercalate (texts.map quote)) = some (strings texts) := by
  induction texts with
  | nil => rw [List.map_nil, List.intercalate_nil, lex.eq_def]; rfl
  | cons text texts ih =>
      have htext := h text List.mem_cons_self
      have hrest := ih fun t ht => h t (List.mem_cons_of_mem _ ht)
      cases texts with
      | nil =>
          have hend : lex [] = some [] := by
            rw [lex.eq_def]
          rw [List.map_singleton, List.intercalate_singleton, ← List.append_nil (quote text),
            lex_quote htext (by simp), hend]
          rfl
      | cons next texts =>
          rw [List.map_cons, List.map_cons, List.intercalate_cons_cons, ← List.map_cons,
            List.append_assoc, lex_quote htext (by simp), List.singleton_append, lex_space, hrest]
          rfl

end Wallermax.Base.FtsQuery
