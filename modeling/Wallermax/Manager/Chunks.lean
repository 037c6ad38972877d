import Wallermax.Base.LossyCuts
import Wallermax.Manager.AnswerFraming
import Wallermax.Manager.MetricsLines
import Wallermax.Templates.IncludeExpansion

/-!
# Chunked bodies

The sizes of chunks count the octets of the body, and `dechunk` counts those of its text,
where an octet that is no character has three. So it puts together the chunks of ASCII
octets, and those that hold whole characters; a size that ends inside a character is a
panic.
-/

namespace Wallermax.Manager.Http

open Wallermax.Base
open Wallermax.Manager.Metrics (splitOnce trimChars_append_space trimChars_eq_self
  isWhitespace_of_isTokenChar)
open Wallermax.Tenants (isWhitespace)
open Wallermax.Templates (byteLength byteLength_append stripPrefix trimChars)

/-! ## Encoding -/

/-- A chunk with its size as it is written. -/
structure Chunk : Type where
  size : Text
  data : List UInt8
  counts : hexDigits 0 size = some data.length
  nonempty : data ≠ []
  bounded : data.length < 0x10000000000000000

/-- The line end, in octets. -/
def crlf : List UInt8 := [13, 10]

def Chunk.encode (chunk : Chunk) : List UInt8 :=
  octets chunk.size ++ (crlf ++ (chunk.data ++ crlf))

/-- The chunks and the last one, of size zero. -/
def encodeChunks (chunks : List Chunk) : List UInt8 :=
  chunks.flatMap Chunk.encode ++ octets "0\r\n\r\n".toList

/-- The chunks divide the body. -/
def Divides (chunks : List Chunk) (body : List UInt8) : Prop :=
  chunks.flatMap Chunk.data = body

/-- A head of a chunked answer that counts. -/
structure ChunkedHead (debug : Text → String) (url : Text) : Type
    extends AnswerHead debug url where
  chunked : parsed.chunked = true
  unsized : parsed.content_length = none
  success : parsed.isSuccess

/-- However the answer with these chunks is cut, it is the text of the body. -/
def DecodesRight {debug : Text → String} {url : Text} (head : ChunkedHead debug url)
    (chunks : List Chunk) (body : List UInt8) : Prop :=
  ∀ reads, Arrives reads (head.answer (encodeChunks chunks)) →
    readAnswer debug url reads = some (.ok (.body (decodeLossy body)))

/-- So many octets of the text end inside a character. -/
def EndsInside (n : ℕ) (t : Text) : Prop :=
  ∃ front c back, t = front ++ c :: back ∧ byteLength front < n ∧
    n < byteLength front + c.utf8Size

/-- Behind whole chunks, the size of one ends inside a character. -/
inductive SplitsCharacter : Text → Prop where
  | here {line rest : Text} {size : ℕ} (hline : '\n' ∉ line)
      (hsize : fromHex (trimChars line) = some size) (hinside : EndsInside size rest) :
      SplitsCharacter (line ++ '\n' :: rest)
  | later {line data newline rest : Text} (hline : '\n' ∉ line)
      (hsize : fromHex (trimChars line) = some (byteLength data)) (hdata : data ≠ [])
      (hnewline : newline = ['\r', '\n'] ∨ newline = ['\n']) (hrest : SplitsCharacter rest) :
      SplitsCharacter (line ++ '\n' :: (data ++ (newline ++ rest)))

/-! ## Cutting text -/

theorem byteLength_cons (c : Char) (t : Text) : byteLength (c :: t) = c.utf8Size + byteLength t :=
  rfl

theorem byteLength_pos {t : Text} (h : t ≠ []) : 0 < byteLength t := by
  cases t with
  | nil => exact absurd rfl h
  | cons c t =>
      have hpos := c.utf8Size_pos
      rw [byteLength_cons]
      omega

theorem cutAt_append (front back : Text) :
    cutAt (byteLength front) (front ++ back) = some (front, back) := by
  induction front with
  | nil =>
      cases back with
      | nil => rfl
      | cons c back => exact if_pos rfl
  | cons c front ih =>
      have hpos := c.utf8Size_pos
      rw [List.cons_append, cutAt, byteLength_cons, if_neg (by omega), if_pos (by omega),
        Nat.add_sub_cancel_left, ih]
      rfl

theorem byteLength_of_cutAt {n : ℕ} {t front back : Text} (h : cutAt n t = some (front, back)) :
    byteLength front = n := by
  induction t generalizing n front with
  | nil =>
      rw [cutAt, Option.ite_none_right_eq_some, Option.some_inj, Prod.mk.injEq] at h
      rw [← h.2.1, h.1]
      rfl
  | cons c t ih =>
      rw [cutAt] at h
      split at h
      · rename_i hzero
        cases h
        exact hzero.symm
      · rw [Option.ite_none_right_eq_some] at h
        obtain ⟨⟨front', back'⟩, hcut, heq⟩ := Option.map_eq_some_iff.mp h.2
        cases heq
        rw [byteLength_cons, ih hcut]
        omega

/-- A cut fails inside a character only. -/
theorem cutAt_eq_none {n : ℕ} {t : Text} (hle : n ≤ byteLength t) :
    cutAt n t = none ↔ EndsInside n t := by
  induction t generalizing n with
  | nil =>
      have hzero : n = 0 := Nat.le_zero.mp hle
      rw [cutAt, if_pos hzero]
      simp [EndsInside]
  | cons c t ih =>
      rw [byteLength_cons] at hle
      rw [cutAt]
      split
      · rename_i hzero
        simp [EndsInside, hzero]
      · rename_i hzero
        split
        · rename_i hsize
          rw [Option.map_eq_none_iff, ih (by omega)]
          constructor
          · rintro ⟨front, d, back, rfl, hlow, hhigh⟩
            refine ⟨c :: front, d, back, rfl, ?_, ?_⟩ <;> rw [byteLength_cons] <;> omega
          · rintro ⟨front, d, back, hsplit, hlow, hhigh⟩
            cases front with
            | nil =>
                rw [List.nil_append, List.cons.injEq] at hsplit
                rw [← hsplit.1] at hhigh
                have hnil : byteLength [] = 0 := rfl
                omega
            | cons e front =>
                rw [List.cons_append, List.cons.injEq] at hsplit
                rw [byteLength_cons, ← hsplit.1] at hlow hhigh
                exact ⟨front, d, back, hsplit.2, by omega, by omega⟩
        · rename_i hsize
          refine ⟨fun _ => ⟨[], c, t, rfl, ?_, ?_⟩, fun _ => rfl⟩
          · exact Nat.pos_of_ne_zero hzero
          · have hnil : byteLength [] = 0 := rfl
            omega

/-! ## One chunk -/

theorem splitOnce_append {c : Char} {front : Text} (hfront : c ∉ front) (rest : Text) :
    splitOnce c (front ++ c :: rest) = some (front, rest) := by
  have hrun : ∀ d ∈ front, (d != c) = true := by
    intro d hd
    refine bne_iff_ne.mpr ?_
    rintro rfl
    exact hfront hd
  have hstops : Uri.Stops (· != c) (c :: rest) := Uri.stops_cons (by simp) rest
  have hcut := Uri.cut_append hrun hstops
  unfold splitOnce
  rw [hcut.1, hcut.2]

theorem splitOnce_some {c : Char} {t front rest : Text}
    (h : splitOnce c t = some (front, rest)) : c ∉ front ∧ t = front ++ c :: rest := by
  unfold splitOnce at h
  split at h
  · cases h
  · rename_i d tail hdrop
    cases h
    have hd : d = c := by
      have hhead := List.head?_dropWhile_not (· != c) t
      rw [hdrop] at hhead
      simpa using hhead
    refine ⟨fun hmem => ?_, ?_⟩
    · have hne := List.mem_takeWhile_imp hmem
      simp at hne
    · rw [← hd, ← hdrop, hd, List.takeWhile_append_dropWhile]

theorem dechunk_eq (body : Text) : dechunk body = match splitOnce '\n' body with
    | none => some []
    | some (size_line, remainder) =>
      match fromHex (trimChars size_line) with
      | none => some []
      | some size =>
        if size = 0 then some []
        else match cutAt (min (byteLength remainder) size) remainder with
        | none => none
        | some (data, tail) =>
          match stripNewline tail with
          | none => some data
          | some rest => (dechunk rest).map (data ++ ·) := by
  rw [dechunk.eq_def]
  cases hline : splitOnce '\n' body with
  | none => rfl
  | some cut =>
    obtain ⟨size_line, remainder⟩ := cut
    dsimp only
    cases fromHex (trimChars size_line) with
    | none => rfl
    | some size =>
      dsimp only
      split
      · rfl
      · cases hcut : cutAt (min (byteLength remainder) size) remainder with
        | none => rfl
        | some cut =>
          obtain ⟨data, tail⟩ := cut
          dsimp only
          cases hstrip : stripNewline tail with
          | none => rfl
          | some rest => rfl

/-- A chunk that is all there. -/
theorem dechunk_chunk {line data : Text} (hline : '\n' ∉ line)
    (hsize : fromHex (trimChars line) = some (byteLength data)) (hdata : data ≠ [])
    (tail : Text) :
    dechunk (line ++ '\n' :: (data ++ tail)) = match stripNewline tail with
      | none => some data
      | some rest => (dechunk rest).map (data ++ ·) := by
  have hpos := byteLength_pos hdata
  have hmin : min (byteLength (data ++ tail)) (byteLength data) = byteLength data := by
    rw [byteLength_append]
    omega
  rw [dechunk_eq, splitOnce_append hline]
  simp only [hsize, hmin, cutAt_append, if_neg (Nat.pos_iff_ne_zero.mp hpos)]

theorem stripNewline_some {tail rest : Text} (h : stripNewline tail = some rest) :
    ∃ newline, (newline = ['\r', '\n'] ∨ newline = ['\n']) ∧ tail = newline ++ rest := by
  unfold stripNewline stripPrefix at h
  rcases Option.or_eq_some_iff.mp h with h | ⟨-, h⟩
  · rw [Option.ite_none_right_eq_some, Option.some_inj] at h
    exact ⟨_, Or.inl rfl, by rw [← h.2]; exact (List.prefix_append_drop h.1)⟩
  · rw [Option.ite_none_right_eq_some, Option.some_inj] at h
    exact ⟨_, Or.inr rfl, by rw [← h.2]; exact (List.prefix_append_drop h.1)⟩

theorem stripNewline_append {newline : Text} (h : newline = ['\r', '\n'] ∨ newline = ['\n'])
    (rest : Text) : stripNewline (newline ++ rest) = some rest := by
  rcases h with rfl | rfl
  · rfl
  · rfl

/-- **Where the decoder panics.** -/
theorem dechunk_eq_none (body : Text) : dechunk body = none ↔ SplitsCharacter body := by
  constructor
  · intro h
    induction hlength : body.length using Nat.strong_induction_on generalizing body with
    | _ n ih =>
      rw [dechunk_eq] at h
      split at h
      · cases h
      · rename_i line remainder hline
        obtain ⟨hnotin, hbody⟩ := splitOnce_some hline
        split at h
        · cases h
        · rename_i size hsize
          split at h
          · cases h
          · rename_i hzero
            split at h
            · rename_i hcut
              -- all that is left does not end inside a character
              have hmin : min (byteLength remainder) size = size := by
                rcases Nat.le_total size (byteLength remainder) with hle | hle
                · exact Nat.min_eq_right hle
                · rw [Nat.min_eq_left hle, cutAt_eq_none le_rfl] at hcut
                  obtain ⟨front, c, back, hsplit, -, hhigh⟩ := hcut
                  rw [hsplit, byteLength_append, byteLength_cons] at hhigh
                  omega
              rw [hmin, cutAt_eq_none (by omega)] at hcut
              rw [hbody]
              exact .here hnotin hsize hcut
            · rename_i data tail hcut
              split at h
              · cases h
              · rename_i rest hstrip
                have hrest := Option.map_eq_none_iff.mp h
                have hremainder := eq_append_of_cutAt hcut
                obtain ⟨newline, hnewline, htail⟩ := stripNewline_some hstrip
                have hdata := byteLength_of_cutAt hcut
                have hne : newline ≠ [] := by
                  rcases hnewline with rfl | rfl <;> exact List.cons_ne_nil _ _
                -- the data is all of its size: something is left behind it
                have hwhole : size = byteLength data := by
                  have hpos := byteLength_pos hne
                  rw [hremainder, htail, byteLength_append, byteLength_append] at hdata
                  omega
                have hshorter : rest.length < n := by
                  rw [← hlength, hbody, hremainder, htail]
                  simp only [List.length_append, List.length_cons]
                  omega
                have hsplits := ih _ hshorter rest hrest rfl
                rw [hbody, hremainder, htail]
                refine .later hnotin (by rw [hsize, hwhole]) ?_ hnewline hsplits
                rintro rfl
                exact hzero hwhole
  · intro h
    induction h with
    | @here line rest size hline hsize hinside =>
        have hinside' := hinside
        obtain ⟨front, c, back, hsplit, hlow, hhigh⟩ := hinside'
        have hle : size ≤ byteLength rest := by
          rw [hsplit, byteLength_append, byteLength_cons]
          omega
        have hcut := (cutAt_eq_none hle).mpr hinside
        rw [dechunk_eq, splitOnce_append hline]
        simp only [hsize, Nat.min_eq_right hle, hcut, if_neg (show size ≠ 0 by omega)]
    | later hline hsize hdata hnewline hrest ih =>
        rw [dechunk_chunk hline hsize hdata, stripNewline_append hnewline]
        simp only [ih, Option.map_none]

/-! ## Encoded chunks -/

theorem hexValue_of_hexDigits {t : Text} {value n : ℕ} (h : hexDigits value t = some n) :
    ∀ c ∈ t, (hexValue c).isSome = true := by
  induction t generalizing value with
  | nil => simp
  | cons d t ih =>
      obtain ⟨digit, hdigit, hrest⟩ := Option.bind_eq_some_iff.mp h
      intro c hc
      rcases List.mem_cons.mp hc with rfl | hc
      · rw [hdigit]
        rfl
      · exact ih hrest c hc

theorem hexValue_plain {c : Char} (h : (hexValue c).isSome = true) :
    isWhitespace c = false ∧ c ≠ '\n' ∧ c ≠ '+' := by
  have hrange : (48 ≤ c.toNat ∧ c.toNat ≤ 57) ∨ (97 ≤ c.toNat ∧ c.toNat ≤ 102) ∨
      (65 ≤ c.toNat ∧ c.toNat ≤ 70) := by
    unfold hexValue at h
    split at h
    · rename_i hdigit
      exact Or.inl (isDigit_iff_range.mp hdigit)
    · split at h
      · rename_i hlower
        exact Or.inr (Or.inl hlower)
      · split at h
        · rename_i hupper
          exact Or.inr (Or.inr hupper)
        · cases h
  have htoken : Exposition.isTokenChar c = true := by
    simp only [Exposition.isTokenChar, Bool.and_eq_true, decide_eq_true_eq]
    omega
  refine ⟨isWhitespace_of_isTokenChar htoken, ?_, ?_⟩
  · rintro rfl
    simp at hrange
  · rintro rfl
    simp at hrange

theorem fromHex_cons {d : Char} (h : d ≠ '+') (digits : Text) :
    fromHex (d :: digits) =
      (hexDigits 0 (d :: digits)).filter fun n => decide (n < 0x10000000000000000) := by
  have hplus : ¬['+'] <+: d :: digits := by
    rw [List.cons_prefix_cons]
    exact fun heq => h heq.1.symm
  unfold fromHex stripPrefix
  rw [if_neg hplus, Option.getD_none]
  exact if_neg (List.cons_ne_nil d digits)

theorem Chunk.fromHex_size (chunk : Chunk) :
    fromHex (trimChars (chunk.size ++ ['\r'])) = some chunk.data.length ∧
      '\n' ∉ chunk.size ++ ['\r'] := by
  have hplain : ∀ c ∈ chunk.size, isWhitespace c = false ∧ c ≠ '\n' ∧ c ≠ '+' :=
    fun c hc => hexValue_plain (hexValue_of_hexDigits chunk.counts c hc)
  have htrim : trimChars (chunk.size ++ ['\r']) = chunk.size := by
    rw [trimChars_append_space (by decide), trimChars_eq_self]
    · exact fun c hc => (hplain c (List.mem_of_mem_head? hc)).1
    · exact fun c hc => (hplain c (List.mem_of_mem_getLast? hc)).1
  constructor
  · rw [htrim]
    have hcounts := chunk.counts
    have hlength := List.length_pos_iff.mpr chunk.nonempty
    cases hsize : chunk.size with
    | nil =>
        rw [hsize, hexDigits, Option.some_inj] at hcounts
        omega
    | cons d digits =>
        have hplus : d ≠ '+' := (hplain d (by rw [hsize]; exact List.mem_cons_self)).2.2
        rw [hsize] at hcounts
        rw [fromHex_cons hplus, hcounts]
        simp [chunk.bounded]
  · simp only [List.mem_append, List.mem_singleton, not_or]
    exact ⟨fun hmem => (hplain _ hmem).2.1 rfl, by decide⟩

theorem decodeLossy_encode (chunk : Chunk) (rest : List UInt8) :
    decodeLossy (chunk.encode ++ rest) = (chunk.size ++ ['\r']) ++
      '\n' :: (decodeLossy chunk.data ++ (['\r', '\n'] ++ decodeLossy rest)) := by
  have hcr : (13 : UInt8).toNat < 0x80 := by decide
  have hlf : (10 : UInt8).toNat < 0x80 := by decide
  have hencode : chunk.encode ++ rest =
      octets chunk.size ++ 13 :: 10 :: (chunk.data ++ 13 :: 10 :: rest) := by
    simp [Chunk.encode, crlf]
  rw [hencode, decodeLossy_octets_append, decodeLossy_cons_ascii hcr, decodeLossy_cons_ascii hlf,
    decodeLossy_append_ascii hcr, decodeLossy_cons_ascii hlf, List.append_assoc]
  rfl

/-- A chunk of whole characters in front. -/
theorem dechunk_encode (chunk : Chunk) {s : Text} (hs : chunk.data = octets s)
    (rest : List UInt8) : dechunk (decodeLossy (chunk.encode ++ rest)) =
      (dechunk (decodeLossy rest)).map (s ++ ·) := by
  obtain ⟨hsize, hline⟩ := chunk.fromHex_size
  have hlength : chunk.data.length = byteLength s := by
    rw [hs, length_octets]
    rfl
  have hne : s ≠ [] := by
    rintro rfl
    exact chunk.nonempty hs
  rw [hlength] at hsize
  rw [decodeLossy_encode, hs, decodeLossy_octets, dechunk_chunk hline hsize hne,
    stripNewline_append (Or.inl rfl)]

theorem dechunk_end : dechunk (decodeLossy (octets "0\r\n\r\n".toList)) = some [] := by
  rw [decodeLossy_octets, dechunk_eq]
  rfl

/-- The chunks of whole characters are put together. -/
theorem dechunk_encodeChunks {chunks : List Chunk}
    (h : ∀ chunk ∈ chunks, ∃ s, chunk.data = octets s) :
    dechunk (decodeLossy (encodeChunks chunks)) =
      some (decodeLossy (chunks.flatMap Chunk.data)) := by
  induction chunks with
  | nil => exact dechunk_end
  | cons chunk chunks ih =>
      obtain ⟨s, hs⟩ := h chunk List.mem_cons_self
      have hrest := ih fun chunk hchunk => h chunk (List.mem_cons_of_mem _ hchunk)
      unfold encodeChunks at hrest ⊢
      rw [List.flatMap_cons, List.append_assoc, dechunk_encode chunk hs, hrest,
        List.flatMap_cons, hs, decodeLossy_octets_append, Option.map_some]

/-! ## Single octets -/

/-- The chunk of one octet. -/
def single (b : UInt8) : Chunk where
  size := ['1']
  data := [b]
  counts := rfl
  nonempty := List.cons_ne_nil b []
  bounded := by
    rw [List.length_singleton]
    decide

theorem divides_single (body : List UInt8) : Divides (body.map single) body := by
  induction body with
  | nil => rfl
  | cons b body ih => exact congrArg (b :: ·) ih

/-- A single octet beyond ASCII is a replacement character, cut behind its first octet. -/
theorem dechunk_single {body : List UInt8} (h : ∃ b ∈ body, 0x80 ≤ b.toNat) :
    dechunk (decodeLossy (encodeChunks (body.map single))) = none := by
  induction body with
  | nil =>
      obtain ⟨b, hb, -⟩ := h
      cases hb
  | cons b body ih =>
      unfold encodeChunks at ih ⊢
      rw [List.map_cons, List.flatMap_cons, List.append_assoc]
      by_cases hb : b.toNat < 0x80
      · obtain ⟨s, hs⟩ := octets_of_ascii (by simpa using hb : ∀ c ∈ [b], c.toNat < 0x80)
        have hrest : ∃ c ∈ body, 0x80 ≤ c.toNat := by
          obtain ⟨c, hc, hhigh⟩ := h
          rcases List.mem_cons.mp hc with rfl | hc
          · omega
          · exact ⟨c, hc, hhigh⟩
        rw [dechunk_encode (single b) hs, ih hrest]
        rfl
      · obtain ⟨hsize, hline⟩ := (single b).fromHex_size
        rw [dechunk_eq_none, decodeLossy_encode]
        have hone : decodeLossy (single b).data = ['\uFFFD'] := decodeLossy_singleton (by omega)
        rw [hone]
        have hinside : 1 < byteLength [] + '\uFFFD'.utf8Size := by decide
        exact .here hline hsize ⟨[], '\uFFFD', _, rfl, Nat.one_pos, hinside⟩

/-! ## Chunked answers -/

section

variable {debug : Text → String} {url : Text}

theorem readAnswer_chunked (head : ChunkedHead debug url) {body : List UInt8}
    {reads : List (Read ReadError)} (h : Arrives reads (head.answer body)) :
    readAnswer debug url reads =
      (dechunk (decodeLossy body)).map fun text => .ok (.body text) := by
  obtain ⟨buffer, rest, hfill, hread⟩ := readAnswer_read head.toAnswerHead h
  have hall : (fill (fun _ => false) (fun _ => false) (fun _ => false) buffer rest).buffer =
      head.answer body := by
    rw [fill_through h (fun _ _ _ _ => rfl) hfill, fill_short h fun _ _ _ => rfl,
      List.nil_append]
  have hbody : (head.answer body).drop (head.bytes.length + 4) = body := by
    rw [drop_received head.toAnswerHead (List.append_nil _).symm, length_answer,
      Nat.add_sub_cancel_left, List.take_length]
  rw [hread, readBody, head.unsized]
  simp only [hall, hbody, head.chunked, if_true, Option.bind_eq_bind, Option.bind_some]
  cases dechunk (decodeLossy body) with
  | none => rfl
  | some text =>
      rw [Option.bind_some, classify_success head.success]
      rfl

/-- **Which bodies survive chunking.** However it is divided and cut: those of ASCII octets.
Divided between characters: every text. And the decoder panics exactly where a size ends
inside a character. -/
theorem chunked_right_iff :
    (∀ (head : ChunkedHead debug url) (body : List UInt8),
      (∀ chunks, Divides chunks body → DecodesRight head chunks body) ↔
        ∀ b ∈ body, b.toNat < 0x80) ∧
    (∀ (head : ChunkedHead debug url) (chunks : List Chunk),
      (∀ chunk ∈ chunks, ∃ s, chunk.data = octets s) →
        DecodesRight head chunks (chunks.flatMap Chunk.data)) ∧
    ∀ body, dechunk (decodeLossy body) = none ↔ SplitsCharacter (decodeLossy body) := by
  have hwhole : ∀ (head : ChunkedHead debug url) (chunks : List Chunk),
      (∀ chunk ∈ chunks, ∃ s, chunk.data = octets s) →
        DecodesRight head chunks (chunks.flatMap Chunk.data) := by
    intro head chunks htext reads harrives
    rw [readAnswer_chunked head harrives, dechunk_encodeChunks htext, Option.map_some]
  refine ⟨fun head body => ⟨fun hright b hb => ?_, fun hascii chunks hdivides => ?_⟩, hwhole,
    fun body => dechunk_eq_none _⟩
  · by_contra hhigh
    have hend : Arrives [] [] := .ends .exhausted
    have harrives := hend.bytes (by omega) (head.answer (encodeChunks (body.map single)))
    rw [List.append_nil, List.append_nil] at harrives
    have hread := hright _ (divides_single body) _ harrives
    rw [readAnswer_chunked head harrives, dechunk_single ⟨b, hb, by omega⟩] at hread
    cases hread
  · rw [← hdivides]
    refine hwhole head chunks fun chunk hchunk => octets_of_ascii fun b hb => ?_
    refine hascii b ?_
    rw [← hdivides]
    exact List.mem_flatMap.mpr ⟨chunk, hchunk, hb⟩

end

/-- A head that announces chunks. -/
def chunkHead : ChunkedHead (fun _ => "") "http://localhost/".toList where
  bytes := octets "HTTP/1.1 200 OK\r\nTransfer-Encoding: chunked".toList
  first := by decide +kernel
  parsed := ⟨200, none, none, true⟩
  read := by decide +kernel
  chunked := rfl
  unsized := rfl
  success := ⟨by decide, by decide⟩

/-- A text of one character, divided between its two octets, is a panic. -/
theorem divided_character : octets ['é'] = [0xC3, 0xA9] ∧
    Divides [single 0xC3, single 0xA9] (octets ['é']) ∧
    ¬DecodesRight chunkHead [single 0xC3, single 0xA9] (octets ['é']) := by
  refine ⟨by decide, divides_single [0xC3, 0xA9], fun hright => ?_⟩
  have hend : Arrives [] [] := .ends .exhausted
  have harrives := hend.bytes (by omega)
    (chunkHead.answer (encodeChunks ([0xC3, 0xA9].map single)))
  rw [List.append_nil, List.append_nil] at harrives
  have hread := hright _ harrives
  rw [readAnswer_chunked chunkHead harrives, dechunk_single ⟨0xC3, by decide, by decide⟩] at hread
  cases hread

end Wallermax.Manager.Http
