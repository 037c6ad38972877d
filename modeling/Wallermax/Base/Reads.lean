import Mathlib.Data.List.Infix
import Mathlib.Tactic.Common

/-!
# Reading a stream into a buffer

A reader hands out a stream in pieces: each call returns a few bytes, an error, or no
bytes at the end. `fill` appends the pieces to a buffer until one test of the buffer says
to stop or another says it is over its limit; both are made between calls only. Where the
stream is cut is the reader's choice, so what holds of the filled buffer is stated for
every way to cut the bytes.
-/

namespace Wallermax.Base

/-- What one call of `read` returns: at the end of the stream, no bytes. -/
abbrev Read (ε : Type*) := Except ε (List UInt8)

inductive Filled (ε : Type*) where
  | stopped (buffer : List UInt8) (reads : List (Read ε))
  | full (buffer : List UInt8)
  | ended (buffer : List UInt8)
  | failed (error : ε) (buffer : List UInt8)

/-- What is in the buffer at the end. -/
def Filled.buffer {ε : Type*} : Filled ε → List UInt8
  | stopped buffer _ => buffer
  | full buffer => buffer
  | ended buffer => buffer
  | failed _ buffer => buffer

section Fill

variable {ε : Type*} (retry : ε → Bool) (stop full : List UInt8 → Bool)

/-- Read into the buffer. A call with an error to retry has moved no bytes. -/
def fill (buffer : List UInt8) (reads : List (Read ε)) : Filled ε :=
  if stop buffer then .stopped buffer reads
  else if full buffer then .full buffer
  else match reads with
  | [] => .ended buffer
  | .ok [] :: _ => .ended buffer
  | .ok (b :: bytes) :: reads => fill (buffer ++ b :: bytes) reads
  | .error e :: reads => if retry e then fill buffer reads else .failed e buffer

/-- The tests come first, whatever the next call returns. -/
theorem fill_cases (buffer : List UInt8) (reads : List (Read ε)) :
    (stop buffer = true ∧ fill retry stop full buffer reads = .stopped buffer reads) ∨
      (stop buffer = false ∧ full buffer = true ∧
        fill retry stop full buffer reads = .full buffer) ∨
      (stop buffer = false ∧ full buffer = false ∧ fill retry stop full buffer reads =
        match reads with
        | [] => .ended buffer
        | .ok [] :: _ => .ended buffer
        | .ok (b :: bytes) :: reads => fill retry stop full (buffer ++ b :: bytes) reads
        | .error e :: reads =>
          if retry e then fill retry stop full buffer reads else .failed e buffer) := by
  rw [fill.eq_def]
  cases stop buffer with
  | true => exact Or.inl ⟨rfl, rfl⟩
  | false =>
      cases full buffer with
      | true => exact Or.inr (Or.inl ⟨rfl, rfl, rfl⟩)
      | false => exact Or.inr (Or.inr ⟨rfl, rfl, rfl⟩)

variable {retry stop full}

theorem fill_stopped {buffer : List UInt8} (h : stop buffer = true) (reads : List (Read ε)) :
    fill retry stop full buffer reads = .stopped buffer reads := by
  rw [fill.eq_def, if_pos h]

theorem fill_piece {buffer piece : List UInt8} (hne : piece ≠ []) (hstop : stop buffer = false)
    (hfull : full buffer = false) (reads : List (Read ε)) :
    fill retry stop full buffer (.ok piece :: reads) =
      fill retry stop full (buffer ++ piece) reads := by
  cases piece with
  | nil => exact absurd rfl hne
  | cons b bytes =>
      rw [fill.eq_def, if_neg (by simp [hstop]), if_neg (by simp [hfull])]

theorem fill_retry {buffer : List UInt8} {e : ε} (he : retry e = true)
    (hstop : stop buffer = false) (hfull : full buffer = false) (reads : List (Read ε)) :
    fill retry stop full buffer (.error e :: reads) = fill retry stop full buffer reads := by
  rw [fill.eq_def, if_neg (by simp [hstop]), if_neg (by simp [hfull])]
  simp only [he, if_true]

end Fill

/-! ## Ways to deliver bytes -/

section Delivers

variable {ε : Type*} (retry : ε → Bool) (size : ℕ)

/-- The stream is at its end: no call, no bytes, or an error that is not retried. -/
inductive Ends : List (Read ε) → Prop where
  | exhausted : Ends []
  | closed (reads : List (Read ε)) : Ends (.ok [] :: reads)
  | failed {e : ε} (reads : List (Read ε)) (h : retry e = false) : Ends (.error e :: reads)

/-- The calls return these bytes in pieces of at most `size`, and then the stream ends. -/
inductive Delivers : List (Read ε) → List UInt8 → Prop where
  | ends {reads : List (Read ε)} (h : Ends retry reads) : Delivers reads []
  | piece {b : UInt8} {bytes rest : List UInt8} {reads : List (Read ε)}
      (hsize : (b :: bytes).length ≤ size) (h : Delivers reads rest) :
      Delivers (.ok (b :: bytes) :: reads) (b :: bytes ++ rest)
  | retried {e : ε} {rest : List UInt8} {reads : List (Read ε)} (he : retry e = true)
      (h : Delivers reads rest) : Delivers (.error e :: reads) rest

variable {retry size}

/-- One byte a call. -/
theorem Delivers.bytes {reads : List (Read ε)} {rest : List UInt8}
    (h : Delivers retry size reads rest) (hsize : 1 ≤ size) (front : List UInt8) :
    Delivers retry size (front.map (fun b => .ok [b]) ++ reads) (front ++ rest) := by
  induction front with
  | nil => exact h
  | cons b front ih => exact .piece (by simpa using hsize) ih

/-- One call, of any bytes that fit. -/
theorem Delivers.call {reads : List (Read ε)} {rest : List UInt8}
    (h : Delivers retry size reads rest) {piece : List UInt8} (hne : piece ≠ [])
    (hsize : piece.length ≤ size) : Delivers retry size (.ok piece :: reads) (piece ++ rest) := by
  cases piece with
  | nil => exact absurd rfl hne
  | cons b bytes => exact .piece hsize h

end Delivers

/-! ## What is in the buffer -/

section Spec

variable {ε : Type*} {retry : ε → Bool} {size : ℕ} {stop full : List UInt8 → Bool}

/-- The tests let the buffer grow by these bytes: no call was made, or the last one was made
at most `size` bytes before. -/
def Grown (size : ℕ) (stop full : List UInt8 → Bool) (buffer front : List UInt8) : Prop :=
  front = [] ∨ ∃ k, k < front.length ∧ front.length ≤ k + size ∧
    stop (buffer ++ front.take k) = false ∧ full (buffer ++ front.take k) = false

/-- How filling ends when the calls deliver these bytes. -/
inductive FillSpec (retry : ε → Bool) (size : ℕ) (stop full : List UInt8 → Bool)
    (buffer bytes : List UInt8) : Filled ε → Prop where
  | stopped {front back : List UInt8} {reads : List (Read ε)} (hsplit : bytes = front ++ back)
      (hrest : Delivers retry size reads back) (hstop : stop (buffer ++ front) = true)
      (hgrown : Grown size stop full buffer front) :
      FillSpec retry size stop full buffer bytes (.stopped (buffer ++ front) reads)
  | full {front back : List UInt8} (hsplit : bytes = front ++ back)
      (hstop : stop (buffer ++ front) = false) (hfull : full (buffer ++ front) = true)
      (hgrown : Grown size stop full buffer front) :
      FillSpec retry size stop full buffer bytes (.full (buffer ++ front))
  | ended (hstop : stop (buffer ++ bytes) = false) (hfull : full (buffer ++ bytes) = false) :
      FillSpec retry size stop full buffer bytes (.ended (buffer ++ bytes))
  | failed (e : ε) (hstop : stop (buffer ++ bytes) = false)
      (hfull : full (buffer ++ bytes) = false) :
      FillSpec retry size stop full buffer bytes (.failed e (buffer ++ bytes))

theorem Grown.prepend {buffer piece front : List UInt8} (hne : piece ≠ [])
    (hsize : piece.length ≤ size) (hstop : stop buffer = false) (hfull : full buffer = false)
    (h : Grown size stop full (buffer ++ piece) front) :
    Grown size stop full buffer (piece ++ front) := by
  have hpos : 0 < piece.length := List.length_pos_iff.mpr hne
  rcases h with rfl | ⟨k, hk, hle, hstop', hfull'⟩
  · refine Or.inr ⟨0, ?_, ?_, ?_, ?_⟩
    · simpa using hpos
    · simpa using hsize
    · simpa using hstop
    · simpa using hfull
  · have htake : buffer ++ (piece ++ front).take (piece.length + k) =
        buffer ++ piece ++ front.take k := by
      rw [List.take_length_add_append, List.append_assoc]
    refine Or.inr ⟨piece.length + k, ?_, ?_, ?_, ?_⟩
    · rw [List.length_append]
      omega
    · rw [List.length_append]
      omega
    · rw [htake, hstop']
    · rw [htake, hfull']

/-- One more piece in front of what a filled buffer was read from. -/
theorem FillSpec.prepend {buffer piece bytes : List UInt8} {filled : Filled ε} (hne : piece ≠ [])
    (hsize : piece.length ≤ size) (hstop : stop buffer = false) (hfull : full buffer = false)
    (h : FillSpec retry size stop full (buffer ++ piece) bytes filled) :
    FillSpec retry size stop full buffer (piece ++ bytes) filled := by
  cases h with
  | stopped hsplit hrest hstop' hgrown =>
      rw [List.append_assoc] at hstop' ⊢
      exact .stopped (by rw [hsplit, List.append_assoc]) hrest hstop'
        (hgrown.prepend hne hsize hstop hfull)
  | full hsplit hstop' hfull' hgrown =>
      rw [List.append_assoc] at hstop' hfull' ⊢
      exact .full (by rw [hsplit, List.append_assoc]) hstop' hfull'
        (hgrown.prepend hne hsize hstop hfull)
  | ended hstop' hfull' =>
      rw [List.append_assoc] at hstop' hfull' ⊢
      exact .ended hstop' hfull'
  | failed e hstop' hfull' =>
      rw [List.append_assoc] at hstop' hfull' ⊢
      exact .failed e hstop' hfull'

theorem FillSpec.here {buffer bytes : List UInt8} {reads : List (Read ε)}
    (h : Delivers retry size reads bytes) (hstop : stop buffer = true) :
    FillSpec retry size stop full buffer bytes (.stopped buffer reads) := by
  have hspec : FillSpec retry size stop full buffer bytes (.stopped (buffer ++ []) reads) :=
    .stopped rfl h (by rwa [List.append_nil]) (Or.inl rfl)
  rwa [List.append_nil] at hspec

theorem FillSpec.over_here {buffer bytes : List UInt8} (hstop : stop buffer = false)
    (hfull : full buffer = true) :
    FillSpec retry size stop full buffer bytes (.full buffer : Filled ε) := by
  have hspec : FillSpec retry size stop full buffer bytes (.full (buffer ++ []) : Filled ε) :=
    .full rfl (by rwa [List.append_nil]) (by rwa [List.append_nil]) (Or.inl rfl)
  rwa [List.append_nil] at hspec

/-- **Filling a buffer**, however the bytes are cut. -/
theorem fill_spec {reads : List (Read ε)} {bytes : List UInt8} (stop full : List UInt8 → Bool)
    (h : Delivers retry size reads bytes) (buffer : List UInt8) :
    FillSpec retry size stop full buffer bytes (fill retry stop full buffer reads) := by
  induction h generalizing buffer with
  | ends hends =>
      rcases fill_cases retry stop full buffer _ with
        ⟨hstop, h⟩ | ⟨hstop, hfull, h⟩ | ⟨hstop, hfull, h⟩
      · rw [h]
        exact .here (.ends hends) hstop
      · rw [h]
        exact .over_here hstop hfull
      · rw [h]
        have hended : stop (buffer ++ []) = false ∧ full (buffer ++ []) = false := by
          rw [List.append_nil]
          exact ⟨hstop, hfull⟩
        cases hends with
        | exhausted => simpa using FillSpec.ended (ε := ε) hended.1 hended.2
        | closed => simpa using FillSpec.ended (ε := ε) hended.1 hended.2
        | failed _ he => simpa [he] using FillSpec.failed (ε := ε) _ hended.1 hended.2
  | piece hsize h ih =>
      rcases fill_cases retry stop full buffer _ with
        ⟨hstop, heq⟩ | ⟨hstop, hfull, heq⟩ | ⟨hstop, hfull, heq⟩
      · rw [heq]
        exact .here (.piece hsize h) hstop
      · rw [heq]
        exact .over_here hstop hfull
      · rw [heq]
        exact (ih _).prepend (List.cons_ne_nil _ _) hsize hstop hfull
  | retried he h ih =>
      rcases fill_cases retry stop full buffer _ with
        ⟨hstop, heq⟩ | ⟨hstop, hfull, heq⟩ | ⟨hstop, hfull, heq⟩
      · rw [heq]
        exact .here (.retried he h) hstop
      · rw [heq]
        exact .over_here hstop hfull
      · rw [heq]
        simpa [he] using ih buffer

/-- Bytes at which neither test says anything are read into the buffer one by one. -/
theorem fill_bytes {front : List UInt8} {buffer : List UInt8}
    (h : ∀ k < front.length, stop (buffer ++ front.take k) = false ∧
      full (buffer ++ front.take k) = false) (reads : List (Read ε)) :
    fill retry stop full buffer (front.map (fun b => .ok [b]) ++ reads) =
      fill retry stop full (buffer ++ front) reads := by
  induction front generalizing buffer with
  | nil => simp
  | cons b front ih =>
      have hfirst := h 0 (by simp)
      rw [List.take_zero, List.append_nil] at hfirst
      have hrest : ∀ k < front.length, stop (buffer ++ [b] ++ front.take k) = false ∧
          full (buffer ++ [b] ++ front.take k) = false := by
        intro k hk
        have hk' := h (k + 1) (by simpa using hk)
        rwa [List.take_succ_cons, ← List.singleton_append, ← List.append_assoc] at hk'
      rw [List.map_cons, List.cons_append, fill_piece (List.cons_ne_nil b []) hfirst.1 hfirst.2,
        ih hrest, List.append_assoc, List.singleton_append]

/-- A test for a length lets the buffer grow by one call more. -/
theorem length_grown (limit : ℕ) {buffer front : List UInt8}
    (hfull : ∀ bytes, full bytes = false → bytes.length ≤ limit)
    (hstart : buffer.length ≤ limit + size) (h : Grown size stop full buffer front) :
    (buffer ++ front).length ≤ limit + size := by
  rw [List.length_append]
  rcases h with rfl | ⟨k, hk, hle, -, hfull'⟩
  · simpa using hstart
  · have hlimit := hfull _ hfull'
    rw [List.length_append, List.length_take] at hlimit
    omega

theorem length_fill_le {limit : ℕ} {reads : List (Read ε)} {buffer bytes : List UInt8}
    (h : Delivers retry size reads bytes)
    (hfull : ∀ bytes, full bytes = false → bytes.length ≤ limit)
    (hstart : buffer.length ≤ limit + size) :
    (fill retry stop full buffer reads).buffer.length ≤ limit + size := by
  have hspec := fill_spec stop full h buffer
  generalize fill retry stop full buffer reads = filled at hspec
  cases hspec with
  | stopped _ _ _ hgrown => exact length_grown limit hfull hstart hgrown
  | full _ _ _ hgrown => exact length_grown limit hfull hstart hgrown
  | ended _ hended => exact (hfull _ hended).trans (Nat.le_add_right _ _)
  | failed _ _ hfailed => exact (hfull _ hfailed).trans (Nat.le_add_right _ _)

/-- Filling up to one test and then on to a later one is filling up to the later one. -/
theorem fill_through {stop' : List UInt8 → Bool} {reads reads' : List (Read ε)}
    {buffer buffer' bytes : List UInt8} (h : Delivers retry size reads bytes)
    (hlater : ∀ front back, bytes = front ++ back → stop (buffer ++ front) = false →
      stop' (buffer ++ front) = false)
    (hfill : fill retry stop full buffer reads = .stopped buffer' reads') :
    fill retry stop' full buffer' reads' = fill retry stop' full buffer reads := by
  induction h generalizing buffer with
  | ends hends =>
      rcases fill_cases retry stop full buffer _ with ⟨-, heq⟩ | ⟨-, -, heq⟩ | ⟨-, -, heq⟩
      · rw [heq] at hfill
        cases hfill
        rfl
      · rw [heq] at hfill
        cases hfill
      · rw [heq] at hfill
        cases hends with
        | exhausted => cases hfill
        | closed => cases hfill
        | failed _ he => simp [he] at hfill
  | @piece b bytes rest reads _ h ih =>
      rcases fill_cases retry stop full buffer _ with ⟨-, heq⟩ | ⟨-, -, heq⟩ | ⟨hstop, hfull, heq⟩
      · rw [heq] at hfill
        cases hfill
        rfl
      · rw [heq] at hfill
        cases hfill
      · rw [heq] at hfill
        have hfirst : stop' buffer = false := by
          have hbuffer := hlater [] _ rfl
          rw [List.append_nil] at hbuffer
          exact hbuffer hstop
        rw [fill_piece (List.cons_ne_nil b bytes) hfirst hfull]
        refine ih (fun front back hsplit => ?_) hfill
        rw [List.append_assoc]
        exact hlater _ back (by rw [hsplit, List.append_assoc])
  | @retried e rest reads he h ih =>
      rcases fill_cases retry stop full buffer _ with ⟨-, heq⟩ | ⟨-, -, heq⟩ | ⟨hstop, hfull, heq⟩
      · rw [heq] at hfill
        cases hfill
        rfl
      · rw [heq] at hfill
        cases hfill
      · rw [heq] at hfill
        simp only [he, if_true] at hfill
        have hfirst : stop' buffer = false := by
          have hbuffer := hlater [] _ rfl
          rw [List.append_nil] at hbuffer
          exact hbuffer hstop
        rw [fill_retry he hfirst hfull]
        exact ih hlater hfill

/-- The first `m` bytes one by one, the others up to the end of `front` in one call. -/
def jump (m : ℕ) (front : List UInt8) (reads : List (Read ε)) : List (Read ε) :=
  (front.take m).map (fun b => .ok [b]) ++ .ok (front.drop m) :: reads

/-- A jump over the bytes at which a test would say something. -/
theorem fill_jump (stop full : List UInt8 → Bool) {m : ℕ} {front back buffer : List UInt8}
    {reads : List (Read ε)} (hsize : 1 ≤ size) (hm : m < front.length) (hfits : front.length ≤ m + size)
    (hquiet : ∀ k ≤ m, stop (buffer ++ front.take k) = false ∧
      full (buffer ++ front.take k) = false)
    (hstop : stop (buffer ++ front) = true) (h : Delivers retry size reads back) :
    Delivers retry size (jump m front reads) (front ++ back) ∧
      fill retry stop full buffer (jump m front reads) = .stopped (buffer ++ front) reads := by
  have hlength : (front.drop m).length = front.length - m := List.length_drop
  have hne : front.drop m ≠ [] := by
    rw [ne_eq, List.drop_eq_nil_iff, not_le]
    exact hm
  have hsplit : front ++ back = front.take m ++ (front.drop m ++ back) := by
    rw [← List.append_assoc, List.take_append_drop]
  constructor
  · rw [hsplit]
    exact (h.call hne (by omega)).bytes hsize (front.take m)
  · have hbytes : ∀ k < (front.take m).length,
        stop (buffer ++ (front.take m).take k) = false ∧
          full (buffer ++ (front.take m).take k) = false := by
      intro k hk
      rw [List.length_take] at hk
      rw [List.take_take, Nat.min_eq_left (by omega)]
      exact hquiet k (by omega)
    obtain ⟨hlast, hlast'⟩ := hquiet m le_rfl
    rw [jump, fill_bytes hbytes, fill_piece hne hlast hlast', List.append_assoc,
      List.take_append_drop, fill_stopped hstop]

end Spec

end Wallermax.Base
