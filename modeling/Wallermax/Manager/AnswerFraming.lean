import Wallermax.Manager.Http

/-!
# The body of an announced length

Reading stops at the first buffer that is long enough, and the body is all of the buffer
behind the head. What one read carries beyond the announced length is part of the body, and
a connection that ends early leaves a shorter one; the answer is right exactly where
neither shows.
-/

namespace Wallermax.Manager.Http

open Wallermax.Base

/-! ## Heads -/

/-- The bytes of a head in front of its empty line, and what `parse_head` makes of them. -/
structure AnswerHead (debug : Text → String) (url : Text) : Type where
  bytes : List UInt8
  first : splitFirst headEnd (bytes ++ headEnd) = some (bytes, [])
  parsed : Head
  read : parseHead debug (decodeLossy bytes) url = .ok parsed

/-- A head that announces a length and no chunks. -/
structure SizedHead (debug : Text → String) (url : Text) : Type extends AnswerHead debug url where
  length : ℕ
  announced : parsed.content_length = some length
  whole : parsed.chunked = false

/-- The calls return these bytes, cut anyhow, and then the connection ends. -/
abbrev Arrives (reads : List (Read ReadError)) (bytes : List UInt8) : Prop :=
  Delivers (fun _ => false) 4096 reads bytes

section

variable {debug : Text → String} {url : Text}

/-- Behind the head these bytes arrive. -/
def AnswerHead.answer (head : AnswerHead debug url) (body : List UInt8) : List UInt8 :=
  head.bytes ++ (headEnd ++ body)

/-- However the answer is cut, it is the first `length` bytes of the body, or an error where
fewer arrive. -/
def FramedRight (head : SizedHead debug url) (body : List UInt8) : Prop :=
  ∀ reads, Arrives reads (head.answer body) →
    (head.length ≤ body.length → readAnswer debug url reads =
      some (classify url head.parsed (decodeLossy (body.take head.length)))) ∧
    (body.length < head.length → ∃ message, readAnswer debug url reads = some (.error message))

def Head.isSuccess (parsed : Head) : Prop := 200 ≤ parsed.status ∧ parsed.status < 300

/-- An answer that is not an error, whatever its body. -/
def Head.isAnswer (parsed : Head) : Prop :=
  parsed.isSuccess ∨ (300 ≤ parsed.status ∧ parsed.status < 400 ∧ parsed.location.isSome = true)

/-- The end of the body is in the address space, and either all of the body arrives, and no
more that one read could add to its text, or it is the body of an error. -/
structure FramesItself (head : SizedHead debug url) (body : List UInt8) : Prop where
  bounded : head.bytes.length + 4 + head.length < 0x10000000000000000
  cases : (head.length ≤ body.length ∧ (head.parsed.isSuccess →
      ∀ m, head.length ≤ m → m < head.length + 4096 →
        decodeLossy (body.take m) = decodeLossy (body.take head.length))) ∨
    (body.length < head.length ∧ ¬head.parsed.isAnswer)

/-! ## Filling up to a length -/

section Fill

variable {retry : ReadError → Bool} {size goal : ℕ} {stop : List UInt8 → Bool}
  {reads : List (Read ReadError)} {buffer bytes : List UInt8}

/-- A test that is passed from a length on is passed where one call has carried the buffer. -/
theorem fill_goal (h : Delivers retry size reads bytes)
    (hstop : ∀ front back, bytes = front ++ back →
      stop (buffer ++ front) = decide (goal ≤ buffer.length + front.length))
    (hgoal : goal ≤ buffer.length + bytes.length) :
    ∃ front back rest, bytes = front ++ back ∧
      fill retry stop (fun _ => false) buffer reads = .stopped (buffer ++ front) rest ∧
      Delivers retry size rest back ∧ goal ≤ buffer.length + front.length ∧
      (front = [] ∨ buffer.length + front.length < goal + size) := by
  have hspec := fill_spec stop (fun _ => false) h buffer
  have hwhole := hstop bytes [] (by simp)
  rw [decide_eq_true hgoal] at hwhole
  generalize hfill : fill retry stop (fun _ => false) buffer reads = filled at hspec
  cases hspec with
  | @stopped front back rest hsplit hrest hstopped hgrown =>
      rw [hstop front back hsplit, decide_eq_true_eq] at hstopped
      refine ⟨front, back, rest, hsplit, rfl, hrest, hstopped, ?_⟩
      rcases hgrown with hnil | ⟨k, hk, hle, hbefore, -⟩
      · exact Or.inl hnil
      · have htake : bytes = front.take k ++ (front.drop k ++ back) := by
          rw [← List.append_assoc, List.take_append_drop, hsplit]
        rw [hstop _ _ htake, decide_eq_false_iff_not, List.length_take, not_le] at hbefore
        exact Or.inr (by omega)
  | full _ _ hfull => cases hfull
  | ended hended =>
      rw [hwhole] at hended
      cases hended
  | failed _ hfailed =>
      rw [hwhole] at hfailed
      cases hfailed

/-- Short of the goal all there is gets into the buffer. -/
theorem fill_short (h : Delivers retry size reads bytes)
    (hstop : ∀ front back, bytes = front ++ back → stop (buffer ++ front) = false) :
    (fill retry stop (fun _ => false) buffer reads).buffer = buffer ++ bytes := by
  have hspec := fill_spec stop (fun _ => false) h buffer
  generalize hfill : fill retry stop (fun _ => false) buffer reads = filled at hspec
  cases hspec with
  | stopped hsplit _ hstopped =>
      rw [hstop _ _ hsplit] at hstopped
      cases hstopped
  | full _ _ hfull => cases hfull
  | ended => rfl
  | failed => rfl

end Fill

/-! ## The head -/

theorem splitFirst_answer (head : AnswerHead debug url) (body : List UInt8) :
    splitFirst headEnd (head.answer body) = some (head.bytes, body) := by
  have hlonger := splitFirst_append_right head.first body
  rwa [List.append_assoc, List.nil_append] at hlonger

/-- The beginning of an answer has the empty line from its length on. -/
theorem containsHead_prefix (head : AnswerHead debug url) {body front back : List UInt8}
    (h : head.answer body = front ++ back) :
    containsHead front = decide (head.bytes.length + 4 ≤ front.length) := by
  have hsplit := splitFirst_answer head body
  rw [h] at hsplit
  rw [containsHead, findHead, Option.isSome_map, splitFirst_prefix hsplit]
  have hfour : headEnd.length = 4 := rfl
  rw [hfour]
  split
  · rename_i hle
    rw [decide_eq_true hle]
    rfl
  · rename_i hle
    rw [decide_eq_false hle]
    rfl

theorem length_answer (head : AnswerHead debug url) (body : List UInt8) :
    (head.answer body).length = head.bytes.length + 4 + body.length := by
  simp [AnswerHead.answer, headEnd]
  omega

/-- Behind the head the beginning of an answer is the beginning of its body. -/
theorem drop_received (head : AnswerHead debug url) {body front back : List UInt8}
    (h : head.answer body = front ++ back) :
    front.drop (head.bytes.length + 4) = body.take (front.length - (head.bytes.length + 4)) := by
  have hfound := splitFirst_answer head body
  rw [h] at hfound
  exact drop_prefix_splitFirst hfound

/-- The head is found, and the body is read on from what it was found in. -/
theorem readAnswer_read (head : AnswerHead debug url) {body : List UInt8}
    {reads : List (Read ReadError)} (h : Arrives reads (head.answer body)) :
    ∃ buffer rest, fill (fun _ => false) containsHead (fun _ => false) [] reads =
        .stopped buffer rest ∧
      readAnswer debug url reads =
        readBody url head.parsed head.bytes.length buffer rest := by
  have hgoal : head.bytes.length + 4 ≤ ([] : List UInt8).length + (head.answer body).length := by
    rw [length_answer, List.length_nil]
    omega
  obtain ⟨front, back, rest, hsplit, hfill, -, hle, -⟩ :=
    fill_goal h (fun front back hsplit => by simpa using containsHead_prefix head hsplit) hgoal
  rw [List.length_nil, Nat.zero_add] at hle
  rw [List.nil_append] at hfill
  have hfound := splitFirst_answer head body
  rw [hsplit] at hfound
  have hfront := splitFirst_prefix hfound
  have hfour : headEnd.length = 4 := rfl
  rw [if_pos (by omega)] at hfront
  refine ⟨front, rest, hfill, ?_⟩
  rw [readAnswer, hfill]
  simp only [hfront, head.read]

/-- Where a length is announced, and its end is in the address space. -/
theorem readAnswer_sized (head : SizedHead debug url) {body : List UInt8}
    {reads : List (Read ReadError)} (h : Arrives reads (head.answer body))
    (hbounded : head.bytes.length + 4 + head.length < 0x10000000000000000) :
    readAnswer debug url reads = some (classify url head.parsed (decodeLossy
      ((fill (fun _ => false) (reaches (head.bytes.length + 4 + head.length))
        (fun _ => false) [] reads).buffer.drop (head.bytes.length + 4)))) := by
  obtain ⟨buffer, rest, hfill, hread⟩ := readAnswer_read head.toAnswerHead h
  have hlater : ∀ front back, head.answer body = front ++ back → containsHead ([] ++ front) = false →
      reaches (head.bytes.length + 4 + head.length) ([] ++ front) = false := by
    intro front back hsplit hstop
    rw [List.nil_append, containsHead_prefix head.toAnswerHead hsplit,
      decide_eq_false_iff_not] at hstop
    rw [List.nil_append, reaches, decide_eq_false_iff_not]
    omega
  rw [hread, readBody, head.announced]
  simp only [if_pos hbounded, head.whole, fill_through h hlater hfill, Option.bind_eq_bind,
    Option.bind_some, Bool.false_eq_true, if_false]
  rfl

/-- A length that ends outside the address space. -/
theorem readAnswer_unbounded (head : SizedHead debug url) {body : List UInt8}
    {reads : List (Read ReadError)} (h : Arrives reads (head.answer body))
    (hbounded : ¬head.bytes.length + 4 + head.length < 0x10000000000000000) :
    readAnswer debug url reads = none := by
  obtain ⟨buffer, rest, -, hread⟩ := readAnswer_read head.toAnswerHead h
  rw [hread, readBody, head.announced]
  simp only [if_neg hbounded, Option.bind_eq_bind, Option.bind_none]

/-- The body that is read: all there is, or the announced length and what one call has
carried beyond it. -/
theorem readAnswer_take (head : SizedHead debug url) {body : List UInt8}
    {reads : List (Read ReadError)} (h : Arrives reads (head.answer body))
    (hbounded : head.bytes.length + 4 + head.length < 0x10000000000000000) :
    ∃ m, (head.length ≤ body.length → head.length ≤ m ∧ m < head.length + 4096) ∧
      (body.length < head.length → m = body.length) ∧
      readAnswer debug url reads =
        some (classify url head.parsed (decodeLossy (body.take m))) := by
  rw [readAnswer_sized head h hbounded]
  have hlength := length_answer head.toAnswerHead body
  by_cases hle : head.length ≤ body.length
  · have hreached : head.bytes.length + 4 + head.length ≤
        ([] : List UInt8).length + (head.answer body).length := by
      rw [List.length_nil]
      omega
    have hstop : ∀ front back, head.answer body = front ++ back →
        reaches (head.bytes.length + 4 + head.length) ([] ++ front) =
          decide (head.bytes.length + 4 + head.length ≤ ([] : List UInt8).length + front.length) := by
      intro front back _
      rw [reaches, List.length_append]
    obtain ⟨front, back, rest, hsplit, hfill, -, hgoal, hgrown⟩ := fill_goal h hstop hreached
    rw [List.length_nil, Nat.zero_add] at hgoal hgrown
    rw [hfill]
    refine ⟨front.length - (head.bytes.length + 4), fun _ => ⟨by omega, ?_⟩, by omega, ?_⟩
    · rcases hgrown with hnil | hlt
      · rw [hnil, List.length_nil]
        omega
      · omega
    · rw [Filled.buffer, List.nil_append, drop_received head.toAnswerHead hsplit]
  · have hshort : ∀ front back, head.answer body = front ++ back →
        reaches (head.bytes.length + 4 + head.length) ([] ++ front) = false := by
      intro front back hsplit
      have hfront := congrArg List.length hsplit
      rw [List.length_append] at hfront
      rw [reaches, decide_eq_false_iff_not, List.nil_append]
      omega
    refine ⟨body.length, fun hle' => absurd hle' hle, fun _ => rfl, ?_⟩
    rw [fill_short h hshort, List.nil_append,
      drop_received head.toAnswerHead (List.append_nil (head.answer body)).symm, hlength,
      Nat.add_sub_cancel_left]

/-- Each length that one call can reach is read by some cut of the answer. -/
theorem readAnswer_cut (head : SizedHead debug url) {body : List UInt8} {m : ℕ}
    (hbounded : head.bytes.length + 4 + head.length < 0x10000000000000000)
    (hle : head.length ≤ m) (hlt : m < head.length + 4096) (hm : m ≤ body.length) :
    ∃ reads, Arrives reads (head.answer body) ∧ readAnswer debug url reads =
      some (classify url head.parsed (decodeLossy (body.take m))) := by
  have hlength := length_answer head.toAnswerHead body
  have hsplit : head.answer body = (head.answer body).take (head.bytes.length + 4 + m) ++
      (head.answer body).drop (head.bytes.length + 4 + m) := (List.take_append_drop _ _).symm
  generalize hfront : (head.answer body).take (head.bytes.length + 4 + m) = front at hsplit
  generalize (head.answer body).drop (head.bytes.length + 4 + m) = back at hsplit
  have hfront' : front.length = head.bytes.length + 4 + m := by
    rw [← hfront, List.length_take]
    omega
  have hend : Delivers (fun _ => false) 4096 ([] : List (Read ReadError)) [] := .ends .exhausted
  have hback := hend.bytes (by omega) back
  rw [List.append_nil, List.append_nil] at hback
  -- one byte short of the goal, and then the rest of what is wanted at once
  have hquiet : ∀ k ≤ head.bytes.length + 3 + head.length,
      reaches (head.bytes.length + 4 + head.length) ([] ++ front.take k) = false ∧
        (fun _ : List UInt8 => false) ([] ++ front.take k) = false := by
    intro k hk
    rw [reaches, decide_eq_false_iff_not, List.nil_append, List.length_take]
    exact ⟨by omega, rfl⟩
  have hstop : reaches (head.bytes.length + 4 + head.length) ([] ++ front) = true := by
    rw [reaches, decide_eq_true_eq, List.nil_append]
    omega
  obtain ⟨harrives, hfill⟩ := fill_jump _ (fun _ => false)
    (m := head.bytes.length + 3 + head.length) (by omega) (by omega) (by omega) hquiet hstop hback
  rw [← hsplit] at harrives
  refine ⟨_, harrives, ?_⟩
  rw [readAnswer_sized head harrives hbounded, hfill, Filled.buffer, List.nil_append,
    drop_received head.toAnswerHead hsplit, hfront', Nat.add_sub_cancel_left]

/-! ## Right answers -/

theorem classify_success {parsed : Head} (h : parsed.isSuccess) (url body : Text) :
    classify url parsed body = .ok (.body body) := by
  unfold classify
  exact if_pos h

/-- Without success the body plays no part. -/
theorem classify_other {parsed : Head} (h : ¬parsed.isSuccess) (url body body' : Text) :
    classify url parsed body = classify url parsed body' := by
  unfold classify
  exact (if_neg h).trans (if_neg h).symm

theorem classify_error {parsed : Head} {url body : Text} :
    (∃ message, classify url parsed body = .error message) ↔ ¬parsed.isAnswer := by
  unfold classify Head.isAnswer Head.isSuccess
  split
  · rename_i hsuccess
    simp [hsuccess]
  · rename_i hsuccess
    split
    · rename_i hredirect
      cases hlocation : parsed.location with
      | some location => simp [hredirect]
      | none => simp [hsuccess]
    · rename_i hredirect
      have hnone : ¬(300 ≤ parsed.status ∧ parsed.status < 400 ∧
          parsed.location.isSome = true) := fun h => hredirect ⟨h.1, h.2.1⟩
      simp only [Except.error.injEq, exists_eq', true_iff, not_or]
      exact ⟨hsuccess, hnone⟩

/-- **Which bodies are framed by their announced length**: the end of the body is in the
address space, and either all of it arrives and what one call could carry beyond it adds
nothing to the text of a body that counts, or too little arrives for an answer that is an
error anyway. -/
theorem framed_iff (head : SizedHead debug url) (body : List UInt8) :
    FramedRight head body ↔ FramesItself head body := by
  constructor
  · intro hright
    -- the answer in pieces of one byte
    have hend : Delivers (fun _ => false) 4096 ([] : List (Read ReadError)) [] := .ends .exhausted
    have hsingles := hend.bytes (by omega) (head.answer body)
    rw [List.append_nil, List.append_nil] at hsingles
    obtain ⟨hwhole, hshort⟩ := hright _ hsingles
    have hbounded : head.bytes.length + 4 + head.length < 0x10000000000000000 := by
      by_contra hnot
      rw [readAnswer_unbounded head hsingles hnot] at hwhole hshort
      rcases Nat.lt_or_ge body.length head.length with hlt | hle
      · obtain ⟨message, hmessage⟩ := hshort hlt
        cases hmessage
      · cases hwhole hle
    refine ⟨hbounded, ?_⟩
    rcases Nat.lt_or_ge body.length head.length with hlt | hle
    · obtain ⟨m, -, -, hread⟩ := readAnswer_take head hsingles hbounded
      obtain ⟨message, hmessage⟩ := hshort hlt
      rw [hread, Option.some_inj] at hmessage
      exact Or.inr ⟨hlt, classify_error.mp ⟨message, hmessage⟩⟩
    · refine Or.inl ⟨hle, fun hsuccess m hm hlt => ?_⟩
      have hread : ∀ m, head.length ≤ m → m < head.length + 4096 → m ≤ body.length →
          decodeLossy (body.take m) = decodeLossy (body.take head.length) := by
        intro m hm hlt hbody
        obtain ⟨reads, harrives, hread⟩ := readAnswer_cut head hbounded hm hlt hbody
        have hsame := (hright reads harrives).1 hle
        rw [hread, classify_success hsuccess, classify_success hsuccess] at hsame
        simpa using hsame
      by_cases hbody : m ≤ body.length
      · exact hread m hm hlt hbody
      · rw [List.take_of_length_le (by omega), ← hread body.length hle (by omega) le_rfl,
          List.take_length]
  · rintro ⟨hbounded, hcases⟩ reads harrives
    obtain ⟨m, hm, hshort, hread⟩ := readAnswer_take head harrives hbounded
    rw [hread]
    constructor
    · intro hle
      rcases hcases with ⟨-, hsame⟩ | ⟨hlt, -⟩
      · by_cases hsuccess : head.parsed.isSuccess
        · rw [hsame hsuccess m (hm hle).1 (hm hle).2]
        · rw [classify_other hsuccess]
      · omega
    · intro hlt
      rcases hcases with ⟨hle, -⟩ | ⟨-, hnot⟩
      · omega
      · obtain ⟨message, hmessage⟩ := classify_error.mpr hnot
        exact ⟨message, by rw [hmessage]⟩

end

/-- A head that announces two bytes. -/
def twoHead : SizedHead (fun _ => "") "http://localhost/".toList where
  bytes := octets "HTTP/1.1 200 OK\r\nContent-Length: 2".toList
  first := by decide +kernel
  parsed := ⟨200, none, some 2, false⟩
  read := by decide +kernel
  length := 2
  announced := rfl
  whole := rfl

/-- Three bytes that come with the head in one call are a body of three bytes. -/
theorem body_over_read : ¬FramedRight twoHead (octets "abc".toList) := by
  intro hright
  have hone : Arrives [.ok (twoHead.answer (octets "abc".toList))]
      (twoHead.answer (octets "abc".toList)) := by
    have hend : Arrives [] [] := .ends .exhausted
    have hcall := hend.call (by decide : twoHead.answer (octets "abc".toList) ≠ [])
      (by decide +kernel)
    rwa [List.append_nil] at hcall
  have htwo := (hright _ hone).1 (by decide)
  have hthree : readAnswer (fun _ => "") "http://localhost/".toList
      [.ok (twoHead.answer (octets "abc".toList))] = some (.ok (.body "abc".toList)) := by
    decide +kernel
  rw [hthree] at htwo
  revert htwo
  decide +kernel

end Wallermax.Manager.Http
