import Wallermax.Manager.Http

/-!
# Reading the sidecar's answer

`read_json_response`: the head up to its empty line, then as many bytes as the head
announces. What is in the buffer is held against the limit before each read only, so a read
can carry an answer over it by one chunk: whether such an answer is refused depends on how
the stream is cut.
-/

namespace Wallermax.Sidecar.Response

open Wallermax.Base
open Wallermax.Manager.Http (parseUsize)
open Wallermax.Manager.Metrics (lines splitOnce)
open Wallermax.Templates (trimChars eqIgnoreAsciiCase)

def RESPONSE_LIMIT : ℕ := 64 * 1024 * 1024

/-- The bytes that one read can return. -/
def chunkSize : ℕ := 8 * 1024

inductive ReadError : Type where
  | interrupted
  | other (message : String)

/-- `read_chunk` reads again. -/
def ReadError.isInterrupted : ReadError → Bool
  | interrupted => true
  | other _ => false

def ReadError.text : ReadError → String
  | interrupted => "Interrupted system call"
  | other message => message

/-- The empty line behind the headers. -/
def headerEnd : List UInt8 := [13, 10, 13, 10]

/-- `find_header_end`. -/
def findHeaderEnd (raw : List UInt8) : Option ℕ :=
  (splitFirst headerEnd raw).map fun (before, _) => before.length

/-- The status line is one of success, and a length is announced. -/
def contentLength (headers : Text) : Except String ℕ :=
  match lines headers with
  | [] => .error "the response has no status line"
  | status :: lines =>
    if ¬"HTTP/1.1 200".toList <+: status ∧ ¬"HTTP/1.0 200".toList <+: status then
      .error ("the sidecar answered with a non-200 status: " ++ String.ofList status)
    else
      let length := lines.findSome? fun line => (splitOnce ':' line).bind fun (name, value) =>
        if eqIgnoreAsciiCase (trimChars name) "content-length".toList then
          parseUsize (trimChars value)
        else none
      match length with
      | some length => .ok length
      | none => .error "the response has no content-length header"

/-- The header loop. -/
def fillHeaders (reads : List (Read ReadError)) : Filled ReadError :=
  fill ReadError.isInterrupted (fun raw => (findHeaderEnd raw).isSome)
    (fun raw => decide (RESPONSE_LIMIT < raw.length)) [] reads

/-- The body loop, from the body bytes that came with the headers. -/
def fillBody (content_length : ℕ) (body : List UInt8) (reads : List (Read ReadError)) :
    Filled ReadError :=
  fill ReadError.isInterrupted (fun body => decide (content_length ≤ body.length))
    (fun body => decide (RESPONSE_LIMIT < body.length)) body reads

section

variable {V : Type}

/-- `read_json_response` behind the headers; `json` is `serde_json::from_slice`. -/
def readBody (json : List UInt8 → Except String V) (content_length : ℕ) (body : List UInt8)
    (reads : List (Read ReadError)) : Except String V :=
  match fillBody content_length body reads with
  | .full _ => .error "the response body exceeded the size limit"
  | .ended _ => .error "the sidecar closed the connection mid-body"
  | .failed error _ => .error ("read failed: " ++ error.text)
  | .stopped body _ =>
    match json (body.take content_length) with
    | .ok value => .ok value
    | .error error => .error ("the sidecar response body was not valid JSON: " ++ error)

/-- `read_json_response`. -/
def readJsonResponse (json : List UInt8 → Except String V) (reads : List (Read ReadError)) :
    Except String V :=
  match fillHeaders reads with
  | .full _ => .error "the response headers exceeded the size limit"
  | .ended _ => .error "the sidecar closed the connection before answering"
  | .failed error _ => .error ("read failed: " ++ error.text)
  | .stopped raw reads =>
    let header_end := (findHeaderEnd raw).getD 0
    match contentLength (decodeLossy (raw.take header_end)) with
    | .error error => .error error
    | .ok content_length => readBody json content_length (raw.drop (header_end + 4)) reads

end

/-- The body as far as it gets into its buffer. -/
def bodyBuffer (reads : List (Read ReadError)) : List UInt8 :=
  match fillHeaders reads with
  | .stopped raw reads =>
    let header_end := (findHeaderEnd raw).getD 0
    match contentLength (decodeLossy (raw.take header_end)) with
    | .error _ => []
    | .ok content_length => (fillBody content_length (raw.drop (header_end + 4)) reads).buffer
  | _ => []

/-! ## What the stream says -/

/-- The calls return this stream, cut anyhow and interrupted anywhere. -/
abbrev Arrives (reads : List (Read ReadError)) (stream : List UInt8) : Prop :=
  Delivers ReadError.isInterrupted chunkSize reads stream

/-- A whole response: the length of its headers with the empty line, and its body. -/
structure Frame : Type where
  headers : ℕ
  body : List UInt8

/-- The response in front of the stream, where one is. -/
def frame (stream : List UInt8) : Option Frame :=
  match splitFirst headerEnd stream with
  | none => none
  | some (head, rest) =>
    match contentLength (decodeLossy head) with
    | .error _ => none
    | .ok length => if length ≤ rest.length then some ⟨head.length + 4, rest.take length⟩ else none

/-- Neither part is longer than so many bytes. -/
def Frame.Within (response : Frame) (limit : ℕ) : Prop :=
  response.headers ≤ limit ∧ response.body.length ≤ limit

instance (response : Frame) (limit : ℕ) : Decidable (response.Within limit) :=
  inferInstanceAs (Decidable (_ ∧ _))

section

variable {V : Type} (json : List UInt8 → Except String V)

/-- The value of a whole response within the limit, and no other. -/
def answer (stream : List UInt8) : Option V :=
  (frame stream).bind fun response =>
    if response.Within RESPONSE_LIMIT then (json response.body).toOption else none

/-- However the stream is cut, its answer is read, and an error where it has none. -/
def AnsweredRight (stream : List UInt8) : Prop :=
  ∀ reads, Arrives reads stream → (readJsonResponse json reads).toOption = answer json stream

/-- A response with a value is within the limit, or too long for one chunk more. -/
def ClearOfLimit (stream : List UInt8) : Prop :=
  ∀ response, frame stream = some response → (json response.body).toOption.isSome = true →
    response.Within RESPONSE_LIMIT ∨ ¬response.Within (RESPONSE_LIMIT + chunkSize)

end

/-! ## The headers -/

section

variable {reads : List (Read ReadError)} {stream head rest : List UInt8}

theorem findHeaderEnd_front (hhead : splitFirst headerEnd stream = some (head, rest))
    {front back : List UInt8} (h : stream = front ++ back) :
    findHeaderEnd front = if head.length + 4 ≤ front.length then some head.length else none := by
  rw [h] at hhead
  have hfour : headerEnd.length = 4 := rfl
  rw [findHeaderEnd, splitFirst_prefix hhead, hfour]
  split
  · rfl
  · rfl

/-- The beginning of the stream, behind the headers. -/
theorem drop_headers (hhead : splitFirst headerEnd stream = some (head, rest))
    {front back : List UInt8} (h : stream = front ++ back) :
    front.drop (head.length + 4) = rest.take (front.length - (head.length + 4)) := by
  rw [h] at hhead
  exact drop_prefix_splitFirst hhead

theorem take_headers (hhead : splitFirst headerEnd stream = some (head, rest))
    {front back : List UInt8} (h : stream = front ++ back)
    (hle : head.length + 4 ≤ front.length) : front.take head.length = head := by
  have hfront : front = stream.take front.length := by
    rw [h, List.take_left]
  rw [hfront, List.take_take, Nat.min_eq_left (by omega), take_splitFirst hhead]

theorem append_headers (hhead : splitFirst headerEnd stream = some (head, rest))
    {front back : List UInt8} (h : stream = front ++ back)
    (hle : head.length + 4 ≤ front.length) :
    rest.take (front.length - (head.length + 4)) ++ back = rest := by
  rw [h] at hhead
  exact append_splitFirst hhead hle

theorem length_stream (hhead : splitFirst headerEnd stream = some (head, rest)) :
    stream.length = head.length + 4 + rest.length := by
  rw [splitFirst_some hhead, List.length_append, List.length_append]
  simp only [headerEnd, List.length_cons, List.length_nil]
  omega

/-- The headers are read, or they are over the limit. -/
theorem fillHeaders_spec (h : Arrives reads stream)
    (hhead : splitFirst headerEnd stream = some (head, rest)) :
    (∃ front back later, fillHeaders reads = .stopped front later ∧ stream = front ++ back ∧
        Arrives later back ∧ head.length + 4 ≤ front.length ∧
        front.length ≤ RESPONSE_LIMIT + chunkSize) ∨
      ((∃ raw, fillHeaders reads = .full raw) ∧ RESPONSE_LIMIT < head.length + 4) := by
  have hspec := fill_spec (fun raw => (findHeaderEnd raw).isSome)
    (fun raw => decide (RESPONSE_LIMIT < raw.length)) h []
  have hwhole : (findHeaderEnd ([] ++ stream)).isSome = true := by
    have hlength := length_stream hhead
    rw [List.nil_append, findHeaderEnd_front hhead (List.append_nil stream).symm,
      if_pos (by omega)]
    rfl
  unfold fillHeaders
  generalize fill _ _ _ _ reads = filled at hspec
  cases hspec with
  | @stopped front back later hsplit hrest hstop hgrown =>
      rw [List.nil_append] at hstop ⊢
      refine Or.inl ⟨front, back, later, rfl, hsplit, hrest, ?_, ?_⟩
      · by_contra hlt
        rw [findHeaderEnd_front hhead hsplit, if_neg hlt] at hstop
        cases hstop
      · have hlength := length_grown RESPONSE_LIMIT
          (fun bytes hbytes => by simpa using hbytes) (by simp) hgrown
        simpa using hlength
  | @full front back hsplit hstop hfull hgrown =>
      rw [List.nil_append] at hstop hfull ⊢
      refine Or.inr ⟨⟨front, rfl⟩, ?_⟩
      rw [decide_eq_true_eq] at hfull
      by_contra hle
      rw [findHeaderEnd_front hhead hsplit, if_pos (by omega)] at hstop
      cases hstop
  | ended hstop =>
      rw [hwhole] at hstop
      cases hstop
  | failed _ hstop =>
      rw [hwhole] at hstop
      cases hstop

/-- Without an empty line no headers are read. -/
theorem fillHeaders_none (h : Arrives reads stream) (hhead : splitFirst headerEnd stream = none) :
    ∀ raw later, fillHeaders reads ≠ .stopped raw later := by
  intro raw later hfill
  have hspec := fill_spec (fun raw => (findHeaderEnd raw).isSome)
    (fun raw => decide (RESPONSE_LIMIT < raw.length)) h []
  unfold fillHeaders at hfill
  rw [hfill] at hspec
  cases hspec with
  | @stopped front back _ hsplit _ hstop _ =>
      rw [List.nil_append, findHeaderEnd, Option.isSome_map] at hstop
      obtain ⟨⟨head, rest⟩, hfound⟩ := Option.isSome_iff_exists.mp hstop
      have hlonger := splitFirst_append_right hfound back
      rw [← hsplit, hhead] at hlonger
      cases hlonger

/-! ## The body -/

/-- The body is read, or it is over the limit, or it does not all arrive. -/
theorem fillBody_spec (length : ℕ) {body back : List UInt8} (h : Arrives reads back)
    (hstart : body.length ≤ RESPONSE_LIMIT + chunkSize) :
    (∃ front more later, fillBody length body reads = .stopped (body ++ front) later ∧
        back = front ++ more ∧ length ≤ (body ++ front).length ∧
        length ≤ RESPONSE_LIMIT + chunkSize) ∨
      ((∃ raw, fillBody length body reads = .full raw) ∧ RESPONSE_LIMIT < length) ∨
      ((∀ raw later, fillBody length body reads ≠ .stopped raw later) ∧
        body.length + back.length < length) := by
  have hspec := fill_spec (fun body => decide (length ≤ body.length))
    (fun body => decide (RESPONSE_LIMIT < body.length)) h body
  unfold fillBody
  generalize fill _ _ _ _ reads = filled at hspec
  cases hspec with
  | @stopped front more later hsplit _ hstop hgrown =>
      rw [decide_eq_true_eq] at hstop
      have hlength := length_grown RESPONSE_LIMIT
        (fun bytes hbytes => by simpa using hbytes) hstart hgrown
      exact Or.inl ⟨front, more, later, rfl, hsplit, hstop, hstop.trans hlength⟩
  | full _ hstop hfull =>
      rw [decide_eq_false_iff_not] at hstop
      rw [decide_eq_true_eq] at hfull
      exact Or.inr (Or.inl ⟨⟨_, rfl⟩, by omega⟩)
  | ended hstop =>
      rw [decide_eq_false_iff_not, List.length_append] at hstop
      exact Or.inr (Or.inr ⟨nofun, by omega⟩)
  | failed _ hstop =>
      rw [decide_eq_false_iff_not, List.length_append] at hstop
      exact Or.inr (Or.inr ⟨nofun, by omega⟩)

end

/-! ## Whole answers -/

section

variable {V : Type} (json : List UInt8 → Except String V) {reads : List (Read ReadError)}
  {stream : List UInt8} {response : Frame}

/-- A response in the stream: its headers, the announced length, and what is behind them. -/
theorem frame_some (h : frame stream = some response) : ∃ head rest length,
    splitFirst headerEnd stream = some (head, rest) ∧
      contentLength (decodeLossy head) = .ok length ∧ length ≤ rest.length ∧
      response = ⟨head.length + 4, rest.take length⟩ := by
  unfold frame at h
  split at h
  · cases h
  · rename_i head rest hhead
    split at h
    · cases h
    · rename_i length hlength
      rw [Option.ite_none_right_eq_some, Option.some_inj] at h
      exact ⟨head, rest, length, hhead, hlength, h.1, h.2.symm⟩

/-- Behind the headers. -/
theorem readJsonResponse_stopped {head rest front back : List UInt8}
    {later : List (Read ReadError)} (hhead : splitFirst headerEnd stream = some (head, rest))
    (hfill : fillHeaders reads = .stopped front later) (hsplit : stream = front ++ back)
    (hle : head.length + 4 ≤ front.length) :
    readJsonResponse json reads = match contentLength (decodeLossy head) with
      | .error error => .error error
      | .ok content_length =>
        readBody json content_length (rest.take (front.length - (head.length + 4))) later := by
  have hend : findHeaderEnd front = some head.length := by
    rw [findHeaderEnd_front hhead hsplit, if_pos hle]
  unfold readJsonResponse
  rw [hfill]
  simp only [hend, Option.getD_some, take_headers hhead hsplit hle, drop_headers hhead hsplit]

/-- What a run over a whole response comes to. -/
theorem readJsonResponse_frame (h : Arrives reads stream) (hframe : frame stream = some response) :
    ((readJsonResponse json reads).toOption = none ∧ ¬response.Within RESPONSE_LIMIT) ∨
      ((readJsonResponse json reads).toOption = (json response.body).toOption ∧
        response.Within (RESPONSE_LIMIT + chunkSize)) := by
  obtain ⟨head, rest, length, hhead, hlength, hle, rfl⟩ := frame_some hframe
  have hbody : (rest.take length).length = length := by
    rw [List.length_take, Nat.min_eq_left hle]
  rcases fillHeaders_spec h hhead with
    ⟨front, back, later, hfill, hsplit, hlater, hheaders, hlimit⟩ | ⟨⟨raw, hfill⟩, hfull⟩
  · have hrest := (append_headers hhead hsplit hheaders).symm
    rw [readJsonResponse_stopped json hhead hfill hsplit hheaders, hlength]
    dsimp only
    unfold readBody
    have hstart : (rest.take (front.length - (head.length + 4))).length ≤
        RESPONSE_LIMIT + chunkSize := by
      rw [List.length_take]
      omega
    rcases fillBody_spec length hlater hstart with
      ⟨more, _, _, hfill', hback, hreached, hwithin⟩ | ⟨⟨raw, hfill'⟩, hfull⟩ | ⟨-, hshort⟩
    · rw [hfill']
      refine Or.inr ⟨?_, by simp only; omega, by simp only [hbody]; omega⟩
      have htake : (rest.take (front.length - (head.length + 4)) ++ more).take length =
          rest.take length := by
        rw [hback, ← List.append_assoc] at hrest
        conv_rhs => rw [hrest]
        rw [List.take_append_of_le_length hreached]
      dsimp only
      rw [htake]
      cases json (rest.take length) with
      | ok value => rfl
      | error error => rfl
    · rw [hfill']
      refine Or.inl ⟨rfl, fun hwithin => ?_⟩
      have hle' := hwithin.2
      dsimp only at hle'
      omega
    · have hlength' := congrArg List.length hrest
      rw [List.length_append] at hlength'
      omega
  · refine Or.inl ⟨?_, fun hwithin => ?_⟩
    · unfold readJsonResponse
      rw [hfill]
      rfl
    · have hle' := hwithin.1
      dsimp only at hle'
      omega

/-- Without a whole response every run ends in an error. -/
theorem readJsonResponse_none (h : Arrives reads stream) (hframe : frame stream = none) :
    (readJsonResponse json reads).toOption = none := by
  cases hhead : splitFirst headerEnd stream with
  | none =>
      have hfill := fillHeaders_none h hhead
      unfold readJsonResponse
      cases hheaders : fillHeaders reads with
      | stopped raw later => exact absurd hheaders (hfill raw later)
      | full raw => rfl
      | ended raw => rfl
      | failed error raw => rfl
  | some found =>
      obtain ⟨head, rest⟩ := found
      rw [frame, hhead] at hframe
      dsimp only at hframe
      rcases fillHeaders_spec h hhead with
        ⟨front, back, later, hfill, hsplit, hlater, hheaders, hlimit⟩ | ⟨⟨raw, hfill⟩, -⟩
      · rw [readJsonResponse_stopped json hhead hfill hsplit hheaders]
        cases hlength : contentLength (decodeLossy head) with
        | error error => rfl
        | ok length =>
            rw [hlength] at hframe
            dsimp only at hframe ⊢
            have hshort : ¬length ≤ rest.length := by
              intro hle
              rw [if_pos hle] at hframe
              cases hframe
            have hstart : (rest.take (front.length - (head.length + 4))).length ≤
                RESPONSE_LIMIT + chunkSize := by
              rw [List.length_take]
              omega
            have hwhole := congrArg List.length (append_headers hhead hsplit hheaders)
            rw [List.length_append] at hwhole
            unfold readBody
            rcases fillBody_spec length hlater hstart with
              ⟨more, _, _, hfill', hback, hreached, -⟩ | ⟨⟨raw, hfill'⟩, -⟩ | ⟨hfill', -⟩
            · have hmore := congrArg List.length hback
              rw [List.length_append] at hmore hreached
              omega
            · rw [hfill']
              rfl
            · cases hbody : fillBody length (rest.take (front.length - (head.length + 4))) later with
              | stopped raw later => exact absurd hbody (hfill' raw later)
              | full raw => rfl
              | ended raw => rfl
              | failed error raw => rfl
      · unfold readJsonResponse
        rw [hfill]
        rfl

/-- Bytes that come one by one. -/
theorem arrives_bytes (bytes : List UInt8) :
    Arrives (bytes.map fun b => .ok [b]) bytes := by
  have hend : Arrives [] [] := .ends .exhausted
  have hbytes := hend.bytes (by decide) bytes
  rwa [List.append_nil, List.append_nil] at hbytes

/-- A body that is over the limit by one chunk at most, and the chunk that carries it there. -/
theorem exists_fillBody {length : ℕ} {rest : List UInt8} (hle : length ≤ rest.length)
    (hwithin : length ≤ RESPONSE_LIMIT + chunkSize) :
    ∃ reads later, Arrives reads rest ∧
      fillBody length [] reads = .stopped (rest.take length) later := by
  have hchunk : 1 ≤ chunkSize := by decide
  rcases Nat.eq_zero_or_pos length with rfl | hpos
  · exact ⟨_, _, arrives_bytes rest, fill_stopped (by simp) _⟩
  · have hlength : (rest.take length).length = length := by
      rw [List.length_take, Nat.min_eq_left hle]
    have hquiet : ∀ k ≤ min (length - 1) RESPONSE_LIMIT,
        decide (length ≤ ([] ++ (rest.take length).take k).length) = false ∧
          decide (RESPONSE_LIMIT < ([] ++ (rest.take length).take k).length) = false := by
      intro k hk
      rw [decide_eq_false_iff_not, decide_eq_false_iff_not, List.nil_append, List.length_take,
        hlength]
      omega
    obtain ⟨harrives, hfill⟩ := fill_jump (fun body => decide (length ≤ body.length))
      (fun body => decide (RESPONSE_LIMIT < body.length))
      (m := min (length - 1) RESPONSE_LIMIT) hchunk (by omega) (by omega) hquiet
      (by simp [hlength]) (arrives_bytes (rest.drop length))
    rw [List.take_append_drop] at harrives
    exact ⟨_, _, harrives, hfill⟩

/-- A response that is over the limit by one chunk at most is read by some cut. -/
theorem exists_read (hframe : frame stream = some response)
    (hwithin : response.Within (RESPONSE_LIMIT + chunkSize)) :
    ∃ reads, Arrives reads stream ∧
      (readJsonResponse json reads).toOption = (json response.body).toOption := by
  obtain ⟨head, rest, length, hhead, hlength, hle, rfl⟩ := frame_some hframe
  obtain ⟨hheaders, hbody⟩ := hwithin
  dsimp only at hheaders hbody
  rw [List.length_take, Nat.min_eq_left hle] at hbody
  obtain ⟨later, _, hlater, hfillBody⟩ := exists_fillBody hle hbody
  have hchunk : 1 ≤ chunkSize := by decide
  have hfront : (head ++ headerEnd).length = head.length + 4 := by
    simp [headerEnd]
  have hsplit : stream = (head ++ headerEnd) ++ rest := by
    rw [List.append_assoc]
    exact splitFirst_some hhead
  have hquiet : ∀ k ≤ min (head.length + 3) RESPONSE_LIMIT,
      (findHeaderEnd ([] ++ (head ++ headerEnd).take k)).isSome = false ∧
        decide (RESPONSE_LIMIT < ([] ++ (head ++ headerEnd).take k).length) = false := by
    intro k hk
    have hbegins : stream = (head ++ headerEnd).take k ++ ((head ++ headerEnd).drop k ++ rest) := by
      rw [← List.append_assoc, List.take_append_drop, hsplit]
    rw [List.nil_append, findHeaderEnd_front hhead hbegins, List.length_take, hfront,
      if_neg (by omega), decide_eq_false_iff_not]
    exact ⟨rfl, by omega⟩
  have hstop : (findHeaderEnd ([] ++ (head ++ headerEnd))).isSome = true := by
    rw [List.nil_append, findHeaderEnd_front hhead hsplit, if_pos (by omega)]
    rfl
  obtain ⟨harrives, hfill⟩ := fill_jump (fun raw => (findHeaderEnd raw).isSome)
    (fun raw => decide (RESPONSE_LIMIT < raw.length))
    (m := min (head.length + 3) RESPONSE_LIMIT) hchunk (by omega) (by omega) hquiet hstop
    hlater
  rw [← hsplit] at harrives
  refine ⟨_, harrives, ?_⟩
  rw [readJsonResponse_stopped json hhead hfill hsplit (by rw [List.nil_append]; omega), hlength,
    List.nil_append, hfront, Nat.sub_self, List.take_zero]
  dsimp only
  rw [readBody, hfillBody]
  dsimp only
  rw [List.take_take, Nat.min_self]
  cases json (rest.take length) with
  | ok value => rfl
  | error error => rfl

/-- The body gets as far as one chunk beyond the limit. -/
theorem length_bodyBuffer (h : Arrives reads stream) :
    (bodyBuffer reads).length ≤ RESPONSE_LIMIT + chunkSize := by
  have hspec := fill_spec (fun raw => (findHeaderEnd raw).isSome)
    (fun raw => decide (RESPONSE_LIMIT < raw.length)) h []
  have hheaders : (fillHeaders reads).buffer.length ≤ RESPONSE_LIMIT + chunkSize :=
    length_fill_le h (fun bytes hbytes => by simpa using hbytes) (by simp)
  unfold bodyBuffer
  unfold fillHeaders at hheaders ⊢
  generalize fill _ _ _ _ reads = filled at hspec hheaders
  cases hspec with
  | stopped hsplit hrest =>
      dsimp only
      split
      · exact Nat.zero_le _
      · refine length_fill_le hrest (fun bytes hbytes => by simpa using hbytes) ?_
        rw [List.length_drop]
        exact (Nat.sub_le _ _).trans hheaders
  | full => exact Nat.zero_le _
  | ended => exact Nat.zero_le _
  | failed => exact Nat.zero_le _

/-- **When the framing is right**: an answer that has a value is within the limit, or so far
beyond it that no cut can hide that. Whatever is announced, one chunk beyond the limit is the
most that is ever buffered. -/
theorem answered_iff :
    (AnsweredRight json stream ↔ ClearOfLimit json stream) ∧
      ∀ reads, Arrives reads stream →
        (fillHeaders reads).buffer.length ≤ RESPONSE_LIMIT + chunkSize ∧
          (bodyBuffer reads).length ≤ RESPONSE_LIMIT + chunkSize := by
  refine ⟨⟨fun hright response hframe hvalue => ?_, fun hclear reads harrives => ?_⟩,
    fun reads harrives => ?_⟩
  · by_contra hnot
    obtain ⟨hfull, hwithin⟩ := not_or.mp hnot
    obtain ⟨reads, harrives, hread⟩ := exists_read json hframe (not_not.mp hwithin)
    rw [hright reads harrives, answer, hframe, Option.bind_some, if_neg hfull] at hread
    rw [← hread] at hvalue
    cases hvalue
  · cases hframe : frame stream with
    | none =>
        rw [readJsonResponse_none json harrives hframe, answer, hframe]
        rfl
    | some response =>
        rw [answer, hframe, Option.bind_some]
        rcases readJsonResponse_frame json harrives hframe with ⟨hread, hfull⟩ | ⟨hread, hwithin⟩
        · rw [hread, if_neg hfull]
        · rw [hread]
          cases hvalue : (json response.body).toOption with
          | none => rw [ite_self]
          | some value =>
              rcases hclear response hframe (by rw [hvalue]; rfl) with hlimit | hlimit
              · rw [if_pos hlimit]
              · exact absurd hwithin hlimit
  · refine ⟨?_, length_bodyBuffer harrives⟩
    exact length_fill_le harrives (fun bytes hbytes => by simpa using hbytes) (by simp)

end

/-- The JSON of one digit and white space behind it. -/
def digitJson : List UInt8 → Except String ℕ
  | [] => .error "EOF while parsing a value"
  | d :: rest =>
    if 0x30 ≤ d.toNat ∧ d.toNat ≤ 0x39 ∧ rest.all (· == 0x20) = true then .ok (d.toNat - 0x30)
    else .error "expected value"

/-- A body of one byte more than the limit. -/
def longBody : List UInt8 := 0x31 :: List.replicate RESPONSE_LIMIT 0x20

def longHead : List UInt8 := octets "HTTP/1.1 200 OK\r\ncontent-length: 67108865".toList

/-- It is read, though it exceeds the limit. -/
theorem long_body_read : RESPONSE_LIMIT < longBody.length ∧
    ¬AnsweredRight digitJson (longHead ++ headerEnd ++ longBody) := by
  have hlong : longBody.length = 67108865 := by
    rw [longBody, List.length_cons, List.length_replicate]
    rfl
  refine ⟨by rw [hlong]; decide, fun hright => ?_⟩
  have hhead : splitFirst headerEnd (longHead ++ headerEnd ++ longBody) =
      some (longHead, longBody) := by
    have hfirst : splitFirst headerEnd (longHead ++ headerEnd) = some (longHead, []) := by
      decide +kernel
    exact splitFirst_append_right hfirst longBody
  have hlength : contentLength (decodeLossy longHead) = .ok 67108865 := by
    decide +kernel
  have hframe : frame (longHead ++ headerEnd ++ longBody) =
      some ⟨longHead.length + 4, longBody⟩ := by
    rw [frame, hhead]
    dsimp only
    rw [hlength]
    dsimp only
    rw [hlong, if_pos le_rfl, ← hlong, List.take_length]
  have hfull : ¬Frame.Within ⟨longHead.length + 4, longBody⟩ RESPONSE_LIMIT := by
    rintro ⟨-, hbody⟩
    rw [hlong] at hbody
    revert hbody
    decide
  have hwithin : Frame.Within ⟨longHead.length + 4, longBody⟩ (RESPONSE_LIMIT + chunkSize) := by
    refine ⟨by decide +kernel, ?_⟩
    show longBody.length ≤ _
    rw [hlong]
    decide
  have hvalue : (digitJson longBody).toOption = some 1 := by
    have hspaces : (List.replicate RESPONSE_LIMIT (0x20 : UInt8)).all (· == 0x20) = true := by
      rw [List.all_replicate]
      simp
    rw [longBody, digitJson, if_pos ⟨by decide, by decide, hspaces⟩]
    rfl
  obtain ⟨reads, harrives, hread⟩ := exists_read digitJson hframe hwithin
  have hanswer := hright reads harrives
  rw [hread, hvalue, answer, hframe, Option.bind_some, if_neg hfull] at hanswer
  cases hanswer

end Wallermax.Sidecar.Response
