import AikitRuntime.Durability.Canonical
import AikitRuntime.Library.Decimals
import Mathlib

/-!
# HTTP requests

The server reads a request from a byte stream: a header block up to the first blank line, and a body of the length
the block declares. What a read returns is up to the network, so the parser sees the stream in pieces. This module is
`read_http_request` on a stream cut into reads, and when its answer depends on the stream alone.

A request is `WellFormed` when its bytes have the shape that an HTTP proxy in front of the server would see. The parser
misses it in three ways: it trims a field's name before it checks its characters, it reads a length with a sign, and it
notices bytes after the body only when the read that completed the header block brought them along.
-/

namespace AikitRuntime.Mcp

open Durability Library Library.Decimals

/-! ### Bytes and text -/

/-- `find_subslice`. -/
def findSubslice (needle : List UInt8) : List UInt8 → Option Nat
  | [] => if needle = [] then some 0 else none
  | byte :: rest =>
    if needle.isPrefixOf (byte :: rest) then some 0 else (findSubslice needle rest).map (· + 1)

/-- `\r\n\r\n`. -/
def blankLine : List UInt8 := [13, 10, 13, 10]

/-- `std::str::from_utf8`. -/
def decodeUtf8 (bytes : List UInt8) : Option (List Char) :=
  (String.fromUTF8? ⟨bytes.toArray⟩).map String.toList

/-- `text.split("\r\n")`. -/
def splitCrlf : List Char → List (List Char)
  | [] => [[]]
  | '\r' :: '\n' :: rest => [] :: splitCrlf rest
  | c :: rest =>
    match splitCrlf rest with
    | line :: lines => (c :: line) :: lines
    | [] => [[c]]

/-- `line.split_once(':')`. -/
def splitOnce (line : List Char) : Option (List Char × List Char) :=
  match line.dropWhile (· ≠ ':') with
  | [] => none
  | _ :: value => some (line.takeWhile (· ≠ ':'), value)

/-! ### The parser -/

/-- `HttpParseError`. -/
structure HttpParseError where
  status : Nat
  message : String
  deriving DecidableEq

/-- `http_parse_error`. -/
def httpParseError (status : Nat) (message : String) : HttpParseError := ⟨status, message⟩

/-- `HttpRequest`. -/
structure HttpRequest where
  method : String
  path : String
  headers : BTreeMap String
  body : List UInt8

/-- What a header block says. -/
structure HttpHead where
  method : String
  path : String
  headers : BTreeMap String
  contentLength : Nat

/-- The loop of `read_http_request`: what was read, where the header block ends in it, and the reads that are left.
Once the reads are used up, a read returns nothing. -/
def readHead (maxHeaderBytes : Nat) (buffer : List UInt8) :
    List (List UInt8) → Except HttpParseError (List UInt8 × Nat × List (List UInt8))
  | [] =>
    if maxHeaderBytes ≤ buffer.length then .error (httpParseError 431 "request headers are too large")
    else .error (httpParseError 400 "incomplete request headers")
  | chunk :: chunks =>
    if maxHeaderBytes ≤ buffer.length then .error (httpParseError 431 "request headers are too large")
    else if maxHeaderBytes < (buffer ++ chunk).length ∧ findSubslice blankLine (buffer ++ chunk) = none then
      .error (httpParseError 431 "request headers are too large")
    else
      match findSubslice blankLine (buffer ++ chunk) with
      | some index => .ok (buffer ++ chunk, index + 4, chunks)
      | none => readHead maxHeaderBytes (buffer ++ chunk) chunks

/-- The loop, and the check after it. -/
def readHeaderBlock (maxHeaderBytes : Nat) (buffer : List UInt8) (chunks : List (List UInt8)) :
    Except HttpParseError (List UInt8 × Nat × List (List UInt8)) := do
  let found ← readHead maxHeaderBytes buffer chunks
  refuseIf (maxHeaderBytes < found.2.1) (httpParseError 431 "request headers are too large")
  pure found

/-- The method and the path of a request line. -/
def parseRequestLine (line : List Char) : Except HttpParseError (List Char × List Char) :=
  match line.splitOn ' ' with
  | [method, path, version] =>
    if method ∉ ["POST".toList, "GET".toList, "DELETE".toList] ∨ path = [] ∨ version ≠ "HTTP/1.1".toList then
      .error (httpParseError 400 "invalid HTTP request line")
    else .ok (method, path)
  | _ => .error (httpParseError 400 "invalid HTTP request line")

/-- A character of a field's name. -/
def FieldChar (c : Char) : Prop := c.isAlphanum ∨ c = '-'

instance (c : Char) : Decidable (FieldChar c) := by unfold FieldChar; infer_instance

/-- `name.trim().to_ascii_lowercase()`. -/
def fieldKey (name : List Char) : List Char := (trim name).map Char.toLower

/-- One header line. -/
def insertHeader (headers : BTreeMap String) (line : List Char) : Except HttpParseError (BTreeMap String) := do
  let (name, value) ← okOr (splitOnce line) (httpParseError 400 "invalid HTTP header")
  refuseIf (fieldKey name = [] ∨ (fieldKey name).all (FieldChar ·) = false ∨ (trim value).any isControl ∨
      headers[String.ofList (fieldKey name)]?.isSome)
    (httpParseError 400 "invalid or duplicate HTTP header")
  pure (headers.insert (String.ofList (fieldKey name)) (String.ofList (trim value)))

/-- The length of the body. -/
def contentLength (method : List Char) (headers : BTreeMap String) : Except HttpParseError Nat :=
  match headers["content-length"]? with
  | some value => okOr (parseUsize value.toList) (httpParseError 400 "invalid Content-Length")
  | none =>
    if method = "POST".toList then .error (httpParseError 411 "Content-Length is required") else .ok 0

/-- The header block, without the blank line that ends it. -/
def parseHead (maxBodyBytes : Nat) (header : List UInt8) : Except HttpParseError HttpHead := do
  let text ← okOr (decodeUtf8 header) (httpParseError 400 "request headers are not UTF-8")
  let requestLine ← okOr (splitCrlf text).head? (httpParseError 400 "missing request line")
  let (method, path) ← parseRequestLine requestLine
  let headers ← (splitCrlf text).tail.foldlM insertHeader ∅
  refuseIf (headers["host"]? = none) (httpParseError 400 "Host header is required")
  refuseIf (headers["transfer-encoding"]?.isSome) (httpParseError 400 "Transfer-Encoding is not supported")
  let length ← contentLength method headers
  refuseIf (maxBodyBytes < length) (httpParseError 413 "request body is too large")
  refuseIf (method ≠ "POST".toList ∧ length ≠ 0)
    (httpParseError 400 "GET and DELETE requests must not have a body")
  pure ⟨String.ofList method, String.ofList path, headers, length⟩

/-- `read_exact`: what is still missing of the body. -/
def readExact (missing : Nat) (chunks : List (List UInt8)) : Except HttpParseError (List UInt8) :=
  if chunks.flatten.length < missing then .error (httpParseError 400 "incomplete request body")
  else .ok (chunks.flatten.take missing)

/-- `read_http_request`, on the reads of a stream. -/
def readHttpRequest (maxHeaderBytes maxBodyBytes : Nat) (chunks : List (List UInt8)) :
    Except HttpParseError HttpRequest := do
  let (buffer, headerEnd, chunks) ← readHeaderBlock maxHeaderBytes [] chunks
  let head ← parseHead maxBodyBytes (buffer.take (headerEnd - 4))
  refuseIf (head.contentLength < (buffer.drop headerEnd).length)
    (httpParseError 400 "HTTP pipelining is not supported")
  let rest ← readExact (head.contentLength - (buffer.drop headerEnd).length) chunks
  pure ⟨head.method, head.path, head.headers, buffer.drop headerEnd ++ rest⟩

/-- The reads a stream may be cut into: none is empty, and none is larger than the chunk of the loop. -/
structure Cut (stream : List UInt8) (chunks : List (List UInt8)) : Prop where
  flatten : chunks.flatten = stream
  nonempty : ∀ chunk ∈ chunks, chunk ≠ []
  bounded : ∀ chunk ∈ chunks, chunk.length ≤ 2048

/-! ### Where the header block ends -/

variable {needle bytes : List UInt8} {index : ℕ}

theorem findSubslice_cons {byte : UInt8} (h : findSubslice needle (byte :: bytes) = some index) :
    needle <+: byte :: bytes ∧ index = 0 ∨
      ¬ needle <+: byte :: bytes ∧ ∃ i, findSubslice needle bytes = some i ∧ index = i + 1 := by
  unfold findSubslice at h
  split at h
  · next hinitial =>
    cases h
    exact .inl ⟨List.isPrefixOf_iff_prefix.mp hinitial, rfl⟩
  · next hinitial =>
    obtain ⟨i, hi, rfl⟩ := Option.map_eq_some_iff.mp h
    exact .inr ⟨fun h => hinitial (List.isPrefixOf_iff_prefix.mpr h), i, hi, rfl⟩

/-- What is found stands there. -/
theorem findSubslice_spec (h : findSubslice needle bytes = some index) :
    index + needle.length ≤ bytes.length ∧ ∃ rest, bytes = bytes.take index ++ (needle ++ rest) := by
  induction bytes generalizing index with
  | nil =>
    unfold findSubslice at h
    split at h
    · next hnil =>
      cases h
      exact ⟨by rw [hnil]; rfl, [], by rw [hnil]; rfl⟩
    · cases h
  | cons byte bytes ih =>
    rcases findSubslice_cons h with ⟨⟨rest, hrest⟩, rfl⟩ | ⟨_, i, hi, rfl⟩
    · refine ⟨?_, rest, hrest.symm⟩
      rw [← hrest, List.length_append]
      omega
    · obtain ⟨hbound, rest, hrest⟩ := ih hi
      refine ⟨by rw [List.length_cons]; omega, rest, ?_⟩
      rw [List.take_succ_cons, List.cons_append, ← hrest]

/-- What was found stays found when more arrives. -/
theorem findSubslice_append (hne : needle ≠ []) (more : List UInt8) (h : findSubslice needle bytes = some index) :
    findSubslice needle (bytes ++ more) = some index := by
  induction bytes generalizing index with
  | nil => simp [findSubslice, hne] at h
  | cons byte bytes ih =>
    rw [List.cons_append, findSubslice]
    rcases findSubslice_cons h with ⟨hinitial, rfl⟩ | ⟨hinitial, i, hi, rfl⟩
    · rw [if_pos]
      exact List.isPrefixOf_iff_prefix.mpr (hinitial.trans (List.prefix_append (byte :: bytes) more))
    · have hshort : needle.length ≤ (byte :: bytes).length := by
        have hbound := (findSubslice_spec hi).1
        rw [List.length_cons]
        omega
      rw [if_neg, ih hi, Option.map_some]
      intro hlong
      exact hinitial (List.prefix_of_prefix_length_le (List.isPrefixOf_iff_prefix.mp hlong)
        (List.prefix_append (byte :: bytes) more) hshort)

variable {more : List UInt8}

/-- What is found in the whole was not found before it had arrived, and only then. -/
theorem length_lt_of_not_found (hne : needle ≠ []) (hbytes : findSubslice needle bytes = none)
    (h : findSubslice needle (bytes ++ more) = some index) : bytes.length < index + needle.length := by
  induction bytes generalizing index with
  | nil =>
    have hpos := List.length_pos_of_ne_nil hne
    simp only [List.length_nil]
    omega
  | cons byte bytes ih =>
    unfold findSubslice at hbytes
    split at hbytes
    · cases hbytes
    · next hinitial =>
      rw [List.cons_append] at h
      rcases findSubslice_cons h with ⟨hlong, rfl⟩ | ⟨_, i, hi, rfl⟩
      · by_contra hlength
        refine hinitial (List.isPrefixOf_iff_prefix.mpr ?_)
        exact List.prefix_of_prefix_length_le hlong (List.prefix_append (byte :: bytes) more) (by omega)
      · have hlt := ih (Option.map_eq_none_iff.mp hbytes) hi
        rw [List.length_cons]
        omega

/-- Where the header block of a stream ends. -/
def headOf (maxHeaderBytes : Nat) (stream : List UInt8) : Except HttpParseError Nat :=
  match findSubslice blankLine stream with
  | some index =>
    if maxHeaderBytes < index + 4 then .error (httpParseError 431 "request headers are too large")
    else .ok (index + 4)
  | none =>
    if maxHeaderBytes ≤ stream.length then .error (httpParseError 431 "request headers are too large")
    else .error (httpParseError 400 "incomplete request headers")

variable {headerEnd maxHeaderBytes : ℕ} {stream : List UInt8}

theorem headOf_eq_ok
    (h : headOf maxHeaderBytes stream = .ok headerEnd) :
    ∃ index, findSubslice blankLine stream = some index ∧ headerEnd = index + 4 ∧ headerEnd ≤ maxHeaderBytes := by
  unfold headOf at h
  split at h
  · next index hfind =>
    split at h
    · cases h
    · next hlimit =>
      cases h
      exact ⟨index, hfind, rfl, Nat.not_lt.mp hlimit⟩
  · split at h <;> cases h

/-- A stream with no blank line in the first bytes that fill the limit is refused. -/
theorem headOf_too_large {buffer : List UInt8} (hnone : findSubslice blankLine buffer = none)
    (h : maxHeaderBytes ≤ buffer.length) :
    headOf maxHeaderBytes (buffer ++ more) = .error (httpParseError 431 "request headers are too large") := by
  unfold headOf
  cases hfind : findSubslice blankLine (buffer ++ more) with
  | some index =>
    have hlt := length_lt_of_not_found (by decide) hnone hfind
    exact if_pos (lt_of_le_of_lt h hlt)
  | none => exact if_pos (by rw [List.length_append]; omega)

/-- **The loop finds the header block of the stream, however the stream is cut.** What it has read is some of the
reads, and goes past the block by less than one read. -/
theorem readHeaderBlock_spec {maxHeaderBytes : ℕ} {chunks : List (List UInt8)} {buffer : List UInt8}
    (hnone : findSubslice blankLine buffer = none) :
    (∃ e, headOf maxHeaderBytes (buffer ++ chunks.flatten) = .error e ∧
      readHeaderBlock maxHeaderBytes buffer chunks = .error e) ∨
    ∃ headerEnd before chunk rest, headOf maxHeaderBytes (buffer ++ chunks.flatten) = .ok headerEnd ∧
      chunks = before ++ chunk :: rest ∧ (buffer ++ before.flatten).length < headerEnd ∧
      headerEnd ≤ (buffer ++ before.flatten ++ chunk).length ∧
      readHeaderBlock maxHeaderBytes buffer chunks = .ok (buffer ++ before.flatten ++ chunk, headerEnd, rest) := by
  induction chunks generalizing buffer with
  | nil =>
    left
    rw [List.flatten_nil, List.append_nil, headOf, hnone]
    unfold readHeaderBlock readHead
    dsimp only
    split <;> exact ⟨_, rfl, rfl⟩
  | cons chunk chunks ih =>
    unfold readHeaderBlock readHead
    by_cases hfull : maxHeaderBytes ≤ buffer.length
    · rw [headOf_too_large hnone hfull, if_pos hfull]
      exact .inl ⟨_, rfl, rfl⟩
    rw [if_neg hfull, List.flatten_cons, ← List.append_assoc]
    cases hfind : findSubslice blankLine (buffer ++ chunk) with
    | none =>
      by_cases hlarge : maxHeaderBytes < (buffer ++ chunk).length
      · rw [headOf_too_large hfind hlarge.le, if_pos ⟨hlarge, rfl⟩]
        exact .inl ⟨_, rfl, rfl⟩
      rw [if_neg fun h => hlarge h.1]
      rcases ih hfind with h | ⟨headerEnd, before, next, rest, hhead, rfl, hlt, hle, hread⟩
      · exact .inl h
      · refine .inr ⟨headerEnd, chunk :: before, next, rest, hhead, rfl, ?_⟩
        rw [List.flatten_cons, ← List.append_assoc]
        exact ⟨hlt, hle, hread⟩
    | some index =>
      have hhead : headOf maxHeaderBytes (buffer ++ chunk ++ chunks.flatten) =
          if maxHeaderBytes < index + 4 then .error (httpParseError 431 "request headers are too large")
          else .ok (index + 4) := by
        rw [headOf, findSubslice_append (by decide) _ hfind]
      rw [if_neg fun h => Option.some_ne_none index h.2]
      by_cases hlimit : maxHeaderBytes < index + 4
      · refine .inl ⟨_, hhead.trans (if_pos hlimit), ?_⟩
        simp [refuseIf, hlimit]
      · refine .inr ⟨index + 4, [], chunk, chunks, hhead.trans (if_neg hlimit), rfl, ?_, ?_, ?_⟩
        · rw [List.flatten_nil, List.append_nil]
          exact length_lt_of_not_found (by decide) hnone hfind
        · rw [List.flatten_nil, List.append_nil]
          exact (findSubslice_spec hfind).1
        · simp [refuseIf, hlimit, pure, Except.pure]

/-! ### What the answer depends on -/

/-- The answer to a stream whose header block was accepted, after this many bytes were read to find it. -/
def answer (stream : List UInt8) (headerEnd : Nat) (head : HttpHead) (seen : Nat) : Except HttpParseError HttpRequest :=
  if head.contentLength < seen - headerEnd then .error (httpParseError 400 "HTTP pipelining is not supported")
  else if stream.length - headerEnd < head.contentLength then .error (httpParseError 400 "incomplete request body")
  else .ok ⟨head.method, head.path, head.headers, (stream.drop headerEnd).take head.contentLength⟩

variable {chunks : List (List UInt8)}

/-- The answer depends on the stream, and on how many bytes the reads up to the end of the header block brought. -/
theorem readHttpRequest_spec (maxHeaderBytes maxBodyBytes : ℕ)
    (hstream : chunks.flatten = stream) :
    (∃ e, headOf maxHeaderBytes stream = .error e ∧ readHttpRequest maxHeaderBytes maxBodyBytes chunks = .error e) ∨
    ∃ headerEnd before chunk rest, headOf maxHeaderBytes stream = .ok headerEnd ∧ chunks = before ++ chunk :: rest ∧
      before.flatten.length < headerEnd ∧ headerEnd ≤ (before.flatten ++ chunk).length ∧
      readHttpRequest maxHeaderBytes maxBodyBytes chunks =
        (parseHead maxBodyBytes (stream.take (headerEnd - 4)) >>= fun head =>
          answer stream headerEnd head (before.flatten ++ chunk).length) := by
  subst hstream
  rcases @readHeaderBlock_spec maxHeaderBytes chunks [] rfl with
    ⟨e, hhead, hread⟩ | ⟨headerEnd, before, chunk, rest, hhead, hchunks, hlt, hle, hread⟩
  · refine .inl ⟨e, hhead, ?_⟩
    unfold readHttpRequest
    rw [hread]
    rfl
  · refine .inr ⟨headerEnd, before, chunk, rest, hhead, hchunks, hlt, hle, ?_⟩
    have hflatten : chunks.flatten = before.flatten ++ chunk ++ rest.flatten := by
      rw [hchunks, List.flatten_append, List.flatten_cons, List.append_assoc]
    rw [List.nil_append] at hle
    unfold readHttpRequest
    rw [hread, hflatten, List.take_append_of_le_length (by omega)]
    dsimp only [ok_bind]
    rw [List.nil_append]
    refine bind_congr fun head => ?_
    generalize before.flatten ++ chunk = buffer at hle ⊢
    unfold answer readExact
    rw [List.length_drop, List.length_append]
    by_cases hpipelined : head.contentLength < buffer.length - headerEnd
    · rw [if_pos hpipelined]
      simp [refuseIf, hpipelined]
    rw [if_neg hpipelined, refuseIf_of_not hpipelined, ok_bind]
    by_cases hshort : rest.flatten.length < head.contentLength - (buffer.length - headerEnd)
    · rw [if_pos hshort, if_pos (by omega)]
      rfl
    · have hbuffer : (buffer.drop headerEnd).take head.contentLength = buffer.drop headerEnd :=
        List.take_of_length_le (by rw [List.length_drop]; omega)
      rw [if_neg hshort, if_neg (by omega), List.drop_append_of_le_length hle, List.take_append, hbuffer,
        List.length_drop]
      rfl

variable {head : HttpHead}

theorem answer_settled {seen : ℕ}
    (h : seen ≤ headerEnd + head.contentLength) :
    answer stream headerEnd head seen = answer stream headerEnd head headerEnd := by
  have hseen : ¬ head.contentLength < seen - headerEnd := by omega
  have hnone : ¬ head.contentLength < headerEnd - headerEnd := by omega
  unfold answer
  rw [if_neg hseen, if_neg hnone]

/-- Bytes that follow the body are noticed by no read: there are none, or the body fills every read that could. -/
def Unnoticed (stream : List UInt8) (headerEnd contentLength : Nat) : Prop :=
  stream.length ≤ headerEnd + contentLength ∨ 2047 ≤ contentLength

variable {maxBodyBytes : ℕ}

/-- Where bytes after the body are never noticed, the answer is one of the stream alone. -/
theorem readHttpRequest_settled
    (hcut : Cut stream chunks) (h : ∀ headerEnd head, headOf maxHeaderBytes stream = .ok headerEnd →
      parseHead maxBodyBytes (stream.take (headerEnd - 4)) = .ok head →
        Unnoticed stream headerEnd head.contentLength) :
    readHttpRequest maxHeaderBytes maxBodyBytes chunks =
      (headOf maxHeaderBytes stream >>= fun headerEnd =>
        parseHead maxBodyBytes (stream.take (headerEnd - 4)) >>= fun head => answer stream headerEnd head headerEnd) := by
  rcases readHttpRequest_spec maxHeaderBytes maxBodyBytes hcut.flatten with
    ⟨e, hhead, hread⟩ | ⟨headerEnd, before, chunk, rest, hhead, hchunks, hlt, _, hread⟩
  · rw [hread, hhead]
    rfl
  · rw [hread, hhead, ok_bind]
    cases hparse : parseHead maxBodyBytes (stream.take (headerEnd - 4)) with
    | error e => rfl
    | ok head =>
      rw [ok_bind, ok_bind]
      refine answer_settled ?_
      have hbounded := hcut.bounded chunk (by rw [hchunks]; simp)
      have hlength : stream.length = before.flatten.length + chunk.length + rest.flatten.length := by
        rw [← hcut.flatten, hchunks]
        simp [Nat.add_assoc]
      rw [List.length_append]
      rcases h headerEnd head hhead hparse with hfits | hlong <;> omega

/-- A stream cut into single bytes. -/
def singly (stream : List UInt8) : List (List UInt8) := stream.map fun byte => [byte]

@[simp] theorem flatten_singly (stream : List UInt8) : (singly stream).flatten = stream := by
  induction stream with
  | nil => rfl
  | cons byte rest ih => simpa [singly] using ih

theorem singly_cut (stream : List UInt8) : Cut stream (singly stream) where
  flatten := flatten_singly stream
  nonempty := by
    intro chunk hmem
    obtain ⟨byte, _, rfl⟩ := List.mem_map.mp hmem
    exact List.cons_ne_nil _ _
  bounded := by
    intro chunk hmem
    obtain ⟨byte, _, rfl⟩ := List.mem_map.mp hmem
    exact Nat.le_of_ble_eq_true rfl

/-- Read byte by byte, a stream shows nothing past its header block. -/
theorem readHttpRequest_singly
    (h : headOf maxHeaderBytes stream = .ok headerEnd) :
    readHttpRequest maxHeaderBytes maxBodyBytes (singly stream) =
      (parseHead maxBodyBytes (stream.take (headerEnd - 4)) >>= fun head =>
        answer stream headerEnd head headerEnd) := by
  rcases readHttpRequest_spec maxHeaderBytes maxBodyBytes
    (flatten_singly stream) with ⟨e, hhead, _⟩ | ⟨headerEnd', before, chunk, rest, hhead, hchunks, hlt, hle, hread⟩
  · rw [h] at hhead
    cases hhead
  · rw [h] at hhead
    cases hhead
    obtain ⟨byte, _, hbyte⟩ := List.mem_map.mp (show chunk ∈ singly stream by rw [hchunks]; simp)
    have hseen : (before.flatten ++ chunk).length = headerEnd := by
      rw [List.length_append, ← hbyte, List.length_singleton] at hle ⊢
      omega
    rw [hread, hseen]

/-- A read that completes the header block may bring along as much as fits. -/
theorem readHttpRequest_overrun {maxHeaderBytes maxBodyBytes : ℕ} {stream : List UInt8} {headerEnd extra : ℕ}
    (h : headOf maxHeaderBytes stream = .ok headerEnd) (hextra : extra < 2048)
    (hlength : headerEnd + extra ≤ stream.length) : ∃ chunks, Cut stream chunks ∧
    readHttpRequest maxHeaderBytes maxBodyBytes chunks =
      (parseHead maxBodyBytes (stream.take (headerEnd - 4)) >>= fun head =>
        answer stream headerEnd head (headerEnd + extra)) := by
  obtain ⟨index, _, rfl, _⟩ := headOf_eq_ok h
  obtain ⟨first, hfirst⟩ : ∃ first, first = stream.take (index + 3) := ⟨_, rfl⟩
  obtain ⟨big, hbig⟩ : ∃ big, big = (stream.drop (index + 3)).take (extra + 1) := ⟨_, rfl⟩
  obtain ⟨last, hlast⟩ : ∃ last, last = (stream.drop (index + 3)).drop (extra + 1) := ⟨_, rfl⟩
  have hfirst_length : first.length = index + 3 := by rw [hfirst, List.length_take]; omega
  have hbig_length : big.length = extra + 1 := by rw [hbig, List.length_take, List.length_drop]; omega
  have hcut : Cut stream (singly first ++ big :: singly last) := by
    refine ⟨?_, fun chunk hmem => ?_, fun chunk hmem => ?_⟩
    · rw [List.flatten_append, List.flatten_cons, flatten_singly, flatten_singly, hfirst, hbig, hlast,
        List.take_append_drop, List.take_append_drop]
    · rcases List.mem_append.mp hmem with hmem | hmem
      · exact (singly_cut first).nonempty chunk hmem
      · rcases List.mem_cons.mp hmem with rfl | hmem
        · exact List.ne_nil_of_length_pos (by omega)
        · exact (singly_cut last).nonempty chunk hmem
    · rcases List.mem_append.mp hmem with hmem | hmem
      · exact (singly_cut first).bounded chunk hmem
      · rcases List.mem_cons.mp hmem with rfl | hmem
        · omega
        · exact (singly_cut last).bounded chunk hmem
  refine ⟨_, hcut, ?_⟩
  rcases readHttpRequest_spec maxHeaderBytes maxBodyBytes
    hcut.flatten with ⟨e, hhead, _⟩ | ⟨headerEnd, before, chunk, rest, hhead, hchunks, hlt, hle, hread⟩
  · rw [h] at hhead
    cases hhead
  · rw [h] at hhead
    cases hhead
    -- the block is completed by the large read: the ones before it stop short, and it goes past the end
    have hseen : (before.flatten ++ chunk).length = index + 4 + extra := by
      rcases List.append_eq_append_iff.mp hchunks with ⟨more, rfl, hmore⟩ | ⟨more, hbefore, hmore⟩
      · cases more with
        | nil =>
          rw [(List.cons.inj hmore).1.symm]
          simp [hfirst_length, hbig_length]
          omega
        | cons big' more =>
          rw [(List.cons.inj hmore).1.symm] at hlt
          simp [hfirst_length, hbig_length] at hlt
          omega
      · cases more with
        | nil =>
          rw [List.append_nil] at hbefore
          rw [← hbefore, (List.cons.inj hmore).1]
          simp [hfirst_length, hbig_length]
          omega
        | cons chunk' more =>
          rw [← (List.cons.inj hmore).1] at hbefore
          have hlength := congrArg (fun chunks => chunks.flatten.length) hbefore
          simp [hfirst_length] at hlength hle
          omega
    rw [hread, hseen]

/-! ### Well-formed requests -/

/-- What stands before the first `:` of a line. -/
def fieldName (line : List Char) : List Char := line.takeWhile (· ≠ ':')

/-- What stands after it. -/
def fieldValue (line : List Char) : List Char := (line.dropWhile (· ≠ ':')).tail

/-- The lines of a header block. -/
def blockLines (block : List UInt8) : List (List Char) := ((decodeUtf8 block).map splitCrlf).getD []

/-- A request as the stream spells it: its header block is the first `index` bytes and reads as these lines. -/
structure WellFormed (maxHeaderBytes : Nat) (stream : List UInt8) (request : HttpRequest) (index : Nat)
    (requestLine : List Char) (lines : List (List Char)) : Prop where
  block : findSubslice blankLine stream = some index
  limit : index + 4 ≤ maxHeaderBytes
  text : blockLines (stream.take index) = requestLine :: lines
  spelled : requestLine = request.method.toList ++ ' ' :: (request.path.toList ++ ' ' :: "HTTP/1.1".toList) ∧
    ' ' ∉ request.method.toList ∧ ' ' ∉ request.path.toList ∧ request.method ≠ "" ∧ request.path ≠ ""
  fields : ∀ line ∈ lines, ∃ name value, line = name ++ ':' :: value ∧ name ≠ [] ∧ ∀ c ∈ name, FieldChar c
  unique : (lines.map fun line => (fieldName line).map Char.toLower).Nodup
  digits : ∀ line ∈ lines, (fieldName line).map Char.toLower = "content-length".toList →
    trim (fieldValue line) ≠ [] ∧ ∀ c ∈ trim (fieldValue line), c.isDigit
  length : ∀ line ∈ lines, (fieldName line).map Char.toLower = "content-length".toList →
    request.body.length = decimal (trim (fieldValue line))
  bodiless : (∀ line ∈ lines, (fieldName line).map Char.toLower ≠ "content-length".toList) → request.body = []
  body : ∃ rest, stream.drop (index + 4) = request.body ++ rest

variable {name : List Char}

theorem fieldName_eq {value : List Char} (h : ':' ∉ name) : fieldName (name ++ ':' :: value) = name := by
  unfold fieldName
  rw [List.takeWhile_append_of_pos fun c hc => by simpa using ne_of_mem_of_not_mem hc h]
  simp

variable {line : List Char}

theorem splitOnce_eq_some {parts : List Char × List Char} (h : splitOnce line = some parts) :
    parts = (fieldName line, fieldValue line) ∧ line = fieldName line ++ ':' :: fieldValue line := by
  unfold splitOnce at h
  unfold fieldName fieldValue
  split at h
  · cases h
  · next c value hdrop =>
    cases h
    rw [hdrop]
    refine ⟨rfl, ?_⟩
    have hcolon : c = ':' := by
      have hne : line.dropWhile (fun c => decide (c ≠ ':')) ≠ [] := by rw [hdrop]; exact List.cons_ne_nil _ _
      have hhead := List.head_dropWhile_not (fun c => decide (c ≠ ':')) hne
      rw [decide_eq_false_iff_not, not_not] at hhead
      rw [← hhead]
      simp only [hdrop, List.head_cons]
    rw [hcolon] at hdrop
    rw [List.tail_cons, ← hdrop]
    exact List.takeWhile_append_dropWhile.symm

/-- The key a line's value is kept under. -/
def lineKey (line : List Char) : String := String.ofList (fieldKey (fieldName line))

variable {headers headers' : BTreeMap String}

theorem insertHeader_eq_ok
    (h : insertHeader headers line = .ok headers') :
    line = fieldName line ++ ':' :: fieldValue line ∧ fieldKey (fieldName line) ≠ [] ∧
      (∀ c ∈ fieldKey (fieldName line), FieldChar c) ∧ headers[lineKey line]? = none ∧
      headers' = headers.insert (lineKey line) (String.ofList (trim (fieldValue line))) := by
  obtain ⟨parts, hparts, h⟩ := bind_eq_ok.mp h
  obtain ⟨rfl, hline⟩ := splitOnce_eq_some (okOr_eq_ok.mp hparts)
  obtain ⟨_, hchecks, h⟩ := bind_eq_ok.mp h
  have hvalid := refuseIf_eq_ok.mp hchecks
  simp only [not_or, Bool.not_eq_false, List.all_eq_true, decide_eq_true_eq, Bool.not_eq_true,
    Option.isSome_eq_false_iff, Option.isNone_iff_eq_none] at hvalid
  obtain ⟨hne, hchars, _, hfresh⟩ := hvalid
  cases h
  exact ⟨hline, hne, hchars, hfresh, rfl⟩

variable {lines : List (List Char)}

/-- What the header lines leave in the map: each line's value under its own key, and no key twice. -/
theorem foldlM_insertHeader
    (h : lines.foldlM insertHeader headers = .ok headers') :
    (∀ line ∈ lines, line = fieldName line ++ ':' :: fieldValue line ∧ fieldKey (fieldName line) ≠ [] ∧
      ∀ c ∈ fieldKey (fieldName line), FieldChar c) ∧
    (lines.map lineKey).Nodup ∧ (∀ line ∈ lines, headers[lineKey line]? = none) ∧
    (∀ line ∈ lines, headers'[lineKey line]? = some (String.ofList (trim (fieldValue line)))) ∧
    ∀ k, (∀ line ∈ lines, lineKey line ≠ k) → headers'[k]? = headers[k]? := by
  induction lines generalizing headers with
  | nil =>
    cases h
    simp
  | cons line lines ih =>
    rw [List.foldlM_cons] at h
    obtain ⟨next, hnext, h⟩ := bind_eq_ok.mp h
    obtain ⟨hline, hne, hchars, hfresh, rfl⟩ := insertHeader_eq_ok hnext
    obtain ⟨hvalid, hnodup, hunused, hfound, hframe⟩ := ih h
    have hother : ∀ other ∈ lines, lineKey other ≠ lineKey line := by
      intro other hmem heq
      have hnone := hunused other hmem
      rw [heq, BTreeMap.get_insert_self] at hnone
      cases hnone
    refine ⟨?_, ?_, ?_, ?_, ?_⟩
    · exact List.forall_mem_cons.mpr ⟨⟨hline, hne, hchars⟩, hvalid⟩
    · rw [List.map_cons, List.nodup_cons]
      refine ⟨fun hmem => ?_, hnodup⟩
      obtain ⟨other, hother_mem, heq⟩ := List.mem_map.mp hmem
      exact hother other hother_mem heq
    · refine List.forall_mem_cons.mpr ⟨hfresh, fun other hmem => ?_⟩
      have hnone := hunused other hmem
      rwa [BTreeMap.get_insert_of_ne (Ne.symm (hother other hmem))] at hnone
    · refine List.forall_mem_cons.mpr ⟨?_, hfound⟩
      rw [hframe _ hother, BTreeMap.get_insert_self]
    · intro k hk
      obtain ⟨hfirst, hrest⟩ := List.forall_mem_cons.mp hk
      rw [hframe k hrest, BTreeMap.get_insert_of_ne hfirst]

theorem not_mem_of_mem_splitOn {sep : Char} : ∀ {text part : List Char}, part ∈ text.splitOn sep → sep ∉ part
  | [], part, h => by
    rw [List.splitOn_nil, List.mem_singleton] at h
    rw [h]
    exact List.not_mem_nil
  | c :: text, part, h => by
    rw [List.splitOn_cons_eq_if_modifyHead] at h
    split at h
    · rcases List.mem_cons.mp h with rfl | h
      · exact List.not_mem_nil
      · exact not_mem_of_mem_splitOn h
    · next hsep =>
      have hne : sep ≠ c := by
        rintro rfl
        exact hsep (beq_self_eq_true sep)
      cases hsplit : text.splitOn sep with
      | nil => exact absurd hsplit (List.splitOn_ne_nil sep text)
      | cons first rest =>
        rw [hsplit, List.modifyHead_cons] at h
        rcases List.mem_cons.mp h with rfl | h
        · refine List.not_mem_cons_of_ne_of_not_mem hne (@not_mem_of_mem_splitOn sep text _ ?_)
          rw [hsplit]
          exact List.mem_cons_self
        · refine @not_mem_of_mem_splitOn sep text _ ?_
          rw [hsplit]
          exact List.mem_cons_of_mem _ h

theorem parseRequestLine_eq_ok {method path : List Char} (h : parseRequestLine line = .ok (method, path)) :
    line = method ++ ' ' :: (path ++ ' ' :: "HTTP/1.1".toList) ∧ ' ' ∉ method ∧ ' ' ∉ path ∧ method ≠ [] ∧
      path ≠ [] := by
  unfold parseRequestLine at h
  split at h
  · next method' path' version hsplit =>
    split at h
    · cases h
    · next hvalid =>
      cases h
      simp only [not_or, not_not] at hvalid
      obtain ⟨hmethod, hpath, rfl⟩ := hvalid
      have hjoin := @List.intercalate_splitOn Char line _ _ ' '
      rw [hsplit] at hjoin
      refine ⟨?_, not_mem_of_mem_splitOn (hsplit ▸ List.mem_cons_self),
        not_mem_of_mem_splitOn (hsplit ▸ List.mem_cons_of_mem _ List.mem_cons_self), ?_, hpath⟩
      · rw [← hjoin]
        simp [List.intercalate]
      · rintro rfl
        revert hmethod
        decide
  · cases h

/-- What an accepted header block says. -/
theorem parseHead_eq_ok {header : List UInt8}
    (h : parseHead maxBodyBytes header = .ok head) : ∃ requestLine lines,
    blockLines header = requestLine :: lines ∧
    parseRequestLine requestLine = .ok (head.method.toList, head.path.toList) ∧
    lines.foldlM insertHeader ∅ = .ok head.headers ∧
    contentLength head.method.toList head.headers = .ok head.contentLength := by
  obtain ⟨text, htext, h⟩ := bind_eq_ok.mp h
  obtain ⟨requestLine, hfirst, h⟩ := bind_eq_ok.mp h
  obtain ⟨⟨method, path⟩, hline, h⟩ := bind_eq_ok.mp h
  obtain ⟨headers, hheaders, h⟩ := bind_eq_ok.mp h
  obtain ⟨_, _, h⟩ := bind_eq_ok.mp h
  obtain ⟨_, _, h⟩ := bind_eq_ok.mp h
  obtain ⟨length, hlength, h⟩ := bind_eq_ok.mp h
  obtain ⟨_, _, h⟩ := bind_eq_ok.mp h
  obtain ⟨_, _, h⟩ := bind_eq_ok.mp h
  cases h
  refine ⟨requestLine, (splitCrlf text).tail, ?_, ?_, hheaders, ?_⟩
  · rw [blockLines, okOr_eq_ok.mp htext, Option.map_some, Option.getD_some]
    exact (List.eq_cons_of_mem_head? (okOr_eq_ok.mp hfirst))
  · simpa using hline
  · simpa using hlength

/-- What the parser misses in an accepted header block: a name padded with white space, a length with a sign. -/
def Spotless (block : List UInt8) : Prop :=
  (∀ line ∈ (blockLines block).tail, trim (fieldName line) = fieldName line) ∧
  ∀ line ∈ (blockLines block).tail, fieldKey (fieldName line) = "content-length".toList →
    (trim (fieldValue line)).head? ≠ some '+'

/-- Every cut of the stream gives one answer, and what is accepted is well formed. -/
def Faithful (maxHeaderBytes maxBodyBytes : Nat) (stream : List UInt8) : Prop :=
  (∀ chunks chunks', Cut stream chunks → Cut stream chunks' →
    readHttpRequest maxHeaderBytes maxBodyBytes chunks = readHttpRequest maxHeaderBytes maxBodyBytes chunks') ∧
  ∀ chunks, Cut stream chunks → ∀ request, readHttpRequest maxHeaderBytes maxBodyBytes chunks = .ok request →
    ∃ index requestLine lines, WellFormed maxHeaderBytes stream request index requestLine lines

/-- A stream whose header block is accepted and whose body has arrived is spelled strictly, and nothing follows the
body that a read could have noticed. -/
def Strict (maxHeaderBytes maxBodyBytes : Nat) (stream : List UInt8) : Prop :=
  ∀ headerEnd head, headOf maxHeaderBytes stream = .ok headerEnd →
    parseHead maxBodyBytes (stream.take (headerEnd - 4)) = .ok head →
    headerEnd + head.contentLength ≤ stream.length →
      Spotless (stream.take (headerEnd - 4)) ∧ Unnoticed stream headerEnd head.contentLength

variable {c : Char}

theorem fieldChar_of_toLower (h : FieldChar c.toLower) : FieldChar c := by
  by_cases hupper : c.isUpper
  · left
    simp [Char.isAlphanum, Char.isAlpha, hupper]
  · unfold Char.toLower at h
    rwa [dif_neg (by simpa [Char.isUpper] using hupper)] at h

theorem isAlphanum_range (h : c.isAlphanum) :
    (65 ≤ c.toNat ∧ c.toNat ≤ 90) ∨ (97 ≤ c.toNat ∧ c.toNat ≤ 122) ∨ (48 ≤ c.toNat ∧ c.toNat ≤ 57) := by
  simp only [Char.isAlphanum, Char.isAlpha, Char.isUpper, Char.isLower, Char.isDigit, Bool.or_eq_true,
    Bool.and_eq_true, decide_eq_true_eq, UInt32.le_iff_toNat_le, ge_iff_le] at h
  change ((65 ≤ c.toNat ∧ c.toNat ≤ 90) ∨ (97 ≤ c.toNat ∧ c.toNat ≤ 122)) ∨ (48 ≤ c.toNat ∧ c.toNat ≤ 57) at h
  omega

/-- No character of a field's name is white space. -/
theorem not_whitespace_of_fieldChar (h : FieldChar c) : isWhitespace c = false := by
  rcases h with h | rfl
  · have hrange := isAlphanum_range h
    simp only [isWhitespace, Bool.or_eq_false_iff, Bool.and_eq_false_iff, decide_eq_false_iff_not,
      List.contains_eq_mem, List.mem_cons, List.not_mem_nil, or_false]
    omega
  · decide

theorem unpadded_of_fieldChars (h : ∀ c ∈ name, FieldChar c) : Unpadded name :=
  ⟨fun c hc => not_whitespace_of_fieldChar (h c (List.mem_of_mem_head? hc)),
    fun c hc => not_whitespace_of_fieldChar (h c (List.mem_of_getLast? hc))⟩

theorem not_colon_of_fieldChars (h : ∀ c ∈ name, FieldChar c) : ':' ∉ name :=
  fun hmem => absurd (h _ hmem) (by decide)

variable {request : HttpRequest}

/-- A well-formed request has no padded name and no signed length. -/
theorem WellFormed.spotless
    {requestLine : List Char}
    (h : WellFormed maxHeaderBytes stream request index requestLine lines) : Spotless (stream.take index) := by
  have hname : ∀ line ∈ lines, trim (fieldName line) = fieldName line := by
    intro line hmem
    obtain ⟨name, value, rfl, _, hchars⟩ := h.fields line hmem
    rw [fieldName_eq (not_colon_of_fieldChars hchars), trim_unpadded (unpadded_of_fieldChars hchars)]
  unfold Spotless
  rw [h.text, List.tail_cons]
  refine ⟨hname, fun line hmem hkey hsign => ?_⟩
  rw [fieldKey, hname line hmem] at hkey
  obtain ⟨_, hdigits⟩ := h.digits line hmem hkey
  exact absurd (hdigits '+' (List.mem_of_mem_head? hsign)) (by decide)

/-- An accepted request of a spotless block is well formed. -/
theorem wellFormed_of_answer (hhead : headOf maxHeaderBytes stream = .ok headerEnd)
    (hparse : parseHead maxBodyBytes (stream.take (headerEnd - 4)) = .ok head)
    (hspotless : Spotless (stream.take (headerEnd - 4)))
    (h : answer stream headerEnd head headerEnd = .ok request) :
    ∃ index requestLine lines, WellFormed maxHeaderBytes stream request index requestLine lines := by
  obtain ⟨index, hfind, rfl, hlimit⟩ := headOf_eq_ok hhead
  rw [Nat.add_sub_cancel] at hparse hspotless
  obtain ⟨requestLine, lines, htext, hline, hheaders, hlength⟩ := parseHead_eq_ok hparse
  obtain ⟨hspelled, hmethod, hpath, hmethod_ne, hpath_ne⟩ := parseRequestLine_eq_ok hline
  obtain ⟨hvalid, hnodup, _, hfound, hframe⟩ := foldlM_insertHeader hheaders
  unfold Spotless at hspotless
  rw [htext, List.tail_cons] at hspotless
  have hkey : ∀ line ∈ lines, lineKey line = String.ofList ((fieldName line).map Char.toLower) := by
    intro line hmem
    rw [lineKey, fieldKey, hspotless.1 line hmem]
  unfold answer at h
  rw [if_neg (by omega)] at h
  split at h
  · cases h
  next hbody =>
  cases h
  have hdeclared : ∀ line ∈ lines, (fieldName line).map Char.toLower = "content-length".toList →
      parseUsize (trim (fieldValue line)) = some head.contentLength := by
    intro line hmem hname
    have hvalue := hfound line hmem
    rw [hkey line hmem, hname, String.ofList_toList] at hvalue
    unfold contentLength at hlength
    rw [hvalue] at hlength
    simpa using hlength
  have hdigits := fun line hmem hname => parseUsize_digits (hdeclared line hmem hname)
    (hspotless.2 line hmem (by rw [fieldKey, hspotless.1 line hmem]; exact hname))
  refine ⟨index, requestLine, lines, hfind, hlimit, htext, ?_, ?_, ?_, ?_, ?_, ?_, ?_⟩
  · exact ⟨hspelled, hmethod, hpath, fun h => hmethod_ne (String.toList_eq_nil_iff.mpr h),
      fun h => hpath_ne (String.toList_eq_nil_iff.mpr h)⟩
  · intro line hmem
    obtain ⟨hcolon, hne, hchars⟩ := hvalid line hmem
    rw [fieldKey, hspotless.1 line hmem] at hne hchars
    refine ⟨_, _, hcolon, fun hnil => hne (by rw [hnil]; rfl), fun c hc => fieldChar_of_toLower ?_⟩
    exact hchars _ (List.mem_map_of_mem hc)
  · have hkeys : lines.map lineKey = (lines.map fun line => (fieldName line).map Char.toLower).map String.ofList := by
      rw [List.map_map]
      exact List.map_congr_left hkey
    rw [hkeys] at hnodup
    exact List.Pairwise.of_map String.ofList (fun name name' hne heq => hne (by rw [heq])) hnodup
  · intro line hmem hname
    obtain ⟨hne, hall, _⟩ := hdigits line hmem hname
    exact ⟨hne, hall⟩
  · intro line hmem hname
    rw [List.length_take, List.length_drop, (hdigits line hmem hname).2.2.symm]
    omega
  · intro hnone
    have habsent : head.headers["content-length"]? = none := by
      rw [hframe "content-length" fun line hmem heq => hnone line hmem ?_]
      · simp
      · rw [hkey line hmem] at heq
        rw [← String.toList_ofList (l := (fieldName line).map Char.toLower), heq]
    unfold contentLength at hlength
    rw [habsent] at hlength
    dsimp only at hlength
    split at hlength
    · cases hlength
    · rw [← Except.ok.inj hlength, List.take_zero]
  · exact ⟨(stream.drop (index + 4)).drop head.contentLength, (List.take_append_drop _ _).symm⟩

/-- **The answer is one of the stream alone, and what is accepted is well formed, exactly on the streams that are
spelled strictly.** A head that is refused and a body that does not arrive are refused under every cut. -/
theorem faithful_iff (maxHeaderBytes maxBodyBytes : ℕ) (stream : List UInt8) :
    Faithful maxHeaderBytes maxBodyBytes stream ↔ Strict maxHeaderBytes maxBodyBytes stream := by
  constructor
  · rintro ⟨hsame, hwell⟩ headerEnd head hhead hparse hbody
    have hread : readHttpRequest maxHeaderBytes maxBodyBytes (singly stream) = .ok ⟨head.method, head.path,
        head.headers, (stream.drop headerEnd).take head.contentLength⟩ := by
      rw [readHttpRequest_singly hhead, hparse, ok_bind, answer, if_neg (by omega), if_neg (by omega)]
    constructor
    · obtain ⟨index, requestLine, lines, h⟩ := hwell _ (singly_cut stream) _ hread
      obtain ⟨index', hfind, rfl, _⟩ := headOf_eq_ok hhead
      cases h.block.symm.trans hfind
      exact h.spotless
    · by_contra hnoticed
      unfold Unnoticed at hnoticed
      obtain ⟨chunks, hcut, hoverrun⟩ := @readHttpRequest_overrun maxHeaderBytes maxBodyBytes stream headerEnd
        (head.contentLength + 1) hhead (by omega) (by omega)
      rw [← hsame _ _ (singly_cut stream) hcut, hread, hparse, ok_bind, answer, if_pos (by omega)] at hoverrun
      cases hoverrun
  · intro h
    have hunnoticed : ∀ headerEnd head, headOf maxHeaderBytes stream = .ok headerEnd →
        parseHead maxBodyBytes (stream.take (headerEnd - 4)) = .ok head →
          Unnoticed stream headerEnd head.contentLength := by
      intro headerEnd head hhead hparse
      by_cases hbody : headerEnd + head.contentLength ≤ stream.length
      · exact (h headerEnd head hhead hparse hbody).2
      · exact .inl (by omega)
    refine ⟨fun chunks chunks' hcut hcut' => ?_, fun chunks hcut request hread => ?_⟩
    · rw [readHttpRequest_settled hcut hunnoticed, readHttpRequest_settled hcut' hunnoticed]
    · rw [readHttpRequest_settled hcut hunnoticed] at hread
      obtain ⟨headerEnd, hhead, hread⟩ := bind_eq_ok.mp hread
      obtain ⟨head, hparse, hread⟩ := bind_eq_ok.mp hread
      refine wellFormed_of_answer hhead hparse (h headerEnd head hhead hparse ?_).1 hread
      by_contra hbody
      obtain ⟨index, hfind, rfl, _⟩ := headOf_eq_ok hhead
      have hblock : index + 4 ≤ stream.length := (findSubslice_spec hfind).1
      unfold answer at hread
      rw [if_neg (by omega), if_pos (by omega)] at hread
      cases hread

/-- A request without a body, and one more byte. -/
def requestAndMore : List UInt8 := utf8 "GET / HTTP/1.1\r\nHost: x".toList ++ blankLine ++ [88]

/-- With the byte in the last read of the header block the request is refused, and without it accepted. -/
theorem not_faithful : ¬ Faithful 8192 65536 requestAndMore := by
  rintro ⟨hsame, _⟩
  have hwhole : Cut requestAndMore [requestAndMore] :=
    ⟨by decide +kernel, by decide +kernel, by decide +kernel⟩
  have hparts : Cut requestAndMore [requestAndMore.dropLast, [88]] :=
    ⟨by decide +kernel, by decide +kernel, by decide +kernel⟩
  have hrefused : (readHttpRequest 8192 65536 [requestAndMore]).toBool = false := by decide +kernel
  have haccepted : (readHttpRequest 8192 65536 [requestAndMore.dropLast, [88]]).toBool = true := by decide +kernel
  rw [hsame _ _ hwhole hparts, haccepted] at hrefused
  cases hrefused

end AikitRuntime.Mcp
