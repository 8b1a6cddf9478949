/-
# Streaming a result to the client

A large JSON-RPC response is not buffered.  The bytes of its `result` are cut out
of the envelope while they arrive, and each read is sent to the client as one
chunk of the reply.  The reply's metadata travels on the first chunk, and the
last chunk is marked final.

The main result says what the client receives, however the response is split into
reads: exactly the bytes of the value and one final chunk at the end; and if the
response breaks off inside the value, an error and no final chunk.
-/

import Nodecore.Protocol.AnalyzeChunk

namespace Nodecore.Emerald

open Lib.Json Protocol

inductive FinalizationType
  | finalizationSafeBlock | finalizationFinalizedBlock
  deriving DecidableEq, Repr

structure FinalizationData where
  height : UInt64
  type : FinalizationType
  deriving DecidableEq, Repr

structure KeyValue where
  key : String
  value : String
  deriving DecidableEq, Repr

/-- The response-level fields of a reply item. -/
structure ReplyMetadata where
  upstreamId : String := ""
  upstreamNodeVersion : String := ""
  finalization : Option FinalizationData := none
  responseHeaders : List KeyValue := []
  deriving DecidableEq, Repr

structure NativeCallReplyItem extends ReplyMetadata where
  id : UInt32
  succeed : Bool
  payload : List UInt8
  chunked : Bool
  finalChunk : Bool
  deriving DecidableEq, Repr

/-- The pairs of a header, given in the order in which the map is ranged over. -/
def mapHeaders (headers : List (String × List String)) : List KeyValue :=
  headers.flatMap fun entry => entry.2.map fun value => ⟨entry.1, value⟩

/-- A call and the client's end of it: what sending the next item returns after
so many items, and after how many reads its context is found cancelled. -/
structure NativeCall where
  requestID : UInt32
  upstreamID : String
  upstreamNodeVersion : String
  finalization : Option FinalizationData
  header : List (String × List String)
  send : ℕ → Option String := fun _ => none
  cancelled : Option ℕ := none

def NativeCall.metadata (call : NativeCall) : ReplyMetadata where
  upstreamId := call.upstreamID
  upstreamNodeVersion := call.upstreamNodeVersion
  finalization := call.finalization
  responseHeaders := mapHeaders call.header

/-- The client takes every item and stays until the end. -/
structure NativeCall.Steady (call : NativeCall) : Prop where
  sends : ∀ n, call.send n = none
  stays : call.cancelled = none

/-- The emitter of a call, with the items it has handed to the client's stream. -/
structure NativeCallChunkEmitter where
  emitted : Bool := false
  finalSent : Bool := false
  items : List NativeCallReplyItem := []
  deriving DecidableEq, Repr

namespace NativeCallChunkEmitter

/-- The item a chunk is sent as: the metadata travels on the first chunk only. -/
def item (call : NativeCall) (chunk : List UInt8) (first final : Bool) : NativeCallReplyItem :=
  { id := call.requestID, succeed := true, payload := chunk, chunked := true,
    finalChunk := final, toReplyMetadata := if first then call.metadata else {} }

def emit (call : NativeCall) (emitter : NativeCallChunkEmitter) (chunk : List UInt8)
    (first final : Bool) : NativeCallChunkEmitter × Option String :=
  ({ emitter with items := emitter.items ++ [item call chunk first final] },
    call.send emitter.items.length)

def writeChunk (call : NativeCall) (emitter : NativeCallChunkEmitter) (p : List UInt8)
    (final : Bool) : NativeCallChunkEmitter × Option String :=
  if p.isEmpty && !final then (emitter, none)
  else
    emit call { emitter with emitted := true, finalSent := emitter.finalSent || final } p
      (!emitter.emitted) final

def finish (call : NativeCall) (emitter : NativeCallChunkEmitter) :
    NativeCallChunkEmitter × Option String :=
  if emitter.finalSent then (emitter, none) else writeChunk call emitter [] true

end NativeCallChunkEmitter

/-- A reader: the pieces in which its bytes arrive, and the error at their end
unless that is the end of the file. -/
structure Reader where
  reads : List (List UInt8)
  failure : Option String := none
  deriving DecidableEq, Repr

/-- Read until the buffer is full or the pieces are used up. -/
def readFull : ℕ → List (List UInt8) → List UInt8 × List (List UInt8)
  | _, [] => ([], [])
  | size, piece :: rest =>
    if piece.length < size then
      let filled := readFull (size - piece.length) rest
      (piece ++ filled.1, filled.2)
    else (piece.take size, piece.drop size :: rest)

def streamReadChunkSize : ℕ := 32 * 1024

/-- One read-ahead buffer, or a read error. -/
inductive ReadChunk
  | buf (bytes : List UInt8)
  | err (message : String)
  deriving DecidableEq, Repr

/-- The reads that return something, at most a buffer at a time. -/
def Reader.chunks (reader : Reader) : List (List UInt8) :=
  (reader.reads.flatMap (·.toChunks streamReadChunkSize)).filter (!·.isEmpty)

/-- What the producer puts on the channel: the reads and then the error that ends
them.  A producer that finds the context cancelled puts nothing more on it. -/
def producer (cancelled : Option ℕ) (reader : Reader) : List ReadChunk :=
  let produced := reader.chunks.map .buf ++ reader.failure.toList.map .err
  match cancelled with
  | none => produced
  | some count => produced.take count

/-- The consumer's loop: once the stream is complete, what is left is drained and
its errors are ignored. -/
def streamReadAhead {σ : Type} (process : σ → List UInt8 → σ × Except String Bool) :
    Bool → σ → List ReadChunk → σ × Option String
  | _, state, [] => (state, none)
  | true, state, _ :: rest => streamReadAhead process true state rest
  | false, state, .err message :: _ => (state, some message)
  | false, state, .buf bytes :: rest =>
    match process state bytes with
    | (state, .error message) => (state, some message)
    | (state, .ok done) => streamReadAhead process done state rest

/-- Whether the value is complete, unless the chunk could not be sent. -/
def writeOutcome (done : Bool) : Option String → Except String Bool
  | some message => .error message
  | none => .ok done

/-- Send the bytes of the value at the front of a buffer, and say whether the
value is complete. -/
def emitFromBuffer (call : NativeCall) (emitter : NativeCallChunkEmitter) (buf : List UInt8)
    (counter : ResultCounter) : NativeCallChunkEmitter × ResultCounter × Except String Bool :=
  match counter.scan buf with
  | (taken, .finishHere) =>
    let (emitter, err) := emitter.writeChunk call taken true
    (emitter, counter, writeOutcome true err)
  | (taken, .stopBefore) =>
    if taken.isEmpty then (emitter, counter, .ok true)
    else
      let (emitter, err) := emitter.writeChunk call taken true
      (emitter, counter, writeOutcome true err)
  | (_, .overflow counter) =>
    if buf.isEmpty then (emitter, counter, .ok false)
    else
      let (emitter, err) := emitter.writeChunk call buf false
      (emitter, counter, writeOutcome false err)

/-- The variables the read-ahead loop works on. -/
structure Unwrapping where
  emitter : NativeCallChunkEmitter
  counter : ResultCounter
  completed : Bool := false

def Unwrapping.process (call : NativeCall) (state : Unwrapping) (buf : List UInt8) :
    Unwrapping × Except String Bool :=
  match emitFromBuffer call state.emitter buf state.counter with
  | (emitter, counter, .error message) => ({ state with emitter, counter }, .error message)
  | (emitter, counter, .ok done) =>
    ({ emitter, counter, completed := state.completed || done }, .ok done)

def parseError (message : String) : String := "unable to parse stream response: " ++ message

/-- The continuation of a result that did not end within the first buffer. -/
def streamContinuation (call : NativeCall) (reader : Reader) (emitter : NativeCallChunkEmitter)
    (counter : ResultCounter) : NativeCallChunkEmitter × Option String :=
  match streamReadAhead (Unwrapping.process call) false { emitter, counter }
    (producer call.cancelled reader) with
  | (state, some message) => (state.emitter, some (parseError message))
  | (state, none) =>
    if state.completed then (state.emitter, none)
    else (state.emitter, some (parseError "result value truncated"))

def streamJsonRPCResult (call : NativeCall) (reader : Reader) (emitter : NativeCallChunkEmitter)
    (start : ℤ) (counter : ResultCounter) : NativeCallChunkEmitter × Option String :=
  let filled := readFull maxChunkSize reader.reads
  let exhausted := decide (filled.1.length < maxChunkSize)
  -- a buffer that was filled hides the error of the reader until the next read
  match if exhausted then reader.failure else none with
  | some message => (emitter, some (parseError message))
  | none =>
    if start < 0 ∨ (filled.1.length : ℤ) < start then
      (emitter, some (parseError "result field is missing"))
    else
      match emitFromBuffer call emitter (filled.1.drop start.toNat) counter with
      | (emitter, _, .error message) => (emitter, some message)
      | (emitter, _, .ok true) => (emitter, none)
      | (emitter, counter, .ok false) =>
        if exhausted then (emitter, some (parseError "result value truncated"))
        else streamContinuation call { reader with reads := filled.2 } emitter counter

inductive StreamMode
  | unwrapJsonRpcResultStream
  | passThroughStream
  | other (mode : ℤ)
  deriving DecidableEq, Repr

def streamNativeCallBody (call : NativeCall) (reader : Reader) (mode : StreamMode) (resultStart : ℤ)
    (resultCounter : ResultCounter) : NativeCallChunkEmitter × Option String :=
  let streamed : NativeCallChunkEmitter × Option String :=
    match mode with
    | .unwrapJsonRpcResultStream =>
      streamJsonRPCResult call reader {} resultStart resultCounter
    | .passThroughStream =>
      streamReadAhead
        (fun emitter buf =>
          match emitter.writeChunk call buf false with
          | (emitter, some message) => (emitter, .error message)
          | (emitter, none) => (emitter, .ok false))
        false {} (producer call.cancelled reader)
    | .other mode => ({}, some ("unknown stream mode " ++ toString mode))
  match streamed with
  | (emitter, some message) => (emitter, some message)
  | (emitter, none) => emitter.finish call

/-- The metadata is on the first item and on no other. -/
def Stamped (call : NativeCall) (items : List NativeCallReplyItem) : Prop :=
  ∀ i item, items[i]? = some item →
    item.toReplyMetadata = if i = 0 then call.metadata else {}

/-- The emitter has sent these bytes and no final chunk yet. -/
structure Delivering (call : NativeCall) (emitter : NativeCallChunkEmitter)
    (sent : List UInt8) : Prop where
  emitted : emitter.emitted = !emitter.items.isEmpty
  finalSent : emitter.finalSent = false
  payloads : emitter.items.flatMap (·.payload) = sent
  stamped : Stamped call emitter.items
  unfinished : ∀ item ∈ emitter.items, item.finalChunk = false

/-- The items carry exactly these bytes, and the last of them alone is final. -/
structure Delivered (call : NativeCall) (items : List NativeCallReplyItem)
    (sent : List UInt8) : Prop where
  payloads : items.flatMap (·.payload) = sent
  stamped : Stamped call items
  final : ∃ others last, items = others ++ [last] ∧ last.finalChunk = true ∧
    ∀ item ∈ others, item.finalChunk = false

/-- Everything has been sent, and what may still be missing is the final mark. -/
def Complete (call : NativeCall) (emitter : NativeCallChunkEmitter) (sent : List UInt8) : Prop :=
  Delivering call emitter sent ∨ emitter.finalSent = true ∧ Delivered call emitter.items sent

section Emitter

open NativeCallChunkEmitter

variable {call : NativeCall} {emitter : NativeCallChunkEmitter} {sent : List UInt8}

theorem delivering_start (call : NativeCall) : Delivering call {} [] where
  emitted := rfl
  finalSent := rfl
  payloads := rfl
  stamped := by simp [Stamped]
  unfinished := by simp

theorem stamped_append {items : List NativeCallReplyItem} {item : NativeCallReplyItem}
    (stamped : Stamped call items)
    (added : item.toReplyMetadata = if items.isEmpty then call.metadata else {}) :
    Stamped call (items ++ [item]) := by
  intro i found hfound
  rcases Nat.lt_trichotomy i items.length with inside | atEnd | beyond
  · rw [List.getElem?_append_left inside] at hfound
    exact stamped i found hfound
  · rw [atEnd, List.getElem?_concat_length, Option.some.injEq] at hfound
    rw [← hfound, added, atEnd]
    simp [List.length_eq_zero_iff]
  · rw [List.getElem?_eq_none (by simp; omega)] at hfound
    cases hfound

section

variable (delivering : Delivering call emitter sent) (p : List UInt8)
include delivering p

theorem writeChunk_of_delivering (final : Bool) (sends : (p.isEmpty && !final) = false) :
    (emitter.writeChunk call p final).1 =
        { emitted := true, finalSent := final,
          items := emitter.items ++ [item call p emitter.items.isEmpty final] } ∧
      Stamped call (emitter.items ++ [item call p emitter.items.isEmpty final]) := by
  constructor
  · rw [writeChunk, if_neg (by simp [sends]), emit, delivering.finalSent, Bool.false_or,
      delivering.emitted, Bool.not_not]
  · exact stamped_append delivering.stamped rfl

theorem Delivering.writeChunk :
    Delivering call (emitter.writeChunk call p false).1 (sent ++ p) := by
  cases p with
  | nil =>
    rw [List.append_nil]
    exact delivering
  | cons b p =>
    obtain ⟨written, stamped⟩ := writeChunk_of_delivering delivering (b :: p) false rfl
    rw [written]
    exact
      { emitted := by simp
        finalSent := rfl
        payloads := by simp [delivering.payloads, item]
        stamped := stamped
        unfinished := by
          simp only [List.mem_append, List.mem_singleton]
          rintro other (earlier | rfl)
          · exact delivering.unfinished other earlier
          · rfl }

theorem Delivering.writeFinal :
    (emitter.writeChunk call p true).1.finalSent = true ∧
      Delivered call (emitter.writeChunk call p true).1.items (sent ++ p) := by
  obtain ⟨written, stamped⟩ := writeChunk_of_delivering delivering p true (by simp)
  rw [written]
  refine ⟨rfl, ⟨by simp [delivering.payloads, item], stamped, ?_⟩⟩
  exact ⟨emitter.items, _, rfl, rfl, delivering.unfinished⟩

end

theorem writeChunk_of_steady (steady : call.Steady) (p : List UInt8) (final : Bool) :
    (emitter.writeChunk call p final).2 = none := by
  rw [NativeCallChunkEmitter.writeChunk]
  split
  · rfl
  · exact steady.sends _

theorem Complete.finish (complete : Complete call emitter sent) (steady : call.Steady) :
    (emitter.finish call).2 = none ∧ Delivered call (emitter.finish call).1.items sent := by
  rcases complete with delivering | ⟨finalSent, delivered⟩
  · rw [NativeCallChunkEmitter.finish, if_neg (by simp [delivering.finalSent])]
    have final := (delivering.writeFinal []).2
    rw [List.append_nil] at final
    exact ⟨writeChunk_of_steady steady [] true, final⟩
  · rw [NativeCallChunkEmitter.finish, if_pos finalSent]
    exact ⟨rfl, delivered⟩

end Emitter

variable (size : ℕ)

theorem flatten_toChunks_go {α : Type} (xs : List α) (held : Array α) (chunks : Array (List α)) :
    (List.toChunks.go size xs held chunks).flatten =
      chunks.toList.flatten ++ held.toList ++ xs := by
  induction xs generalizing held chunks with
  | nil => simp [List.toChunks.go]
  | cons x xs ih =>
    rw [List.toChunks.go]
    split
    · rw [ih]
      simp
    · rw [ih]
      simp

theorem flatten_toChunks {α : Type} (xs : List α) : (xs.toChunks size).flatten = xs := by
  cases xs with
  | nil => rfl
  | cons x xs =>
    cases size with
    | zero => simp [List.toChunks]
    | succ size => simp [List.toChunks, flatten_toChunks_go]

theorem readFull_eq (reads : List (List UInt8)) :
    (readFull size reads).1 = reads.flatten.take size ∧
      (readFull size reads).2.flatten = reads.flatten.drop size := by
  induction reads generalizing size with
  | nil => simp [readFull]
  | cons piece rest ih =>
    rw [readFull]
    split
    · rename_i short
      rw [List.flatten_cons, List.take_append, List.take_of_length_le (Nat.le_of_lt short),
        List.drop_append, List.drop_of_length_le (Nat.le_of_lt short), List.nil_append]
      exact ⟨congrArg (piece ++ ·) (ih _).1, (ih _).2⟩
    · rename_i long
      rw [List.flatten_cons, List.take_append_of_le_length (Nat.le_of_not_lt long),
        List.drop_append_of_le_length (Nat.le_of_not_lt long)]
      exact ⟨rfl, List.flatten_cons⟩

theorem flatten_readFull_of_short {size : ℕ} {reads : List (List UInt8)}
    (short : (readFull size reads).1.length < size) : (readFull size reads).2.flatten = [] := by
  obtain ⟨hbuffered, hrest⟩ := readFull_eq size reads
  rw [hbuffered, List.length_take] at short
  rw [hrest]
  exact List.drop_of_length_le (by omega)

namespace ReadChunk

def bytes : ReadChunk → List UInt8
  | buf bytes => bytes
  | err _ => []

end ReadChunk

theorem Reader.flatten_chunks (reader : Reader) : reader.chunks.flatten = reader.reads.flatten := by
  rw [chunks, List.flatten_filter_not_isEmpty]
  induction reader.reads with
  | nil => rfl
  | cons piece rest ih =>
    rw [List.flatMap_cons, List.flatten_append, flatten_toChunks, ih, List.flatten_cons]

theorem flatMap_bytes_producer (cancelled : Option ℕ) (reader : Reader) :
    (producer cancelled reader).flatMap ReadChunk.bytes <+: reader.reads.flatten := by
  have produced : (producer none reader).flatMap ReadChunk.bytes = reader.reads.flatten := by
    rw [← reader.flatten_chunks, producer, List.flatMap_append, List.flatMap_map,
      List.flatMap_map, ← List.flatMap_id]
    cases reader.failure with
    | none | some message => exact List.append_nil _
  cases cancelled with
  | none => exact produced ▸ List.prefix_rfl
  | some count =>
    show ((producer none reader).take count).flatMap ReadChunk.bytes <+: _
    rw [← produced]
    conv => rhs; rw [← List.take_append_drop count (producer none reader)]
    rw [List.flatMap_append]
    exact List.prefix_append ..

section Buffer

variable {call : NativeCall} {emitter : NativeCallChunkEmitter} {counter : ResultCounter}
  {sent value later buf rest : List UInt8}

theorem emitFromBuffer_of_overflow {next : ResultCounter}
    (scanned : counter.scan buf = (buf, .overflow next)) :
    emitFromBuffer call emitter buf counter =
      ((emitter.writeChunk call buf false).1, next,
        writeOutcome false (emitter.writeChunk call buf false).2) := by
  cases buf with
  | nil =>
    simp only [emitFromBuffer, scanned]
    rfl
  | cons b buf =>
    simp only [emitFromBuffer, scanned, List.isEmpty_cons, Bool.false_eq_true, if_false]

theorem emitFromBuffer_of_steady (steady : call.Steady)
    (delivering : Delivering call emitter sent) (ends : counter.EndsWith value)
    (delimited : Delimited later) (placed : value ++ later = buf ++ rest) :
    (∃ emitter' next left, emitFromBuffer call emitter buf counter = (emitter', next, .ok false) ∧
        value = buf ++ left ∧ next.EndsWith left ∧ Delivering call emitter' (sent ++ buf)) ∨
      ∃ emitter', emitFromBuffer call emitter buf counter = (emitter', counter, .ok true) ∧
        Complete call emitter' (sent ++ value) := by
  rcases ends.scan delimited placed with
    ⟨next, left, hvalue, scanned, endsLeft⟩ | ⟨final, scanned, hfinal⟩
  · left
    refine ⟨_, next, left, ?_, hvalue, endsLeft, delivering.writeChunk buf⟩
    rw [emitFromBuffer_of_overflow scanned, writeChunk_of_steady steady, writeOutcome]
  · right
    rcases hfinal with rfl | rfl
    · refine ⟨_, ?_, .inr (delivering.writeFinal value)⟩
      simp only [emitFromBuffer, scanned, writeChunk_of_steady steady, writeOutcome]
    · cases value with
      | nil =>
        -- the scalar ended exactly with the previous buffer: nothing is left to send
        refine ⟨emitter, ?_, .inl ?_⟩
        · simp only [emitFromBuffer, scanned, List.isEmpty_nil, if_true]
        · rw [List.append_nil]
          exact delivering
      | cons b value =>
        refine ⟨_, ?_, .inr (delivering.writeFinal (b :: value))⟩
        simp only [emitFromBuffer, scanned, List.isEmpty_cons, Bool.false_eq_true, if_false,
          writeChunk_of_steady steady, writeOutcome]

/-- While the value is still incomplete, no buffer is marked final, whatever the
client does. -/
theorem emitFromBuffer_of_incomplete (delivering : Delivering call emitter sent)
    (ends : counter.EndsWith (buf ++ rest)) (more : rest ≠ []) :
    ∃ emitter' next outcome, emitFromBuffer call emitter buf counter = (emitter', next, outcome) ∧
      outcome ≠ .ok true ∧ next.EndsWith rest ∧ Delivering call emitter' (sent ++ buf) := by
  have delimited : Delimited [comma] := by simp [Delimited, isDelimiter_comma]
  rcases ends.scan delimited (List.append_assoc ..) with
    ⟨next, left, hvalue, scanned, endsLeft⟩ | ⟨final, scanned, _⟩
  · obtain rfl := List.append_cancel_left hvalue
    refine ⟨_, next, _, emitFromBuffer_of_overflow scanned, ?_, endsLeft,
      delivering.writeChunk buf⟩
    cases (emitter.writeChunk call buf false).2 with
    | none | some message => simp [writeOutcome]
  · -- the scan cannot have taken more than the buffer holds
    have taken := counter.length_scan_le buf
    rw [scanned, List.length_append] at taken
    have := List.length_pos_of_ne_nil more
    omega

end Buffer

variable (chunks : List ReadChunk)

theorem streamReadAhead_done {σ : Type} (process : σ → List UInt8 → σ × Except String Bool)
    (state : σ) : streamReadAhead process true state chunks = (state, none) := by
  induction chunks with
  | nil => rfl
  | cons chunk chunks ih => exact ih

variable {emitter : NativeCallChunkEmitter} {sent left : List UInt8} {start : ℕ}

section Loop

variable {call : NativeCall} {counter : ResultCounter}

theorem streamReadAhead_delivers (steady : call.Steady) {later : List UInt8} (nonempty : later ≠ [])
    (delimited : Delimited later) (chunks : List (List UInt8)) {value : List UInt8}
    (delivering : Delivering call emitter sent) (ends : counter.EndsWith value)
    (placed : value ++ later = chunks.flatten) :
    ∃ state, streamReadAhead (Unwrapping.process call) false { emitter, counter }
        (chunks.map .buf) = (state, none) ∧
      state.completed = true ∧ Complete call state.emitter (sent ++ value) := by
  induction chunks generalizing emitter counter sent value with
  | nil =>
    exact absurd (List.append_eq_nil_iff.mp placed).2 nonempty
  | cons buf chunks ih =>
    rw [List.flatten_cons] at placed
    rcases emitFromBuffer_of_steady steady delivering ends delimited placed with
      ⟨emitter', next, left, emits, rfl, endsLeft, delivering'⟩ | ⟨emitter', emits, complete⟩
    · rw [List.append_assoc, List.append_cancel_left_eq] at placed
      obtain ⟨state, streams, completed, complete⟩ := ih delivering' endsLeft placed
      refine ⟨state, ?_, completed, by rwa [List.append_assoc] at complete⟩
      simp only [List.map_cons, streamReadAhead, Unwrapping.process, emits, Bool.or_false]
      exact streams
    · refine ⟨{ emitter := emitter', counter, completed := true }, ?_, rfl, complete⟩
      simp only [List.map_cons, streamReadAhead, Unwrapping.process, emits, Bool.false_or,
        streamReadAhead_done]

/-- If the chunks break off inside the value, the loop fails or ends without
having completed it, and no chunk was marked final. -/
theorem streamReadAhead_of_incomplete (delivering : Delivering call emitter sent)
    (ends : counter.EndsWith (chunks.flatMap ReadChunk.bytes ++ left)) (more : left ≠ []) :
    ∃ state err, streamReadAhead (Unwrapping.process call) false { emitter, counter } chunks =
        (state, err) ∧
      (err = none → state.completed = false) ∧
      ∀ item ∈ state.emitter.items, item.finalChunk = false := by
  induction chunks generalizing emitter counter sent with
  | nil => exact ⟨_, none, rfl, fun _ => rfl, delivering.unfinished⟩
  | cons chunk chunks ih =>
    cases chunk with
    | err message => exact ⟨_, some message, rfl, by simp, delivering.unfinished⟩
    | buf bytes =>
      have endsBuf : counter.EndsWith (bytes ++ (chunks.flatMap ReadChunk.bytes ++ left)) := by
        rw [← List.append_assoc]
        exact ends
      obtain ⟨emitter', next, outcome, emits, incomplete, endsRest, delivering'⟩ :=
        emitFromBuffer_of_incomplete delivering endsBuf (by simp [more])
      match outcome, incomplete with
      | .error message, _ =>
        refine ⟨{ emitter := emitter', counter := next }, some message, ?_, by simp,
          delivering'.unfinished⟩
        simp only [streamReadAhead, Unwrapping.process, emits]
      | .ok false, _ =>
        obtain ⟨state, err, streams, result⟩ := ih delivering' endsRest
        refine ⟨state, err, ?_, result⟩
        simp only [streamReadAhead, Unwrapping.process, emits, Bool.or_false]
        exact streams
      | .ok true, complete => exact absurd rfl complete

end Loop

section Response

variable {call : NativeCall} {reader : Reader} {counter : ResultCounter}
  {front value later : List UInt8}

theorem drop_readFull {size : ℕ} (within : start ≤ (readFull size reader.reads).1.length) :
    (readFull size reader.reads).1.drop start ++ (readFull size reader.reads).2.flatten =
      reader.reads.flatten.drop start := by
  obtain ⟨hbuffered, hrest⟩ := readFull_eq size reader.reads
  rw [← List.drop_append_of_le_length within, hbuffered, hrest, List.take_append_drop]

theorem streamContinuation_delivers (reader : Reader) (steady : call.Steady)
    (ended : reader.failure = none) (nonempty : later ≠ []) (delimited : Delimited later)
    (delivering : Delivering call emitter sent) (ends : counter.EndsWith value)
    (placed : value ++ later = reader.reads.flatten) :
    ∃ emitter', streamContinuation call reader emitter counter = (emitter', none) ∧
      Complete call emitter' (sent ++ value) := by
  have produced : producer call.cancelled reader = reader.chunks.map .buf := by
    rw [steady.stays, producer, ended]
    exact List.append_nil _
  rw [← reader.flatten_chunks] at placed
  obtain ⟨state, streams, completed, complete⟩ :=
    streamReadAhead_delivers steady nonempty delimited reader.chunks delivering ends placed
  refine ⟨state.emitter, ?_, complete⟩
  simp only [streamContinuation, produced, streams, completed, if_true]

/-- A reply that failed and in which nothing is marked final. -/
def Broken (reply : NativeCallChunkEmitter × Option String) : Prop :=
  reply.2.isSome ∧ ∀ item ∈ reply.1.items, item.finalChunk = false

theorem streamContinuation_broken (reader : Reader) (delivering : Delivering call emitter sent)
    (ends : counter.EndsWith (reader.reads.flatten ++ left)) (more : left ≠ []) :
    Broken (streamContinuation call reader emitter counter) := by
  obtain ⟨unread, hunread⟩ := flatMap_bytes_producer call.cancelled reader
  rw [← hunread, List.append_assoc] at ends
  obtain ⟨state, err, streams, incomplete, unfinished⟩ :=
    streamReadAhead_of_incomplete _ delivering ends (by simp [more])
  cases err with
  | none =>
    rw [streamContinuation, streams]
    simp only [incomplete rfl, Bool.false_eq_true, if_false]
    exact ⟨rfl, unfinished⟩
  | some message =>
    rw [streamContinuation, streams]
    exact ⟨rfl, unfinished⟩

theorem streamJsonRPCResult_delivers (steady : call.Steady) (ended : reader.failure = none)
    (placed : reader.reads.flatten = front ++ (value ++ later)) (nonempty : later ≠ [])
    (delimited : Delimited later) (ends : counter.EndsWith value)
    (within : front.length ≤ (readFull maxChunkSize reader.reads).1.length) :
    ∃ emitter, streamJsonRPCResult call reader {} front.length counter = (emitter, none) ∧
      Complete call emitter value := by
  have arrives := drop_readFull within
  rw [placed, List.drop_left] at arrives
  have located : ¬ ((front.length : ℤ) < 0 ∨
      ((readFull maxChunkSize reader.reads).1.length : ℤ) < front.length) := by omega
  rcases emitFromBuffer_of_steady steady (delivering_start call) ends delimited arrives.symm with
    ⟨emitter, next, left, emits, hvalue, endsLeft, delivering⟩ | ⟨emitter, emits, complete⟩
  · rw [hvalue, List.append_assoc, List.append_cancel_left_eq] at arrives
    have filled : ¬ (readFull maxChunkSize reader.reads).1.length < maxChunkSize := by
      intro short
      rw [flatten_readFull_of_short short] at arrives
      exact nonempty (List.append_eq_nil_iff.mp arrives.symm).2
    obtain ⟨emitter', streams, complete⟩ := streamContinuation_delivers
      { reader with reads := (readFull maxChunkSize reader.reads).2 }
      steady ended nonempty delimited delivering endsLeft arrives.symm
    refine ⟨emitter', ?_, by rwa [List.nil_append, ← hvalue] at complete⟩
    simp only [streamJsonRPCResult, ended, ite_self, if_neg located, Int.toNat_natCast, emits,
      filled, decide_false, Bool.false_eq_true, if_false]
    rw [← streams, ended]
  · refine ⟨emitter, ?_, complete⟩
    simp only [streamJsonRPCResult, ended, ite_self, if_neg located, Int.toNat_natCast, emits]

theorem streamJsonRPCResult_broken (cut : reader.reads.flatten ++ left = front ++ value)
    (more : left ≠ []) (ends : counter.EndsWith value) :
    Broken (streamJsonRPCResult call reader {} front.length counter) := by
  have nothing : ∀ item ∈ ({} : NativeCallChunkEmitter).items, item.finalChunk = false := by simp
  simp only [streamJsonRPCResult, Int.toNat_natCast]
  split
  · exact ⟨rfl, nothing⟩
  · split
    · exact ⟨rfl, nothing⟩
    · rename_i located
      have within : front.length ≤ (readFull maxChunkSize reader.reads).1.length := by omega
      have arrives := drop_readFull within
      have shorter : front.length ≤ reader.reads.flatten.length := by
        rw [(readFull_eq maxChunkSize reader.reads).1, List.length_take] at within
        omega
      -- what is left of the response from the value's start on is cut inside the value
      have hvalue : value = (readFull maxChunkSize reader.reads).1.drop front.length ++
          ((readFull maxChunkSize reader.reads).2.flatten ++ left) := by
        have dropped := congrArg (List.drop front.length) cut
        rw [List.drop_left, List.drop_append_of_le_length shorter] at dropped
        rw [← List.append_assoc, arrives, dropped]
      rw [hvalue] at ends
      obtain ⟨emitter, next, outcome, emits, incomplete, endsRest, delivering⟩ :=
        emitFromBuffer_of_incomplete (delivering_start call) ends (by simp [more])
      match outcome, incomplete with
      | .error message, _ =>
        simp only [emits]
        exact ⟨rfl, delivering.unfinished⟩
      | .ok false, _ =>
        simp only [emits]
        split
        · exact ⟨rfl, delivering.unfinished⟩
        · exact streamContinuation_broken { reader with reads := _ } delivering endsRest more
      | .ok true, complete => exact absurd rfl complete

theorem streamNativeCallBody_delivers {body key : List UInt8}
    (located : MemberAt body key value start) (within : start ≤ (body.take maxChunkSize).length)
    (ends : counter.EndsWith value) (steady : call.Steady) (ended : reader.failure = none)
    (arrives : reader.reads.flatten = body) :
    let reply := streamNativeCallBody call reader .unwrapJsonRpcResultStream start counter
    reply.2 = none ∧ Delivered call reply.1.items value := by
  obtain ⟨front, later, shape, rfl, nonempty, delimited⟩ := located.exists_split
  rw [← arrives, ← (readFull_eq maxChunkSize reader.reads).1] at within
  obtain ⟨emitter, streams, complete⟩ := streamJsonRPCResult_delivers steady ended
    (arrives.trans shape) nonempty delimited ends within
  simp only [streamNativeCallBody, streams]
  exact complete.finish steady

theorem streamNativeCallBody_broken {body key : List UInt8} {cut : ℕ}
    (located : MemberAt body key value start) (ends : counter.EndsWith value)
    (inside : cut < start + value.length) (arrives : reader.reads.flatten = body.take cut) :
    Broken (streamNativeCallBody call reader .unwrapJsonRpcResultStream start counter) := by
  obtain ⟨front, later, shape, rfl, _, _⟩ := located.exists_split
  have split : reader.reads.flatten ++ (front ++ value).drop cut = front ++ value := by
    rw [arrives, shape, ← List.append_assoc, List.take_append_of_le_length, List.take_append_drop]
    rw [List.length_append]
    exact Nat.le_of_lt inside
  have more : (front ++ value).drop cut ≠ [] := by
    rw [Ne, List.drop_eq_nil_iff, List.length_append]
    omega
  have broken : Broken (streamJsonRPCResult call reader {} front.length counter) :=
    streamJsonRPCResult_broken split more ends
  rcases hstreamed : streamJsonRPCResult call reader {} front.length counter with ⟨emitter, err⟩
  rw [hstreamed] at broken
  obtain ⟨message, rfl⟩ := Option.isSome_iff_exists.mp broken.1
  simp only [streamNativeCallBody, hstreamed]
  exact broken

end Response

/-- A response whose first chunk is reported streamable has a top-level member
`result`, and streaming it sends exactly the bytes of that member's value: to a
client that takes every item, in however many reads the response arrives.  The
last item alone is final, the first alone carries the metadata.  If the response
breaks off before the last byte of the value, the stream ends with an error and
without a final item, however the reader ends and whatever the client does. -/
theorem streamNativeCallBody_unwraps (fits : List UInt8 → Bool) {body : List UInt8}
    (document : IsDocument body)
    (streamable : (analyzeChunk fits (body.take maxChunkSize)).streamable = true) :
    let found := analyzeChunk fits (body.take maxChunkSize)
    ∃ key value, unquote key = resultKey ∧
      MemberAt body key value found.resultStart.toNat ∧
      (∀ call reader, NativeCall.Steady call → reader.reads.flatten = body →
        reader.failure = none →
        let reply := streamNativeCallBody call reader .unwrapJsonRpcResultStream
          found.resultStart found.counter
        reply.2 = none ∧ Delivered call reply.1.items value) ∧
      ∀ call reader cut, cut < found.resultStart.toNat + value.length →
        reader.reads.flatten = body.take cut →
        Broken (streamNativeCallBody call reader .unwrapJsonRpcResultStream
          found.resultStart found.counter) := by
  intro found
  obtain ⟨⟨key, first, rest, isResult, nonneg, located, hcounter⟩, within⟩ :=
    located_analyzeChunk document maxChunkSize streamable
  obtain ⟨_, _, hvalue, ends⟩ := ResultCounter.endsWith_of_derives located.isValue
  obtain ⟨rfl, rfl⟩ := List.cons.inj hvalue
  rw [← hcounter] at ends
  have hstart : found.resultStart = (found.resultStart.toNat : ℤ) :=
    (Int.toNat_of_nonneg nonneg).symm
  refine ⟨key, first :: rest, isResult, located, ?_, ?_⟩
  · intro call reader steady arrives ended
    rw [hstart]
    exact streamNativeCallBody_delivers located within ends steady ended arrives
  · intro call reader cut inside arrives
    rw [hstart]
    exact streamNativeCallBody_broken located ends inside arrives

def emptyListResponse : List UInt8 :=
  [] ++ (openBrace :: (memberHead [] resultKey [] [] ++ (openBracket :: [] ++ [closeBracket]) ++ [])
    ++ [closeBrace]) ++ []

theorem isDocument_emptyListResponse : IsDocument emptyListResponse :=
  ⟨[], _, [], rfl, isSpaces_nil, .object (.lastMember isSpaces_nil isStringBody_resultKey
    isSpaces_nil isSpaces_nil (.emptyArray isSpaces_nil) isSpaces_nil), isSpaces_nil⟩

/-- The list arrives complete when the response is read byte by byte, and it is
an error if the response ends where the list should start. -/
theorem streamNativeCallBody_unwraps_emptyList : let call : NativeCall :=
      { requestID := 1, upstreamID := "up", upstreamNodeVersion := "v1", finalization := none,
        header := [] }
    let found := analyzeChunk (fun _ => true) (emptyListResponse.take maxChunkSize)
    ∃ key value, MemberAt emptyListResponse key value found.resultStart.toNat ∧
      Delivered call
        (streamNativeCallBody call { reads := emptyListResponse.map fun b => [b] }
          .unwrapJsonRpcResultStream found.resultStart found.counter).1.items value ∧
      Broken (streamNativeCallBody call { reads := [emptyListResponse.take 10] }
        .unwrapJsonRpcResultStream found.resultStart found.counter) := by
  intro call found
  have hstart : found.resultStart.toNat = 10 := by decide
  obtain ⟨key, value, _, located, delivers, breaks⟩ :=
    streamNativeCallBody_unwraps (fun _ => true) isDocument_emptyListResponse (by decide)
  refine ⟨key, value, located, ?_, ?_⟩
  · exact (delivers call _ ⟨fun _ => rfl, rfl⟩ (by decide) rfl).2
  · obtain ⟨first, rest, hvalue, _⟩ := located.isValue.exists_cons
    refine breaks call _ 10 ?_ (by decide)
    show 10 < found.resultStart.toNat + value.length
    rw [hstart, hvalue, List.length_cons]
    omega

end Nodecore.Emerald
