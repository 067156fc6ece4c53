import VariantOne.Core.Dynamic
import VariantOne.Lib.Framing
import VariantOne.Lib.Utf8Stream

/-!
# The decoder of a chat stream

A model answers with a stream of lines, `data: …` each, that arrives in chunks cut anywhere: inside a
character, between a carriage return and its line end, inside a line.  `OpenAIChatSSEDecoder` keeps the
characters and the line that are begun, decodes the lines that are complete, and flushes at the end.

The chunks do not matter (`feedAll_bytes`): what is returned or raised, and every counter, is what decoding
the lines of the whole stream one by one gives.  That takes lines which fit the bound, because a line that
does not is noticed at another place when it is cut.  What is kept between two calls never exceeds the bound
(`length_pending_feedText`).
-/

namespace VariantOne
namespace ModelRuntime

variable {P : Interpreter}

/-- `OpenAIStreamEvent` -/
structure OpenAIStreamEvent where
  payload : Option PyDict
  done : Bool

/-- `OpenAIChatSSEDecoder` -/
structure OpenAIChatSSEDecoder where
  sawTerminal : Bool
  pending : List Char
  utf8 : Option Utf8.Begun
  maxFrameChars : Nat
  dataLines : Nat
  jsonEvents : Nat
  malformedEvents : Nat
  terminalKind : String
  endReason : String
  httpStatus : Int

/-- A chunk is text or bytes. -/
inductive Chunk where
  | text (s : List Char)
  | bytes (data : List UInt8)

namespace OpenAIChatSSEDecoder

/-- `__init__` -/
def new (maxFrameChars : Int) : OpenAIChatSSEDecoder where
  sawTerminal := false
  pending := []
  utf8 := none
  maxFrameChars := (max 1 maxFrameChars).toNat
  dataLines := 0
  jsonEvents := 0
  malformedEvents := 0
  terminalKind := ""
  endReason := "reading"
  httpStatus := 0

/-- `diagnostics` -/
def diagnostics (d : OpenAIChatSSEDecoder) (endReason : String) : PyDict :=
  [("schema", .str "variant1.openai-stream.v1"),
    ("end_reason", .str (if endReason = "" then d.endReason else endReason)),
    ("saw_terminal", .bool d.sawTerminal), ("terminal_kind", .str d.terminalKind),
    ("data_lines", .int d.dataLines), ("json_events", .int d.jsonEvents),
    ("malformed_events", .int d.malformedEvents), ("http_status", .int d.httpStatus)]

/-- The error of an event that is too long. -/
def oversized : Raised := ⟨.valueError, "OpenAI stream event exceeds the bounded frame size"⟩

/-- `isinstance(choice, dict) and choice.get("finish_reason")` -/
def finishes : PyValue → Bool
  | .dict choice => (Dict.get? choice "finish_reason").any PyValue.truthy
  | _ => false

/-- Whether some choice of a payload is finished. -/
def finished (payload : PyDict) : Except Raised Bool :=
  match (orElse (Dict.get? payload "choices") (.tuple [])).iter with
  | .error e => .error e
  | .ok choices => .ok (choices.any finishes)

/-- The stream has come to its end. -/
def terminal (kind : String) (d : OpenAIChatSSEDecoder) : OpenAIChatSSEDecoder :=
  { d with sawTerminal := true, terminalKind := kind, endReason := "terminal" }

/-- A payload is admitted. -/
def admitPayload (payload : PyDict) (d : OpenAIChatSSEDecoder) :
    Except Raised (Option OpenAIStreamEvent) × OpenAIChatSSEDecoder :=
  let d := { d with jsonEvents := d.jsonEvents + 1 }
  match finished payload with
  | .error e => (.error e, d)
  | .ok true => (.ok (some ⟨some payload, false⟩), d.terminal "finish_reason")
  | .ok false => (.ok (some ⟨some payload, false⟩), d)

/-- The data of a data line. -/
def lineData (line : List Char) : Option (List Char) :=
  let text := stripChars line
  if "data:".toList.isPrefixOf text then
    let data := stripChars (text.drop 5)
    if data = [] then none else some data
  else none

/-- `decode_line`, of the text of a line -/
def decodeLine (P : Interpreter) (line : List Char) (d : OpenAIChatSSEDecoder) :
    Except Raised (Option OpenAIStreamEvent) × OpenAIChatSSEDecoder :=
  match lineData line with
  | none => (.ok none, d)
  | some data =>
      let d := { d with dataLines := d.dataLines + 1 }
      if d.maxFrameChars < data.length then (.error oversized, { d with endReason := "oversized_event" })
      else if data = "[DONE]".toList then (.ok (some ⟨none, true⟩), d.terminal "done")
      else
        match P.loads (String.ofList data) with
        | some (.dict payload) => d.admitPayload payload
        | _ => (.ok none, { d with malformedEvents := d.malformedEvents + 1 })

/-- `line.rstrip("\r")` -/
def rstripReturn (line : List Char) : List Char := line.rdropWhile (· == '\r')

/-- The loop over the lines that are complete.  A line that raises ends it, and the events before it are
lost. -/
def decodeLines (P : Interpreter) : List (List Char) → OpenAIChatSSEDecoder →
    Except Raised (List OpenAIStreamEvent) × OpenAIChatSSEDecoder
  | [], d => (.ok [], d)
  | line :: lines, d =>
      match decodeLine P (rstripReturn line) d with
      | (.error e, d) => (.error e, d)
      | (.ok event, d) =>
          match decodeLines P lines d with
          | (.error e, d) => (.error e, d)
          | (.ok events, d) => (.ok (event.toList ++ events), d)

/-- The text of a chunk, and what is begun after it. -/
def readChunk (utf8 : Option Utf8.Begun) : Chunk → List Char × Option Utf8.Begun
  | .text s => (s, utf8)
  | .bytes data => Utf8.feed utf8 data

/-- `feed_text` -/
def feedText (P : Interpreter) (chunk : Chunk) (d : OpenAIChatSSEDecoder) :
    Except Raised (List OpenAIStreamEvent) × OpenAIChatSSEDecoder :=
  let read := readChunk d.utf8 chunk
  let cut := Framing.cut '\n' (d.pending ++ read.1)
  if d.maxFrameChars < cut.2.length then
    (.error oversized, { d with utf8 := read.2, pending := [], endReason := "oversized_event" })
  else decodeLines P cut.1 { d with utf8 := read.2, pending := cut.2 }

/-- `finish` -/
def finish (P : Interpreter) (d : OpenAIChatSSEDecoder) :
    Except Raised (Option OpenAIStreamEvent) × OpenAIChatSSEDecoder :=
  let pending := d.pending ++ Utf8.decodeFrom d.utf8 []
  let d := { d with pending := [], utf8 := none }
  if pending = [] then (.ok none, d) else decodeLine P (rstripReturn pending) d

/-- A stream: its chunks in order, up to the first that raises, and the flush. -/
def feedAll (P : Interpreter) : List Chunk → OpenAIChatSSEDecoder →
    Except Raised (List OpenAIStreamEvent) × OpenAIChatSSEDecoder
  | [], d =>
      match finish P d with
      | (.error e, d) => (.error e, d)
      | (.ok event, d) => (.ok event.toList, d)
  | chunk :: chunks, d =>
      match feedText P chunk d with
      | (.error e, d) => (.error e, d)
      | (.ok events, d) =>
          match feedAll P chunks d with
          | (.error e, d) => (.error e, d)
          | (.ok later, d) => (.ok (events ++ later), d)

/-! ## 1.  A line does not look at what is kept -/

/-- The decoder with other characters and another line begun. -/
def keeping (pending : List Char) (utf8 : Option Utf8.Begun) (d : OpenAIChatSSEDecoder) :
    OpenAIChatSSEDecoder :=
  { d with pending := pending, utf8 := utf8 }

/-- What a decoder has counted and seen. -/
def progress (d : OpenAIChatSSEDecoder) : OpenAIChatSSEDecoder := d.keeping [] none

@[simp] theorem progress_keeping (pending : List Char) (utf8 : Option Utf8.Begun) (d : OpenAIChatSSEDecoder) :
    (d.keeping pending utf8).progress = d.progress := rfl

theorem admitPayload_keeping (payload : PyDict) (pending : List Char) (utf8 : Option Utf8.Begun)
    (d : OpenAIChatSSEDecoder) :
    (d.keeping pending utf8).admitPayload payload =
      ((d.admitPayload payload).1, (d.admitPayload payload).2.keeping pending utf8) := by
  unfold admitPayload
  cases finished payload with
  | error e => rfl
  | ok seen => cases seen <;> rfl

theorem decodeLine_keeping (line pending : List Char) (utf8 : Option Utf8.Begun) (d : OpenAIChatSSEDecoder) :
    decodeLine P line (d.keeping pending utf8) =
      ((decodeLine P line d).1, (decodeLine P line d).2.keeping pending utf8) := by
  unfold decodeLine
  cases lineData line with
  | none => rfl
  | some data =>
      show ite (d.maxFrameChars < data.length) _ _ = _
      dsimp only
      by_cases hlong : d.maxFrameChars < data.length
      · rw [if_pos hlong, if_pos hlong]
        rfl
      · rw [if_neg hlong, if_neg hlong]
        by_cases hdone : data = "[DONE]".toList
        · rw [if_pos hdone, if_pos hdone]
          rfl
        · rw [if_neg hdone, if_neg hdone]
          split
          · exact admitPayload_keeping _ pending utf8 { d with dataLines := d.dataLines + 1 }
          · rfl

theorem decodeLines_keeping (lines : List (List Char)) (pending : List Char) (utf8 : Option Utf8.Begun)
    (d : OpenAIChatSSEDecoder) :
    decodeLines P lines (d.keeping pending utf8) =
      ((decodeLines P lines d).1, (decodeLines P lines d).2.keeping pending utf8) := by
  induction lines generalizing d with
  | nil => rfl
  | cons line lines ih =>
      rw [decodeLines, decodeLines, decodeLine_keeping]
      rcases decodeLine P (rstripReturn line) d with ⟨(e | event), d'⟩
      · rfl
      · dsimp only
        rw [ih]
        rcases decodeLines P lines d' with ⟨(e | events), d''⟩ <;> rfl

theorem maxFrameChars_admitPayload (payload : PyDict) (d : OpenAIChatSSEDecoder) :
    (d.admitPayload payload).2.maxFrameChars = d.maxFrameChars := by
  unfold admitPayload
  cases finished payload with
  | error e => rfl
  | ok seen => cases seen <;> rfl

theorem maxFrameChars_decodeLine (line : List Char) (d : OpenAIChatSSEDecoder) :
    (decodeLine P line d).2.maxFrameChars = d.maxFrameChars := by
  unfold decodeLine
  cases lineData line with
  | none => rfl
  | some data =>
      dsimp only
      split
      · rfl
      split
      · rfl
      split
      · exact maxFrameChars_admitPayload _ _
      · rfl

theorem maxFrameChars_decodeLines (lines : List (List Char)) (d : OpenAIChatSSEDecoder) :
    (decodeLines P lines d).2.maxFrameChars = d.maxFrameChars := by
  induction lines generalizing d with
  | nil => rfl
  | cons line lines ih =>
      rw [decodeLines, ← maxFrameChars_decodeLine (P := P) (rstripReturn line) d]
      rcases decodeLine P (rstripReturn line) d with ⟨(e | event), d₁⟩
      · rfl
      · dsimp only
        rw [← ih d₁]
        rcases decodeLines P lines d₁ with ⟨(e | events), d₂⟩ <;> rfl

/-- Lines are decoded one after the other. -/
theorem decodeLines_append (before after : List (List Char)) (d : OpenAIChatSSEDecoder) :
    decodeLines P (before ++ after) d =
      match decodeLines P before d with
      | (.error e, d) => (.error e, d)
      | (.ok events, d) =>
          match decodeLines P after d with
          | (.error e, d) => (.error e, d)
          | (.ok later, d) => (.ok (events ++ later), d) := by
  induction before generalizing d with
  | nil => rcases hafter : decodeLines P after d with ⟨(e | events), d₁⟩ <;> simp [decodeLines, hafter]
  | cons line before ih =>
      rw [List.cons_append, decodeLines, decodeLines]
      rcases decodeLine P (rstripReturn line) d with ⟨(e | event), d₁⟩
      · rfl
      · dsimp only
        rw [ih]
        rcases decodeLines P before d₁ with ⟨(e | events), d₂⟩
        · rfl
        · dsimp only
          rcases decodeLines P after d₂ with ⟨(e | later), d₃⟩
          · rfl
          · dsimp only
            rw [List.append_assoc]

/-! ## 2.  Chunks -/

/-- The text of a stream, what is begun before it and the flush at its end included. -/
def received : Option Utf8.Begun → List Chunk → List Char
  | utf8, [] => Utf8.decodeFrom utf8 []
  | utf8, chunk :: chunks => (readChunk utf8 chunk).1 ++ received (readChunk utf8 chunk).2 chunks

theorem received_bytes (utf8 : Option Utf8.Begun) (chunks : List (List UInt8)) :
    received utf8 (chunks.map .bytes) = Utf8.decodeFrom utf8 chunks.flatten := by
  induction chunks generalizing utf8 with
  | nil => rfl
  | cons chunk chunks ih =>
      rw [List.map_cons, received, ih, List.flatten_cons, Utf8.decodeFrom_append]
      rfl

/-- A chunk after which the line that is begun fits the bound. -/
theorem feedText_eq {chunk : Chunk} {d : OpenAIChatSSEDecoder}
    (hfit : (Framing.cut '\n' (d.pending ++ (readChunk d.utf8 chunk).1)).2.length ≤ d.maxFrameChars) :
    feedText P chunk d =
      ((decodeLines P (Framing.cut '\n' (d.pending ++ (readChunk d.utf8 chunk).1)).1 d).1,
        (decodeLines P (Framing.cut '\n' (d.pending ++ (readChunk d.utf8 chunk).1)).1 d).2.keeping
          (Framing.cut '\n' (d.pending ++ (readChunk d.utf8 chunk).1)).2 (readChunk d.utf8 chunk).2) := by
  rw [feedText, if_neg (Nat.not_lt.mpr hfit)]
  exact decodeLines_keeping _ _ _ d

/-- **What is kept fits the bound** after every chunk, whether it is decoded or raises. -/
theorem length_pending_feedText (chunk : Chunk) (d : OpenAIChatSSEDecoder) :
    (feedText P chunk d).2.pending.length ≤ (feedText P chunk d).2.maxFrameChars := by
  by_cases hfit : (Framing.cut '\n' (d.pending ++ (readChunk d.utf8 chunk).1)).2.length ≤ d.maxFrameChars
  · rw [feedText_eq hfit]
    show _ ≤ (decodeLines P _ d).2.maxFrameChars
    rw [maxFrameChars_decodeLines]
    exact hfit
  · rw [feedText, if_pos (Nat.lt_of_not_le hfit)]
    exact Nat.zero_le _

theorem newline_notMem_flush (utf8 : Option Utf8.Begun) : '\n' ∉ Utf8.decodeFrom utf8 [] := by
  cases utf8 with
  | none => exact List.not_mem_nil
  | some p =>
      show '\n' ∉ [Utf8.replacement]
      decide

theorem finish_eq (d : OpenAIChatSSEDecoder) :
    finish P d =
      if d.pending ++ Utf8.decodeFrom d.utf8 [] = [] then (.ok none, d.keeping [] none)
      else
        ((decodeLine P (rstripReturn (d.pending ++ Utf8.decodeFrom d.utf8 [])) d).1,
          (decodeLine P (rstripReturn (d.pending ++ Utf8.decodeFrom d.utf8 [])) d).2.keeping [] none) := by
  rw [← decodeLine_keeping]
  rfl

/-- The end of a stream decodes the line that is begun, if any. -/
theorem feedAll_nil {d : OpenAIChatSSEDecoder} (hline : '\n' ∉ d.pending) :
    (feedAll P [] d).1 = (decodeLines P (Framing.frames '\n' (d.pending ++ received d.utf8 [])) d).1 ∧
      (feedAll P [] d).2.progress =
        (decodeLines P (Framing.frames '\n' (d.pending ++ received d.utf8 [])) d).2.progress := by
  have hpending : '\n' ∉ d.pending ++ Utf8.decodeFrom d.utf8 [] := by
    rw [List.mem_append, not_or]
    exact ⟨hline, newline_notMem_flush _⟩
  rw [received, Framing.frames, Framing.cut_of_notMem hpending, List.nil_append, feedAll, finish_eq]
  generalize d.pending ++ Utf8.decodeFrom d.utf8 [] = line
  by_cases hempty : line = []
  · subst hempty
    exact ⟨rfl, rfl⟩
  · rw [decodeLines, if_neg hempty]
    rcases decodeLine P (rstripReturn line) d with ⟨(e | event), d₁⟩
    · exact ⟨rfl, rfl⟩
    · exact ⟨congrArg Except.ok (List.append_nil _).symm, rfl⟩

/-- **The chunks of a stream do not matter**, as long as its lines fit the bound. -/
theorem feedAll_eq {chunks : List Chunk} {d : OpenAIChatSSEDecoder} (hline : '\n' ∉ d.pending)
    (hfit : ∀ line ∈ Framing.frames '\n' (d.pending ++ received d.utf8 chunks),
      line.length ≤ d.maxFrameChars) :
    (feedAll P chunks d).1 = (decodeLines P (Framing.frames '\n' (d.pending ++ received d.utf8 chunks)) d).1 ∧
      (feedAll P chunks d).2.progress =
        (decodeLines P (Framing.frames '\n' (d.pending ++ received d.utf8 chunks)) d).2.progress := by
  induction chunks generalizing d with
  | nil => exact feedAll_nil hline
  | cons chunk chunks ih =>
      rw [received, ← List.append_assoc, Framing.frames_append] at hfit ⊢
      generalize hcut : Framing.cut '\n' (d.pending ++ (readChunk d.utf8 chunk).1) = cut at hfit ⊢
      have hkept : '\n' ∉ cut.2 := hcut ▸ Framing.sep_notMem_rest _
      -- what is kept is the beginning of the next line
      obtain ⟨line, others, hframes, hprefix⟩ :=
        Framing.frames_of_notMem hkept (received (readChunk d.utf8 chunk).2 chunks)
      have hbound : cut.2.length ≤ d.maxFrameChars :=
        hprefix.length_le.trans (hfit line (by rw [hframes]; simp))
      have hfeed : feedText P chunk d = ((decodeLines P cut.1 d).1,
          (decodeLines P cut.1 d).2.keeping cut.2 (readChunk d.utf8 chunk).2) := by
        subst hcut
        exact feedText_eq hbound
      have hmax := maxFrameChars_decodeLines (P := P) cut.1 d
      rw [decodeLines_append, feedAll, hfeed]
      revert hmax
      rcases decodeLines P cut.1 d with ⟨(e | events), d₁⟩
      · exact fun _ => ⟨rfl, rfl⟩
      · intro hmax
        dsimp only at hmax ⊢
        have hrest := ih (d := d₁.keeping cut.2 (readChunk d.utf8 chunk).2) hkept
          fun line hl => (hfit line (List.mem_append_right _ hl)).trans (Nat.le_of_eq hmax.symm)
        rw [decodeLines_keeping] at hrest
        obtain ⟨hevents, hprogress⟩ := hrest
        dsimp only [keeping] at hevents hprogress ⊢
        revert hevents hprogress
        generalize feedAll P chunks _ = fed
        generalize decodeLines P _ d₁ = decoded
        obtain ⟨(e | later), d₂⟩ := fed <;> obtain ⟨(e' | later'), d₃⟩ := decoded <;>
          intro hevents hprogress <;> cases hevents <;> exact ⟨rfl, hprogress⟩

/-- **Bytes cut anywhere**: events, errors and counters are those of the lines of all the bytes, and what is
kept between two calls fits the bound. -/
theorem feedAll_bytes {maxFrameChars : Int} {chunks : List (List UInt8)}
    (hfit : ∀ line ∈ Framing.frames '\n' (Utf8.decode chunks.flatten),
      line.length ≤ (new maxFrameChars).maxFrameChars) :
    (feedAll P (chunks.map .bytes) (new maxFrameChars)).1 =
        (decodeLines P (Framing.frames '\n' (Utf8.decode chunks.flatten)) (new maxFrameChars)).1 ∧
      (feedAll P (chunks.map .bytes) (new maxFrameChars)).2.progress =
        (decodeLines P (Framing.frames '\n' (Utf8.decode chunks.flatten)) (new maxFrameChars)).2.progress ∧
      ∀ chunk d, (feedText P chunk d).2.pending.length ≤ (feedText P chunk d).2.maxFrameChars := by
  have hreceived : (new maxFrameChars).pending ++ received (new maxFrameChars).utf8 (chunks.map .bytes) =
      Utf8.decode chunks.flatten := received_bytes none chunks
  rw [← hreceived] at hfit ⊢
  obtain ⟨hevents, hprogress⟩ := feedAll_eq (P := P) List.not_mem_nil hfit
  exact ⟨hevents, hprogress, length_pending_feedText⟩

/-- An interpreter that reads one text as an object. -/
def accentReader : Interpreter where
  str _ := ""
  repr s := s
  int _ := none
  lower s := s
  loads s := if s = "é" then some (.dict []) else none
  dumps _ := .ok ""

/-- Two lines, cut inside a character and between a carriage return and its line end. -/
def accentChunks : List (List UInt8) :=
  [[0x64, 0x61, 0x74, 0x61, 0x3A, 0x20, 0xC3], [0xA9, 0x0D], [0x0A],
    [0x64, 0x61, 0x74, 0x61, 0x3A, 0x5B, 0x44, 0x4F, 0x4E, 0x45, 0x5D]]

theorem feedAll_bytes_accent :
    (feedAll accentReader (accentChunks.map .bytes) (new 64)).1 =
        (decodeLines accentReader ["data: é\r".toList, "data:[DONE]".toList] (new 64)).1 ∧
      (feedAll accentReader (accentChunks.map .bytes) (new 64)).2.dataLines = 2 := by
  have hframes : Framing.frames '\n' (Utf8.decode accentChunks.flatten) =
      ["data: é\r".toList, "data:[DONE]".toList] := by
    decide +kernel
  have hfit : ∀ line ∈ Framing.frames '\n' (Utf8.decode accentChunks.flatten),
      line.length ≤ (new 64).maxFrameChars := by
    rw [hframes]
    decide
  obtain ⟨hevents, hprogress, -⟩ := feedAll_bytes (P := accentReader) hfit
  rw [hframes] at hevents hprogress
  have hcount : (decodeLines accentReader ["data: é\r".toList, "data:[DONE]".toList] (new 64)).2.dataLines =
      2 := by
    decide +kernel
  exact ⟨hevents, (congrArg dataLines hprogress).trans hcount⟩

end OpenAIChatSSEDecoder
end ModelRuntime
end VariantOne
