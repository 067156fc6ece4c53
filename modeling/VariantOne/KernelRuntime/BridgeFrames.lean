import VariantOne.KernelRuntime.ReplProtocol
import VariantOne.Lib.Base64
import VariantOne.Lib.JsonSize
import VariantOne.Lib.Pieces
import VariantOne.Lib.Txn

/-!
# The frames of the kernel bridge

A response of the bridge is a signed JSON object.  One that fits the frame limit is a frame of its own;
a larger one is sent as a header and numbered parts of its text, each of them signed for itself.  The
reader passes over the notices that the host is still busy, takes the parts in order, and verifies what
they add up to as if it had come in one frame.

Where the text is cut is computed from the length of a part that holds nothing; that no part exceeds the
limit is the arithmetic of `length_part`.  What is relied on of the libraries is `BridgeCodec.Faithful`.

* `responseFrames_fit`: every part fits the limit, so a response is written whole or not at all
  (`written_whole`);
* `response_read`: what was written is read back, whatever was cut where;
* `read_authentic`: whatever comes, only what the host signed for this request is returned.
-/

namespace VariantOne
namespace KernelRuntime

/-- The entries of a JSON object. -/
abbrev Envelope := List (String × Json)

/-- `BRIDGE_SCHEMA` -/
def bridgeSchema : String := "variant1.kernel-bridge.v3"

/-- What the functions of the protocol raise. -/
inductive BridgeRaised where
  | protocol (message : String)
  | valueError (message : String)
  | typeError (message : String)
  | keyError (key : String)
  /-- `struct.error`: the length does not fit its field. -/
  | structError
  deriving DecidableEq, Repr

/-- The libraries as the protocol calls them. -/
structure BridgeCodec where
  P : Interpreter
  /-- `hmac.new(secret, data, hashlib.sha256).hexdigest()` -/
  hmac : Bytes → Bytes → String
  /-- `hashlib.sha256(data).hexdigest()` -/
  sha256 : Bytes → String
  /-- `json.loads(raw.decode("utf-8", errors="strict"))`, unless it raises or gives what is no strict
  JSON value. -/
  loads : Bytes → Option Json

variable (K : BridgeCodec)

/-! ## 1.  Envelopes -/

/-- `_unsigned` -/
def unsigned (envelope : Envelope) : Envelope := Dict.restrict (· != "mac") envelope

/-- `sign_envelope` -/
def signEnvelope (secret : Bytes) (envelope : Envelope) : Except BridgeRaised Envelope :=
  if secret = [] then .error (.valueError "bridge secret is required")
  else .ok (unsigned envelope ++
    [("mac", .str (K.hmac secret (canonicalBytes (.obj (unsigned envelope)))))])

/-- `str(envelope.get(key) or "")` -/
def BridgeCodec.field (envelope : Envelope) (key : String) : String :=
  K.P.text (orElse ((Dict.get? envelope key).map Json.toPy) (.str ""))

/-- `int(envelope.get(key) or -1)`, unless it raises. -/
def BridgeCodec.intField (envelope : Envelope) (key : String) : Option Int :=
  K.P.toInt (orElse ((Dict.get? envelope key).map Json.toPy) (.int (-1)))

/-- `text.isascii()` -/
def asciiText (text : String) : Bool := text.toList.all fun c => decide (c.toNat < 128)

/-- `verify_envelope`; `compare_digest` compares ASCII texts only. -/
def verifyEnvelope (secret : Bytes) (envelope : Envelope) (expectedNonce : String) :
    Except BridgeRaised Envelope :=
  let supplied := K.field envelope "mac"
  let expected := K.hmac secret (canonicalBytes (.obj (unsigned envelope)))
  if supplied ≠ "" ∧ asciiText supplied = false then
    .error (.typeError "comparing strings with non-ASCII characters is not supported")
  else if supplied = "" ∨ supplied ≠ expected then
    .error (.protocol "bridge frame authentication failed")
  else if K.field envelope "schema" ≠ bridgeSchema then
    .error (.protocol "bridge schema revision is unsupported")
  else if K.field envelope "nonce" ≠ expectedNonce then
    .error (.protocol "bridge generation nonce is stale")
  else .ok (unsigned envelope)

/-- The worker's end of the bridge, waiting for the response to a request. -/
structure BridgeReader where
  secret : Bytes
  nonce : String
  generation : Int
  requestId : String

/-- `_verified_response` -/
def verifiedResponse (R : BridgeReader) (raw : Envelope) : Except BridgeRaised Envelope := do
  let response ← verifyEnvelope K R.secret raw R.nonce
  if K.field response "request_id" ≠ R.requestId then
    .error (.protocol "bridge response request ID mismatch")
  else
    match K.intField response "generation" with
    | none => .error (.valueError "generation")
    | some generation =>
        if generation ≠ R.generation then .error (.protocol "bridge response generation mismatch")
        else .ok response

/-! ## 2.  Frames -/

/-- `_LENGTH.pack(size)` -/
def lengthPrefix (size : Nat) : Bytes :=
  [UInt8.ofNat (size / 16777216), UInt8.ofNat (size / 65536), UInt8.ofNat (size / 256), UInt8.ofNat size]

/-- `_LENGTH.unpack(prefix)` -/
def lengthOf (a b c d : UInt8) : Nat := a.toNat * 16777216 + b.toNat * 65536 + c.toNat * 256 + d.toNat

/-- `encode_frame` -/
def encodeFrame (value : Envelope) (maxBytes : Int) : Except BridgeRaised Bytes :=
  let raw := canonicalBytes (.obj value)
  let limit := frameLimit maxBytes
  if raw.length > limit then
    .error (.protocol s!"bridge frame exceeds {limit} bytes ({raw.length})")
  else if 4294967296 ≤ raw.length then .error .structError
  else .ok (lengthPrefix raw.length ++ raw)

/-- `decode_frame` -/
def decodeFrame (raw : Bytes) : Except BridgeRaised Envelope :=
  match K.loads raw with
  | none => .error (.protocol "bridge frame is not valid UTF-8 JSON")
  | some (.obj value) => .ok value
  | some _ => .error (.protocol "bridge frame must decode to an object")

/-- `read_sync_frame`: the frame, and the stream after it. -/
def readFrame (maxBytes : Int) : Bytes → Except BridgeRaised (Envelope × Bytes)
  | a :: b :: c :: d :: stream =>
      let size := lengthOf a b c d
      if size = 0 ∨ frameLimit maxBytes < size then
        .error (.protocol s!"bridge frame length {size} is not admitted")
      else if stream.length < size then .error (.protocol "bridge socket closed during a frame")
      else (decodeFrame K (stream.take size)).map (·, stream.drop size)
  | _ => .error (.protocol "bridge socket closed during a frame")

/-! ## 3.  Writing a response -/

/-- `response[key]` -/
def item (response : Envelope) (key : String) : Except BridgeRaised (String × Json) :=
  match Dict.get? response key with
  | none => .error (.keyError key)
  | some v => .ok (key, v)

/-- What every frame of a response is identified by. -/
def identityOf (response : Envelope) : Except BridgeRaised Envelope :=
  ["schema", "nonce", "generation", "request_id"].mapM (item response)

/-- A part of a response. -/
def partOf (identity : Envelope) (index : Nat) (data : String) : Envelope :=
  identity ++ [("response_part", .int index), ("data", .str data)]

/-- `base64.b64encode(data).decode("ascii")` -/
def base64Text (data : Bytes) : String := String.ofList (Base64.encode data)

/-- The header of a response that is sent in parts. -/
def headerOf (identity : Envelope) (raw : Bytes) (count : Nat) : Envelope :=
  identity ++ [("response_stream", .obj
    [("bytes", .int raw.length), ("parts", .int count), ("sha256", .str (K.sha256 raw))])]

/-- The frames of a response that does not fit one frame. -/
def streamFrames (secret : Bytes) (identity : Envelope) (raw : Bytes) (limit : Nat) :
    Except BridgeRaised (List Envelope) := do
  let empty ← signEnvelope K secret (partOf identity raw.length "")
  let overhead := (canonicalBytes (.obj empty)).length
  let chunkBytes := 3 * ((limit - overhead) / 4)
  if chunkBytes < 1 then .error (.protocol "bridge response identity exceeds frame limit")
  else
    let header ← signEnvelope K secret (headerOf K identity raw (Pieces.count chunkBytes raw))
    let parts ← (List.range (Pieces.count chunkBytes raw)).mapM fun index =>
      signEnvelope K secret (partOf identity index (base64Text (Pieces.piece chunkBytes raw index)))
    return header :: parts

/-- `response_frames` -/
def responseFrames (response : Envelope) (secret : Bytes) (maxBytes : Int) :
    Except BridgeRaised (List Envelope) := do
  let raw := canonicalBytes (.obj response)
  if raw.length ≤ frameLimit maxBytes then return [response]
  else streamFrames K secret (← identityOf response) raw (frameLimit maxBytes)

/-- The frames on the stream, up to the first that cannot be encoded. -/
def encodeFrames (maxBytes : Int) : List Envelope → Bytes × Option BridgeRaised
  | [] => ([], none)
  | frame :: frames =>
      match encodeFrame frame maxBytes with
      | .error e => ([], some e)
      | .ok raw => (raw ++ (encodeFrames maxBytes frames).1, (encodeFrames maxBytes frames).2)

/-- `write_async_response`: what it writes, and what it raises. -/
def writeResponse (response : Envelope) (secret : Bytes) (maxBytes : Int) : Bytes × Option BridgeRaised :=
  match responseFrames K response secret maxBytes with
  | .error e => ([], some e)
  | .ok frames => encodeFrames maxBytes frames

/-! ## 4.  Reading a response -/

/-- `progress.get(key) is True` -/
def isTrue (envelope : Envelope) (key : String) : Bool :=
  match Dict.get? envelope key with
  | some (.bool true) => true
  | _ => false

/-- A notice that the response is still to come. -/
def isProgress (progress : Envelope) : Bool :=
  isTrue progress "in_flight" || isTrue progress "waiting_for_user"

/-- The first frame that is no notice, and the stream after it.  Every frame takes something off the
stream, so as many turns as it has bytes are enough. -/
def readFirst (R : BridgeReader) (maxBytes : Int) : Nat → Bytes → Except BridgeRaised (Envelope × Bytes)
  | 0, _ => .error (.protocol "bridge socket closed during a frame")
  | turns + 1, stream => do
      let (first, rest) ← readFrame K maxBytes stream
      let progress ← verifiedResponse K R first
      if isProgress progress then readFirst R maxBytes turns rest else return (first, rest)

/-- `_ResponseAssembly` -/
structure ResponseAssembly where
  result : Envelope
  parts : Nat
  size : Nat
  digest : String
  body : Bytes

/-- `stream.get(key, 0)`, if it is a number that can be a bound. -/
def bound (stream : Envelope) (key : String) : Nat :=
  match Dict.get? stream key with
  | some (.int i) => i.toNat
  | _ => 0

/-- `_ResponseAssembly.__init__` -/
def ResponseAssembly.new (R : BridgeReader) (first : Envelope) : Except BridgeRaised ResponseAssembly := do
  let header ← verifiedResponse K R first
  match Dict.get? header "response_stream" with
  | none => return ⟨first, 0, 0, "", []⟩
  | some .null => return ⟨first, 0, 0, "", []⟩
  | some (.obj stream) =>
      let parts := bound stream "parts"
      let size := bound stream "bytes"
      let digest := K.field stream "sha256"
      if 1 ≤ parts ∧ parts ≤ size ∧ digest.length = 64 then return ⟨first, parts, size, digest, []⟩
      else .error (.protocol "invalid bridge response stream bounds")
  | some _ => .error (.protocol "invalid bridge response stream")

/-- `base64.b64decode(part.get("data", ""), validate=True)`, unless it raises. -/
def partData (part : Envelope) : Option Bytes :=
  match Dict.get? part "data" with
  | none => some []
  | some (.str s) => Base64.decode s.toList
  | some _ => none

/-- `_ResponseAssembly.append` -/
def ResponseAssembly.append (R : BridgeReader) (a : ResponseAssembly) (raw : Envelope) (index : Nat) :
    Except BridgeRaised ResponseAssembly := do
  let part ← verifiedResponse K R raw
  match Dict.get? part "response_part" with
  | some (.int i) =>
      if i ≠ index then .error (.protocol "bridge response part sequence mismatch")
      else
        match partData part with
        | none => .error (.protocol "invalid bridge response part encoding")
        | some data =>
            if data = [] ∨ a.size < a.body.length + data.length then
              .error (.protocol "bridge response part exceeds declared length")
            else return { a with body := a.body ++ data }
  | _ => .error (.protocol "bridge response part sequence mismatch")

/-- The parts from an index on. -/
def ResponseAssembly.readParts (R : BridgeReader) (maxBytes : Int) (a : ResponseAssembly) (index : Nat) :
    Nat → Bytes → Except BridgeRaised (ResponseAssembly × Bytes)
  | 0, stream => return (a, stream)
  | parts + 1, stream => do
      let (raw, rest) ← readFrame K maxBytes stream
      let a ← a.append K R raw index
      a.readParts R maxBytes (index + 1) parts rest

/-- `_ResponseAssembly.finish` -/
def ResponseAssembly.finish (R : BridgeReader) (a : ResponseAssembly) : Except BridgeRaised Envelope :=
  if a.parts = 0 then .ok a.result
  else if a.body.length ≠ a.size ∨ K.sha256 a.body ≠ a.digest then
    .error (.protocol "bridge response stream is incomplete or changed")
  else do
    let result ← decodeFrame K a.body
    let _ ← verifiedResponse K R result
    return result

/-- `read_sync_response`: the response, and the stream after it. -/
def readResponse (R : BridgeReader) (maxBytes : Int) (stream : Bytes) :
    Except BridgeRaised (Envelope × Bytes) := do
  let (first, stream) ← readFirst K R maxBytes stream.length stream
  let assembly ← ResponseAssembly.new K R first
  let (assembly, stream) ← assembly.readParts K R maxBytes 0 assembly.parts stream
  let response ← assembly.finish K R
  return (response, stream)

/-! ## 5.  Arrival -/

/-- A digest in hexadecimal. -/
def IsDigest (text : String) : Prop := text.length = 64 ∧ ∀ c ∈ text.toList, c ∈ "0123456789abcdef".toList

/-- What the protocol relies on: a canonical text is read as the value it was written from, up to the
order of keys, and digests are sixty-four hexadecimal digits. -/
structure BridgeCodec.Faithful (K : BridgeCodec) : Prop where
  loads_written : ∀ j, K.loads (canonicalBytes j) = some j.canon
  hmac_digest : ∀ secret data, IsDigest (K.hmac secret data)
  sha256_digest : ∀ data, IsDigest (K.sha256 data)

/-- The entries of a frame as they arrive: the same values, the keys of every object sorted. -/
def arrived (es : Envelope) : Envelope := Dict.sort (Json.canonEntries es)

section Arrival

variable {K} {es : Envelope} {k : String}

theorem wf_canonEntries_iff : Dict.WF (Json.canonEntries es) ↔ Dict.WF es := by
  unfold Dict.WF
  rw [Json.keys_canonEntries]

theorem wf_arrived (hwf : Dict.WF es) : Dict.WF (arrived es) := (wf_canonEntries_iff.mpr hwf).sort

theorem get?_canonEntry (es : Envelope) (k : String) :
    Dict.get? (Json.canonEntries es) k = (Dict.get? es k).map Json.canon := by
  induction es with
  | nil => rfl
  | cons e es ih =>
      obtain ⟨k', v⟩ := e
      rw [Json.canonEntries, Dict.get?_cons, Dict.get?_cons, ih]
      split <;> rfl

/-- What arrives under a key. -/
theorem get?_arrived (hwf : Dict.WF es) (k : String) :
    Dict.get? (arrived es) k = (Dict.get? es k).map Json.canon := by
  unfold arrived
  rw [(wf_canonEntries_iff.mpr hwf).sort.get?_perm (Dict.sort_perm _), get?_canonEntry]

/-- The canonical text of what arrives is the one that was sent. -/
theorem canonicalBytes_arrived (es : Envelope) :
    canonicalBytes (.obj (arrived es)) = canonicalBytes (.obj es) := by
  have hcanon : (Json.obj (arrived es)).canon = (Json.obj es).canon := by
    unfold arrived
    rw [Json.canon, Json.canon, Json.canonEntries_sort, Json.canonEntries_canonEntries, Dict.sort_sort]
  unfold canonicalBytes Json.dumps
  rw [hcanon]

/-- Leaving the signature out and arriving commute. -/
theorem unsigned_arrived (hwf : Dict.WF es) : unsigned (arrived es) = arrived (unsigned es) := by
  have hsorted : Dict.sort (unsigned (arrived es)) = unsigned (arrived es) :=
    ((Dict.sort_pairwise (Json.canonEntries es)).sublist List.filter_sublist).insertionSort_eq
  have hrestrict : unsigned (Json.canonEntries es) = Json.canonEntries (unsigned es) := by
    unfold unsigned Dict.restrict
    rw [Json.canonEntries_eq_map, Json.canonEntries_eq_map, List.filter_map]
    rfl
  rw [← hsorted]
  unfold arrived
  rw [← hrestrict]
  have hperm : (unsigned (Dict.sort (Json.canonEntries es))).Perm (unsigned (Json.canonEntries es)) :=
    (Dict.sort_perm _).filter _
  exact Dict.WF.sort_eq_of_perm ((wf_arrived hwf).restrict _) hperm

theorem get?_unsigned (hk : k ≠ "mac") (es : Envelope) : Dict.get? (unsigned es) k = Dict.get? es k := by
  unfold unsigned
  rw [Dict.get?_restrict, if_pos (by simpa using hk)]

/-- A frame of the host is one for this request. -/
structure Admits (K : BridgeCodec) (R : BridgeReader) (es : Envelope) : Prop where
  schema : K.field es "schema" = bridgeSchema
  nonce : K.field es "nonce" = R.nonce
  request : K.field es "request_id" = R.requestId
  generation : K.intField es "generation" = some R.generation

/-- The signature of a frame is right. -/
def Authentic (K : BridgeCodec) (secret : Bytes) (es : Envelope) : Prop :=
  K.field es "mac" ≠ "" ∧ K.field es "mac" = K.hmac secret (canonicalBytes (.obj (unsigned es)))

/-- The signature the host writes can be compared. -/
theorem Authentic.ascii (hK : K.Faithful) {secret : Bytes} (h : Authentic K secret es) :
    asciiText (K.field es "mac") = true := by
  have hdigits : asciiText "0123456789abcdef" = true := by decide
  rw [asciiText, List.all_eq_true] at hdigits ⊢
  intro c hc
  rw [h.2] at hc
  exact hdigits c ((hK.hmac_digest _ _).2 c hc)

theorem field_congr {es es' : Envelope} (h : Dict.get? es k = Dict.get? es' k) :
    K.field es k = K.field es' k := by
  unfold BridgeCodec.field
  rw [h]

theorem intField_congr {es es' : Envelope} (h : Dict.get? es k = Dict.get? es' k) :
    K.intField es k = K.intField es' k := by
  unfold BridgeCodec.intField
  rw [h]

/-- Frames that agree on what identifies them are for the same request. -/
theorem Admits.congr {R : BridgeReader} {es es' : Envelope} (h : Admits K R es)
    (hsame : ∀ key ∈ ["schema", "nonce", "generation", "request_id"],
      Dict.get? es' key = Dict.get? es key) : Admits K R es' where
  schema := (field_congr (hsame "schema" (by simp))).trans h.schema
  nonce := (field_congr (hsame "nonce" (by simp))).trans h.nonce
  request := (field_congr (hsame "request_id" (by simp))).trans h.request
  generation := (intField_congr (hsame "generation" (by simp))).trans h.generation

/-- **What the reader verifies.** -/
theorem verifiedResponse_eq_ok {R : BridgeReader} {u : Envelope} :
    verifiedResponse K R es = .ok u ↔ u = unsigned es ∧ asciiText (K.field es "mac") = true ∧
      Authentic K R.secret es ∧ Admits K R es := by
  have hrequest := field_congr (K := K) (get?_unsigned (k := "request_id") (by decide) es)
  have hgeneration := intField_congr (K := K) (get?_unsigned (k := "generation") (by decide) es)
  unfold verifiedResponse verifyEnvelope Authentic
  constructor
  · intro h
    dsimp only at h
    split at h
    · exact absurd h (by simp [bind, Except.bind])
    rename_i hascii
    split at h
    · exact absurd h (by simp [bind, Except.bind])
    rename_i hmac
    rw [not_or, not_not] at hmac
    rw [not_and, Bool.not_eq_false] at hascii
    split at h
    · exact absurd h (by simp [bind, Except.bind])
    rename_i hschema
    split at h
    · exact absurd h (by simp [bind, Except.bind])
    rename_i hnonce
    simp only [bind, Except.bind] at h
    rw [hrequest, hgeneration] at h
    split at h
    · exact absurd h (by simp)
    rename_i hid
    split at h
    · exact absurd h (by simp)
    rename_i generation hint
    split at h
    · exact absurd h (by simp)
    rename_i hgen
    rw [not_not] at hschema hnonce hid hgen
    exact ⟨(Except.ok.inj h).symm, hascii hmac.1, hmac, hschema, hnonce, hid, hint.trans (congrArg some hgen)⟩
  · rintro ⟨rfl, hascii, ⟨hne, hmac⟩, hadmits⟩
    rw [if_neg (not_and.mpr fun _ => by simp [hascii]),
      if_neg (not_or.mpr ⟨hne, not_not.mpr hmac⟩), if_neg (not_not.mpr hadmits.schema),
      if_neg (not_not.mpr hadmits.nonce)]
    simp only [bind, Except.bind]
    rw [if_neg (not_not.mpr (hrequest.trans hadmits.request)), hgeneration, hadmits.generation]
    dsimp only
    rw [if_neg (not_not.mpr rfl)]

end Arrival

/-! ## 6.  Signed frames -/

section Signed

variable {K} {R : BridgeReader} {response identity extra : Envelope}

/-- The keys that identify a frame. -/
def identityKeys : List String := ["schema", "nonce", "generation", "request_id"]

/-- The entries of a response that identify it. -/
structure Identifies (response identity : Envelope) : Prop where
  keys : Dict.keys identity = identityKeys
  get? : ∀ key ∈ identityKeys, Dict.get? identity key = Dict.get? response key ∧
    (Dict.get? identity key).isSome = true

theorem item_eq_ok {key : String} {e : String × Json} (h : item response key = .ok e) :
    e.1 = key ∧ Dict.get? response key = some e.2 := by
  unfold item at h
  split at h
  · exact absurd h (by simp)
  · rename_i v hv
    obtain rfl := Except.ok.inj h
    exact ⟨rfl, hv⟩

theorem identifies_of_identityOf (h : identityOf response = .ok identity) :
    Identifies response identity := by
  unfold identityOf at h
  simp only [List.mapM_cons, List.mapM_nil, bind, Except.bind, pure, Except.pure] at h
  cases hschema : item response "schema" with
  | error e => rw [hschema] at h; exact absurd h (by simp)
  | ok schema =>
      cases hnonce : item response "nonce" with
      | error e => rw [hschema, hnonce] at h; exact absurd h (by simp)
      | ok nonce =>
          cases hgeneration : item response "generation" with
          | error e => rw [hschema, hnonce, hgeneration] at h; exact absurd h (by simp)
          | ok generation =>
              cases hrequest : item response "request_id" with
              | error e =>
                  rw [hschema, hnonce, hgeneration, hrequest] at h
                  exact absurd h (by simp)
              | ok request =>
                  rw [hschema, hnonce, hgeneration, hrequest] at h
                  obtain rfl := Except.ok.inj h
                  obtain ⟨schemaKey, schemaValue⟩ := schema
                  obtain ⟨nonceKey, nonceValue⟩ := nonce
                  obtain ⟨generationKey, generationValue⟩ := generation
                  obtain ⟨requestKey, requestValue⟩ := request
                  obtain ⟨rfl, hschema'⟩ := item_eq_ok hschema
                  obtain ⟨rfl, hnonce'⟩ := item_eq_ok hnonce
                  obtain ⟨rfl, hgeneration'⟩ := item_eq_ok hgeneration
                  obtain ⟨rfl, hrequest'⟩ := item_eq_ok hrequest
                  refine ⟨rfl, fun key hkey => ?_⟩
                  simp only [identityKeys, List.mem_cons, List.not_mem_nil, or_false] at hkey
                  rcases hkey with rfl | rfl | rfl | rfl
                  · exact ⟨hschema'.symm, rfl⟩
                  · exact ⟨hnonce'.symm, rfl⟩
                  · exact ⟨hgeneration'.symm, rfl⟩
                  · exact ⟨hrequest'.symm, rfl⟩

/-- Entries that may be added to an identity. -/
structure Added (extra : Envelope) : Prop where
  wf : Dict.WF extra
  mac : "mac" ∉ Dict.keys extra
  other : ∀ key ∈ identityKeys, key ∉ Dict.keys extra

/-- A signed frame. -/
def signed (K : BridgeCodec) (secret : Bytes) (es : Envelope) : Envelope :=
  es ++ [("mac", .str (K.hmac secret (canonicalBytes (.obj es))))]

theorem unsigned_of_notMem {es : Envelope} (h : "mac" ∉ Dict.keys es) : unsigned es = es := by
  refine List.filter_eq_self.mpr fun e he => ?_
  have hne : e.1 ≠ "mac" := fun hmac => h (hmac ▸ Dict.mem_keys_of_mem he)
  simpa using hne

theorem unsigned_signed {es : Envelope} {secret : Bytes} (h : "mac" ∉ Dict.keys es) :
    unsigned (signed K secret es) = es := by
  have hself := unsigned_of_notMem h
  unfold signed unsigned Dict.restrict at *
  rw [List.filter_append, hself]
  simp

theorem signEnvelope_eq {es : Envelope} {secret : Bytes} (hsecret : secret ≠ [])
    (h : "mac" ∉ Dict.keys es) : signEnvelope K secret es = .ok (signed K secret es) := by
  unfold signEnvelope signed
  rw [if_neg hsecret, unsigned_of_notMem h]

theorem Identifies.wf (hidentity : Identifies response identity) (hextra : Added extra) :
    Dict.WF (identity ++ extra) ∧ "mac" ∉ Dict.keys (identity ++ extra) := by
  have hkeys : Dict.WF identity ∧ "mac" ∉ Dict.keys identity := by
    unfold Dict.WF
    rw [hidentity.keys]
    decide
  unfold Dict.WF
  rw [Dict.keys_append]
  refine ⟨List.Nodup.append hkeys.1 hextra.wf fun key hkey hmem => ?_, fun hmem => ?_⟩
  · exact hextra.other key (hidentity.keys ▸ hkey) hmem
  · exact (List.mem_append.mp hmem).elim hkeys.2 hextra.mac

theorem wf_signed {es : Envelope} {secret : Bytes} (hwf : Dict.WF es) (h : "mac" ∉ Dict.keys es) :
    Dict.WF (signed K secret es) := by
  unfold signed Dict.WF
  rw [Dict.keys_append]
  exact List.Nodup.append hwf (by simp) fun key hkey hmem => by
    obtain rfl : key = "mac" := by simpa using hmem
    exact h hkey

theorem digest_ne_nil {text : String} (h : IsDigest text) : text ≠ "" := by
  rintro rfl
  exact absurd h.1 (by simp)

/-- A text under a key. -/
theorem field_text {es : Envelope} {key text : String} (h : Dict.get? es key = some (.str text)) :
    K.field es key = text := by
  unfold BridgeCodec.field
  rw [h]
  by_cases hempty : text = ""
  · subst hempty
    rfl
  · have htruthy : (PyValue.str text).truthy = true := by simpa [PyValue.truthy] using hempty
    show K.P.text (if (PyValue.str text).truthy then _ else _) = text
    rw [if_pos htruthy]
    rfl

/-- **A signed frame arrives authentic.** -/
theorem authentic_signed (hK : K.Faithful) {es : Envelope} {secret : Bytes} (hwf : Dict.WF es)
    (h : "mac" ∉ Dict.keys es) : Authentic K secret (arrived (signed K secret es)) := by
  have hget : Dict.get? (arrived (signed K secret es)) "mac" =
      some (.str (K.hmac secret (canonicalBytes (.obj es)))) := by
    rw [get?_arrived (wf_signed hwf h), signed, Dict.get?_append, Dict.get?_eq_none_iff.mpr h]
    rfl
  unfold Authentic
  rw [field_text hget, unsigned_arrived (wf_signed hwf h), unsigned_signed h, canonicalBytes_arrived]
  exact ⟨digest_ne_nil (hK.hmac_digest _ _), rfl⟩

/-- **A frame with the identity of a response is verified** wherever the response is. -/
theorem verified_frame (hK : K.Faithful) (hwf : Dict.WF response)
    (hadmits : Admits K R (arrived response)) (hidentity : Identifies response identity)
    (hextra : Added extra) :
    verifiedResponse K R (arrived (signed K R.secret (identity ++ extra))) =
      .ok (arrived (identity ++ extra)) := by
  obtain ⟨hwf', hmac⟩ := hidentity.wf hextra
  have hauthentic : Authentic K R.secret (arrived (signed K R.secret (identity ++ extra))) :=
    authentic_signed hK hwf' hmac
  rw [verifiedResponse_eq_ok]
  refine ⟨?_, hauthentic.ascii hK, hauthentic, hadmits.congr fun key hkey => ?_⟩
  · rw [unsigned_arrived (wf_signed hwf' hmac), unsigned_signed hmac]
  · rw [get?_arrived (wf_signed hwf' hmac), get?_arrived hwf]
    obtain ⟨hsame, hsome⟩ := hidentity.get? key hkey
    obtain ⟨v, hv⟩ := Option.isSome_iff_exists.mp hsome
    rw [signed, List.append_assoc, Dict.get?_append, ← hsame, hv]
    rfl

end Signed

/-! ## 7.  Frames on the stream -/

section Stream

variable {K} {maxBytes : Int}

theorem toNat_ofNat (n : Nat) : (UInt8.ofNat n).toNat = n % 256 := by
  simp

theorem lengthOf_lengthPrefix {n : Nat} (h : n < 4294967296) :
    lengthOf (UInt8.ofNat (n / 16777216)) (UInt8.ofNat (n / 65536)) (UInt8.ofNat (n / 256))
      (UInt8.ofNat n) = n := by
  unfold lengthOf
  rw [toNat_ofNat, toNat_ofNat, toNat_ofNat, toNat_ofNat]
  omega

theorem encodeFrame_eq_ok {es : Envelope} {raw : Bytes} (h : encodeFrame es maxBytes = .ok raw) :
    (canonicalBytes (.obj es)).length ≤ frameLimit maxBytes ∧
      (canonicalBytes (.obj es)).length < 4294967296 ∧
      raw = lengthPrefix (canonicalBytes (.obj es)).length ++ canonicalBytes (.obj es) := by
  unfold encodeFrame at h
  dsimp only at h
  split at h
  · exact absurd h (by simp)
  · split at h
    · exact absurd h (by simp)
    · exact ⟨by omega, by omega, (Except.ok.inj h).symm⟩

/-- The canonical text of a value, byte by byte. -/
theorem canonicalBytes_eq (j : Json) : canonicalBytes j = Utf8.encode (Json.dumps j) := by
  unfold canonicalBytes Utf8.encode
  rw [String.toByteArray_ofList]
  unfold List.utf8Encode
  simp

theorem length_canonicalBytes (j : Json) :
    (canonicalBytes j).length = Json.utf8Length (Json.dumps j) := by
  rw [canonicalBytes_eq, Json.length_encode]

/-- The text of an object has its braces. -/
theorem canonicalBytes_pos (es : Envelope) : 0 < (canonicalBytes (.obj es)).length := by
  rw [length_canonicalBytes]
  show 0 < Json.utf8Length (Json.render (.obj (Dict.sort (Json.canonEntries es))))
  cases Dict.sort (Json.canonEntries es) with
  | nil => decide
  | cons e rest =>
      obtain ⟨k, v⟩ := e
      rw [Json.render, Json.utf8Length_cons]
      exact Nat.add_pos_left (Char.utf8Size_pos _) _

/-- **A frame that was encoded is read back**, and what follows it is left. -/
theorem readFrame_encoded (hK : K.Faithful) {es : Envelope} {raw : Bytes}
    (h : encodeFrame es maxBytes = .ok raw) (rest : Bytes) :
    readFrame K maxBytes (raw ++ rest) = .ok (arrived es, rest) := by
  obtain ⟨hlimit, hfield, rfl⟩ := encodeFrame_eq_ok h
  have hpos := canonicalBytes_pos es
  have hdecode : decodeFrame K (canonicalBytes (.obj es)) = .ok (arrived es) := by
    unfold decodeFrame
    rw [hK.loads_written]
    rfl
  unfold lengthPrefix
  rw [List.append_assoc]
  show readFrame K maxBytes (_ :: _ :: _ :: _ :: (canonicalBytes (.obj es) ++ rest)) = _
  unfold readFrame
  dsimp only
  rw [lengthOf_lengthPrefix hfield, if_neg (by omega), if_neg (by simp), List.take_left' rfl,
    List.drop_left' rfl, hdecode]
  rfl

/-- What is on the stream when every frame was encoded. -/
theorem encodeFrames_cons {es : Envelope} {frames : List Envelope} {out : Bytes}
    (h : encodeFrames maxBytes (es :: frames) = (out, none)) :
    ∃ raw rest, encodeFrame es maxBytes = .ok raw ∧ encodeFrames maxBytes frames = (rest, none) ∧
      out = raw ++ rest := by
  rw [encodeFrames] at h
  split at h
  · exact absurd h (by simp)
  · rename_i raw hraw
    obtain ⟨hout, hnone⟩ := Prod.mk.inj h
    exact ⟨raw, _, hraw, Prod.ext rfl hnone, hout.symm⟩

end Stream

/-! ## 8.  Parts -/

section Parts

variable {K} {secret : Bytes} {response identity : Envelope}

/-- The frame of a part. -/
def partFrame (K : BridgeCodec) (secret : Bytes) (identity : Envelope) (size : Nat) (raw : Bytes)
    (index : Nat) : Envelope :=
  signed K secret (partOf identity index (base64Text (Pieces.piece size raw index)))

/-- The frame of the header. -/
def headerFrame (K : BridgeCodec) (secret : Bytes) (identity : Envelope) (size : Nat) (raw : Bytes) :
    Envelope :=
  signed K secret (headerOf K identity raw (Pieces.count size raw))

/-- The length of a part that holds nothing. -/
def overheadOf (K : BridgeCodec) (secret : Bytes) (identity : Envelope) (raw : Bytes) : Nat :=
  (canonicalBytes (.obj (signed K secret (partOf identity raw.length "")))).length

theorem extends_part (index : Nat) (data : String) :
    Added [("response_part", .int index), ("data", .str data)] where
  wf := by simp [Dict.WF]
  mac := by simp
  other key hkey := by
    simp only [identityKeys, List.mem_cons, List.not_mem_nil, or_false] at hkey
    rcases hkey with rfl | rfl | rfl | rfl <;> simp

theorem extends_header (stream : Json) : Added [("response_stream", stream)] where
  wf := by simp [Dict.WF]
  mac := by simp
  other key hkey := by
    simp only [identityKeys, List.mem_cons, List.not_mem_nil, or_false] at hkey
    rcases hkey with rfl | rfl | rfl | rfl <;> simp

theorem mapM_eq_ok {ε α γ : Type} {f : α → Except ε γ} {g : α → γ} (items : List α)
    (h : ∀ a ∈ items, f a = .ok (g a)) : items.mapM f = .ok (items.map g) := by
  induction items with
  | nil => rfl
  | cons a items ih =>
      rw [List.mapM_cons, h a (by simp), ih fun b hb => h b (by simp [hb])]
      rfl

/-- **The frames of a response that is sent in parts**: there are any when there is a secret and room. -/
theorem streamFrames_eq_ok (hidentity : Identifies response identity) {raw : Bytes} {limit : Nat}
    {frames : List Envelope} : streamFrames K secret identity raw limit = .ok frames ↔
    secret ≠ [] ∧ 0 < (limit - overheadOf K secret identity raw) / 4 ∧
      frames = headerFrame K secret identity (3 * ((limit - overheadOf K secret identity raw) / 4)) raw ::
        (List.range (Pieces.count (3 * ((limit - overheadOf K secret identity raw) / 4)) raw)).map
          (partFrame K secret identity (3 * ((limit - overheadOf K secret identity raw) / 4)) raw) := by
  by_cases hsecret : secret = []
  · unfold streamFrames signEnvelope
    rw [if_pos hsecret]
    simp [bind, Except.bind, hsecret]
  · have hpart : ∀ index data, signEnvelope K secret (partOf identity index data) =
        .ok (signed K secret (partOf identity index data)) := fun index data =>
      signEnvelope_eq hsecret (hidentity.wf (extends_part index data)).2
    have hheader : ∀ count, signEnvelope K secret (headerOf K identity raw count) =
        .ok (signed K secret (headerOf K identity raw count)) := fun count =>
      signEnvelope_eq hsecret (hidentity.wf (extends_header _)).2
    have hparts := mapM_eq_ok (ε := BridgeRaised)
      (f := fun index => .ok (partFrame K secret identity
        (3 * ((limit - overheadOf K secret identity raw) / 4)) raw index))
      (List.range (Pieces.count (3 * ((limit - overheadOf K secret identity raw) / 4)) raw))
      fun index _ => rfl
    unfold partFrame overheadOf at hparts
    unfold streamFrames headerFrame partFrame overheadOf
    simp only [hpart, hheader, bind, Except.bind, pure, Except.pure]
    by_cases hroom : 0 < (limit - (canonicalBytes (.obj (signed K secret
        (partOf identity raw.length "")))).length) / 4
    · rw [if_neg (by omega), hparts]
      dsimp only
      rw [Except.ok.injEq]
      exact ⟨fun h => ⟨hsecret, hroom, h.symm⟩, fun h => h.2.2.symm⟩
    · rw [if_pos (by omega)]
      exact ⟨fun h => absurd h (by simp), fun h => absurd h.2.1 hroom⟩

/-- Without a secret nothing is signed. -/
theorem streamFrames_unsigned (identity : Envelope) (raw : Bytes) (limit : Nat) :
    streamFrames K [] identity raw limit = .error (.valueError "bridge secret is required") := by
  unfold streamFrames signEnvelope
  simp only [if_true, bind, Except.bind]

/-- The digits of a digest are plain. -/
theorem utf8Length_digest {text : String} (h : IsDigest text) :
    Json.utf8Length (Json.quoted text) = 66 := by
  have hall : "0123456789abcdef".toList.all Json.isPlainChar = true := by decide +kernel
  have hplain := List.all_eq_true.mp hall
  rw [Json.utf8Length_quoted fun c hc => hplain c (h.2 c hc), h.1]

/-- Base64 is plain. -/
theorem utf8Length_base64 (data : Bytes) :
    Json.utf8Length (Json.quoted (base64Text data)) = 4 * ((data.length + 2) / 3) + 2 := by
  have hall : ('=' :: Base64.alphabet).all Json.isPlainChar = true := by decide +kernel
  have hplain := List.all_eq_true.mp hall
  have hlist : (base64Text data).toList = Base64.encode data := by
    unfold base64Text
    rw [String.toList_ofList]
  rw [Json.utf8Length_quoted fun c hc => hplain c (Base64.mem_encode (hlist ▸ hc)), ← String.length_toList,
    hlist, Base64.length_encode]

/-- The length of the entries of a frame. -/
def entriesLength (es : Envelope) : Nat := (es.map fun e => Json.entryLength (e.1, e.2.canon) + 1).sum

theorem entriesLength_append (es es' : Envelope) :
    entriesLength (es ++ es') = entriesLength es + entriesLength es' := by
  simp [entriesLength]

/-- **The length of a signed frame**: its entries, and a signature of constant length. -/
theorem length_signed (hK : K.Faithful) (secret : Bytes) (es : Envelope) :
    (canonicalBytes (.obj (signed K secret es))).length = entriesLength es + 74 := by
  have hne : signed K secret es ≠ [] := by simp [signed]
  have hmac : Json.utf8Length (Json.quoted "mac") = 5 := by decide
  have hentries : (canonicalBytes (.obj (signed K secret es))).length =
      1 + entriesLength (signed K secret es) := by
    rw [length_canonicalBytes, Json.length_dumps_obj hne]
    rfl
  rw [hentries]
  unfold signed
  rw [entriesLength_append]
  simp only [entriesLength, List.map_cons, List.map_nil, List.sum_cons, List.sum_nil]
  unfold Json.entryLength
  simp only [Json.canon, Json.render]
  rw [utf8Length_digest (hK.hmac_digest _ _), hmac]
  omega

/-- The length of a part is that of its number and its data, and of what all parts have. -/
theorem entriesLength_part (identity : Envelope) (index : Nat) (data : String) :
    entriesLength (partOf identity index data) =
      entriesLength identity + (Nat.toDigits 10 index).length + Json.utf8Length (Json.quoted data) + 25 := by
  have hindex : Json.utf8Length (Json.quoted "response_part") = 15 := by decide
  have hdata : Json.utf8Length (Json.quoted "data") = 6 := by decide
  unfold partOf
  rw [entriesLength_append]
  simp only [entriesLength, List.map_cons, List.map_nil, List.sum_cons, List.sum_nil]
  unfold Json.entryLength
  simp only [Json.canon, Json.render]
  rw [Json.utf8Length_intText, hindex, hdata]
  omega

/-- **No part exceeds the limit.** -/
theorem length_partFrame (hK : K.Faithful) (identity : Envelope) {raw : Bytes} {limit index : Nat}
    (hchunk : 0 < (limit - overheadOf K secret identity raw) / 4) (hindex : index ≤ raw.length) :
    (canonicalBytes (.obj (partFrame K secret identity
      (3 * ((limit - overheadOf K secret identity raw) / 4)) raw index))).length ≤ limit := by
  have hquoted : Json.utf8Length (Json.quoted "") = 2 := by decide
  have hdigits := Json.length_toDigits_mono hindex
  have hpiece := Pieces.length_piece_le (3 * ((limit - overheadOf K secret identity raw) / 4)) raw index
  have hempty : overheadOf K secret identity raw =
      entriesLength identity + (Nat.toDigits 10 raw.length).length + 2 + 25 + 74 := by
    unfold overheadOf
    rw [length_signed hK, entriesLength_part, hquoted]
  unfold partFrame
  rw [length_signed hK, entriesLength_part, utf8Length_base64]
  omega

/-- The length of a header is that of the two numbers in it, and of what all headers have. -/
theorem length_headerFrame (hK : K.Faithful) (secret : Bytes) (identity : Envelope) (size : Nat)
    (raw : Bytes) : (canonicalBytes (.obj (headerFrame K secret identity size raw))).length =
      entriesLength identity + (Nat.toDigits 10 raw.length).length +
        (Nat.toDigits 10 (Pieces.count size raw)).length + 188 := by
  have hkeys : Json.utf8Length (Json.quoted "response_stream") = 17 ∧
      Json.utf8Length (Json.quoted "bytes") = 7 ∧ Json.utf8Length (Json.quoted "parts") = 7 ∧
      Json.utf8Length (Json.quoted "sha256") = 8 := by decide
  obtain ⟨hstream, hbytes, hparts, hsha⟩ := hkeys
  have hvalue : Json.utf8Length (Json.render (Json.obj [("bytes", .int raw.length),
      ("parts", .int (Pieces.count size raw)), ("sha256", .str (K.sha256 raw))]).canon) =
        (Nat.toDigits 10 raw.length).length + (Nat.toDigits 10 (Pieces.count size raw)).length + 95 := by
    show Json.utf8Length (Json.dumps _) = _
    rw [Json.length_dumps_obj (by simp)]
    simp only [List.map_cons, List.map_nil, List.sum_cons, List.sum_nil, Json.entryLength, Json.canon,
      Json.render]
    rw [hbytes, hparts, hsha, utf8Length_digest (hK.sha256_digest _), Json.utf8Length_intText,
      Json.utf8Length_intText]
    omega
  unfold headerFrame
  rw [length_signed hK]
  unfold headerOf
  rw [entriesLength_append]
  simp only [entriesLength, List.map_cons, List.map_nil, List.sum_cons, List.sum_nil]
  unfold Json.entryLength
  rw [hstream, hvalue]
  omega

end Parts

/-! ## 9.  Reading what was written -/

section Reading

variable {K} {R : BridgeReader} {response identity : Envelope} {maxBytes : Int}

/-- What arrives under a key of a frame that the identity does not have. -/
theorem get?_arrived_extra (hidentity : Identifies response identity) {extra : Envelope}
    (hextra : Added extra) {key : String} (hkey : key ∉ identityKeys) :
    Dict.get? (arrived (identity ++ extra)) key = (Dict.get? extra key).map Json.canon := by
  rw [get?_arrived (hidentity.wf hextra).1, Dict.get?_append,
    Dict.get?_eq_none_iff.mpr (hidentity.keys ▸ hkey), Option.none_or]

/-- A header is no notice. -/
theorem not_progress_header (hidentity : Identifies response identity) (raw : Bytes) (count : Nat) :
    isProgress (arrived (headerOf K identity raw count)) = false := by
  have hget : ∀ key ∈ ["in_flight", "waiting_for_user"],
      Dict.get? (arrived (headerOf K identity raw count)) key = none := by
    intro key hkey
    simp only [List.mem_cons, List.not_mem_nil, or_false] at hkey
    rcases hkey with rfl | rfl
    · exact get?_arrived_extra hidentity (extends_header _) (by decide)
    · exact get?_arrived_extra hidentity (extends_header _) (by decide)
  unfold isProgress isTrue
  rw [hget _ (by simp), hget _ (by simp)]
  rfl

/-- The bounds of a header, as they arrive. -/
theorem bound_arrived {es : Envelope} (hwf : Dict.WF es) (key : String) {n : Nat}
    (h : Dict.get? es key = some (.int n)) : bound (arrived es) key = n := by
  unfold bound
  rw [get?_arrived hwf, h]
  rfl

/-- **The header announces the parts.** -/
theorem new_header (hK : K.Faithful) (hwf : Dict.WF response) (hadmits : Admits K R (arrived response))
    (hidentity : Identifies response identity) {size : Nat} (hsize : 0 < size) {raw : Bytes}
    (hraw : raw ≠ []) :
    ResponseAssembly.new K R (arrived (headerFrame K R.secret identity size raw)) =
      .ok ⟨arrived (headerFrame K R.secret identity size raw), Pieces.count size raw, raw.length,
        K.sha256 raw, []⟩ := by
  have hverified := verified_frame hK hwf hadmits hidentity (extends_header (.obj
    [("bytes", .int raw.length), ("parts", .int (Pieces.count size raw)), ("sha256", .str (K.sha256 raw))]))
  have hwf' : Dict.WF [("bytes", Json.int raw.length), ("parts", .int (Pieces.count size raw)),
      ("sha256", .str (K.sha256 raw))] := by simp [Dict.WF]
  have hstream : Dict.get? (arrived (headerOf K identity raw (Pieces.count size raw))) "response_stream" =
      some (.obj (arrived [("bytes", .int raw.length), ("parts", .int (Pieces.count size raw)),
        ("sha256", .str (K.sha256 raw))])) :=
    get?_arrived_extra hidentity (extends_header _) (by decide)
  have hparts := bound_arrived hwf' "parts" (n := Pieces.count size raw) rfl
  have hbytes := bound_arrived hwf' "bytes" (n := raw.length) rfl
  have hdigest : K.field (arrived [("bytes", Json.int raw.length),
      ("parts", .int (Pieces.count size raw)), ("sha256", .str (K.sha256 raw))]) "sha256" = K.sha256 raw := by
    refine field_text ?_
    rw [get?_arrived hwf']
    rfl
  unfold ResponseAssembly.new
  change verifiedResponse K R (arrived (headerFrame K R.secret identity size raw)) = _ at hverified
  rw [hverified]
  simp only [bind, Except.bind]
  change Dict.get? (arrived (identity ++ _)) "response_stream" = _ at hstream
  rw [hstream]
  dsimp only
  rw [hparts, hbytes, hdigest, if_pos ⟨Pieces.count_pos hsize hraw, Pieces.count_le_length hsize raw,
    (hK.sha256_digest raw).1⟩]
  rfl

/-- **A part is appended** to what came before. -/
theorem append_part (hK : K.Faithful) (hwf : Dict.WF response) (hadmits : Admits K R (arrived response))
    (hidentity : Identifies response identity) {size index : Nat} {raw : Bytes} {a : ResponseAssembly}
    (hpiece : Pieces.piece size raw index ≠ [])
    (hroom : a.body.length + (Pieces.piece size raw index).length ≤ a.size) :
    a.append K R (arrived (partFrame K R.secret identity size raw index)) index =
      .ok { a with body := a.body ++ Pieces.piece size raw index } := by
  have hverified := verified_frame hK hwf hadmits hidentity
    (extends_part index (base64Text (Pieces.piece size raw index)))
  have hindex : Dict.get? (arrived (identity ++ [("response_part", .int index),
      ("data", .str (base64Text (Pieces.piece size raw index)))])) "response_part" = some (.int index) :=
    get?_arrived_extra hidentity (extends_part _ _) (by decide)
  have hdata : Dict.get? (arrived (identity ++ [("response_part", .int index),
      ("data", .str (base64Text (Pieces.piece size raw index)))])) "data" =
      some (.str (base64Text (Pieces.piece size raw index))) :=
    get?_arrived_extra hidentity (extends_part _ _) (by decide)
  unfold ResponseAssembly.append
  change verifiedResponse K R (arrived (partFrame K R.secret identity size raw index)) = _ at hverified
  rw [hverified]
  simp only [bind, Except.bind]
  rw [hindex]
  dsimp only
  unfold partData
  rw [if_neg (not_not.mpr rfl), hdata]
  dsimp only
  unfold base64Text
  rw [String.toList_ofList, Base64.decode_encode]
  dsimp only
  rw [if_neg (not_or.mpr ⟨hpiece, by omega⟩)]
  rfl

/-- **The parts add up**: the induction is on the parts that are left. -/
theorem readParts_frames (hK : K.Faithful) (hwf : Dict.WF response)
    (hadmits : Admits K R (arrived response)) (hidentity : Identifies response identity) {size : Nat}
    (hsize : 0 < size) {raw : Bytes} {rest : Bytes} (n : Nat) {index : Nat} {out : Bytes}
    {a : ResponseAssembly} (ha : a.size = raw.length) (hbody : a.body = raw.take (index * size))
    (hcount : index + n = Pieces.count size raw)
    (h : encodeFrames maxBytes ((List.range' index n).map (partFrame K R.secret identity size raw)) =
      (out, none)) :
    a.readParts K R maxBytes index n (out ++ rest) = .ok ({ a with body := raw }, rest) := by
  induction n generalizing index out a with
  | zero =>
      obtain rfl : [] = out := congrArg Prod.fst h
      have hall : a.body = raw := by
        rw [hbody, show index = Pieces.count size raw from hcount]
        exact List.take_of_length_le (Pieces.length_le_count_mul hsize raw)
      rw [ResponseAssembly.readParts, ← hall]
      rfl
  | succ n ih =>
      rw [List.range'_succ, List.map_cons] at h
      obtain ⟨frame, others, hframe, hothers, rfl⟩ := encodeFrames_cons h
      have hlt : index < Pieces.count size raw := by omega
      have hnext : a.body ++ Pieces.piece size raw index = raw.take ((index + 1) * size) := by
        rw [hbody, Nat.succ_mul, List.take_add]
        rfl
      have hroom : a.body.length + (Pieces.piece size raw index).length ≤ a.size := by
        rw [← List.length_append, hnext, ha]
        exact List.length_take_le' _ _
      rw [List.append_assoc, ResponseAssembly.readParts, readFrame_encoded hK hframe]
      simp only [bind, Except.bind]
      rw [append_part hK hwf hadmits hidentity (Pieces.piece_ne_nil hsize hlt) hroom]
      dsimp only
      exact ih (a := { a with body := a.body ++ Pieces.piece size raw index }) ha hnext (by omega) hothers

/-- The notices before a response are passed over. -/
theorem readFirst_notices (hK : K.Faithful) {first : Envelope} {v : Envelope}
    (hfirst : verifiedResponse K R (arrived first) = .ok v) (hv : isProgress v = false) {frame : Bytes}
    (hframe : encodeFrame first maxBytes = .ok frame) (rest : Bytes) {notices : List Envelope}
    (hnotices : ∀ notice ∈ notices, ∃ v, verifiedResponse K R (arrived notice) = .ok v ∧
      isProgress v = true) {out : Bytes} (h : encodeFrames maxBytes notices = (out, none)) {turns : Nat}
    (hturns : notices.length < turns) :
    readFirst K R maxBytes turns (out ++ (frame ++ rest)) = .ok (arrived first, rest) := by
  induction notices generalizing out turns with
  | nil =>
      obtain rfl : [] = out := congrArg Prod.fst h
      cases turns with
      | zero => exact absurd hturns (by simp)
      | succ turns =>
          rw [List.nil_append, readFirst, readFrame_encoded hK hframe]
          simp only [bind, Except.bind]
          rw [hfirst]
          dsimp only
          rw [hv]
          rfl
  | cons notice notices ih =>
      obtain ⟨raw, others, hraw, hothers, rfl⟩ := encodeFrames_cons h
      obtain ⟨u, hu, hprogress⟩ := hnotices notice (by simp)
      cases turns with
      | zero => exact absurd hturns (by simp)
      | succ turns =>
          rw [List.append_assoc, readFirst, readFrame_encoded hK hraw]
          simp only [bind, Except.bind]
          rw [hu]
          dsimp only
          rw [hprogress]
          exact ih (fun n hn => hnotices n (List.mem_cons_of_mem _ hn)) hothers
            (Nat.lt_of_succ_lt_succ hturns)

/-- Frames take at least a byte each. -/
theorem length_le_encodeFrames {frames : List Envelope} {out : Bytes}
    (h : encodeFrames maxBytes frames = (out, none)) : frames.length ≤ out.length := by
  induction frames generalizing out with
  | nil => exact Nat.zero_le _
  | cons frame frames ih =>
      obtain ⟨raw, rest, hraw, hrest, rfl⟩ := encodeFrames_cons h
      obtain ⟨-, -, rfl⟩ := encodeFrame_eq_ok hraw
      have hih := ih hrest
      have hprefix : (lengthPrefix (canonicalBytes (.obj frame)).length).length = 4 := rfl
      rw [List.length_append, List.length_append, List.length_cons, hprefix]
      omega

end Reading

/-! ## 10.  Results -/

section Results

variable {K} {R : BridgeReader} {response : Envelope} {maxBytes : Int}

/-- What `response_frames` yields: the response itself, or the frames of its parts. -/
theorem responseFrames_eq_ok {secret : Bytes} {frames : List Envelope}
    (h : responseFrames K response secret maxBytes = .ok frames) :
    (canonicalBytes (.obj response)).length ≤ frameLimit maxBytes ∧ frames = [response] ∨
      ∃ identity, Identifies response identity ∧
        streamFrames K secret identity (canonicalBytes (.obj response)) (frameLimit maxBytes) =
          .ok frames := by
  unfold responseFrames at h
  dsimp only at h
  split at h
  · rename_i hfits
    exact .inl ⟨hfits, (Except.ok.inj h).symm⟩
  · cases hidentity : identityOf response with
    | error e =>
        rw [hidentity] at h
        exact absurd h (by simp [bind, Except.bind])
    | ok identity =>
        rw [hidentity] at h
        exact .inr ⟨identity, identifies_of_identityOf hidentity, h⟩

/-- **Every frame but the first fits the limit**, for every response and every limit. -/
theorem responseFrames_fit (hK : K.Faithful) {secret : Bytes} {first : Envelope}
    {parts : List Envelope} (h : responseFrames K response secret maxBytes = .ok (first :: parts)) :
    ∀ part ∈ parts, (canonicalBytes (.obj part)).length ≤ frameLimit maxBytes := by
  rcases responseFrames_eq_ok h with ⟨-, hone⟩ | ⟨identity, hidentity, hstream⟩
  · obtain ⟨-, rfl⟩ := List.cons.inj hone
    simp
  · obtain ⟨-, hchunk, hframes⟩ := (streamFrames_eq_ok hidentity).mp hstream
    obtain ⟨-, rfl⟩ := List.cons.inj hframes
    intro part hpart
    obtain ⟨index, hindex, rfl⟩ := List.mem_map.mp hpart
    have hcount : Pieces.count (3 * ((frameLimit maxBytes - overheadOf K secret identity
        (canonicalBytes (.obj response))) / 4)) (canonicalBytes (.obj response)) ≤
          (canonicalBytes (.obj response)).length := Pieces.count_le_length (by omega) _
    exact length_partFrame hK identity hchunk ((List.mem_range.mp hindex).le.trans hcount)

/-- Frames that fit are encoded. -/
theorem encodeFrames_of_fit (hlimit : frameLimit maxBytes < 4294967296) {frames : List Envelope}
    (h : ∀ frame ∈ frames, (canonicalBytes (.obj frame)).length ≤ frameLimit maxBytes) :
    ∃ out, encodeFrames maxBytes frames = (out, none) := by
  induction frames with
  | nil => exact ⟨[], rfl⟩
  | cons frame frames ih =>
      obtain ⟨out, hout⟩ := ih fun f hf => h f (List.mem_cons_of_mem _ hf)
      have hfits := h frame (by simp)
      have hframe : encodeFrame frame maxBytes =
          .ok (lengthPrefix (canonicalBytes (.obj frame)).length ++ canonicalBytes (.obj frame)) := by
        unfold encodeFrame
        dsimp only
        rw [if_neg (by omega), if_neg (by omega)]
      refine ⟨(lengthPrefix (canonicalBytes (.obj frame)).length ++ canonicalBytes (.obj frame)) ++ out, ?_⟩
      rw [encodeFrames, hframe, hout]

/-- **A response is written whole or not at all**: when writing raises, nothing was written. -/
theorem written_whole (hK : K.Faithful) (hlimit : frameLimit maxBytes < 4294967296) (response : Envelope)
    (secret : Bytes) {e : BridgeRaised} (h : (writeResponse K response secret maxBytes).2 = some e) :
    (writeResponse K response secret maxBytes).1 = [] := by
  unfold writeResponse at h ⊢
  cases hframes : responseFrames K response secret maxBytes with
  | error e' => rfl
  | ok frames =>
      rw [hframes] at h
      cases frames with
      | nil => rfl
      | cons first parts =>
          -- Only the first frame can fail, and it is the first thing that is written.
          obtain ⟨out, hout⟩ := encodeFrames_of_fit hlimit (responseFrames_fit hK hframes)
          dsimp only at h ⊢
          rw [encodeFrames] at h ⊢
          split at h
          · rfl
          · rw [hout] at h
            exact absurd h (by simp)

/-- The condition on which a response that does not fit one frame is written. -/
theorem written_of_room (hK : K.Faithful) (hlimit : frameLimit maxBytes < 4294967296) {secret : Bytes}
    (hsecret : secret ≠ []) {identity : Envelope} (hidentity : identityOf response = .ok identity)
    (hlong : frameLimit maxBytes < (canonicalBytes (.obj response)).length)
    (hroom : entriesLength identity + 2 * (Nat.toDigits 10 (canonicalBytes (.obj response)).length).length +
      188 ≤ frameLimit maxBytes) :
    ∃ out, writeResponse K response secret maxBytes = (out, none) := by
  have hquoted : Json.utf8Length (Json.quoted "") = 2 := by decide
  have hid := identifies_of_identityOf hidentity
  have hoverhead : overheadOf K secret identity (canonicalBytes (.obj response)) =
      entriesLength identity + (Nat.toDigits 10 (canonicalBytes (.obj response)).length).length + 101 := by
    unfold overheadOf
    rw [length_signed hK, entriesLength_part, hquoted]
  have hchunk : 0 < (frameLimit maxBytes - overheadOf K secret identity
      (canonicalBytes (.obj response))) / 4 := by omega
  obtain ⟨size, hsize, hframes⟩ : ∃ size, 0 < size ∧
      streamFrames K secret identity (canonicalBytes (.obj response)) (frameLimit maxBytes) =
        .ok (headerFrame K secret identity size (canonicalBytes (.obj response)) ::
          (List.range (Pieces.count size (canonicalBytes (.obj response)))).map
            (partFrame K secret identity size (canonicalBytes (.obj response)))) :=
    ⟨3 * ((frameLimit maxBytes - overheadOf K secret identity (canonicalBytes (.obj response))) / 4),
      by omega, (streamFrames_eq_ok hid).mpr ⟨hsecret, hchunk, rfl⟩⟩
  have hwhole : responseFrames K response secret maxBytes = streamFrames K secret identity
      (canonicalBytes (.obj response)) (frameLimit maxBytes) := by
    unfold responseFrames
    dsimp only
    rw [if_neg (by omega), hidentity]
    rfl
  unfold writeResponse
  rw [hwhole, hframes]
  refine encodeFrames_of_fit hlimit fun frame hframe => ?_
  rcases List.mem_cons.mp hframe with rfl | hpart
  · have hcount := Json.length_toDigits_mono
      (Pieces.count_le_length hsize (canonicalBytes (.obj response)))
    rw [length_headerFrame hK]
    omega
  · exact responseFrames_fit hK (hwhole.trans hframes) frame hpart

/-- A response in parts is not written without a secret. -/
theorem written_unsigned {identity : Envelope} (hidentity : identityOf response = .ok identity)
    (hlong : frameLimit maxBytes < (canonicalBytes (.obj response)).length) :
    writeResponse K response [] maxBytes = ([], some (.valueError "bridge secret is required")) := by
  unfold writeResponse responseFrames
  dsimp only
  rw [if_neg (by omega), hidentity]
  simp only [bind, Except.bind]
  rw [streamFrames_unsigned]

/-- A response that was written whole. -/
theorem writeResponse_eq {secret out : Bytes} (h : writeResponse K response secret maxBytes = (out, none)) :
    ∃ frames, responseFrames K response secret maxBytes = .ok frames ∧
      encodeFrames maxBytes frames = (out, none) := by
  unfold writeResponse at h
  split at h
  · exact absurd h (by simp)
  · exact ⟨_, ‹_›, h⟩

/-- Every frame takes a byte, so the reader has turns enough for the notices and one frame more. -/
theorem turns_enough {notices : List Envelope} {noticed : Bytes}
    (hnoticed : encodeFrames maxBytes notices = (noticed, none)) {first : Envelope} {raw : Bytes}
    (hraw : encodeFrame first maxBytes = .ok raw) (tail : Bytes) :
    notices.length < (noticed ++ (raw ++ tail)).length := by
  obtain ⟨-, -, rfl⟩ := encodeFrame_eq_ok hraw
  have hlength := length_le_encodeFrames hnoticed
  have hpos := canonicalBytes_pos first
  simp only [List.length_append]
  omega

/-- A response in one frame is read back. -/
theorem readResponse_frame (hK : K.Faithful) (hwf : Dict.WF response) {v : Envelope}
    (hverified : verifiedResponse K R (arrived response) = .ok v) (hfinal : isProgress v = false)
    (hplain : "response_stream" ∉ Dict.keys response) {notices : List Envelope}
    (hnotices : ∀ notice ∈ notices, ∃ u, verifiedResponse K R (arrived notice) = .ok u ∧
      isProgress u = true) {noticed raw : Bytes} (hnoticed : encodeFrames maxBytes notices = (noticed, none))
    (hraw : encodeFrame response maxBytes = .ok raw) (rest : Bytes) :
    readResponse K R maxBytes (noticed ++ (raw ++ rest)) = .ok (arrived response, rest) := by
  obtain ⟨hu, -, -⟩ := verifiedResponse_eq_ok.mp hverified
  have hnone : Dict.get? v "response_stream" = none := by
    rw [hu, get?_unsigned (by decide), get?_arrived hwf, Dict.get?_eq_none_iff.mpr hplain]
    rfl
  have hnew : ResponseAssembly.new K R (arrived response) = .ok ⟨arrived response, 0, 0, "", []⟩ := by
    unfold ResponseAssembly.new
    rw [hverified]
    simp only [bind, Except.bind]
    rw [hnone]
    rfl
  unfold readResponse
  rw [readFirst_notices hK hverified hfinal hraw rest hnotices hnoticed (turns_enough hnoticed hraw rest)]
  simp only [bind, Except.bind]
  rw [hnew]
  rfl

/-- **What was written is read back.**  Whatever the limit and wherever the text was cut, after any
notices the reader returns the response and leaves what follows it on the stream. -/
theorem response_read (hK : K.Faithful) (hwf : Dict.WF response) {v : Envelope}
    (hverified : verifiedResponse K R (arrived response) = .ok v) (hfinal : isProgress v = false)
    (hplain : "response_stream" ∉ Dict.keys response) {notices : List Envelope}
    (hnotices : ∀ notice ∈ notices, ∃ u, verifiedResponse K R (arrived notice) = .ok u ∧
      isProgress u = true) {noticed out : Bytes} (hnoticed : encodeFrames maxBytes notices = (noticed, none))
    (hwritten : writeResponse K response R.secret maxBytes = (out, none)) (rest : Bytes) :
    readResponse K R maxBytes (noticed ++ (out ++ rest)) = .ok (arrived response, rest) := by
  obtain ⟨frames, hframes, hout⟩ := writeResponse_eq hwritten
  obtain ⟨-, -, -, hadmits⟩ := verifiedResponse_eq_ok.mp hverified
  rcases responseFrames_eq_ok hframes with ⟨-, rfl⟩ | ⟨identity, hidentity, hstream⟩
  · obtain ⟨raw, others, hraw, hothers, rfl⟩ := encodeFrames_cons hout
    obtain rfl : [] = others := congrArg Prod.fst hothers
    rw [List.append_nil]
    exact readResponse_frame hK hwf hverified hfinal hplain hnotices hnoticed hraw rest
  · obtain ⟨hsecret, hchunk, rfl⟩ := (streamFrames_eq_ok hidentity).mp hstream
    obtain ⟨header, parts, hheader, hparts, rfl⟩ := encodeFrames_cons hout
    have hsize : 0 < 3 * ((frameLimit maxBytes - overheadOf K R.secret identity
        (canonicalBytes (.obj response))) / 4) := by omega
    generalize 3 * ((frameLimit maxBytes - overheadOf K R.secret identity
      (canonicalBytes (.obj response))) / 4) = size at *
    have hpos := canonicalBytes_pos response
    have hraw : canonicalBytes (.obj response) ≠ [] := List.length_pos_iff.mp hpos
    have hfirst := verified_frame hK hwf hadmits hidentity (extends_header (.obj
      [("bytes", .int (canonicalBytes (.obj response)).length),
        ("parts", .int (Pieces.count size (canonicalBytes (.obj response)))),
        ("sha256", .str (K.sha256 (canonicalBytes (.obj response))))]))
    have hread : ∀ a : ResponseAssembly, a.size = (canonicalBytes (.obj response)).length → a.body = [] →
        a.readParts K R maxBytes 0 (Pieces.count size (canonicalBytes (.obj response))) (parts ++ rest) =
          .ok ({ a with body := canonicalBytes (.obj response) }, rest) := by
      intro a ha hbody
      refine readParts_frames hK hwf hadmits hidentity hsize _ ha (by simp [hbody]) (Nat.zero_add _) ?_
      rw [← List.range_eq_range']
      exact hparts
    have hdecode : decodeFrame K (canonicalBytes (.obj response)) = .ok (arrived response) := by
      unfold decodeFrame
      rw [hK.loads_written]
      rfl
    unfold readResponse
    rw [List.append_assoc, readFirst_notices hK hfirst (not_progress_header hidentity _ _) hheader
      (parts ++ rest) hnotices hnoticed (turns_enough hnoticed hheader _)]
    simp only [bind, Except.bind]
    have hnew := new_header hK hwf hadmits hidentity hsize hraw
    change ResponseAssembly.new K R (arrived (signed K R.secret (identity ++ _))) = _ at hnew
    rw [hnew]
    dsimp only
    rw [hread _ rfl rfl]
    dsimp only
    unfold ResponseAssembly.finish
    rw [if_neg (Nat.ne_of_gt (Pieces.count_pos hsize hraw)), if_neg (by simp)]
    dsimp only
    rw [hdecode]
    simp only [bind, Except.bind]
    rw [hverified]
    rfl

end Results

/-! ### Whatever comes -/

section Accepted

variable {K} {R : BridgeReader} {maxBytes : Int} {stream rest : Bytes}

theorem readFrame_suffix {es : Envelope} (h : readFrame K maxBytes stream = .ok (es, rest)) :
    rest <:+ stream := by
  unfold readFrame at h
  split at h
  · rename_i a b c d tail
    dsimp only at h
    split at h
    · exact absurd h (by simp)
    · split at h
      · exact absurd h (by simp)
      · obtain ⟨frame, -, hpair⟩ := except_map_eq_ok.mp h
        obtain ⟨-, rfl⟩ := Prod.mk.inj hpair
        exact (List.drop_suffix _ _).trans (List.suffix_append [a, b, c, d] tail)
  · exact absurd h (by simp)

/-- The frame that ends the waiting was verified. -/
theorem readFirst_eq_ok {first : Envelope} {turns : Nat}
    (h : readFirst K R maxBytes turns stream = .ok (first, rest)) :
    rest <:+ stream ∧ ∃ v, verifiedResponse K R first = .ok v := by
  induction turns generalizing stream with
  | zero => exact absurd h (by simp [readFirst])
  | succ turns ih =>
      rw [readFirst] at h
      obtain ⟨⟨frame, tail⟩, hframe, h⟩ := except_bind_eq_ok.mp h
      obtain ⟨v, hv, h⟩ := except_bind_eq_ok.mp h
      have htail := readFrame_suffix hframe
      split at h
      · obtain ⟨hrest, hfirst⟩ := ih h
        exact ⟨hrest.trans htail, hfirst⟩
      · obtain ⟨rfl, rfl⟩ := Prod.mk.inj (Except.ok.inj h)
        exact ⟨htail, v, hv⟩

theorem new_result {first : Envelope} {a : ResponseAssembly}
    (h : ResponseAssembly.new K R first = .ok a) : a.result = first := by
  unfold ResponseAssembly.new at h
  obtain ⟨header, -, h⟩ := except_bind_eq_ok.mp h
  split at h
  · rw [← Except.ok.inj h]
  · rw [← Except.ok.inj h]
  · dsimp only at h
    split at h
    · rw [← Except.ok.inj h]
    · exact absurd h (by simp)
  · exact absurd h (by simp)

/-- A part adds to the body and to nothing else. -/
theorem append_result {a b : ResponseAssembly} {raw : Envelope} {index : Nat}
    (h : a.append K R raw index = .ok b) : b.result = a.result ∧ b.parts = a.parts := by
  unfold ResponseAssembly.append at h
  obtain ⟨part, -, h⟩ := except_bind_eq_ok.mp h
  split at h
  · split at h
    · exact absurd h (by simp)
    · split at h
      · exact absurd h (by simp)
      · split at h
        · exact absurd h (by simp)
        · rw [← Except.ok.inj h]
          exact ⟨rfl, rfl⟩
  · exact absurd h (by simp)

theorem readParts_result {parts index : Nat} {a b : ResponseAssembly}
    (h : a.readParts K R maxBytes index parts stream = .ok (b, rest)) :
    rest <:+ stream ∧ b.result = a.result ∧ b.parts = a.parts := by
  induction parts generalizing index stream a with
  | zero =>
      obtain ⟨rfl, rfl⟩ := Prod.mk.inj (Except.ok.inj h)
      exact ⟨List.suffix_refl _, rfl, rfl⟩
  | succ parts ih =>
      rw [ResponseAssembly.readParts] at h
      obtain ⟨⟨frame, tail⟩, hframe, h⟩ := except_bind_eq_ok.mp h
      obtain ⟨a', ha', h⟩ := except_bind_eq_ok.mp h
      obtain ⟨hrest, hresult, hparts⟩ := ih h
      obtain ⟨hresult', hparts'⟩ := append_result ha'
      exact ⟨hrest.trans (readFrame_suffix hframe), hresult.trans hresult', hparts.trans hparts'⟩

/-- **Nothing unsigned is accepted.**  Whatever bytes come, a response that is returned carries the
signature of the host over all it says, and answers this request. -/
theorem read_authentic {response : Envelope} (h : readResponse K R maxBytes stream = .ok (response, rest)) :
    Authentic K R.secret response ∧ Admits K R response ∧ rest <:+ stream := by
  unfold readResponse at h
  obtain ⟨⟨first, afterFirst⟩, hfirst, h⟩ := except_bind_eq_ok.mp h
  obtain ⟨a, ha, h⟩ := except_bind_eq_ok.mp h
  obtain ⟨⟨b, afterParts⟩, hparts, h⟩ := except_bind_eq_ok.mp h
  obtain ⟨result, hresult, h⟩ := except_bind_eq_ok.mp h
  obtain ⟨rfl, rfl⟩ := Prod.mk.inj (Except.ok.inj h)
  obtain ⟨hsuffix, v, hv⟩ := readFirst_eq_ok hfirst
  obtain ⟨hsuffix', hsame, -⟩ := readParts_result hparts
  have hverified : ∃ v, verifiedResponse K R result = .ok v := by
    unfold ResponseAssembly.finish at hresult
    split at hresult
    · rw [← Except.ok.inj hresult, hsame, new_result ha]
      exact ⟨v, hv⟩
    · split at hresult
      · exact absurd hresult (by simp)
      · obtain ⟨decoded, -, hresult⟩ := except_bind_eq_ok.mp hresult
        obtain ⟨u, hu, hresult⟩ := except_bind_eq_ok.mp hresult
        rw [← Except.ok.inj hresult]
        exact ⟨u, hu⟩
  obtain ⟨u, hu⟩ := hverified
  obtain ⟨-, -, hauthentic, hadmits⟩ := verifiedResponse_eq_ok.mp hu
  exact ⟨hauthentic, hadmits, hsuffix'.trans hsuffix⟩

end Accepted

/-! ## 11.  A response in parts -/

/-- Sixty-four hexadecimal digits of a number. -/
def hexText (n : Nat) : String := String.ofList ((List.range 64).map fun i => Nat.digitChar (n / 16 ^ i % 16))

/-- A checksum of bytes. -/
def checksum (start : Nat) (data : Bytes) : Nat :=
  data.foldl (fun h b => (h * 257 + b.toNat + 1) % 16 ^ 64) start

theorem isDigest_hexText (n : Nat) : IsDigest (hexText n) := by
  have hdigit : ∀ m < 16, Nat.digitChar m ∈ "0123456789abcdef".toList := by decide
  unfold IsDigest hexText
  rw [String.toList_ofList]
  refine ⟨by simp, fun c hc => ?_⟩
  obtain ⟨i, -, rfl⟩ := List.mem_map.mp hc
  exact hdigit _ (Nat.mod_lt _ (by decide))

open Classical in
/-- The libraries for a concrete run: canonical texts are read, and digests are checksums. -/
noncomputable def checksumCodec : BridgeCodec where
  P := bracketInterpreter
  hmac secret data := hexText (checksum (checksum 1 secret) data)
  sha256 data := hexText (checksum 7 data)
  loads raw := if h : ∃ j, canonicalBytes j = raw then some h.choose.canon else none

open Classical in
theorem faithful_checksumCodec : checksumCodec.Faithful where
  loads_written j := by
    have hexists : ∃ j', canonicalBytes j' = canonicalBytes j := ⟨j, rfl⟩
    show (if h : ∃ j', canonicalBytes j' = canonicalBytes j then some h.choose.canon else none) = _
    rw [dif_pos hexists, canonicalBytes_inj hexists.choose_spec]
  hmac_digest _ _ := isDigest_hexText _
  sha256_digest _ := isDigest_hexText _

def partsReader : BridgeReader := ⟨[1, 2, 3], "n", 3, "q"⟩

/-- What identifies the frames of a response to that reader. -/
def sampleIdentity : Envelope :=
  [("schema", .str bridgeSchema), ("nonce", .str "n"), ("generation", .int 3), ("request_id", .str "q")]

/-- A value as long as a frame may be. -/
def longText : String := String.ofList (List.replicate 1024 'v')

/-- The frame of that host which says one thing. -/
noncomputable def sampleFrame (key : String) (v : Json) : Envelope :=
  signed checksumCodec [1, 2, 3] (sampleIdentity ++ [(key, v)])

theorem entriesLength_sampleIdentity : entriesLength sampleIdentity = 81 := by
  have hkeys : Json.utf8Length (Json.quoted "schema") = 8 ∧ Json.utf8Length (Json.quoted "nonce") = 7 ∧
      Json.utf8Length (Json.quoted "generation") = 12 ∧ Json.utf8Length (Json.quoted "request_id") = 12 := by
    decide
  have htexts : Json.utf8Length (Json.quoted bridgeSchema) = 27 ∧ Json.utf8Length (Json.quoted "n") = 3 ∧
      Json.utf8Length (Json.quoted "q") = 3 ∧ Json.utf8Length (Json.intText 3) = 1 := by
    decide
  obtain ⟨hschema, hnonce, hgeneration, hrequest⟩ := hkeys
  obtain ⟨hschema', hnonce', hrequest', hgeneration'⟩ := htexts
  simp only [entriesLength, sampleIdentity, List.map_cons, List.map_nil, List.sum_cons, List.sum_nil,
    Json.entryLength, Json.canon, Json.render]
  rw [hschema, hnonce, hgeneration, hrequest, hschema', hnonce', hrequest', hgeneration']
  rfl

/-- One entry besides the identity. -/
theorem Added.one {key : String} (hmac : key ≠ "mac") (hkey : key ∉ identityKeys) (v : Json) :
    Added [(key, v)] where
  wf := by simp [Dict.WF]
  mac := by simpa using hmac.symm
  other k hk := by
    rw [Dict.keys_cons, Dict.keys_nil, List.mem_singleton]
    rintro rfl
    exact hkey hk

theorem identifies_sample : Identifies sampleIdentity sampleIdentity where
  keys := rfl
  get? key hkey := by
    refine ⟨rfl, ?_⟩
    simp only [identityKeys, List.mem_cons, List.not_mem_nil, or_false] at hkey
    rcases hkey with rfl | rfl | rfl | rfl <;> rfl

/-- The length of such a frame. -/
theorem length_sampleFrame (key : String) (v : Json) :
    (canonicalBytes (.obj (sampleFrame key v))).length =
      Json.utf8Length (Json.quoted key) + Json.utf8Length (Json.render v.canon) + 157 := by
  unfold sampleFrame
  rw [length_signed faithful_checksumCodec, entriesLength_append, entriesLength_sampleIdentity]
  simp only [entriesLength, List.map_cons, List.map_nil, List.sum_cons, List.sum_nil, Json.entryLength]
  omega

theorem length_longFrame : (canonicalBytes (.obj (sampleFrame "value" (.str longText)))).length = 1190 := by
  have hvalue : Json.utf8Length (Json.quoted "value") = 7 := by decide
  have hplain : Json.isPlainChar 'v' = true := by decide
  have htext : Json.utf8Length (Json.quoted longText) = 1026 := by
    unfold longText
    rw [Json.utf8Length_quoted, String.length_ofList, List.length_replicate]
    intro c hc
    rw [String.toList_ofList] at hc
    rw [List.eq_of_mem_replicate hc]
    exact hplain
  rw [length_sampleFrame]
  simp only [Json.canon, Json.render]
  rw [hvalue, htext]

variable {key : String} {v : Json}

theorem wf_sampleFrame (key : String) (v : Json) (hmac : key ≠ "mac")
    (hkey : key ∉ identityKeys) :
    Dict.WF (sampleIdentity ++ [(key, v)]) ∧ "mac" ∉ Dict.keys (sampleIdentity ++ [(key, v)]) :=
  identifies_sample.wf (Added.one hmac hkey v)

theorem get?_sampleFrame {k : String} {w : Json} (h : Dict.get? sampleIdentity k = some w) :
    Dict.get? (sampleFrame key v) k = some w := by
  unfold sampleFrame signed
  rw [List.append_assoc, Dict.get?_append, h]
  rfl

theorem identityOf_sampleFrame : identityOf (sampleFrame key v) = .ok sampleIdentity := by
  have hitem : ∀ k w, Dict.get? sampleIdentity k = some w →
      item (sampleFrame key v) k = .ok (k, w) := by
    intro k w h
    unfold item
    rw [get?_sampleFrame h]
  unfold identityOf
  simp only [List.mapM_cons, List.mapM_nil, bind, Except.bind, pure, Except.pure,
    hitem "schema" (.str bridgeSchema) rfl, hitem "nonce" (.str "n") rfl,
    hitem "generation" (.int 3) rfl, hitem "request_id" (.str "q") rfl]
  rfl

/-- Such a frame is verified. -/
theorem verified_sampleFrame (hmac : key ≠ "mac") (hkey : key ∉ identityKeys) :
    verifiedResponse checksumCodec partsReader (arrived (sampleFrame key v)) =
      .ok (arrived (sampleIdentity ++ [(key, v)])) := by
  obtain ⟨hwf, hmac⟩ := wf_sampleFrame key v hmac hkey
  have hframe : Dict.WF (sampleFrame key v) := wf_signed hwf hmac
  have hget : ∀ k w, Dict.get? sampleIdentity k = some w →
      Dict.get? (arrived (sampleFrame key v)) k = some w.canon := by
    intro k w h
    rw [get?_arrived hframe, get?_sampleFrame h]
    rfl
  have hauthentic : Authentic checksumCodec partsReader.secret (arrived (sampleFrame key v)) :=
    authentic_signed faithful_checksumCodec hwf hmac
  rw [verifiedResponse_eq_ok]
  refine ⟨?_, hauthentic.ascii faithful_checksumCodec, hauthentic, ?_, ?_, ?_, ?_⟩
  · unfold sampleFrame
    rw [unsigned_arrived (wf_signed hwf hmac), unsigned_signed hmac]
  · exact field_text (hget "schema" (.str bridgeSchema) rfl)
  · exact field_text (hget "nonce" (.str "n") rfl)
  · exact field_text (hget "request_id" (.str "q") rfl)
  · unfold BridgeCodec.intField
    rw [hget "generation" (.int 3) rfl]
    rfl

/-- Whether such a frame is a notice is up to what it says. -/
theorem isProgress_sampleFrame (hmac : key ≠ "mac") (hkey : key ∉ identityKeys) :
    isProgress (arrived (sampleIdentity ++ [(key, v)])) = isProgress (arrived [(key, v)]) := by
  have hother : ∀ k, k ∉ identityKeys → Dict.get? (arrived (sampleIdentity ++ [(key, v)])) k =
      Dict.get? (arrived [(key, v)]) k := by
    intro k hk
    rw [get?_arrived_extra identifies_sample (Added.one hmac hkey v) hk,
      get?_arrived (Added.one hmac hkey v).wf]
  unfold isProgress isTrue
  rw [hother "in_flight" (by decide), hother "waiting_for_user" (by decide)]

/-- The long one is written in parts. -/
theorem longFrame_written :
    ∃ out, writeResponse checksumCodec (sampleFrame "value" (.str longText)) [1, 2, 3] 1024 =
      (out, none) := by
  have hlimit : frameLimit 1024 = 1024 := rfl
  refine written_of_room faithful_checksumCodec (by decide) (by decide) identityOf_sampleFrame ?_ ?_
  · rw [length_longFrame, hlimit]
    decide
  · rw [length_longFrame, entriesLength_sampleIdentity, hlimit]
    decide

theorem notMem_sampleFrame (v : Json) : "response_stream" ∉ Dict.keys (sampleFrame "value" v) := by
  unfold sampleFrame signed
  rw [Dict.keys_append, Dict.keys_append]
  simp [sampleIdentity]

theorem response_read_in_parts : ∃ noticed out, readResponse checksumCodec partsReader 1024
    (noticed ++ (out ++ [7])) = .ok (arrived (sampleFrame "value" (.str longText)), [7]) := by
  obtain ⟨hwf, hmac⟩ := wf_sampleFrame "value" (.str longText) (by decide) (by decide)
  have hframe : Dict.WF (sampleFrame "value" (.str longText)) := wf_signed hwf hmac
  have hfinal : isProgress (arrived (sampleIdentity ++ [("value", .str longText)])) = false := by
    rw [isProgress_sampleFrame (by decide) (by decide)]
    rfl
  have hprogress : isProgress (arrived (sampleIdentity ++ [("waiting_for_user", .bool true)])) = true := by
    rw [isProgress_sampleFrame (by decide) (by decide)]
    rfl
  have hlength : (canonicalBytes (.obj (sampleFrame "waiting_for_user" (.bool true)))).length ≤
      frameLimit 1024 := by
    have hkey : Json.utf8Length (Json.quoted "waiting_for_user") = 18 := by decide
    have hvalue : Json.utf8Length (Json.render (Json.bool true).canon) = 4 := by decide
    have hlimit : frameLimit 1024 = 1024 := rfl
    rw [length_sampleFrame, hkey, hvalue, hlimit]
    decide
  have hfits : ∀ notice ∈ [sampleFrame "waiting_for_user" (.bool true)],
      (canonicalBytes (.obj notice)).length ≤ frameLimit 1024 := by simpa using hlength
  have hnotices : ∀ notice ∈ [sampleFrame "waiting_for_user" (.bool true)],
      ∃ u, verifiedResponse checksumCodec partsReader (arrived notice) = .ok u ∧ isProgress u = true := by
    intro notice hnotice
    rw [List.mem_singleton.mp hnotice]
    exact ⟨_, verified_sampleFrame (by decide) (by decide), hprogress⟩
  obtain ⟨noticed, hnoticed⟩ := encodeFrames_of_fit (by decide) hfits
  obtain ⟨out, hout⟩ := longFrame_written
  exact ⟨noticed, out, response_read faithful_checksumCodec hframe
    (verified_sampleFrame (by decide) (by decide)) hfinal (notMem_sampleFrame _) hnotices hnoticed hout [7]⟩

theorem written_whole_unsigned :
    (writeResponse checksumCodec (sampleFrame "value" (.str longText)) [] 1024).1 = [] := by
  have hlimit : frameLimit 1024 = 1024 := rfl
  have hlong : frameLimit 1024 < (canonicalBytes (.obj (sampleFrame "value" (.str longText)))).length := by
    rw [length_longFrame, hlimit]
    decide
  exact written_whole faithful_checksumCodec (by decide) _ []
    (congrArg Prod.snd (written_unsigned identityOf_sampleFrame hlong))

/-- One frame, and what was read of it. -/
theorem read_authentic_frame : ∃ stream : Bytes,
    Authentic checksumCodec partsReader.secret (arrived (sampleFrame "value" .null)) ∧
      Admits checksumCodec partsReader (arrived (sampleFrame "value" .null)) ∧ [7] <:+ stream := by
  obtain ⟨hwf, hmac⟩ := wf_sampleFrame "value" .null (by decide) (by decide)
  have hframe : Dict.WF (sampleFrame "value" .null) := wf_signed hwf hmac
  have hfinal : isProgress (arrived (sampleIdentity ++ [("value", .null)])) = false := by
    rw [isProgress_sampleFrame (by decide) (by decide)]
    rfl
  have hnotices : ∀ notice ∈ ([] : List Envelope),
      ∃ u, verifiedResponse checksumCodec partsReader (arrived notice) = .ok u ∧ isProgress u = true := by
    simp
  have hlength : (canonicalBytes (.obj (sampleFrame "value" .null))).length = 168 := by
    have hkey : Json.utf8Length (Json.quoted "value") = 7 := by decide
    have hvalue : Json.utf8Length (Json.render Json.null.canon) = 4 := by decide
    rw [length_sampleFrame, hkey, hvalue]
  have hraw : encodeFrame (sampleFrame "value" .null) 1024 =
      .ok (lengthPrefix 168 ++ canonicalBytes (.obj (sampleFrame "value" .null))) := by
    have hlimit : frameLimit 1024 = 1024 := rfl
    unfold encodeFrame
    dsimp only
    rw [hlength, hlimit, if_neg (by decide), if_neg (by decide)]
  have hnone : encodeFrames 1024 [] = ([], none) := rfl
  have hread := readResponse_frame faithful_checksumCodec hframe
    (verified_sampleFrame (by decide) (by decide)) hfinal (notMem_sampleFrame _) hnotices hnone hraw [7]
  exact ⟨_, read_authentic hread⟩

end KernelRuntime
end VariantOne
