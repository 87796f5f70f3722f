import Ckarta.HttpParser

/-!
The request handoff: the metadata view that c/jni/ck_request.c writes and
java/org/ckarta/connector/NativeRequest.java reads. Spans point at real bytes, so the
NULL checks of the encoder never fire here.
-/
namespace CkartaNativeRequest
open MachineWord CkartaHttpParser

def jniAbiVersion : Nat := 2
def featureDirectBuffer : Nat := 1
def featureMetadataBuffer : Nat := 2
def ownsNativeStorage : Nat := 1
def javaBorrowsBuffer : Nat := 2
def metadataStorageBytes : Nat := 8320

/-- sizeof(ck_request_descriptor_t): two u32, seven u64 and two pointers. -/
def descriptorSize : Nat := 80

structure RequestDescriptor where
  abiVersion : Nat
  structSize : Nat
  featureFlags : Nat
  ownershipFlags : Nat
  ownerToken : Nat
  lifetimeToken : Nat
  requestId : Nat
  metadata : Option Bytes
  metadataLength : Nat
  body : Option Bytes
  bodyLength : Nat
  deriving DecidableEq, Repr

def ckRequestDescriptorValid (d : RequestDescriptor) : Bool :=
  if d.abiVersion ≠ jniAbiVersion then false
  else if d.structSize < descriptorSize then false
  else if (d.metadata = none ∧ d.metadataLength ≠ 0) ∨ d.metadataLength > int32Max ∨
      (d.featureFlags &&& featureMetadataBuffer ≠ 0 ∧ d.metadataLength = 0) ∨
      (d.featureFlags &&& featureMetadataBuffer = 0 ∧ d.metadataLength ≠ 0) ∨
      (d.body = none ∧ d.bodyLength ≠ 0) ∨ d.bodyLength > int32Max then false
  else if d.ownerToken > int64Max ∨ d.lifetimeToken > int64Max ∨ d.requestId > int64Max ∨
      d.requestId = 0 then false
  else true

def u8 (n : Nat) : UInt8 := UInt8.ofNat n

def writeU32Be (value : Nat) : Bytes :=
  [u8 (value / 16777216), u8 (value / 65536), u8 (value / 256), u8 value]

/-- The stored bytes: three big-endian lengths, the three fields, one flag byte. -/
def metadataBytes (http : HttpRequest) : Bytes :=
  writeU32Be http.method.length ++ writeU32Be http.target.length ++ writeU32Be http.version.length ++
    http.method ++ http.target ++ http.version ++ [u8 (http.connectionCloseRequired % 256).toNat]

def ckRequestInit (d : RequestDescriptor) : Option RequestDescriptor :=
  if ckRequestDescriptorValid d then some d else none

/-- none is the return value -1; else the descriptor that Java's view is cut from. -/
def ckRequestInitHttp (http : HttpRequest) (body : Option Bytes) (bodyLength : Nat)
    (requestId ownerToken lifetimeToken : Nat) : Option RequestDescriptor :=
  if http.method.length > maxMethodBytes ∨ http.target.length > maxTargetBytes ∨
      http.version.length > maxVersionBytes ∨ (body = none ∧ bodyLength ≠ 0) ∨
      bodyLength > int32Max then none
  else
    let metadataLength := 12 + http.method.length + http.target.length + http.version.length + 1
    if metadataLength > metadataStorageBytes ∨ metadataLength > int32Max then none
    else ckRequestInit {
      abiVersion := jniAbiVersion
      structSize := descriptorSize
      featureFlags := featureDirectBuffer ||| featureMetadataBuffer
      ownershipFlags := ownsNativeStorage ||| javaBorrowsBuffer
      ownerToken := ownerToken
      lifetimeToken := lifetimeToken
      requestId := requestId
      metadata := some (metadataBytes http)
      metadataLength := metadataLength
      body := body
      bodyLength := bodyLength }

inductive JavaException where
  | illegalArgument (message : String)
  | nullPointer (message : String)
  | illegalState (message : String)
  | bufferUnderflow
  deriving DecidableEq, Repr

/-- A java.nio.ByteBuffer: its bytes run to the capacity, reads go up to limit. -/
structure ByteBuffer where
  bytes : Bytes
  position : Nat
  limit : Nat
  direct : Bool
  deriving DecidableEq, Repr

def directBuffer (bytes : Bytes) : ByteBuffer := ⟨bytes, 0, bytes.length, true⟩

def ByteBuffer.remaining (buffer : ByteBuffer) : Nat := buffer.limit - buffer.position

def ByteBuffer.get (buffer : ByteBuffer) : Except JavaException UInt8 :=
  if buffer.position < buffer.limit then
    .ok (buffer.bytes.getD buffer.position 0)
  else .error .bufferUnderflow

def signed32 (n : Nat) : Int := if n < 2147483648 then n else (n : Int) - 4294967296

def bigEndian (bytes : Bytes) : Nat := bytes.foldl (fun value b => value * 256 + b.toNat) 0

/-- getInt of a big-endian buffer: the value and the buffer behind it. -/
def ByteBuffer.getInt (buffer : ByteBuffer) : Except JavaException (Int × ByteBuffer) :=
  if buffer.remaining < 4 then .error .bufferUnderflow
  else .ok (signed32 (bigEndian ((buffer.bytes.drop buffer.position).take 4)),
    { buffer with position := buffer.position + 4 })

def ByteBuffer.setPosition (buffer : ByteBuffer) (position : Int) : Except JavaException ByteBuffer :=
  if position < 0 ∨ position > buffer.limit then .error (.illegalArgument "newPosition")
  else .ok { buffer with position := position.toNat }

def ByteBuffer.setLimit (buffer : ByteBuffer) (limit : Int) : Except JavaException ByteBuffer :=
  if limit < 0 ∨ limit > buffer.bytes.length then .error (.illegalArgument "newLimit")
  else .ok { buffer with
    limit := limit.toNat, position := min buffer.position limit.toNat }

def ByteBuffer.slice (buffer : ByteBuffer) : Bytes :=
  (buffer.bytes.drop buffer.position).take buffer.remaining

structure NativeRequest where
  handle : Int
  metadata : ByteBuffer
  data : ByteBuffer
  methodLength : Int
  targetLength : Int
  protocolLength : Int
  deriving DecidableEq, Repr

/-- The three-argument constructor. The header view moves with each getInt, and the
    length check looks at what remains behind the third one. -/
def nativeRequest (handle : Int) (metadata data : Option ByteBuffer) :
    Except JavaException NativeRequest :=
  if handle = 0 then .error (.illegalArgument "request handle must be non-zero")
  else match metadata, data with
    | none, _ => .error (.nullPointer "request metadata")
    | some _, none => .error (.nullPointer "request data")
    | some metadata, some data =>
      if !metadata.direct || !data.direct then
        .error (.illegalArgument "native request views must be direct buffers")
      else if metadata.remaining = 0 then .ok ⟨handle, metadata, data, 0, 0, 0⟩
      else if metadata.remaining < 13 then
        .error (.illegalArgument "invalid native request metadata")
      else do
        let (methodLength, header) ← metadata.getInt
        let (targetLength, header) ← header.getInt
        let (protocolLength, header) ← header.getInt
        if methodLength < 0 ∨ targetLength < 0 ∨ protocolLength < 0 ∨
            13 + methodLength + targetLength + protocolLength ≠ header.remaining then
          .error (.illegalArgument "invalid native request metadata")
        else .ok ⟨handle, metadata, data, methodLength, targetLength, protocolLength⟩

def NativeRequest.requireMetadata (request : NativeRequest) : Except JavaException Unit :=
  if request.metadata.remaining = 0 then
    .error (.illegalState "request metadata is unavailable")
  else .ok ()

def NativeRequest.metadataSlice (request : NativeRequest) (offset length : Int) :
    Except JavaException Bytes := do
  let view ← request.metadata.setPosition offset
  let view ← view.setLimit (offset + length)
  .ok view.slice

def NativeRequest.methodBytes (request : NativeRequest) : Except JavaException Bytes := do
  request.requireMetadata
  request.metadataSlice 13 request.methodLength

def NativeRequest.targetBytes (request : NativeRequest) : Except JavaException Bytes := do
  request.requireMetadata
  request.metadataSlice (13 + request.methodLength) request.targetLength

def NativeRequest.protocolBytes (request : NativeRequest) : Except JavaException Bytes := do
  request.requireMetadata
  request.metadataSlice (13 + request.methodLength + request.targetLength) request.protocolLength

def NativeRequest.connectionCloseRequired (request : NativeRequest) : Except JavaException Bool := do
  request.requireMetadata
  let view ← request.metadata.setPosition
    (12 + 0 + request.methodLength + request.targetLength + request.protocolLength)
  let flag ← view.get
  .ok (flag != 0)

theorem bigEndian_writeU32Be {n : Nat} (fits : n < 4294967296) : bigEndian (writeU32Be n) = n := by
  simp only [bigEndian, writeU32Be, u8, List.foldl_cons, List.foldl_nil, UInt8.toNat_ofNat']
  omega

theorem getInt_word (bytes : Bytes) (position limit n : Nat) (direct : Bool)
    (word : (bytes.drop position).take 4 = writeU32Be n) (fits : n < 2147483648)
    (room : position + 4 ≤ limit) :
    ByteBuffer.getInt ⟨bytes, position, limit, direct⟩ =
      .ok ((n : Int), ⟨bytes, position + 4, limit, direct⟩) := by
  have enough : ¬ limit - position < 4 := by omega
  simp only [ByteBuffer.getInt, ByteBuffer.remaining, enough, ↓reduceIte, word,
    bigEndian_writeU32Be (show n < 4294967296 by omega), signed32, fits]

theorem metadataBytes_length (http : HttpRequest) : (metadataBytes http).length =
    13 + http.method.length + http.target.length + http.version.length := by
  simp only [metadataBytes, writeU32Be, List.length_append, List.length_cons, List.length_nil]
  omega

/-- The request is one the encoder takes: lengths within the parser's limits. -/
structure Encodable (http : HttpRequest) : Prop where
  method : http.method.length ≤ maxMethodBytes
  target : http.target.length ≤ maxTargetBytes
  version : http.version.length ≤ maxVersionBytes

theorem nativeRequest_throws {http : HttpRequest} {handle : Int} {data : Bytes}
    (encodable : Encodable http) (live : handle ≠ 0) :
    nativeRequest handle (some (directBuffer (metadataBytes http))) (some (directBuffer data)) =
      .error (.illegalArgument "invalid native request metadata") := by
  obtain ⟨m, t, v⟩ := encodable
  simp only [maxMethodBytes, maxTargetBytes, maxVersionBytes] at m t v
  have size := metadataBytes_length http
  have first := getInt_word (metadataBytes http) 0 (metadataBytes http).length http.method.length true
    (by simp [metadataBytes, writeU32Be]) (by omega) (by omega)
  have second := getInt_word (metadataBytes http) 4 (metadataBytes http).length http.target.length true
    (by simp [metadataBytes, writeU32Be]) (by omega) (by omega)
  have third := getInt_word (metadataBytes http) 8 (metadataBytes http).length http.version.length true
    (by simp [metadataBytes, writeU32Be]) (by omega) (by omega)
  have some : ¬ (metadataBytes http).length - 0 = 0 := by omega
  have enough : ¬ (metadataBytes http).length - 0 < 13 := by omega
  have refused : (http.method.length : Int) < 0 ∨ (http.target.length : Int) < 0 ∨
      (http.version.length : Int) < 0 ∨
      13 + (http.method.length : Int) + http.target.length + http.version.length ≠
        ((metadataBytes http).length - (8 + 4) : Nat) := by
    right; right; right
    omega
  simp only [nativeRequest, live, ↓reduceIte, directBuffer, ByteBuffer.remaining, Bool.not_true,
    Bool.or_self, Bool.false_eq_true, some, enough]
  rw [first]
  simp only [bind, Except.bind]
  rw [second]
  dsimp only
  rw [third]
  dsimp only
  exact if_pos refused

/-- The handoff keeps its contract on this input: the encoder succeeds, Java accepts what
    it wrote and reads the four pieces back. -/
def ViewAgrees (http : HttpRequest) (body : Option Bytes) (bodyLength requestId ownerToken
    lifetimeToken : Nat) (handle : Int) (data : Bytes) : Prop :=
  ∃ descriptor, ckRequestInitHttp http body bodyLength requestId ownerToken lifetimeToken =
      some descriptor ∧
    ∃ request, nativeRequest handle (descriptor.metadata.map directBuffer)
        (some (directBuffer data)) = .ok request ∧
      request.methodBytes = .ok http.method ∧ request.targetBytes = .ok http.target ∧
      request.protocolBytes = .ok http.version ∧
      request.connectionCloseRequired = .ok (http.connectionCloseRequired ≠ 0)

theorem ckRequestInitHttp_ok {http : HttpRequest} {body : Option Bytes}
    {bodyLength requestId ownerToken lifetimeToken : Nat} (encodable : Encodable http)
    (present : body = none → bodyLength = 0) (small : bodyLength ≤ int32Max)
    (named : 0 < requestId) (id_le : requestId ≤ int64Max) (owner_le : ownerToken ≤ int64Max)
    (lifetime_le : lifetimeToken ≤ int64Max) :
    ∃ descriptor, ckRequestInitHttp http body bodyLength requestId ownerToken lifetimeToken =
        some descriptor ∧ descriptor.metadata = some (metadataBytes http) ∧
        descriptor.metadataLength = (metadataBytes http).length := by
  obtain ⟨m, t, v⟩ := encodable
  have size := metadataBytes_length http
  have limits : ¬ (http.method.length > maxMethodBytes ∨ http.target.length > maxTargetBytes ∨
      http.version.length > maxVersionBytes ∨ (body = none ∧ bodyLength ≠ 0) ∨
      bodyLength > int32Max) := by
    rintro (long | long | long | ⟨absent, some⟩ | long)
    · omega
    · omega
    · omega
    · exact some (present absent)
    · omega
  simp only [maxMethodBytes, maxTargetBytes, maxVersionBytes] at m t v
  have stored : ¬ (12 + http.method.length + http.target.length + http.version.length + 1 >
        metadataStorageBytes ∨
      12 + http.method.length + http.target.length + http.version.length + 1 > int32Max) := by
    simp only [metadataStorageBytes, int32Max]
    omega
  rw [ckRequestInitHttp, if_neg limits]
  dsimp only
  rw [if_neg stored, ckRequestInit, if_pos]
  · exact ⟨_, rfl, rfl, by dsimp only; omega⟩
  · have flags : (featureDirectBuffer ||| featureMetadataBuffer) &&& featureMetadataBuffer = 2 := rfl
    have body_ok : ¬ (body = none ∧ bodyLength ≠ 0) := fun h => h.2 (present h.1)
    simp only [not_or, Nat.not_lt] at stored
    simp only [ckRequestDescriptorValid, flags]
    rw [if_neg (by simp), if_neg (by simp), if_neg, if_neg]
    · omega
    · rintro (⟨absent, -⟩ | long | ⟨-, none⟩ | ⟨none, -⟩ | absent | long)
      · simp at absent
      · omega
      · omega
      · omega
      · exact body_ok absent
      · omega

/-- Java never accepts a view the encoder wrote: for every request within the limits and
    all valid tokens the encoder succeeds and the constructor throws. -/
theorem metadata_view_never_agrees (http : HttpRequest) (body : Option Bytes)
    (bodyLength requestId ownerToken lifetimeToken : Nat) (handle : Int) (data : Bytes)
    (encodable : Encodable http) (present : body = none → bodyLength = 0)
    (small : bodyLength ≤ int32Max) (named : 0 < requestId) (id_le : requestId ≤ int64Max)
    (owner_le : ownerToken ≤ int64Max) (lifetime_le : lifetimeToken ≤ int64Max)
    (live : handle ≠ 0) :
    (∃ descriptor, ckRequestInitHttp http body bodyLength requestId ownerToken lifetimeToken =
        some descriptor ∧
      nativeRequest handle (descriptor.metadata.map directBuffer) (some (directBuffer data)) =
        .error (.illegalArgument "invalid native request metadata")) ∧
    ¬ ViewAgrees http body bodyLength requestId ownerToken lifetimeToken handle data := by
  obtain ⟨descriptor, encoded, metadata, -⟩ := ckRequestInitHttp_ok encodable present small named
    id_le owner_le lifetime_le
  have throws : nativeRequest handle (descriptor.metadata.map directBuffer)
      (some (directBuffer data)) = .error (.illegalArgument "invalid native request metadata") := by
    rw [metadata]
    exact nativeRequest_throws encodable live
  refine ⟨⟨descriptor, encoded, throws⟩, ?_⟩
  rintro ⟨other, encoded', request, accepted, -⟩
  rw [encoded] at encoded'
  obtain rfl := Option.some.inj encoded'
  rw [throws] at accepted
  simp at accepted

/-- The handoff smoke request: GET / HTTP/1.1, no body. -/
def smokeRequest : HttpRequest :=
  ⟨ascii "GET", ascii "/", ascii "HTTP/1.1", [], .none, 0, 0⟩

theorem metadata_view_never_agrees_get :
    Encodable smokeRequest ∧ ¬ ViewAgrees smokeRequest none 0 1 1 1 1 [] :=
  ⟨⟨by decide, by decide, by decide⟩, (metadata_view_never_agrees smokeRequest none 0 1 1 1 1 []
    ⟨by decide, by decide, by decide⟩ (by simp) (by decide) (by decide) (by decide) (by decide)
    (by decide) (by decide)).2⟩

/-- On this input the encoder writes 25 bytes and the constructor throws. -/
theorem get_request_view_refused :
    (ckRequestInitHttp smokeRequest none 0 1 1 1).map (fun d => d.metadataLength) = some 25 ∧
    nativeRequest 1 (some (directBuffer (metadataBytes smokeRequest))) (some (directBuffer [])) =
      .error (.illegalArgument "invalid native request metadata") ∧
    ¬ ViewAgrees smokeRequest none 0 1 1 1 1 [] := by
  have throws : nativeRequest 1 (some (directBuffer (metadataBytes smokeRequest)))
      (some (directBuffer [])) = .error (.illegalArgument "invalid native request metadata") :=
    nativeRequest_throws ⟨by decide, by decide, by decide⟩ (by decide)
  refine ⟨by decide, throws, ?_⟩
  rintro ⟨descriptor, encoded, request, accepted, -⟩
  have metadata : (ckRequestInitHttp smokeRequest none 0 1 1 1).map (fun d => d.metadata) =
      some (some (metadataBytes smokeRequest)) := by decide
  rw [encoded] at metadata
  simp only [Option.map_some, Option.some.injEq] at metadata
  rw [metadata, Option.map_some, throws] at accepted
  simp at accepted

end CkartaNativeRequest
