import Ckarta.NativeRequest
import Ckarta.CompletionQueue

/-!
The task of java/org/ckarta/bootstrap/CkartaRuntime.java: what dispatchAsync gives to its
executor, and the completion it publishes. Every exception it can meet is a
RuntimeException, which it turns into the status -1.
-/
namespace CkartaRuntimeTask
open CkartaHttpParser CkartaNativeRequest CkartaCompletionQueue

def signed64 (n : Int) : Int := n.bmod 18446744073709551616

def matchesAscii (source : Bytes) (expected : String) : Bool :=
  source.length == expected.length &&
    (source.zip expected.toList).all fun (value, character) => value.toNat == character.toNat

/-- The arguments of dispatchAsync; none is null. -/
structure Task where
  requestHandle : Int
  ownerToken : Int
  lifetimeToken : Int
  metadata : Option ByteBuffer
  data : Option ByteBuffer
  deriving DecidableEq, Repr

def allocateDirect : ByteBuffer := directBuffer []

def Task.metadataView (task : Task) : ByteBuffer := task.metadata.getD allocateDirect
def Task.dataView (task : Task) : ByteBuffer := task.data.getD allocateDirect

/-- The check of the metadata: GET, HTTP/1.1, a target and a connection that stays open. -/
def checkMetadata (request : NativeRequest) : Except JavaException Bytes := do
  let target ← request.targetBytes
  if !matchesAscii (← request.methodBytes) "GET" then
    .error (.illegalArgument "invalid native HTTP request metadata")
  else if !matchesAscii (← request.protocolBytes) "HTTP/1.1" then
    .error (.illegalArgument "invalid native HTTP request metadata")
  else if target.length < 1 then
    .error (.illegalArgument "invalid native HTTP request metadata")
  else if ← request.connectionCloseRequired then
    .error (.illegalArgument "invalid native HTTP request metadata")
  else .ok target

def taskResult (task : Task) : Except JavaException Int := do
  let request ← nativeRequest task.requestHandle (some task.metadataView) (some task.dataView)
  if request.metadata.remaining ≠ 0 then
    let target ← checkMetadata request
    .ok (signed64 (signed64 (request.handle + request.data.remaining) + target.length))
  else .ok (signed64 (request.handle + request.data.remaining))

def runTask (task : Task) : Int × Int :=
  match taskResult task with
  | .ok result => (result, 0)
  | .error _ => (0, -1)

theorem peel {E A B : Type} {first : Except E A} {rest : A → Except E B} {b : B}
    (bound : (first >>= rest) = .ok b) : ∃ a, first = .ok a ∧ rest a = .ok b := by
  match first, bound with
  | .ok a, bound => exact ⟨a, rfl, bound⟩

theorem matchesAscii_last {source : Bytes} (accepted : matchesAscii source "HTTP/1.1" = true) :
    source.length = 8 ∧ source.getD 7 0 = 49 := by
  simp only [matchesAscii, Bool.and_eq_true, beq_iff_eq] at accepted
  obtain ⟨size, same⟩ := accepted
  have eight : source.length = 8 := size
  match source, eight with
  | [a, b, c, d, e, f, g, h], _ =>
    have letters : "HTTP/1.1".toList = ['H', 'T', 'T', 'P', '/', '1', '.', '1'] := by decide
    rw [letters] at same
    simp only [List.zip_cons_cons, List.zip_nil_right, List.all_cons, List.all_nil, Bool.and_true,
      Bool.and_eq_true, beq_iff_eq] at same
    obtain ⟨-, -, -, -, -, -, -, last⟩ := same
    exact ⟨rfl, UInt8.toNat_inj.mp last⟩

theorem metadataSlice_getD {request : NativeRequest} {offset length : Nat} {slice : Bytes}
    (cut : request.metadataSlice offset length = .ok slice) :
    slice.length = length ∧
      ∀ index < length, slice.getD index 0 = request.metadata.bytes.getD (offset + index) 0 := by
  obtain ⟨placed, positioned, rest⟩ := peel cut
  obtain ⟨limited, cutOff, rest⟩ := peel rest
  obtain rfl := Except.ok.inj rest
  simp only [ByteBuffer.setPosition] at positioned
  split at positioned
  · cases positioned
  · obtain rfl := Except.ok.inj positioned
    simp only [ByteBuffer.setLimit] at cutOff
    split at cutOff
    · cases cutOff
    · rename_i outside
      obtain rfl := Except.ok.inj cutOff
      have fits : offset + length ≤ request.metadata.bytes.length := by
        simp only [not_or, Int.not_lt] at outside
        omega
      have here : min offset (offset + length) = offset := by omega
      simp only [ByteBuffer.slice, ByteBuffer.remaining, Int.toNat_natCast]
      have limit : ((offset : Int) + length).toNat = offset + length := by omega
      rw [limit, here, Nat.add_sub_cancel_left]
      refine ⟨by rw [List.length_take, List.length_drop]; omega, ?_⟩
      intro index below
      simp only [List.getD_eq_getElem?_getD, List.getElem?_take, List.getElem?_drop, if_pos below]

theorem nativeRequest_ok {handle : Int} {metadata data : ByteBuffer} {request : NativeRequest}
    (made : nativeRequest handle (some metadata) (some data) = .ok request) :
    handle ≠ 0 ∧ metadata.direct = true ∧ data.direct = true ∧ request.handle = handle ∧
      request.metadata = metadata ∧ request.data = data ∧ 0 ≤ request.methodLength ∧
      0 ≤ request.targetLength ∧ 0 ≤ request.protocolLength := by
  unfold nativeRequest at made
  split at made
  · cases made
  · rename_i live
    dsimp only at made
    split at made
    · cases made
    · rename_i direct
      simp only [Bool.or_eq_true, Bool.not_eq_true', not_or, Bool.not_eq_false] at direct
      split at made
      · obtain rfl := Except.ok.inj made
        exact ⟨live, direct.1, direct.2, rfl, rfl, rfl, Int.le_refl 0, Int.le_refl 0, Int.le_refl 0⟩
      · split at made
        · cases made
        · obtain ⟨⟨methodLength, afterMethod⟩, -, made⟩ := peel made
          obtain ⟨⟨targetLength, afterTarget⟩, -, made⟩ := peel made
          obtain ⟨⟨protocolLength, afterProtocol⟩, -, made⟩ := peel made
          dsimp only at made
          split at made
          · cases made
          · rename_i lengths
            obtain rfl := Except.ok.inj made
            simp only [not_or, Int.not_lt] at lengths
            exact ⟨live, direct.1, direct.2, rfl, rfl, rfl, lengths.1, lengths.2.1, lengths.2.2.1⟩

/-- Behind the protocol HTTP/1.1 connectionCloseRequired answers true: the flag it reads is the
    last byte of the protocol, the digit 1. -/
theorem closeFlag_shared {request : NativeRequest} {protocolBytes : Bytes} {closes : Bool}
    (method : 0 ≤ request.methodLength) (target : 0 ≤ request.targetLength)
    (protocol : 0 ≤ request.protocolLength) (read : request.protocolBytes = .ok protocolBytes)
    (spelled : matchesAscii protocolBytes "HTTP/1.1" = true)
    (flagged : request.connectionCloseRequired = .ok closes) : closes = true := by
  obtain ⟨m, methodLength⟩ := Int.eq_ofNat_of_zero_le method
  obtain ⟨t, targetLength⟩ := Int.eq_ofNat_of_zero_le target
  obtain ⟨p, protocolLength⟩ := Int.eq_ofNat_of_zero_le protocol
  obtain ⟨size, last⟩ := matchesAscii_last spelled
  obtain ⟨-, -, cut⟩ := peel read
  have offset : 13 + request.methodLength + request.targetLength = ((13 + m + t : Nat) : Int) := by omega
  rw [offset, protocolLength] at cut
  obtain ⟨length, places⟩ := metadataSlice_getD cut
  obtain ⟨-, -, placed⟩ := peel flagged
  obtain ⟨view, positioned, got⟩ := peel placed
  obtain ⟨flag, gotten, answer⟩ := peel got
  simp only [ByteBuffer.setPosition] at positioned
  split at positioned
  · cases positioned
  · obtain rfl := Except.ok.inj positioned
    simp only [ByteBuffer.get] at gotten
    split at gotten
    · obtain rfl := Except.ok.inj gotten
      obtain rfl := Except.ok.inj answer
      have place : (12 + 0 + request.methodLength + request.targetLength + request.protocolLength).toNat =
          13 + m + t + 7 := by omega
      rw [place, ← places 7 (by omega), last]
      rfl
    · cases gotten

theorem checkMetadata_refuses {request : NativeRequest} (method : 0 ≤ request.methodLength)
    (target : 0 ≤ request.targetLength) (protocol : 0 ≤ request.protocolLength) (accepted : Bytes) :
    checkMetadata request ≠ .ok accepted := by
  intro checked
  obtain ⟨targetBytes, -, checked⟩ := peel checked
  obtain ⟨methodBytes, -, checked⟩ := peel checked
  split at checked
  · cases checked
  · obtain ⟨protocolBytes, read, checked⟩ := peel checked
    split at checked
    · cases checked
    · rename_i spelled
      split at checked
      · cases checked
      · obtain ⟨closes, flagged, checked⟩ := peel checked
        have shared := closeFlag_shared method target protocol read (by simpa using spelled) flagged
        rw [shared] at checked
        cases checked

theorem taskResult_ok {task : Task} {result : Int} (done : taskResult task = .ok result) :
    task.requestHandle ≠ 0 ∧ task.metadataView.direct = true ∧ task.dataView.direct = true ∧
      task.metadataView.remaining = 0 ∧ result = signed64 (task.requestHandle + task.dataView.remaining) := by
  obtain ⟨request, made, done⟩ := peel done
  obtain ⟨live, metadataDirect, dataDirect, handle, metadata, data, method, target, protocol⟩ :=
    nativeRequest_ok made
  split at done
  · obtain ⟨accepted, checked, -⟩ := peel done
    exact absurd checked (checkMetadata_refuses method target protocol accepted)
  · rename_i empty
    obtain rfl := Except.ok.inj done
    rw [metadata, not_not] at empty
    exact ⟨live, metadataDirect, dataDirect, empty, by rw [handle, data]⟩

theorem taskResult_plain {task : Task} (live : task.requestHandle ≠ 0)
    (metadataDirect : task.metadataView.direct = true) (dataDirect : task.dataView.direct = true)
    (empty : task.metadataView.remaining = 0) :
    taskResult task = .ok (signed64 (task.requestHandle + task.dataView.remaining)) := by
  have made : nativeRequest task.requestHandle (some task.metadataView) (some task.dataView) =
      .ok ⟨task.requestHandle, task.metadataView, task.dataView, 0, 0, 0⟩ := by
    simp [nativeRequest, live, metadataDirect, dataDirect, empty]
  simp only [taskResult, made, bind, Except.bind]
  exact if_neg (by simpa using empty)

/-- When a dispatched task succeeds: only without metadata. Whatever bytes a metadata view
    holds, its task publishes the status -1 and the result 0; without metadata it publishes
    the handle plus the length of the data. -/
theorem task_succeeds_iff (task : Task) :
    ((runTask task).2 = 0 ↔ task.requestHandle ≠ 0 ∧ task.metadataView.direct = true ∧
      task.dataView.direct = true ∧ task.metadataView.remaining = 0) ∧
    runTask task = if (runTask task).2 = 0 then
      (signed64 (task.requestHandle + task.dataView.remaining), 0) else (0, -1) := by
  unfold runTask
  cases done : taskResult task with
  | ok result =>
    obtain ⟨live, metadataDirect, dataDirect, empty, rfl⟩ := taskResult_ok done
    exact ⟨⟨fun _ => ⟨live, metadataDirect, dataDirect, empty⟩, fun _ => rfl⟩, rfl⟩
  | error exception =>
    refine ⟨⟨?_, ?_⟩, rfl⟩
    · intro zero
      cases zero
    · intro ⟨live, metadataDirect, dataDirect, empty⟩
      rw [taskResult_plain live metadataDirect dataDirect empty] at done
      cases done

example : runTask ⟨7, 1, 2, none, some (directBuffer [1, 2, 3])⟩ = (10, 0) := by decide

end CkartaRuntimeTask
