import Ckarta.HttpParser

/-!
The request-body queue, c/http/ck_http_request_body.[ch]: a ring of 65536 bytes
between two 64-bit counters. The functions here are one call without interference;
the interleaving of a producer and a consumer is modelled over the same pieces.
-/
namespace CkartaRequestBody
open MachineWord CkartaHttpParser

def bodyBufferBytes : Nat := 65536

inductive WriteResult where
  | ok
  | wouldBlock
  | closed
  | invalid
  deriving DecidableEq, Repr

inductive ReadResult where
  | data
  | wouldBlock
  | eof
  | error
  | invalid
  deriving DecidableEq, Repr

structure RequestBody where
  head : Nat
  tail : Nat
  eof : Bool
  error : Bool
  buffer : Nat → UInt8

def bodyUsed (head tail : Nat) : Nat := subU64 head tail

/-- init writes the counters and flags, not the bytes. -/
def ckHttpRequestBodyInit (buffer : Nat → UInt8) : RequestBody := ⟨0, 0, false, false, buffer⟩

def firstPart (counter length : Nat) : Nat :=
  let first := bodyBufferBytes - counter % bodyBufferBytes
  if first > length then length else first

/-- The slot of the k-th byte of a copy of this length that starts at counter. -/
def slot (counter length k : Nat) : Nat :=
  if k < firstPart counter length then counter % bodyBufferBytes + k
  else k - firstPart counter length

def putByte (buffer : Nat → UInt8) (i : Nat) (b : UInt8) : Nat → UInt8 :=
  fun j => if j = i then b else buffer j

def copyIn (buffer : Nat → UInt8) (head length : Nat) : Nat → Bytes → Nat → UInt8
  | _, [] => buffer
  | k, b :: rest => copyIn (putByte buffer (slot head length k) b) head length (k + 1) rest

def copyOut (buffer : Nat → UInt8) (tail length : Nat) : Bytes :=
  (List.range length).map fun k => buffer (slot tail length k)

def ckHttpRequestBodyWrite (body : RequestBody) (data : Bytes) : WriteResult × RequestBody × Nat :=
  if data.length = 0 then (.ok, body, 0)
  else if body.eof || body.error then (.closed, body, 0)
  else
    let used := bodyUsed body.head body.tail
    if used > bodyBufferBytes then (.invalid, body, 0)
    else if bodyBufferBytes - used < data.length then (.wouldBlock, body, 0)
    else (.ok, { body with
        buffer := copyIn body.buffer body.head data.length 0 data
        head := addU64 body.head data.length }, data.length)

def ckHttpRequestBodyRead (body : RequestBody) (capacity : Nat) : ReadResult × RequestBody × Bytes :=
  let available := bodyUsed body.head body.tail
  if available > bodyBufferBytes then (.invalid, body, [])
  else if available = 0 then
    if body.error then (.error, body, [])
    else if body.eof then (.eof, body, [])
    else (.wouldBlock, body, [])
  else if capacity = 0 then (.wouldBlock, body, [])
  else
    let length := if available > capacity then capacity else available
    (.data, { body with tail := addU64 body.tail length }, copyOut body.buffer body.tail length)

def ckHttpRequestBodyMarkEof (body : RequestBody) : RequestBody := { body with eof := true }

def ckHttpRequestBodyMarkError (body : RequestBody) : RequestBody := { body with error := true }

def ckHttpRequestBodyAvailable (body : RequestBody) : Nat :=
  let available := bodyUsed body.head body.tail
  if available > bodyBufferBytes then 0 else available

def ckHttpRequestBodyIsFinished (body : RequestBody) : Bool :=
  body.eof && ckHttpRequestBodyAvailable body == 0

theorem u64_slot (position : Nat) : u64 position % bodyBufferBytes = position % bodyBufferBytes := by
  simp only [u64, bodyBufferBytes]
  omega

theorem slot_eq (position : Nat) {length k : Nat} (within : k < length) (fits : length ≤ bodyBufferBytes) :
    slot (u64 position) length k = (position + k) % bodyBufferBytes := by
  have below : position % bodyBufferBytes < bodyBufferBytes := Nat.mod_lt _ (by decide)
  have first : firstPart (u64 position) length =
      min length (bodyBufferBytes - position % bodyBufferBytes) := by
    rw [firstPart, u64_slot]
    by_cases whole : bodyBufferBytes - position % bodyBufferBytes > length
    · rw [if_pos whole]
      omega
    · rw [if_neg whole]
      omega
  have small : k % bodyBufferBytes = k := Nat.mod_eq_of_lt (by omega)
  rw [slot, first, u64_slot, Nat.add_mod position k, small]
  generalize position % bodyBufferBytes = start at *
  by_cases straight : k < min length (bodyBufferBytes - start)
  · rw [if_pos straight, Nat.mod_eq_of_lt (by omega)]
  · rw [if_neg straight, Nat.mod_eq_sub_mod (by omega), Nat.mod_eq_of_lt (by omega)]
    omega

theorem bodyUsed_eq {ahead behind : Nat} (order : behind ≤ ahead)
    (bound : ahead ≤ behind + bodyBufferBytes) :
    bodyUsed (u64 ahead) (u64 behind) = ahead - behind := by
  rw [bodyUsed, subU64]
  by_cases below : u64 behind ≤ u64 ahead
  · rw [if_pos below]
    simp only [u64, bodyBufferBytes] at *
    omega
  · rw [if_neg below]
    simp only [u64, bodyBufferBytes] at *
    omega

theorem addU64_u64 (position length : Nat) : addU64 (u64 position) length = u64 (position + length) := by
  simp only [addU64, u64]
  omega

theorem ring_distinct {i j : Nat} (less : i < j) (near : j < i + bodyBufferBytes) :
    i % bodyBufferBytes ≠ j % bodyBufferBytes := by
  simp only [bodyBufferBytes] at *
  omega

end CkartaRequestBody
