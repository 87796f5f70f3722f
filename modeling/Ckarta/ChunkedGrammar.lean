import Ckarta.ChunkedRejection

/-!
What the chunked decoder accepts, as a grammar of the whole coding: chunks, a last chunk
line, trailer lines, an empty line. A run of the decoder's machine is always at a place of
this grammar that its state names, and every text of the grammar is a run.
-/
namespace CkartaChunkedGrammar
open MachineWord PrefixMachine CkartaHttpParser CkartaHttpChunked CkartaChunkedMachine
  CkartaChunkedRejection

def crlf : Bytes := [cr, lf]

def isHexDigit (b : UInt8) : Bool :=
  (48 ≤ b && b ≤ 57) || (65 ≤ b && b ≤ 70) || (97 ≤ b && b ≤ 102)

def hexDigitValue (b : UInt8) : Nat :=
  if b ≤ 57 then b.toNat - 48 else if b ≤ 70 then b.toNat - 65 + 10 else b.toNat - 97 + 10

def hexNumber (start : Nat) (digits : Bytes) : Nat :=
  digits.foldl (fun value b => value * 16 + hexDigitValue b) start

def extensionByte (b : UInt8) : Bool := b == 9 || (32 ≤ b && b != 127)

/-- A chunk line without its CRLF: hex digits of a 64-bit value and maybe an extension. -/
structure SizeLine (line : Bytes) (size : Nat) : Prop where
  parts : ∃ digits extension, line = digits ++ extension ∧ digits ≠ [] ∧
    digits.all isHexDigit = true ∧ hexNumber 0 digits = size ∧
    (extension = [] ∨ ∃ rest, extension = semicolon :: rest ∧ rest.all extensionByte = true)
  bound : size ≤ uint64Max
  short : line.length ≤ 8191

/-- Chunks and the data they carry. -/
inductive Chunks : Bytes → Bytes → Prop where
  | nil : Chunks [] []
  | snoc {text data line chunk : Bytes} (before : Chunks text data) (nonempty : chunk ≠ [])
      (size : SizeLine line chunk.length) :
      Chunks (text ++ line ++ crlf ++ chunk ++ crlf) (data ++ chunk)

structure TrailerLine (line : Bytes) : Prop where
  field : validTrailerField line = true
  ordinary : Ordinary line
  short : line.length ≤ 8191

def trailerText (trailers : List Bytes) : Bytes := (trailers.map (· ++ crlf)).flatten

/-- A whole chunked coding with the data it carries. The decoder counts the trailer section
    before it reads a byte, and not before the LF of a line end: all of the section but its
    last LF lies within the limit. -/
inductive ChunkedCoding : Bytes → Bytes → Prop where
  | coding {text data line : Bytes} {trailers : List Bytes} (chunks : Chunks text data)
      (sum : data.length ≤ uint64Max) (last : SizeLine line 0) (few : trailers.length ≤ 64)
      (valid : ∀ trailer ∈ trailers, TrailerLine trailer)
      (within : (trailerText trailers ++ [cr]).length ≤ chunkedMaxTrailerBytes) :
      ChunkedCoding (text ++ line ++ crlf ++ trailerText trailers ++ crlf) data

theorem hexValue_eq (b : UInt8) :
    hexValue b = if isHexDigit b = true then some (hexDigitValue b) else none := by
  simp only [hexValue, isHexDigit, hexDigitValue, Bool.or_eq_true, Bool.and_eq_true, decide_eq_true_eq,
    UInt8.le_iff_toNat_le]
  simp only [UInt8.toNat_ofNat]
  split <;> rename_i first
  · simp only [first, and_self, true_or, ↓reduceIte]
  · split <;> rename_i second
    · have high : ¬ b.toNat ≤ 57 := by omega
      simp only [second, and_self, or_true, true_or, ↓reduceIte, high]
    · split <;> rename_i third
      · have high : ¬ b.toNat ≤ 57 := by omega
        have higher : ¬ b.toNat ≤ 70 := by omega
        simp only [third, and_self, or_true, ↓reduceIte, high, higher]
      · simp only [first, second, third, or_self, ↓reduceIte]

theorem hexDigitValue_lt {b : UInt8} (digit : isHexDigit b = true) : hexDigitValue b ≤ 15 := by
  simp only [isHexDigit, Bool.or_eq_true, Bool.and_eq_true, decide_eq_true_eq, UInt8.le_iff_toNat_le] at digit
  simp only [hexDigitValue, UInt8.le_iff_toNat_le]
  simp only [UInt8.toNat_ofNat] at *
  split
  · omega
  · split <;> omega

theorem hexNumber_ge (start : Nat) (digits : Bytes) : start ≤ hexNumber start digits := by
  induction digits generalizing start with
  | nil => exact Nat.le_refl _
  | cons b digits ih =>
    have step := ih (start * 16 + hexDigitValue b)
    simp only [hexNumber, List.foldl_cons] at step ⊢
    omega

theorem digits_first {b : UInt8} {line run rest : Bytes} (other : b ≠ semicolon)
    (cut : b :: line = run ++ rest) (stop : rest = [] ∨ ∃ tail, rest = semicolon :: tail) :
    ∃ more, run = b :: more ∧ line = more ++ rest := by
  cases run with
  | nil =>
    simp only [List.nil_append] at cut
    rcases stop with empty | ⟨tail, semi⟩
    · rw [empty] at cut
      cases cut
    · rw [semi, List.cons.injEq] at cut
      exact absurd cut.1 other
  | cons c more =>
    simp only [List.cons_append, List.cons.injEq] at cut
    exact ⟨more, by rw [cut.1], cut.2⟩

/-- The digit loop reads the hex digits up to the end or a semicolon. -/
theorem parseChunkDigits_iff {line rest : Bytes} {value size : Nat} {digits found : Bool}
    (bound : value ≤ uint64Max) :
    parseChunkDigits value digits line = some (size, found, rest) ↔
      ∃ run, line = run ++ rest ∧ run.all isHexDigit = true ∧ hexNumber value run = size ∧
        size ≤ uint64Max ∧ (rest = [] ∨ ∃ tail, rest = semicolon :: tail) ∧
        found = (digits || !run.isEmpty) := by
  induction line generalizing value digits with
  | nil =>
    simp only [parseChunkDigits, Option.some.injEq, Prod.mk.injEq]
    constructor
    · rintro ⟨rfl, rfl, rfl⟩
      exact ⟨[], rfl, rfl, rfl, bound, .inl rfl, by simp⟩
    · rintro ⟨run, cut, -, number, -, -, flag⟩
      obtain ⟨rfl, rfl⟩ := List.append_eq_nil_iff.mp cut.symm
      exact ⟨number, by simpa using flag.symm, rfl⟩
  | cons b line ih =>
    rw [parseChunkDigits]
    by_cases ends : b = semicolon
    · subst ends
      simp only [↓reduceIte, Option.some.injEq, Prod.mk.injEq]
      constructor
      · rintro ⟨rfl, rfl, rfl⟩
        exact ⟨[], rfl, rfl, rfl, bound, .inr ⟨line, rfl⟩, by simp⟩
      · rintro ⟨run, cut, hex, number, -, -, flag⟩
        cases run with
        | nil => exact ⟨number, by simpa using flag.symm, cut⟩
        | cons c run =>
          simp only [List.cons_append, List.cons.injEq] at cut
          rw [← cut.1] at hex
          exact absurd hex (by simp [isHexDigit, semicolon])
    · rw [if_neg ends, hexValue_eq]
      by_cases digit : isHexDigit b = true
      · have small : hexDigitValue b ≤ uint64Max :=
          Nat.le_trans (hexDigitValue_lt digit) (by decide)
        rw [if_pos digit]
        dsimp only
        split
        · rename_i wraps
          have beyond := mt (guarded_shift_iff (by omega : 0 < 16) small).mpr (not_not.mpr wraps)
          simp only [reduceCtorEq, false_iff]
          rintro ⟨run, cut, -, number, fits, stop, -⟩
          obtain ⟨more, rfl, rfl⟩ := digits_first ends cut stop
          have grows := hexNumber_ge (value * 16 + hexDigitValue b) more
          have whole : hexNumber value (b :: more) = hexNumber (value * 16 + hexDigitValue b) more := rfl
          omega
        · rename_i fits
          have exact := (guarded_shift_iff (by omega : 0 < 16) small).mp fits
          rw [u64_of_le exact, ih exact]
          constructor
          · rintro ⟨run, rfl, hex, number, le, stop, flag⟩
            exact ⟨b :: run, rfl, by simp [digit, hex], number, le, stop, by simp [flag]⟩
          · rintro ⟨run, cut, hex, number, le, stop, flag⟩
            obtain ⟨more, rfl, rfl⟩ := digits_first ends cut stop
            simp only [List.all_cons, Bool.and_eq_true] at hex
            exact ⟨more, rfl, hex.2, number, le, stop, by simp [flag]⟩
      · rw [if_neg digit]
        simp only [reduceCtorEq, false_iff]
        rintro ⟨run, cut, hex, -, -, stop, -⟩
        obtain ⟨more, rfl, rfl⟩ := digits_first ends cut stop
        simp only [List.all_cons, Bool.and_eq_true] at hex
        exact digit hex.1

theorem forbiddenExtensionByte_eq (b : UInt8) : forbiddenExtensionByte b = !extensionByte b := by
  by_cases tab : b = 9
  · subst tab
    rfl
  · by_cases del : b = 127
    · subst del
      rfl
    · have notTab : (b == 9) = false := beq_eq_false_iff_ne.mpr tab
      have notDel : (b == 127) = false := beq_eq_false_iff_ne.mpr del
      simp only [forbiddenExtensionByte, extensionByte, bne, notTab, notDel, UInt8.lt_iff_toNat_lt,
        UInt8.le_iff_toNat_le, Bool.false_or, Bool.not_false, Bool.and_true]
      rw [Bool.eq_iff_iff]
      simp

theorem allowed_extension (rest : Bytes) :
    rest.any forbiddenExtensionByte = false ↔ rest.all extensionByte = true := by
  simp only [List.any_eq_false, List.all_eq_true, forbiddenExtensionByte_eq, Bool.not_eq_true,
    Bool.not_eq_false']

theorem parseChunkSize_parts {line : Bytes} {size : Nat} :
    parseChunkSize line = some size ↔ (∃ digits extension, line = digits ++ extension ∧ digits ≠ [] ∧
      digits.all isHexDigit = true ∧ hexNumber 0 digits = size ∧
      (extension = [] ∨ ∃ rest, extension = semicolon :: rest ∧ rest.all extensionByte = true)) ∧
      size ≤ uint64Max := by
  constructor
  · intro parsed
    unfold parseChunkSize at parsed
    split at parsed
    · cases parsed
    · rename_i value found rest run
      obtain ⟨digits, cut, hex, number, bound, stop, flag⟩ :=
        (parseChunkDigits_iff (Nat.zero_le _)).mp run
      split at parsed
      · cases parsed
      · rename_i some_digit
        split at parsed
        · cases parsed
        · rename_i clean
          simp only [Option.some.injEq] at parsed
          subst parsed
          refine ⟨⟨digits, rest, cut, ?_, hex, number, ?_⟩, bound⟩
          · intro empty
            simp [flag, empty] at some_digit
          · refine stop.imp_right fun ⟨tail, semi⟩ => ⟨tail, semi, ?_⟩
            rw [semi, List.tail_cons, Bool.not_eq_true] at clean
            exact (allowed_extension tail).mp clean
  · rintro ⟨⟨digits, extension, cut, nonempty, hex, number, stop⟩, bound⟩
    have run : parseChunkDigits 0 false line = some (size, true, extension) := by
      refine (parseChunkDigits_iff (Nat.zero_le _)).mpr ⟨digits, cut, hex, number, bound, ?_, ?_⟩
      · exact stop.imp_right fun ⟨rest, semi, _⟩ => ⟨rest, semi⟩
      · simp [nonempty]
    have clean : extension.tail.any forbiddenExtensionByte = false := by
      rcases stop with rfl | ⟨rest, rfl, allowed⟩
      · rfl
      · exact (allowed_extension rest).mpr allowed
    simp [parseChunkSize, run, clean]

theorem parseChunkSize_iff {line : Bytes} {size : Nat} (short : line.length ≤ 8191) :
    parseChunkSize line = some size ↔ SizeLine line size := by
  rw [parseChunkSize_parts]
  constructor
  · intro parsed
    exact ⟨parsed.1, parsed.2, short⟩
  · intro sizeLine
    exact ⟨sizeLine.parts, sizeLine.bound⟩

theorem sizeLine_ordinary {line : Bytes} {size : Nat} (sizeLine : SizeLine line size) : Ordinary line := by
  obtain ⟨⟨digits, extension, rfl, -, hex, -, stop⟩, -, -⟩ := sizeLine
  intro b member
  rcases List.mem_append.mp member with inside | inside
  · have digit := List.all_eq_true.mp hex b inside
    constructor <;> (rintro rfl; exact absurd digit (by decide))
  · rcases stop with rfl | ⟨rest, rfl, allowed⟩
    · cases inside
    · rcases List.mem_cons.mp inside with rfl | inside
      · decide
      · have extension := List.all_eq_true.mp allowed b inside
        constructor <;> (rintro rfl; exact absurd extension (by decide))

/-- Where in the grammar a decoder is: the text it has read, the data it has delivered, and
    the decoder, which is determined by the two. -/
inductive Position : Bytes → Bytes → ChunkedDecoder → Prop where
  | size {text data line : Bytes} (chunks : Chunks text data) (ordinary : Ordinary line)
      (short : line.length ≤ 8191) :
      Position (text ++ line) data ⟨.size, 0, data.length, line, 0, 0⟩
  | data {text data line got : Bytes} {left : Nat} (chunks : Chunks text data)
      (size : SizeLine line (got.length + left)) (opened : 0 < left) :
      Position (text ++ line ++ crlf ++ got) (data ++ got)
        ⟨.dataState, left, (data ++ got).length, [], 0, 0⟩
  | dataEnd {text data line chunk : Bytes} (chunks : Chunks text data) (nonempty : chunk ≠ [])
      (size : SizeLine line chunk.length) :
      Position (text ++ line ++ crlf ++ chunk) (data ++ chunk)
        ⟨.dataCrlf, 0, (data ++ chunk).length, [], 0, 0⟩
  | trailers {text data line trailer : Bytes} {trailers : List Bytes} (chunks : Chunks text data)
      (last : SizeLine line 0) (few : trailers.length ≤ 64)
      (valid : ∀ trailer ∈ trailers, TrailerLine trailer) (ordinary : Ordinary trailer)
      (short : trailer.length ≤ 8191) :
      Position (text ++ line ++ crlf ++ trailerText trailers ++ trailer) data
        ⟨.trailers, 0, data.length, trailer, (trailerText trailers ++ trailer).length, trailers.length⟩

theorem ordinary_snoc {line : Bytes} {b : UInt8} (ordinary : Ordinary line) (notCr : b ≠ cr)
    (notLf : b ≠ lf) : Ordinary (line ++ [b]) := by
  intro x member
  rcases List.mem_append.mp member with inside | inside
  · exact ordinary x inside
  · rw [List.mem_singleton.mp inside]
    exact ⟨notCr, notLf⟩

theorem trailerText_snoc (trailers : List Bytes) (trailer : Bytes) :
    trailerText (trailers ++ [trailer]) = trailerText trailers ++ trailer ++ crlf := by
  simp [trailerText]

section
variable {text data line w o : Bytes} {e : ChunkedDecoder}

theorem position_size (chunks : Chunks text data) (ordinary : Ordinary line) (short : line.length ≤ 8191)
    (act : chunkAct ⟨.size, 0, data.length, line, 0, 0⟩ w = .move w.length o e) :
    Position (text ++ line ++ w) (data ++ o) e := by
  rcases w with _ | ⟨value, rest⟩
  · simp [chunkAct] at act
  · simp only [chunkAct] at act
    split at act
    · rename_i isCr
      subst isCr
      split at act
      · cases act
      · rename_i next tail
        split at act
        · cases act
        · rename_i isLf
          rw [not_not] at isLf
          subst isLf
          split at act
          · cases act
          · rename_i decoder ended
            simp only [Action.move.injEq, List.length_cons] at act
            obtain ⟨width, rfl, rfl⟩ := act
            obtain ⟨size, parsed, rfl⟩ := finishSizeLine_eq ended
            have alone : tail = [] := List.length_eq_zero_iff.mp (by omega)
            have sizeLine := (parseChunkSize_iff short).mp parsed
            subst alone
            by_cases zero : size = 0
            · subst zero
              have place : Position (text ++ line ++ crlf ++ trailerText [] ++ []) data _ :=
                .trailers chunks sizeLine (by simp) (by simp) (by simp [Ordinary]) (by simp)
              simpa [trailerText, crlf] using place
            · have place : Position (text ++ line ++ crlf ++ []) (data ++ []) _ :=
                .data chunks (by simpa using sizeLine) (Nat.pos_of_ne_zero zero)
              simpa [crlf, zero] using place
    · rename_i notCr
      split at act
      · cases act
      · rename_i notLf
        split at act
        · cases act
        · rename_i decoder appended
          simp only [Action.move.injEq, List.length_cons] at act
          obtain ⟨width, rfl, rfl⟩ := act
          obtain ⟨room, rfl⟩ := appendLineByte_eq appended
          have alone : rest = [] := List.length_eq_zero_iff.mp (by omega)
          subst alone
          have place := Position.size chunks (ordinary_snoc ordinary notCr notLf) (by
            simp only [chunkedMaxLine] at room
            simp only [List.length_append, List.length_singleton]
            omega)
          simpa using place

theorem position_data {got : Bytes} {left : Nat} (chunks : Chunks text data)
    (size : SizeLine line (got.length + left)) (opened : 0 < left)
    (act : chunkAct ⟨.dataState, left, (data ++ got).length, [], 0, 0⟩ w = .move w.length o e) :
    Position (text ++ line ++ crlf ++ got ++ w) (data ++ got ++ o) e := by
  rcases w with _ | ⟨value, rest⟩
  · simp [chunkAct] at act
  · simp only [chunkAct] at act
    split at act
    · cases act
    · rename_i room
      simp only [Action.move.injEq, List.length_cons] at act
      obtain ⟨width, rfl, rfl⟩ := act
      have alone : rest = [] := List.length_eq_zero_iff.mp (by omega)
      subst alone
      have bound := size.bound
      have count : addU64 (data ++ got).length 1 = (data ++ (got ++ [value])).length := by
        rw [addU64_of_le]
        · simp [Nat.add_assoc]
        · simp only [chunkedMaxBody] at room
          omega
      have remaining : subU64 left 1 = left - 1 := subU64_of_le opened (by omega)
      have whole : (got ++ [value]).length + (left - 1) = got.length + left := by
        simp only [List.length_append, List.length_singleton]
        omega
      rw [← whole] at size
      simp only [takeDataByte, remaining, count]
      by_cases last : left - 1 = 0
      · have place : Position (text ++ line ++ crlf ++ (got ++ [value])) (data ++ (got ++ [value])) _ :=
          .dataEnd chunks (by simp) (by simpa [last] using size)
        simpa [last] using place
      · have place : Position (text ++ line ++ crlf ++ (got ++ [value])) (data ++ (got ++ [value])) _ :=
          .data chunks size (Nat.pos_of_ne_zero last)
        simpa [last] using place

theorem position_dataEnd {chunk : Bytes} (chunks : Chunks text data) (nonempty : chunk ≠ [])
    (size : SizeLine line chunk.length)
    (act : chunkAct ⟨.dataCrlf, 0, (data ++ chunk).length, [], 0, 0⟩ w = .move w.length o e) :
    Position (text ++ line ++ crlf ++ chunk ++ w) (data ++ chunk ++ o) e := by
  rcases w with _ | ⟨value, _ | ⟨next, rest⟩⟩
  · simp [chunkAct] at act
  · simp [chunkAct] at act
  · simp only [chunkAct] at act
    split at act
    · cases act
    · rename_i ends
      simp only [not_or, not_not] at ends
      obtain ⟨rfl, rfl⟩ := ends
      simp only [Action.move.injEq, List.length_cons] at act
      obtain ⟨width, rfl, rfl⟩ := act
      have alone : rest = [] := List.length_eq_zero_iff.mp (by omega)
      subst alone
      have place : Position (text ++ line ++ crlf ++ chunk ++ crlf ++ []) (data ++ chunk) _ :=
        .size (.snoc chunks nonempty size) (by simp [Ordinary]) (by simp)
      simpa [crlf] using place

theorem position_trailers {trailer : Bytes} {trailers : List Bytes} (chunks : Chunks text data)
    (last : SizeLine line 0) (few : trailers.length ≤ 64)
    (valid : ∀ trailer ∈ trailers, TrailerLine trailer) (ordinary : Ordinary trailer)
    (short : trailer.length ≤ 8191)
    (act : chunkAct ⟨.trailers, 0, data.length, trailer, (trailerText trailers ++ trailer).length,
      trailers.length⟩ w = .move w.length o e) :
    Position (text ++ line ++ crlf ++ trailerText trailers ++ trailer ++ w) (data ++ o) e := by
  rcases w with _ | ⟨value, rest⟩
  · simp [chunkAct] at act
  · simp only [chunkAct] at act
    split at act
    · cases act
    · split at act
      · rename_i isCr
        subst isCr
        split at act
        · cases act
        · rename_i next tail
          split at act
          · cases act
          · rename_i isLf
            rw [not_not] at isLf
            subst isLf
            split at act
            · cases act
            · split at act
              · cases act
              · rename_i accepted
                simp only [not_or, not_not, chunkedMaxTrailers] at accepted
                simp only [Action.move.injEq, List.length_cons] at act
                obtain ⟨width, rfl, rfl⟩ := act
                have alone : tail = [] := List.length_eq_zero_iff.mp (by omega)
                subst alone
                have all : ∀ x ∈ trailers ++ [trailer], TrailerLine x := by
                  intro x member
                  rcases List.mem_append.mp member with inside | inside
                  · exact valid x inside
                  · rw [List.mem_singleton.mp inside]
                    exact ⟨accepted.2, ordinary, short⟩
                have place : Position
                    (text ++ line ++ crlf ++ trailerText (trailers ++ [trailer]) ++ []) data _ :=
                  .trailers chunks last (by simp; omega) all (by simp [Ordinary]) (by simp)
                simpa [trailerText_snoc, crlf, endTrailerLine, Nat.add_assoc] using place
      · rename_i notCr
        split at act
        · cases act
        · rename_i notLf
          split at act
          · cases act
          · rename_i decoder appended
            simp only [Action.move.injEq, List.length_cons] at act
            obtain ⟨width, rfl, rfl⟩ := act
            obtain ⟨room, rfl⟩ := appendLineByte_eq appended
            have alone : rest = [] := List.length_eq_zero_iff.mp (by omega)
            subst alone
            have place := Position.trailers chunks last few valid (ordinary_snoc ordinary notCr notLf) (by
              simp only [chunkedMaxLine] at room
              simp only [List.length_append, List.length_singleton]
              omega)
            simpa [Nat.add_assoc] using place

end

theorem position_move {t out w o : Bytes} {d e : ChunkedDecoder} (position : Position t out d)
    (act : chunkAct d w = .move w.length o e) : Position (t ++ w) (out ++ o) e := by
  cases position with
  | size chunks ordinary short => exact position_size chunks ordinary short act
  | data chunks size opened => exact position_data chunks size opened act
  | dataEnd chunks nonempty size => exact position_dataEnd chunks nonempty size act
  | trailers chunks last few valid ordinary short =>
    exact position_trailers chunks last few valid ordinary short act

theorem position_steps {t out s o : Bytes} {d e : ChunkedDecoder} (position : Position t out d)
    (run : Steps chunkMachine d s o e) : Position (t ++ s) (out ++ o) e := by
  induction run generalizing t out with
  | refl => simpa using position
  | move act tail ih =>
    rw [← List.append_assoc, ← List.append_assoc]
    exact ih (position_move position act)

theorem init_position : Position [] [] ckHttpChunkedInit := by
  have place : Position ([] ++ []) [] _ := .size .nil (by simp [Ordinary]) (by simp)
  exact place

theorem position_total {t out : Bytes} {d : ChunkedDecoder} (position : Position t out d) :
    d.totalDecoded = out.length := by
  cases position <;> rfl

theorem position_complete {t out rest : Bytes} {d last : ChunkedDecoder} (position : Position t out d)
    (sound : Sound d) (ends : chunkAct d rest = .halt 2 (.complete, last)) :
    ChunkedCoding (t ++ rest.take 2) out ∧ last.state = .done ∧ last.totalDecoded = out.length := by
  have total := position_total position
  have bound := sound.total_le
  rcases rest with _ | ⟨value, _ | ⟨next, rest⟩⟩
  · simp [chunkAct] at ends
  · cases position <;> simp only [chunkAct] at ends <;> (repeat' split at ends) <;> cases ends
  · cases position with
    | size => simp only [chunkAct] at ends; (repeat' split at ends) <;> cases ends
    | data => simp only [chunkAct] at ends; (repeat' split at ends) <;> cases ends
    | dataEnd => simp only [chunkAct] at ends; (repeat' split at ends) <;> cases ends
    | @trailers text data line trailer trailers chunks zero few valid ordinary short =>
      simp only [chunkAct] at ends
      split at ends
      · cases ends
      · rename_i within
        split at ends
        · rename_i isCr
          split at ends
          · cases ends
          · rename_i isLf
            rw [not_not] at isLf
            subst isCr isLf
            split at ends
            · rename_i empty
              simp only [Action.halt.injEq, Prod.mk.injEq, true_and] at ends
              subst ends
              have blank : trailer = [] := List.length_eq_zero_iff.mp empty
              subst blank
              refine ⟨?_, rfl, rfl⟩
              rw [List.append_nil]
              refine .coding chunks (by rw [total] at bound; exact bound) zero few valid ?_
              simp only [List.append_nil] at within
              simp only [List.length_append, List.length_singleton]
              omega
            · split at ends <;> cases ends
        · split at ends
          · cases ends
          · split at ends <;> cases ends

theorem steps_sizeBytes {d : ChunkedDecoder} {w : Bytes} (size : d.state = .size)
    (ordinary : Ordinary w) (room : d.line.length + w.length ≤ 8191) :
    Steps chunkMachine d w [] (appendLine d w) := by
  induction w generalizing d with
  | nil =>
    rw [appendLine, List.append_nil]
    exact Steps.refl d
  | cons b w ih =>
    obtain ⟨notCr, notLf, others⟩ := ordinary_cons ordinary
    rw [List.length_cons] at room
    have fits : ¬ d.line.length ≥ chunkedMaxLine - 1 := by
      simp only [chunkedMaxLine]
      omega
    have act : chunkMachine.act d [b] = .move 1 [] (appendLine d [b]) := by
      simp [chunkMachine, chunkAct, size, notCr, notLf, appendLineByte, fits, appendLine]
    have tail := ih (d := appendLine d [b]) size others (by
      simp only [appendLine, List.length_append, List.length_singleton]
      omega)
    have joined : appendLine (appendLine d [b]) w = appendLine d (b :: w) := by simp [appendLine]
    rw [joined] at tail
    exact Steps.move act tail

theorem steps_trailerBytes {d : ChunkedDecoder} {w : Bytes} (trailers : d.state = .trailers)
    (ordinary : Ordinary w) (room : d.line.length + w.length ≤ 8191)
    (within : d.trailerBytes + w.length ≤ chunkedMaxTrailerBytes) :
    Steps chunkMachine d w [] (appendTrailer d w) := by
  induction w generalizing d with
  | nil =>
    rw [appendTrailer, List.append_nil]
    exact Steps.refl d
  | cons b w ih =>
    obtain ⟨notCr, notLf, others⟩ := ordinary_cons ordinary
    rw [List.length_cons] at room within
    have fits : ¬ d.line.length ≥ chunkedMaxLine - 1 := by
      simp only [chunkedMaxLine]
      omega
    have unspent : ¬ d.trailerBytes ≥ chunkedMaxTrailerBytes := by omega
    have act : chunkMachine.act d [b] = .move 1 [] (appendTrailer d [b]) := by
      simp [chunkMachine, chunkAct, trailers, unspent, notCr, notLf, appendLineByte, fits, appendTrailer]
    have tail := ih (d := appendTrailer d [b]) trailers others (by
      simp only [appendTrailer, List.length_append, List.length_singleton]
      omega) (by
      simp only [appendTrailer, List.length_singleton]
      omega)
    have joined : appendTrailer (appendTrailer d [b]) w = appendTrailer d (b :: w) := by
      have count : d.trailerBytes + 1 + w.length = d.trailerBytes + (w.length + 1) := by omega
      simp [appendTrailer, count]
    rw [joined] at tail
    exact Steps.move act tail

def between (decoded : Nat) : ChunkedDecoder := ⟨.size, 0, decoded, [], 0, 0⟩

def afterSize (decoded size : Nat) : ChunkedDecoder :=
  ⟨if size = 0 then .trailers else .dataState, size, decoded, [], 0, 0⟩

theorem steps_sizeLine {line : Bytes} {decoded size : Nat} (sizeLine : SizeLine line size) :
    Steps chunkMachine (between decoded) (line ++ crlf) [] (afterSize decoded size) := by
  have bytes : Steps chunkMachine (between decoded) line [] (appendLine (between decoded) line) :=
    steps_sizeBytes rfl (sizeLine_ordinary sizeLine) (by simpa [between] using sizeLine.short)
  have parsed := (parseChunkSize_iff sizeLine.short).mpr sizeLine
  have act : chunkMachine.act (appendLine (between decoded) line) crlf =
      .move 2 [] (afterSize decoded size) := by
    simp [chunkMachine, chunkAct, appendLine, between, crlf, finishSizeLine, parsed, afterSize]
  have run := steps_trans bytes (steps_one act)
  simpa using run

theorem steps_chunks {text data : Bytes} (chunks : Chunks text data) (sum : data.length ≤ uint64Max) :
    Steps chunkMachine ckHttpChunkedInit text data (between data.length) := by
  induction chunks with
  | nil => exact Steps.refl _
  | @snoc text data line chunk before nonempty size ih =>
    rw [List.length_append] at sum
    have positive : chunk.length ≠ 0 := fun empty => nonempty (List.length_eq_zero_iff.mp empty)
    have start := ih (by omega)
    have bound := size.bound
    have head : Steps chunkMachine (between data.length) (line ++ crlf) [] _ := steps_sizeLine size
    have opened : (afterSize data.length chunk.length).state = .dataState := by simp [afterSize, positive]
    have sound : Sound (afterSize data.length chunk.length) :=
      ⟨fun _ => Nat.pos_of_ne_zero positive, fun _ => rfl, bound, by simp only [afterSize]; omega⟩
    have body := steps_data chunk sound opened nonempty (Nat.le_refl _) sum
    have act : chunkMachine.act (takeData (afterSize data.length chunk.length) chunk.length) crlf =
        .move 2 [] (between (data.length + chunk.length)) := by
      simp [chunkMachine, chunkAct, takeData, afterSize, crlf, between]
    have run := steps_trans start (steps_trans head (steps_trans body (steps_one act)))
    simpa using run

def betweenTrailers (decoded bytes count : Nat) : ChunkedDecoder := ⟨.trailers, 0, decoded, [], bytes, count⟩

theorem trailerText_length_snoc (trailers : List Bytes) (trailer : Bytes) :
    (trailerText (trailers ++ [trailer])).length = (trailerText trailers).length + trailer.length + 2 := by
  simp [trailerText_snoc, crlf, Nat.add_assoc]

theorem steps_trailers {decoded : Nat} {trailers : List Bytes} (few : trailers.length ≤ 64)
    (valid : ∀ trailer ∈ trailers, TrailerLine trailer)
    (within : (trailerText trailers).length < chunkedMaxTrailerBytes) :
    Steps chunkMachine (betweenTrailers decoded 0 0) (trailerText trailers) []
      (betweenTrailers decoded (trailerText trailers).length trailers.length) := by
  induction trailers using List.reverseRecOn with
  | nil => exact Steps.refl _
  | append_singleton trailers trailer ih =>
    have sized := trailerText_length_snoc trailers trailer
    rw [List.length_append, List.length_singleton] at few
    have good := valid trailer (by simp)
    have start := ih (by omega) (fun x member => valid x (by simp [member])) (by omega)
    have bytes : Steps chunkMachine
        (betweenTrailers decoded (trailerText trailers).length trailers.length) trailer []
        (appendTrailer (betweenTrailers decoded (trailerText trailers).length trailers.length) trailer) :=
      steps_trailerBytes rfl good.ordinary (by simpa [betweenTrailers] using good.short) (by
        simp only [betweenTrailers]
        omega)
    have nonempty : trailer ≠ [] := by
      intro empty
      have field := good.field
      rw [empty] at field
      cases field
    have act : chunkMachine.act
        (appendTrailer (betweenTrailers decoded (trailerText trailers).length trailers.length) trailer) crlf =
        .move 2 [] (betweenTrailers decoded (trailerText (trailers ++ [trailer])).length
          (trailers ++ [trailer]).length) := by
      have unspent : ¬ chunkedMaxTrailerBytes ≤ (trailerText trailers).length + trailer.length := by omega
      have more : ¬ 64 ≤ trailers.length := by omega
      rw [sized]
      simp [chunkMachine, chunkAct, appendTrailer, betweenTrailers, crlf, nonempty, good.field,
        chunkedMaxTrailers, endTrailerLine, unspent, more]
    have run := steps_trans start (steps_trans bytes (steps_one act))
    rw [trailerText_snoc, List.append_assoc]
    rw [trailerText_snoc] at run
    simpa using run

theorem coding_steps {text data : Bytes} (coding : ChunkedCoding text data) :
    ∃ read e last, text = read ++ crlf ∧ Steps chunkMachine ckHttpChunkedInit read data e ∧
      ∀ rest, chunkAct e (cr :: lf :: rest) = .halt 2 (.complete, last) := by
  cases coding with
  | @coding text data line trailers chunks sum zero few valid within =>
    rw [List.length_append, List.length_singleton] at within
    have start := steps_chunks chunks sum
    have head : Steps chunkMachine (between data.length) (line ++ crlf) [] _ := steps_sizeLine zero
    have fields : Steps chunkMachine (betweenTrailers data.length 0 0) (trailerText trailers) [] _ :=
      steps_trailers few valid (by omega)
    have run := steps_trans start (steps_trans head fields)
    refine ⟨text ++ line ++ crlf ++ trailerText trailers, _,
      ⟨.done, 0, data.length, [], (trailerText trailers).length + 2, trailers.length⟩, rfl,
      by simpa using run, ?_⟩
    intro rest
    have unspent : ¬ chunkedMaxTrailerBytes ≤ (trailerText trailers).length := by omega
    simp [chunkAct, betweenTrailers, unspent]

end CkartaChunkedGrammar
