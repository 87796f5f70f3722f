import Ckarta.ChunkedGrammar
import Ckarta.FieldLists

/-!
The two numerals that announce a length: the decimal one of Content-Length and the
hexadecimal one of a chunk line. Both loops guard every multiply-add with a truncating
division, so the value they hold is always the value of the digits read so far.
-/
namespace CkartaLengthNumerals
open MachineWord CkartaHttpParser CkartaHttpChunked CkartaFieldLists CkartaChunkedGrammar

def sizeDigits (line : Bytes) : Bytes := line.takeWhile fun b => b != semicolon

def sizeExtension (line : Bytes) : Bytes := (line.dropWhile fun b => b != semicolon).tail

theorem parseUint64Loop_append {start value : Nat} {read rest : Bytes}
    (came : parseUint64Loop start read = some value) :
    parseUint64Loop start (read ++ rest) = parseUint64Loop value rest := by
  induction read generalizing start with
  | nil =>
    simp only [parseUint64Loop, Option.some.injEq] at came
    rw [List.nil_append, came]
  | cons b read ih =>
    simp only [parseUint64Loop, List.cons_append] at came ⊢
    split
    · rename_i other
      rw [if_pos other] at came
      cases came
    · rename_i digit
      rw [if_neg digit] at came
      split
      · rename_i wraps
        rw [if_pos wraps] at came
        cases came
      · rename_i fits
        rw [if_neg fits] at came
        exact ih came

theorem parseChunkDigits_append {start value : Nat} {digits found : Bool} {read rest : Bytes}
    (came : parseChunkDigits start digits read = some (value, found, [])) :
    parseChunkDigits start digits (read ++ rest) = parseChunkDigits value found rest := by
  induction read generalizing start digits with
  | nil =>
    simp only [parseChunkDigits, Option.some.injEq, Prod.mk.injEq] at came
    rw [List.nil_append, came.1, came.2.1]
  | cons b read ih =>
    simp only [parseChunkDigits, List.cons_append] at came ⊢
    split
    · rename_i ends
      rw [if_pos ends] at came
      simp at came
    · rename_i other
      rw [if_neg other] at came
      cases hex : hexValue b with
      | none =>
        rw [hex] at came
        cases came
      | some digit =>
        rw [hex] at came
        simp only at came ⊢
        split
        · rename_i wraps
          rw [if_pos wraps] at came
          cases came
        · rename_i fits
          rw [if_neg fits] at came
          exact ih came

theorem semicolon_cut {digits extension : Bytes} (hex : digits.all isHexDigit = true)
    (stop : extension = [] ∨ ∃ rest, extension = semicolon :: rest) :
    sizeDigits (digits ++ extension) = digits ∧ sizeExtension (digits ++ extension) = extension.tail := by
  have inside : ∀ b ∈ digits, (b != semicolon) = true := by
    intro b member
    rw [bne_iff_ne]
    rintro rfl
    exact absurd (List.all_eq_true.mp hex _ member) (by decide)
  unfold sizeDigits sizeExtension
  rw [List.takeWhile_append_of_pos inside, List.dropWhile_append_of_pos inside]
  rcases stop with rfl | ⟨rest, rfl⟩
  · simp
  · simp

theorem line_cut (line : Bytes) : ∃ extension, line = sizeDigits line ++ extension ∧
    extension.tail = sizeExtension line ∧ (extension = [] ∨ ∃ rest, extension = semicolon :: rest) := by
  refine ⟨line.dropWhile fun b => b != semicolon, List.takeWhile_append_dropWhile.symm, rfl, ?_⟩
  cases tail : line.dropWhile fun b => b != semicolon with
  | nil => exact .inl rfl
  | cons b rest =>
    right
    have head := List.head?_dropWhile_not (fun b => b != semicolon) line
    rw [tail] at head
    simp only [List.head?_cons, bne_eq_false_iff_eq] at head
    exact ⟨rest, by rw [head]⟩

theorem parseChunkSize_cut {line : Bytes} {size : Nat} :
    parseChunkSize line = some size ↔ sizeDigits line ≠ [] ∧ (sizeDigits line).all isHexDigit = true ∧
      hexNumber 0 (sizeDigits line) = size ∧ size ≤ uint64Max ∧
      (sizeExtension line).any forbiddenExtensionByte = false := by
  rw [parseChunkSize_parts, allowed_extension]
  constructor
  · rintro ⟨⟨digits, extension, rfl, nonempty, hex, number, stop⟩, bound⟩
    obtain ⟨front, back⟩ := semicolon_cut hex (stop.imp_right fun ⟨rest, semi, _⟩ => ⟨rest, semi⟩)
    rw [front, back]
    refine ⟨nonempty, hex, number, bound, ?_⟩
    rcases stop with rfl | ⟨rest, rfl, allowed⟩
    · rfl
    · exact allowed
  · rintro ⟨nonempty, hex, number, bound, allowed⟩
    obtain ⟨extension, cut, tail, stop⟩ := line_cut line
    refine ⟨⟨sizeDigits line, extension, cut, nonempty, hex, number, ?_⟩, bound⟩
    refine stop.imp_right fun ⟨rest, semi⟩ => ⟨rest, semi, ?_⟩
    rw [← tail, semi] at allowed
    exact allowed

/-- The value a loop holds after any part of its text is the exact value of that part: the text
    so far is read without a wrap, and the loop goes on from there. -/
theorem parseUint64Loop_exact {value : Nat} {read : Bytes} (came : parseUint64Loop 0 read = some value) :
    value = decimalValue 0 read ∧ value ≤ uint64Max := by
  obtain ⟨-, number, bound⟩ := (parseUint64Loop_iff (Nat.zero_le _)).mp came
  exact ⟨number.symm, bound⟩

theorem parseChunkDigits_exact {value : Nat} {found : Bool} {read : Bytes}
    (came : parseChunkDigits 0 false read = some (value, found, [])) :
    value = hexNumber 0 read ∧ value ≤ uint64Max := by
  obtain ⟨digits, cut, -, number, bound, -⟩ := (parseChunkDigits_iff (Nat.zero_le _)).mp came
  rw [List.append_nil] at cut
  rw [cut]
  exact ⟨number.symm, bound⟩

/-- Both numerals are read exactly, for texts of any length, and no step of either loop wraps. -/
theorem length_numerals_exact (s line : Bytes) (n size : Nat) :
    (parseUint64 s = some n ↔
      s ≠ [] ∧ (∀ b ∈ s, 48 ≤ b ∧ b ≤ 57) ∧ decimalValue 0 s = n ∧ n ≤ uint64Max) ∧
    (parseChunkSize line = some size ↔ sizeDigits line ≠ [] ∧ (sizeDigits line).all isHexDigit = true ∧
      hexNumber 0 (sizeDigits line) = size ∧ size ≤ uint64Max ∧
      ∀ b ∈ sizeExtension line, ¬ (b = 127 ∨ (b < 32 ∧ b ≠ 9))) ∧
    (∀ read rest value, s = read ++ rest → parseUint64Loop 0 read = some value →
      parseUint64Loop 0 s = parseUint64Loop value rest ∧ value = decimalValue 0 read ∧
      ∀ b : UInt8, ¬ (b < 48 ∨ 57 < b) → ¬ value > (uint64Max - (b.toNat - 48)) / 10 →
        value * 10 + (b.toNat - 48) ≤ uint64Max) ∧
    (∀ read rest value found, line = read ++ rest → parseChunkDigits 0 false read = some (value, found, []) →
      parseChunkDigits 0 false line = parseChunkDigits value found rest ∧ value = hexNumber 0 read ∧
      ∀ (b : UInt8) digit, hexValue b = some digit → ¬ value > (uint64Max - digit) / 16 →
        value * 16 + digit ≤ uint64Max) := by
  refine ⟨?_, ?_, ?_, ?_⟩
  · rw [parseUint64_iff, Numeral]
    simp [isDigit]
  · rw [parseChunkSize_cut]
    simp [forbiddenExtensionByte]
  · intro read rest value cut came
    refine ⟨by rw [cut]; exact parseUint64Loop_append came, (parseUint64Loop_exact came).1, ?_⟩
    intro b digit fits
    apply (guarded_shift_iff (by decide) _).mp fits
    have := b.toNat_lt
    simp only [uint64Max]
    omega
  · intro read rest value found cut came
    refine ⟨by rw [cut]; exact parseChunkDigits_append came, (parseChunkDigits_exact came).1, ?_⟩
    intro b digit hex fits
    apply (guarded_shift_iff (by decide) _).mp fits
    rw [hexValue_eq] at hex
    split at hex
    · rename_i good
      cases hex
      exact Nat.le_trans (hexDigitValue_lt good) (by decide)
    · cases hex

end CkartaLengthNumerals
