import Ckarta.Config

/-!
The lines of the file as `fgets` hands them out, and the part of a line the code
sees: a newline stands only at the end, and a line that is not refused as too long
has room for one more byte behind everything up to its semicolon.
-/
namespace CkartaConfigLines
open CkartaHttpParser CkartaConfig

/-- A line as `fgets` returns it. -/
structure LineShape (line : Bytes) : Prop where
  length_le : line.length ≤ lineSize - 1
  newline_last : lf ∉ line.dropLast

theorem fgetsLines_shape {source : Bytes} :
    ∀ {current : Bytes}, lf ∉ current → current.length < lineSize - 1 →
    ∀ line ∈ fgetsLines current source, LineShape line := by
  induction source with
  | nil =>
    intro current unbroken short line member
    unfold fgetsLines at member
    split at member
    · cases member
    · rw [List.mem_singleton] at member
      subst member
      exact ⟨by omega, fun inside => unbroken (List.dropLast_subset _ inside)⟩
  | cons byte source ih =>
    intro current unbroken short line member
    unfold fgetsLines at member
    split at member
    · rw [List.mem_cons] at member
      obtain rfl | later := member
      · refine ⟨?_, ?_⟩
        · simp only [List.length_append, List.length_singleton]
          omega
        · simpa using unbroken
      · exact ih (by simp) (by simp [lineSize]) line later
    · rename_i inside
      rw [not_or] at inside
      refine ih ?_ ?_ line member
      · simp only [List.mem_append, List.mem_singleton, not_or]
        exact ⟨unbroken, fun same => inside.1 same.symm⟩
      · simp only [List.length_append, List.length_singleton]
        omega

theorem fgetsLines_first {source first : Bytes} {later : List Bytes} :
    ∀ {current : Bytes}, fgetsLines current source = first :: later →
    first ≠ [] ∧ first <+: current ++ source := by
  induction source with
  | nil =>
    intro current read
    unfold fgetsLines at read
    split at read
    · cases read
    · rename_i content
      simp only [List.cons.injEq] at read
      exact ⟨read.1 ▸ content, by simp [read.1]⟩
  | cons byte source ih =>
    intro current read
    unfold fgetsLines at read
    split at read
    · simp only [List.cons.injEq] at read
      exact ⟨by simp [← read.1], source, by simp [← read.1]⟩
    · simpa using ih read

theorem fgetsLines_single {text : Bytes} :
    ∀ {current : Bytes}, lf ∉ text → current.length + text.length + 1 ≤ lineSize - 1 →
    fgetsLines current (text ++ [lf]) = [current ++ text ++ [lf]] := by
  induction text with
  | nil =>
    intro current unbroken short
    simp [fgetsLines]
  | cons byte text ih =>
    intro current unbroken short
    simp only [List.mem_cons, not_or, List.length_cons] at unbroken short
    have inside : ¬ (byte = lf ∨ current.length + 1 = lineSize - 1) := by
      rw [not_or]
      exact ⟨fun same => unbroken.1 same.symm, by omega⟩
    rw [List.cons_append, fgetsLines, if_neg inside, ih unbroken.2]
    · simp
    · simp only [List.length_append, List.length_singleton]
      omega

theorem fgetsLines_nonempty {source : Bytes} :
    ∀ {current : Bytes}, current ++ source ≠ [] → fgetsLines current source ≠ [] := by
  induction source with
  | nil =>
    intro current content
    simpa [fgetsLines] using content
  | cons byte source ih =>
    intro current content
    unfold fgetsLines
    split
    · simp
    · exact ih (by simp)

theorem readLines_shape {line : Bytes} (content : Bytes) (readError : Bool)
    (member : line ∈ readLines content readError) : LineShape line := by
  have among : line ∈ fgetsLines [] content := by
    unfold readLines at member
    split at member
    · exact List.mem_of_mem_filter member
    · exact member
  exact fgetsLines_shape (by simp) (by simp [lineSize]) line among

theorem mem_dropLast_of_begins {front line : Bytes} (before : front <+: line) {byte : UInt8}
    (inside : byte ∈ front.dropLast) : byte ∈ line.dropLast := by
  obtain ⟨tail, rfl⟩ := before
  cases tail with
  | nil => simpa using inside
  | cons next tail =>
    rw [List.dropLast_append_cons, List.mem_append]
    exact .inl (List.dropLast_subset _ inside)

theorem cString_begins_line (line : Bytes) : cString line <+: line := List.takeWhile_prefix _

theorem cString_nonzero (line : Bytes) : 0 ∉ cString line := by
  intro member
  simpa using List.mem_takeWhile_imp member

theorem cString_eq_self {line : Bytes} (nonzero : 0 ∉ line) : cString line = line := by
  unfold cString
  rw [List.takeWhile_eq_self_iff]
  intro byte member
  simp only [bne_iff_ne, ne_eq]
  rintro rfl
  exact nonzero member

theorem LineShape.before_semicolon {line front rest : Bytes} (shape : LineShape line)
    (fits : lineTooLong line = false) (text : cString line = front ++ semicolon :: rest) :
    lf ∉ front ∧ front.length + 1 < lineSize - 1 := by
  have unbroken : lf ∉ front := by
    intro member
    refine shape.newline_last (mem_dropLast_of_begins (cString_begins_line line) ?_)
    rw [text, List.dropLast_append_cons, List.mem_append]
    exact .inl member
  refine ⟨unbroken, ?_⟩
  have visible := (cString_begins_line line).length_le
  have bound := shape.length_le
  rw [text] at visible
  simp only [List.length_append, List.length_cons] at visible
  cases rest with
  | cons next rest =>
    simp only [List.length_cons] at visible
    omega
  | nil =>
    have absent : lf ∉ cString line := by
      rw [text]
      simp only [List.mem_append, List.mem_singleton, not_or]
      exact ⟨unbroken, by decide⟩
    have ended : atEnd line = true := by
      simpa [lineTooLong, absent] using fits
    have short : line.length < lineSize - 1 := by
      simp only [atEnd, Bool.and_eq_true, decide_eq_true_eq] at ended
      exact ended.2
    simp only [List.length_nil] at visible
    omega

end CkartaConfigLines
