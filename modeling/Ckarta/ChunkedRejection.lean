import Ckarta.ChunkedMachine

/-!
A refused slice that is fed again. ck_http_chunked_feed reports nothing consumed when it
refuses, but its state, line and trailer counters have moved. Whether the decoder it
leaves behind refuses the slice again depends on the first line of the slice.
-/
namespace CkartaChunkedRejection
open MachineWord PrefixMachine CkartaHttpParser CkartaHttpChunked CkartaChunkedMachine

def refusalOf (fed : ChunkedFeed) : Option ChunkedDecoder :=
  if fed.result = .badRequest ∨ fed.result = .tooLarge then some fed.decoder else none

/-- The decoder a refused feed of s leaves behind, none if s is not refused. -/
def refusal (d : ChunkedDecoder) (s : Bytes) : Option ChunkedDecoder :=
  refusalOf (chunkedFeedLoop d 0 s)

def overflows (d : ChunkedDecoder) (available : Nat) : Prop :=
  d.totalDecoded > chunkedMaxBody ∨
    (if d.chunkRemaining < available then d.chunkRemaining else available) >
      chunkedMaxBody - d.totalDecoded

theorem overflows_mono {d : ChunkedDecoder} {m n : Nat} (le : m ≤ n) (full : overflows d m) :
    overflows d n := by
  rcases full with full | full
  · exact .inl full
  · refine .inr (Nat.lt_of_lt_of_le full ?_)
    split <;> split <;> omega

theorem takeChunkData_refusal (d : ChunkedDecoder) (position available : Nat) :
    (overflows d available → refusalOf (takeChunkData d position available) = some d) ∧
      (¬ overflows d available → refusalOf (takeChunkData d position available) = none) := by
  constructor
  · intro full
    simp only [overflows] at full
    simp only [takeChunkData]
    rw [if_pos full]
    rfl
  · intro room
    simp only [overflows] at room
    simp only [takeChunkData]
    rw [if_neg room]
    rfl

theorem chunkedFeedLoop_data {d : ChunkedDecoder} {s : Bytes} {position : Nat}
    (data : d.state = .dataState) (nonempty : s ≠ []) :
    chunkedFeedLoop d position s = takeChunkData d position s.length := by
  cases s with
  | nil => contradiction
  | cons value rest => cases rest <;> simp [chunkedFeedLoop, data]

theorem refusal_data {d : ChunkedDecoder} {s : Bytes} (data : d.state = .dataState)
    (nonempty : s ≠ []) : (overflows d s.length → refusal d s = some d) ∧
      (¬ overflows d s.length → refusal d s = none) := by
  rw [refusal, chunkedFeedLoop_data data nonempty]
  exact takeChunkData_refusal d 0 s.length

theorem refusal_nil (d : ChunkedDecoder) : refusal d [] = none := rfl

theorem refusal_position {d : ChunkedDecoder} {s : Bytes} {position : Nat} (live : d.state ≠ .done) :
    refusalOf (chunkedFeedLoop d position s) = refusal d s := by
  induction size : s.length using Nat.strongRecOn generalizing d s position with
  | ind n ih =>
    subst size
    by_cases empty : s = []
    · subst empty
      rfl
    · by_cases data : d.state = .dataState
      · rw [refusal, chunkedFeedLoop_data data empty, chunkedFeedLoop_data data empty]
        by_cases full : overflows d s.length
        · rw [(takeChunkData_refusal d _ _).1 full, (takeChunkData_refusal d _ _).1 full]
        · rw [(takeChunkData_refusal d _ _).2 full, (takeChunkData_refusal d _ _).2 full]
      · rw [refusal, chunkedFeedLoop_act data live, chunkedFeedLoop_act data live]
        cases act : chunkAct d s with
        | wait => rfl
        | move k out e =>
          have bounds := chunkAct_move act
          have next := (chunkAct_open act).1
          have shorter : (s.drop k).length < s.length := by
            rw [List.length_drop]
            omega
          dsimp only
          rw [ih _ shorter next rfl, ih _ shorter next rfl]
        | halt k verdict =>
          obtain ⟨result, last⟩ := verdict
          dsimp only
          split <;> rfl

theorem refusal_act {d : ChunkedDecoder} {s : Bytes} (nondata : d.state ≠ .dataState)
    (live : d.state ≠ .done) :
    refusal d s = match chunkAct d s with
      | .wait => none
      | .move n _ e => refusal e (s.drop n)
      | .halt _ (result, last) => if result = .complete then none else some last := by
  rw [refusal, chunkedFeedLoop_act nondata live]
  cases act : chunkAct d s with
  | wait => rfl
  | move n out e => exact refusal_position (chunkAct_open act).1
  | halt n verdict =>
    obtain ⟨result, last⟩ := verdict
    dsimp only
    rcases chunkAct_halt live act with ⟨rfl, -⟩ | ⟨rfl | rfl, -⟩ <;> rfl

/-- A refusal is decided by what was read: more bytes behind the slice do not change it. -/
theorem refusal_append {d last : ChunkedDecoder} {s : Bytes} (live : d.state ≠ .done)
    (refused : refusal d s = some last) (t : Bytes) : refusal d (s ++ t) = some last := by
  induction size : s.length using Nat.strongRecOn generalizing d s with
  | ind n ih =>
    subst size
    have nonempty : s ≠ [] := by
      rintro rfl
      simp [refusal_nil] at refused
    by_cases data : d.state = .dataState
    · by_cases full : overflows d s.length
      · rw [(refusal_data data nonempty).1 full] at refused
        rw [(refusal_data data (by simp [nonempty])).1 (overflows_mono (by simp) full), refused]
      · rw [(refusal_data data nonempty).2 full] at refused
        simp at refused
    · rw [refusal_act data live] at refused ⊢
      cases act : chunkAct d s with
      | wait => simp [act] at refused
      | move k out e =>
        have bounds := chunkAct_move act
        rw [chunkAct_stable (by simp [act]) t, act]
        simp only [act] at refused ⊢
        rw [List.drop_append_of_le_length bounds.2.1]
        exact ih (s.drop k).length (by rw [List.length_drop]; omega) (chunkAct_open act).1 refused rfl
      | halt k verdict =>
        rw [chunkAct_stable (by simp [act]) t, act]
        rw [act] at refused
        exact refused

section DataCrlf
variable {d : ChunkedDecoder} (crlf : d.state = .dataCrlf)
include crlf

theorem refusal_crlf_short (a : UInt8) : refusal d [a] = none := by
  rw [refusal_act (by simp [crlf]) (by simp [crlf])]
  simp [chunkAct, crlf]

theorem refusal_crlf_other {a b : UInt8} {rest : Bytes} (other : a ≠ cr ∨ b ≠ lf) :
    refusal d (a :: b :: rest) = some d := by
  rw [refusal_act (by simp [crlf]) (by simp [crlf])]
  simp only [chunkAct, crlf, other, ↓reduceIte]
  simp

theorem refusal_crlf_end (rest : Bytes) :
    refusal d (cr :: lf :: rest) = refusal { d with state := .size } rest := by
  rw [refusal_act (by simp [crlf]) (by simp [crlf])]
  simp [chunkAct, crlf]

end DataCrlf

section Size
variable {d : ChunkedDecoder} (size : d.state = .size)
include size

theorem refusal_size_byte {b : UInt8} {rest : Bytes} (notCr : b ≠ cr) (notLf : b ≠ lf) :
    refusal d (b :: rest) = if d.line.length ≥ chunkedMaxLine - 1 then some d
      else refusal { d with line := d.line ++ [b] } rest := by
  rw [refusal_act (by simp [size]) (by simp [size])]
  by_cases full : d.line.length ≥ chunkedMaxLine - 1
  · simp [chunkAct, size, notCr, notLf, appendLineByte, full]
  · simp [chunkAct, size, notCr, notLf, appendLineByte, full]

theorem refusal_size_lone : refusal d [cr] = none := by
  rw [refusal_act (by simp [size]) (by simp [size])]
  simp [chunkAct, size]

theorem refusal_size_lf (rest : Bytes) : refusal d (lf :: rest) = some d := by
  rw [refusal_act (by simp [size]) (by simp [size])]
  simp [chunkAct, size, show lf ≠ cr by decide]

theorem refusal_size_cr {b : UInt8} {rest : Bytes} (notLf : b ≠ lf) :
    refusal d (cr :: b :: rest) = some d := by
  rw [refusal_act (by simp [size]) (by simp [size])]
  simp [chunkAct, size, notLf]

theorem refusal_size_bad {rest : Bytes} (bad : parseChunkSize d.line = none) :
    refusal d (cr :: lf :: rest) = some d := by
  rw [refusal_act (by simp [size]) (by simp [size])]
  simp [chunkAct, size, finishSizeLine, bad]

theorem refusal_size_end {n : Nat} {rest : Bytes} (parsed : parseChunkSize d.line = some n) :
    refusal d (cr :: lf :: rest) = refusal { d with
      chunkRemaining := n, line := []
      state := if n = 0 then .trailers else .dataState } rest := by
  rw [refusal_act (by simp [size]) (by simp [size])]
  simp [chunkAct, size, finishSizeLine, parsed]

end Size

def counted (d : ChunkedDecoder) : ChunkedDecoder := { d with trailerBytes := d.trailerBytes + 1 }

section Trailers
variable {d : ChunkedDecoder} (trailers : d.state = .trailers)
include trailers

theorem refusal_trailers_spent {s : Bytes} (spent : chunkedMaxTrailerBytes ≤ d.trailerBytes)
    (nonempty : s ≠ []) : refusal d s = some d := by
  rw [refusal_act (by simp [trailers]) (by simp [trailers])]
  cases s with
  | nil => contradiction
  | cons b rest => simp [chunkAct, trailers, spent]

theorem refusal_trailers_lone : refusal d [cr] = none ∨ chunkedMaxTrailerBytes ≤ d.trailerBytes := by
  by_cases spent : chunkedMaxTrailerBytes ≤ d.trailerBytes
  · exact .inr spent
  · refine .inl ?_
    rw [refusal_act (by simp [trailers]) (by simp [trailers])]
    simp [chunkAct, trailers, spent]

variable (room : ¬ chunkedMaxTrailerBytes ≤ d.trailerBytes)
include room

theorem refusal_trailers_byte {b : UInt8} {rest : Bytes} (notCr : b ≠ cr) (notLf : b ≠ lf) :
    refusal d (b :: rest) = if d.line.length ≥ chunkedMaxLine - 1 then some (counted d)
      else refusal { counted d with line := d.line ++ [b] } rest := by
  rw [refusal_act (by simp [trailers]) (by simp [trailers])]
  by_cases full : d.line.length ≥ chunkedMaxLine - 1
  · simp [chunkAct, trailers, room, notCr, notLf, appendLineByte, full, counted]
  · simp [chunkAct, trailers, room, notCr, notLf, appendLineByte, full, counted]

theorem refusal_trailers_lf (rest : Bytes) : refusal d (lf :: rest) = some (counted d) := by
  rw [refusal_act (by simp [trailers]) (by simp [trailers])]
  simp [chunkAct, trailers, room, show lf ≠ cr by decide, counted]

theorem refusal_trailers_cr {b : UInt8} {rest : Bytes} (notLf : b ≠ lf) :
    refusal d (cr :: b :: rest) = some (counted d) := by
  rw [refusal_act (by simp [trailers]) (by simp [trailers])]
  simp [chunkAct, trailers, room, notLf, counted]

theorem refusal_trailers_empty {rest : Bytes} (empty : d.line = []) :
    refusal d (cr :: lf :: rest) = none := by
  rw [refusal_act (by simp [trailers]) (by simp [trailers])]
  simp [chunkAct, trailers, room, empty]

theorem refusal_trailers_end {rest : Bytes} (line : d.line ≠ []) :
    refusal d (cr :: lf :: rest) =
      if d.trailerCount ≥ chunkedMaxTrailers ∨ ¬ validTrailerField d.line then
        some (counted (counted d))
      else refusal (endTrailerLine d) rest := by
  rw [refusal_act (by simp [trailers]) (by simp [trailers])]
  by_cases bad : d.trailerCount ≥ chunkedMaxTrailers ∨ ¬ validTrailerField d.line
  · rw [if_pos bad]
    simp only [chunkAct, trailers, room, bad]
    simp [line, counted, trailers]
  · rw [if_neg bad]
    simp only [chunkAct, trailers, room, bad]
    simp [line]

end Trailers

def Ordinary (w : Bytes) : Prop := ∀ b ∈ w, b ≠ cr ∧ b ≠ lf

/-- A line break that no line state accepts. -/
def Broken (z : Bytes) : Prop := (∃ r, z = lf :: r) ∨ ∃ b r, z = cr :: b :: r ∧ b ≠ lf

theorem first_line (s : Bytes) : ∃ w z, s = w ++ z ∧ Ordinary w ∧
    (z = [] ∨ z = [cr] ∨ Broken z ∨ ∃ t, z = cr :: lf :: t) := by
  induction s with
  | nil => exact ⟨[], [], rfl, by simp [Ordinary], .inl rfl⟩
  | cons b s ih =>
    by_cases isLf : b = lf
    · exact ⟨[], b :: s, rfl, by simp [Ordinary], .inr (.inr (.inl (.inl ⟨s, by rw [isLf]⟩)))⟩
    · by_cases isCr : b = cr
      · subst isCr
        rcases s with _ | ⟨c, s⟩
        · exact ⟨[], [cr], rfl, by simp [Ordinary], .inr (.inl rfl)⟩
        · by_cases ends : c = lf
          · subst ends
            exact ⟨[], cr :: lf :: s, rfl, by simp [Ordinary], .inr (.inr (.inr ⟨s, rfl⟩))⟩
          · exact ⟨[], cr :: c :: s, rfl, by simp [Ordinary],
              .inr (.inr (.inl (.inr ⟨c, s, rfl, ends⟩)))⟩
      · obtain ⟨w, z, rfl, ordinary, kind⟩ := ih
        refine ⟨b :: w, z, rfl, ?_, kind⟩
        intro x member
        rcases List.mem_cons.mp member with rfl | member
        · exact ⟨isCr, isLf⟩
        · exact ordinary x member

theorem ordinary_cons {b : UInt8} {w : Bytes} (ordinary : Ordinary (b :: w)) :
    b ≠ cr ∧ b ≠ lf ∧ Ordinary w :=
  ⟨(ordinary b (by simp)).1, (ordinary b (by simp)).2, fun x member => ordinary x (by simp [member])⟩

def appendLine (d : ChunkedDecoder) (w : Bytes) : ChunkedDecoder := { d with line := d.line ++ w }

def appendTrailer (d : ChunkedDecoder) (w : Bytes) : ChunkedDecoder :=
  { d with line := d.line ++ w, trailerBytes := d.trailerBytes + w.length }

theorem refusal_size_line {d : ChunkedDecoder} {w z : Bytes} (size : d.state = .size)
    (ordinary : Ordinary w) :
    refusal d (w ++ z) = refusal (appendLine d w) z ∨
      ∃ last, refusal d (w ++ z) = some last ∧ last.state = .size ∧
        chunkedMaxLine - 1 < d.line.length + w.length ∧ w ≠ [] ∧
        chunkedMaxLine - 1 ≤ last.line.length := by
  induction w generalizing d with
  | nil =>
    left
    simp [appendLine]
  | cons b w ih =>
    obtain ⟨notCr, notLf, rest⟩ := ordinary_cons ordinary
    rw [List.cons_append, refusal_size_byte size notCr notLf]
    split
    · rename_i full
      exact .inr ⟨d, rfl, size, by simp only [List.length_cons]; omega, by simp, full⟩
    · rcases ih (d := { d with line := d.line ++ [b] }) size rest with
        through | ⟨last, refused, kind, long, -, full⟩
      · left
        rw [through]
        simp [appendLine]
      · refine .inr ⟨last, refused, kind, ?_, by simp, full⟩
        simp only [List.length_append, List.length_cons, List.length_nil] at long ⊢
        omega

theorem refusal_trailers_line {d : ChunkedDecoder} {w z : Bytes} (trailers : d.state = .trailers)
    (ordinary : Ordinary w) :
    (refusal d (w ++ z) = refusal (appendTrailer d w) z ∧
        (w ≠ [] → d.line.length + w.length ≤ chunkedMaxLine - 1)) ∨
      ∃ last, refusal d (w ++ z) = some last ∧ last.state = .trailers ∧ w ≠ [] ∧
        (chunkedMaxTrailerBytes ≤ last.trailerBytes ∨ chunkedMaxLine - 1 ≤ last.line.length) := by
  induction w generalizing d with
  | nil =>
    left
    simp [appendTrailer]
  | cons b w ih =>
    obtain ⟨notCr, notLf, rest⟩ := ordinary_cons ordinary
    by_cases spent : chunkedMaxTrailerBytes ≤ d.trailerBytes
    · exact .inr ⟨d, refusal_trailers_spent trailers spent (by simp), trailers, by simp, .inl spent⟩
    · rw [List.cons_append, refusal_trailers_byte trailers spent notCr notLf]
      split
      · rename_i full
        exact .inr ⟨counted d, rfl, trailers, by simp, .inr full⟩
      · rename_i room
        rcases ih (d := { counted d with line := d.line ++ [b] }) trailers rest with
          ⟨through, short⟩ | ⟨last, refused, kind, -, full⟩
        · left
          rw [through]
          refine ⟨by simp [counted, appendTrailer, Nat.add_assoc, Nat.add_comm 1], fun _ => ?_⟩
          simp only [List.length_append, List.length_cons, List.length_nil] at short ⊢
          by_cases empty : w = []
          · subst empty
            simp only [List.length_nil]
            omega
          · have := short empty
            omega
        · exact .inr ⟨last, refused, kind, by simp, full⟩

theorem parseChunkDigits_fails {line z : Bytes} {value : Nat} {digits : Bool}
    (bad : parseChunkDigits value digits line = none) :
    parseChunkDigits value digits (line ++ z) = none := by
  induction line generalizing value digits with
  | nil => simp [parseChunkDigits] at bad
  | cons b line ih =>
    simp only [parseChunkDigits, List.cons_append] at bad ⊢
    split at bad
    · simp at bad
    · rename_i digit_
      rw [if_neg digit_]
      split at bad
      · rfl
      · rename_i digit hex
        split at bad
        · rename_i large
          rw [if_pos large]
        · rename_i small
          rw [if_neg small]
          exact ih bad

theorem parseChunkDigits_rest {line z rest : Bytes} {value size : Nat} {digits found : Bool}
    (some_ : rest ≠ []) (parsed : parseChunkDigits value digits line = some (size, found, rest)) :
    parseChunkDigits value digits (line ++ z) = some (size, found, rest ++ z) := by
  induction line generalizing value digits with
  | nil =>
    simp only [parseChunkDigits, Option.some.injEq, Prod.mk.injEq] at parsed
    exact absurd parsed.2.2.symm some_
  | cons b line ih =>
    simp only [parseChunkDigits, List.cons_append] at parsed ⊢
    split at parsed
    · rename_i ends
      simp only [Option.some.injEq, Prod.mk.injEq] at parsed
      obtain ⟨rfl, rfl, rfl⟩ := parsed
      rw [if_pos ends]
      rfl
    · rename_i digit_
      rw [if_neg digit_]
      split at parsed
      · simp at parsed
      · split at parsed
        · simp at parsed
        · rename_i small
          rw [if_neg small]
          exact ih parsed

theorem parseChunkDigits_found {line : Bytes} {value size : Nat} {digits found : Bool}
    (parsed : parseChunkDigits value digits line = some (size, found, [])) :
    line = [] ∨ found = true := by
  induction line generalizing value digits with
  | nil => exact .inl rfl
  | cons b line ih =>
    simp only [parseChunkDigits] at parsed
    split at parsed
    · simp at parsed
    · split at parsed
      · simp at parsed
      · split at parsed
        · simp at parsed
        · rcases ih parsed with rfl | found
          · simp only [parseChunkDigits, Option.some.injEq, Prod.mk.injEq] at parsed
            exact .inr parsed.2.1.symm
          · exact .inr found

theorem parseChunkSize_append {line z : Bytes} (nonempty : line ≠ [])
    (bad : parseChunkSize line = none) : parseChunkSize (line ++ z) = none := by
  simp only [parseChunkSize] at bad ⊢
  cases run : parseChunkDigits 0 false line with
  | none => rw [parseChunkDigits_fails run]
  | some parsed =>
    obtain ⟨size, found, rest⟩ := parsed
    by_cases whole : rest = []
    · subst whole
      rcases parseChunkDigits_found run with empty | rfl
      · exact absurd empty nonempty
      · simp [run] at bad
    · rw [parseChunkDigits_rest whole run]
      cases found with
      | false => simp
      | true =>
        obtain ⟨b, rest, rfl⟩ := List.exists_cons_of_ne_nil whole
        simp only [run, Bool.not_true, Bool.false_eq_true, ↓reduceIte, List.tail_cons] at bad
        have forbidden : rest.any forbiddenExtensionByte = true := by
          by_contra fine
          simp [fine] at bad
        simp only [Bool.not_true, Bool.false_eq_true, ↓reduceIte, List.cons_append, List.tail_cons,
          List.any_append, forbidden, Bool.true_or]

/-- Reading the same ordinary bytes once more does not make a bad size line good. -/
theorem parseChunkSize_again {line w : Bytes} (bad : parseChunkSize (line ++ w) = none) :
    parseChunkSize (line ++ w ++ w) = none := by
  by_cases empty : w = []
  · subst empty
    simpa using bad
  · exact parseChunkSize_append (by simp [empty]) bad

theorem validTrailerField_again {line w : Bytes} (bad : validTrailerField (line ++ w) = false) :
    validTrailerField (line ++ w ++ w) = false := by
  have within : ∀ b ∈ w, b ∈ line ++ w := fun b member => by simp [member]
  generalize line ++ w = y at bad within
  have names := @List.takeWhile_append _ (fun b => b != colon) y w
  simp only [validTrailerField] at bad ⊢
  by_cases whole : (y.takeWhile fun b => b != colon).length = y.length
  · -- there is no colon in y, so there is none in w
    have same := (List.takeWhile_prefix (p := fun b => b != colon) (l := y)).eq_of_length whole
    have free : ∀ b ∈ y, (b != colon) = true := List.takeWhile_eq_self_iff.mp same
    have more : w.takeWhile (fun b => b != colon) = w :=
      List.takeWhile_eq_self_iff.mpr fun b member => free b (within b member)
    rw [if_pos whole, more] at names
    rw [names, if_pos (.inr rfl)]
  · rw [if_neg whole] at names
    rw [names]
    have short : (y.takeWhile fun b => b != colon).length < y.length :=
      Nat.lt_of_le_of_ne (List.takeWhile_prefix _).length_le whole
    by_cases empty : (y.takeWhile fun b => b != colon).length = 0
    · rw [if_pos (.inl empty)]
    · rw [if_neg (by simp only [List.length_append]; omega)]
      rw [if_neg (by omega)] at bad
      split at bad
      · rename_i wrong
        rw [if_pos wrong]
      · rename_i fine
        rw [if_neg fine, List.drop_append_of_le_length (by omega)]
        simp only [Bool.not_eq_false'] at bad
        simp only [List.any_append, bad, Bool.true_or, Bool.not_true]

/-- The decoder cannot finish at the next empty line: it holds a line, or has no bytes left. -/
def Marked (d : ChunkedDecoder) : Prop := d.line ≠ [] ∨ chunkedMaxTrailerBytes ≤ d.trailerBytes

structure Grown (d last : ChunkedDecoder) : Prop where
  state : last.state = .trailers
  count : d.trailerCount ≤ last.trailerCount
  bytes : d.trailerBytes ≤ last.trailerBytes

theorem Grown.trans {d e last : ChunkedDecoder} (first : Grown d e) (second : Grown e last) :
    Grown d last :=
  ⟨second.state, Nat.le_trans first.count second.count, Nat.le_trans first.bytes second.bytes⟩

theorem counted_grown {d : ChunkedDecoder} (trailers : d.state = .trailers) : Grown d (counted d) :=
  ⟨trailers, Nat.le_refl _, Nat.le_succ _⟩

theorem endTrailerLine_grown {d : ChunkedDecoder} (trailers : d.state = .trailers) :
    Grown d (endTrailerLine d) :=
  ⟨trailers, Nat.le_succ _, Nat.le_add_right _ _⟩

theorem refusal_trailers_mono {d e last : ChunkedDecoder} {s : Bytes} (trailers : d.state = .trailers)
    (also : e.state = .trailers) (line : e.line = d.line) (count : d.trailerCount ≤ e.trailerCount)
    (bytes : d.trailerBytes ≤ e.trailerBytes) (refused : refusal d s = some last) :
    ∃ next, refusal e s = some next ∧ Grown e next ∧ (Marked last → Marked next) := by
  induction size : s.length using Nat.strongRecOn generalizing d e s with
  | ind n ih =>
    subst size
    have nonempty : s ≠ [] := by
      rintro rfl
      simp [refusal_nil] at refused
    by_cases spent' : chunkedMaxTrailerBytes ≤ e.trailerBytes
    · exact ⟨e, refusal_trailers_spent also spent' nonempty, ⟨also, Nat.le_refl _, Nat.le_refl _⟩,
        fun _ => .inr spent'⟩
    · have spent : ¬ chunkedMaxTrailerBytes ≤ d.trailerBytes := by omega
      have marks : counted d = last → Marked last → Marked (counted e) := by
        rintro rfl (kept | full)
        · exact .inl (by simpa [counted, line] using kept)
        · exact .inr (by simp only [counted] at full ⊢; omega)
      rcases s with _ | ⟨b, s⟩
      · contradiction
      · by_cases isCr : b = cr
        · subst isCr
          rcases s with _ | ⟨c, s⟩
          · rcases refusal_trailers_lone trailers with open_ | full
            · simp [open_] at refused
            · exact absurd full spent
          · by_cases isLf : c = lf
            · subst isLf
              by_cases empty : d.line = []
              · simp [refusal_trailers_empty trailers spent empty] at refused
              · have held : e.line ≠ [] := by rw [line]; exact empty
                rw [refusal_trailers_end trailers spent empty] at refused
                rw [refusal_trailers_end also spent' held]
                split
                · exact ⟨_, rfl, (counted_grown also).trans (counted_grown (d := counted e) also),
                    fun _ => .inl (by simpa [counted] using held)⟩
                · rename_i fine
                  split at refused
                  · rename_i bad
                    rw [line] at fine
                    exact absurd (bad.imp (fun full => by omega) id) fine
                  · obtain ⟨next, refused', grown, marked⟩ :=
                      ih s.length (by simp only [List.length_cons]; omega) (d := endTrailerLine d)
                        (e := endTrailerLine e) trailers also rfl (by simp only [endTrailerLine]; omega)
                        (by simp only [endTrailerLine]; omega) refused rfl
                    exact ⟨next, refused', (endTrailerLine_grown also).trans grown, marked⟩
            · rw [refusal_trailers_cr trailers spent isLf, Option.some.injEq] at refused
              exact ⟨counted e, refusal_trailers_cr also spent' isLf, counted_grown also, marks refused⟩
        · by_cases isLf : b = lf
          · subst isLf
            rw [refusal_trailers_lf trailers spent, Option.some.injEq] at refused
            exact ⟨counted e, refusal_trailers_lf also spent' s, counted_grown also, marks refused⟩
          · rw [refusal_trailers_byte trailers spent isCr isLf] at refused
            rw [refusal_trailers_byte also spent' isCr isLf, line]
            split at refused
            · rename_i full
              rw [if_pos full]
              rw [Option.some.injEq] at refused
              exact ⟨counted e, rfl, counted_grown also, marks refused⟩
            · rename_i room
              rw [if_neg room]
              obtain ⟨next, refused', grown, marked⟩ := ih s.length (by simp)
                (d := { counted d with line := d.line ++ [b] })
                (e := { counted e with line := d.line ++ [b] }) trailers also
                rfl count (by simp only [counted]; omega) refused rfl
              exact ⟨next, refused', ⟨grown.state, grown.count, Nat.le_of_succ_le grown.bytes⟩, marked⟩

theorem refusal_trailers_grows {d last : ChunkedDecoder} {s : Bytes} (trailers : d.state = .trailers)
    (refused : refusal d s = some last) : Grown d last := by
  obtain ⟨next, same, grown, -⟩ := refusal_trailers_mono trailers trailers rfl (Nat.le_refl _)
    (Nat.le_refl _) refused
  rw [refused, Option.some.injEq] at same
  exact same ▸ grown

theorem refusal_broken {d : ChunkedDecoder} {w z : Bytes}
    (state : d.state = .size ∨ d.state = .trailers) (ordinary : Ordinary w) (broken : Broken z) :
    ∃ last, refusal d (w ++ z) = some last ∧ last.state = d.state := by
  rcases state with size | trailers
  · rcases refusal_size_line (z := z) size ordinary with through | ⟨last, refused, kind, -, -, -⟩
    · rw [through]
      rcases broken with ⟨r, rfl⟩ | ⟨b, r, rfl, notLf⟩
      · exact ⟨_, refusal_size_lf (d := appendLine d w) size r, rfl⟩
      · exact ⟨_, refusal_size_cr (d := appendLine d w) size notLf, rfl⟩
    · exact ⟨last, refused, kind.trans size.symm⟩
  · rcases refusal_trailers_line (z := z) trailers ordinary with
      ⟨through, -⟩ | ⟨last, refused, kind, -, -⟩
    · rw [through]
      have some_ : z ≠ [] := by
        rcases broken with ⟨r, rfl⟩ | ⟨b, r, rfl, -⟩ <;> simp
      have also : (appendTrailer d w).state = .trailers := trailers
      by_cases spent : chunkedMaxTrailerBytes ≤ (appendTrailer d w).trailerBytes
      · exact ⟨_, refusal_trailers_spent also spent some_, also.trans trailers.symm⟩
      · rcases broken with ⟨r, rfl⟩ | ⟨b, r, rfl, notLf⟩
        · exact ⟨_, refusal_trailers_lf also spent r, also.trans trailers.symm⟩
        · exact ⟨_, refusal_trailers_cr also spent notLf, also.trans trailers.symm⟩
    · exact ⟨last, refused, kind.trans trailers.symm⟩

end CkartaChunkedRejection
