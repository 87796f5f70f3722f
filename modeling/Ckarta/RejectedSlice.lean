import Ckarta.ChunkedRejection

/-!
The slices a decoder refuses for good. Stuck is closed under feeding the same slice
again; a decoder that has just refused a slice is stuck on it, unless it would read the
line break at the front of the slice as the end of a line it likes.
-/
namespace CkartaRejectedSlice
open MachineWord PrefixMachine CkartaHttpParser CkartaHttpChunked CkartaChunkedMachine
  CkartaChunkedRejection

def LineFull (d : ChunkedDecoder) : Prop := chunkedMaxLine - 1 ≤ d.line.length

def Spent (d : ChunkedDecoder) : Prop := chunkedMaxTrailerBytes ≤ d.trailerBytes

def toTrailers (d : ChunkedDecoder) : ChunkedDecoder :=
  { d with state := .trailers, chunkRemaining := 0, line := [] }

def emptied (d : ChunkedDecoder) : ChunkedDecoder := { d with line := [] }

/-- From d the rest t is refused, and if the slice begins with its line break the refusal
    leaves something that keeps that line break from ending the body. -/
def Barred (d : ChunkedDecoder) (w t : Bytes) : Prop :=
  ∃ last, refusal d t = some last ∧ (w = [] → Marked last)

inductive Stuck (d : ChunkedDecoder) (s : Bytes) : Prop where
  | crlf (state : d.state = .dataCrlf) (a b : UInt8) (rest : Bytes) (cut : s = a :: b :: rest)
      (other : a ≠ cr ∨ b ≠ lf) : Stuck d s
  | data (state : d.state = .dataState) (nonempty : s ≠ []) (full : overflows d s.length) : Stuck d s
  | lineFull (state : d.state = .size ∨ d.state = .trailers) (full : LineFull d) (b : UInt8)
      (rest : Bytes) (cut : s = b :: rest) (notCr : b ≠ cr) (notLf : b ≠ lf) : Stuck d s
  | spent (state : d.state = .trailers) (spent : Spent d) (nonempty : s ≠ []) : Stuck d s
  | broken (state : d.state = .size ∨ d.state = .trailers) (w z : Bytes) (cut : s = w ++ z)
      (ordinary : Ordinary w) (broken : Broken z) : Stuck d s
  | sizeBad (state : d.state = .size) (w t : Bytes) (cut : s = w ++ cr :: lf :: t)
      (ordinary : Ordinary w) (bad : parseChunkSize (d.line ++ w) = none) : Stuck d s
  | sizeZero (state : d.state = .size) (w t : Bytes) (cut : s = w ++ cr :: lf :: t)
      (ordinary : Ordinary w) (zero : parseChunkSize (d.line ++ w) = some 0)
      (after : Barred (toTrailers d) w t) : Stuck d s
  | trailerBad (state : d.state = .trailers) (w t : Bytes) (cut : s = w ++ cr :: lf :: t)
      (ordinary : Ordinary w) (line : d.line ++ w ≠ [])
      (bad : d.trailerCount ≥ chunkedMaxTrailers ∨ validTrailerField (d.line ++ w) = false) : Stuck d s
  | trailerNext (state : d.state = .trailers) (w t : Bytes) (cut : s = w ++ cr :: lf :: t)
      (ordinary : Ordinary w) (line : d.line ++ w ≠ []) (after : Barred (emptied d) w t) : Stuck d s

theorem starts_ordinary {w z : Bytes} (ordinary : Ordinary w) (some_ : w ≠ []) :
    ∃ b rest, w ++ z = b :: rest ∧ b ≠ cr ∧ b ≠ lf := by
  obtain ⟨b, w, rfl⟩ := List.exists_cons_of_ne_nil some_
  obtain ⟨notCr, notLf, -⟩ := ordinary_cons ordinary
  exact ⟨b, w ++ z, rfl, notCr, notLf⟩

theorem stuck_full {d : ChunkedDecoder} {w z : Bytes} (state : d.state = .size ∨ d.state = .trailers)
    (full : LineFull d) (ordinary : Ordinary w) (some_ : w ≠ []) : Stuck d (w ++ z) := by
  obtain ⟨b, rest, cut, notCr, notLf⟩ := starts_ordinary (z := z) ordinary some_
  exact .lineFull state full b rest cut notCr notLf

theorem refusal_size_first {d : ChunkedDecoder} {w t : Bytes} (size : d.state = .size)
    (ordinary : Ordinary w) :
    (∃ last, refusal d (w ++ cr :: lf :: t) = some last ∧ last.state = .size ∧ w ≠ [] ∧ LineFull last) ∨
    (parseChunkSize (d.line ++ w) = none ∧
      refusal d (w ++ cr :: lf :: t) = some (appendLine d w)) ∨
    ∃ n, parseChunkSize (d.line ++ w) = some n ∧ refusal d (w ++ cr :: lf :: t) =
      refusal { d with
        chunkRemaining := n, line := []
        state := if n = 0 then .trailers else .dataState } t := by
  rcases refusal_size_line (z := cr :: lf :: t) size ordinary with through | full
  · right
    rw [through]
    cases parsed : parseChunkSize (d.line ++ w) with
    | none => exact .inl ⟨rfl, refusal_size_bad (d := appendLine d w) size parsed⟩
    | some n => exact .inr ⟨n, rfl, refusal_size_end (d := appendLine d w) size parsed⟩
  · obtain ⟨last, refused, state, -, some_, long⟩ := full
    exact .inl ⟨last, refused, state, some_, long⟩

theorem refusal_trailers_first {d : ChunkedDecoder} {w t : Bytes} (trailers : d.state = .trailers)
    (ordinary : Ordinary w) :
    (∃ last, refusal d (w ++ cr :: lf :: t) = some last ∧ last.state = .trailers ∧
      (Spent last ∨ (w ≠ [] ∧ LineFull last))) ∨
    (d.line ++ w = [] ∧ refusal d (w ++ cr :: lf :: t) = none) ∨
    (d.line ++ w ≠ [] ∧
      (d.trailerCount ≥ chunkedMaxTrailers ∨ validTrailerField (d.line ++ w) = false) ∧
      refusal d (w ++ cr :: lf :: t) = some (counted (counted (appendTrailer d w)))) ∨
    (d.line ++ w ≠ [] ∧
      ¬ (d.trailerCount ≥ chunkedMaxTrailers ∨ validTrailerField (d.line ++ w) = false) ∧
      refusal d (w ++ cr :: lf :: t) = refusal (endTrailerLine (appendTrailer d w)) t) := by
  rcases refusal_trailers_line (z := cr :: lf :: t) trailers ordinary with
    ⟨through, -⟩ | ⟨last, refused, kind, some_, limit⟩
  · rw [through]
    have also : (appendTrailer d w).state = .trailers := trailers
    by_cases spent : chunkedMaxTrailerBytes ≤ (appendTrailer d w).trailerBytes
    · exact .inl ⟨_, refusal_trailers_spent also spent (by simp), also, .inl spent⟩
    · right
      by_cases line : d.line ++ w = []
      · exact .inl ⟨line, refusal_trailers_empty also spent line⟩
      · right
        rw [refusal_trailers_end also spent line]
        split
        · rename_i bad
          refine .inl ⟨line, ?_, rfl⟩
          exact bad.imp id eq_false_of_ne_true
        · rename_i fine
          refine .inr ⟨line, fun bad => fine ?_, rfl⟩
          exact bad.imp id ne_true_of_eq_false
  · exact .inl ⟨last, refused, kind, limit.imp id fun full => ⟨some_, full⟩⟩

theorem barred_mono {d e : ChunkedDecoder} {w t : Bytes} (barred : Barred d w t)
    (trailers : d.state = .trailers) (also : e.state = .trailers) (line : e.line = d.line)
    (count : d.trailerCount ≤ e.trailerCount) (bytes : d.trailerBytes ≤ e.trailerBytes) :
    Barred e w t := by
  obtain ⟨last, refused, marked⟩ := barred
  obtain ⟨next, refused', -, marks⟩ := refusal_trailers_mono trailers also line count bytes refused
  exact ⟨next, refused', fun empty => marks (marked empty)⟩

theorem barred_stuck {d last : ChunkedDecoder} {w t : Bytes} (trailers : d.state = .trailers)
    (empty : d.line = []) (ordinary : Ordinary w) (refused : refusal d t = some last)
    (marked : w = [] → Marked last) : Stuck last (w ++ cr :: lf :: t) := by
  have grown := refusal_trailers_grows trailers refused
  by_cases spent : Spent last
  · exact .spent grown.state spent (by simp)
  · have line : last.line ++ w ≠ [] := by
      intro none
      obtain ⟨noLine, noByte⟩ := List.append_eq_nil_iff.mp none
      rcases marked noByte with held | full
      · exact held noLine
      · exact spent full
    exact .trailerNext grown.state w t rfl ordinary line
      (barred_mono ⟨last, refused, marked⟩ trailers grown.state empty.symm grown.count grown.bytes)

theorem stuck_line {d : ChunkedDecoder} {w t : Bytes} (trailers : d.state = .trailers)
    (ordinary : Ordinary w) (line : d.line ++ w ≠ [])
    (bad : d.trailerCount ≥ chunkedMaxTrailers ∨ validTrailerField (d.line ++ w) = false) :
    Stuck (counted (counted (appendTrailer d w))) (w ++ cr :: lf :: t) :=
  .trailerBad trailers w t rfl ordinary (fun none => line (List.append_eq_nil_iff.mp none).1)
    (bad.imp id validTrailerField_again)

theorem stuck_refusal {d : ChunkedDecoder} {s : Bytes} (stuck : Stuck d s) :
    ∃ last, refusal d s = some last ∧ Stuck last s := by
  cases stuck with
  | crlf state a b rest cut other =>
    subst cut
    exact ⟨d, refusal_crlf_other state other, .crlf state a b rest rfl other⟩
  | data state nonempty full =>
    exact ⟨d, (refusal_data state nonempty).1 full, .data state nonempty full⟩
  | lineFull state full b rest cut notCr notLf =>
    subst cut
    rcases state with size | trailers
    · exact ⟨d, (refusal_size_byte size notCr notLf).trans (if_pos full),
        .lineFull (.inl size) full b rest rfl notCr notLf⟩
    · by_cases spent : Spent d
      · exact ⟨d, refusal_trailers_spent trailers spent (by simp), .spent trailers spent (by simp)⟩
      · exact ⟨counted d, (refusal_trailers_byte trailers spent notCr notLf).trans (if_pos full),
          .lineFull (.inr trailers) full b rest rfl notCr notLf⟩
  | spent state spent nonempty =>
    exact ⟨d, refusal_trailers_spent state spent nonempty, .spent state spent nonempty⟩
  | broken state w z cut ordinary broken =>
    subst cut
    obtain ⟨last, refused, kept⟩ := refusal_broken state ordinary broken
    exact ⟨last, refused, .broken (by rw [kept]; exact state) w z rfl ordinary broken⟩
  | sizeBad state w t cut ordinary bad =>
    subst cut
    rcases refusal_size_first (t := t) state ordinary with
      ⟨last, refused, kind, some_, full⟩ | ⟨-, refused⟩ | ⟨n, parsed, -⟩
    · exact ⟨last, refused, stuck_full (.inl kind) full ordinary some_⟩
    · exact ⟨_, refused, .sizeBad state w t rfl ordinary (parseChunkSize_again bad)⟩
    · simp [bad] at parsed
  | sizeZero state w t cut ordinary zero after =>
    subst cut
    rcases refusal_size_first (t := t) state ordinary with
      ⟨last, refused, kind, some_, full⟩ | ⟨bad, -⟩ | ⟨n, parsed, refused⟩
    · exact ⟨last, refused, stuck_full (.inl kind) full ordinary some_⟩
    · simp [zero] at bad
    · rw [zero, Option.some.injEq] at parsed
      subst parsed
      obtain ⟨last, barred, marked⟩ := after
      exact ⟨last, refused.trans barred, barred_stuck (d := toTrailers d) rfl rfl ordinary barred marked⟩
  | trailerBad state w t cut ordinary line bad =>
    subst cut
    rcases refusal_trailers_first (t := t) state ordinary with
      ⟨last, refused, kind, limit⟩ | ⟨none, -⟩ | ⟨-, -, refused⟩ | ⟨-, fine, -⟩
    · exact ⟨last, refused, limit.elim (fun spent => .spent kind spent (by simp))
        fun full => stuck_full (.inr kind) full.2 ordinary full.1⟩
    · exact absurd none line
    · exact ⟨_, refused, stuck_line state ordinary line bad⟩
    · exact absurd bad fine
  | trailerNext state w t cut ordinary line after =>
    subst cut
    rcases refusal_trailers_first (t := t) state ordinary with
      ⟨last, refused, kind, limit⟩ | ⟨none, -⟩ | ⟨-, bad, refused⟩ | ⟨-, -, refused⟩
    · exact ⟨last, refused, limit.elim (fun spent => .spent kind spent (by simp))
        fun full => stuck_full (.inr kind) full.2 ordinary full.1⟩
    · exact absurd none line
    · exact ⟨_, refused, stuck_line state ordinary line bad⟩
    · obtain ⟨last, barred, marked⟩ := barred_mono (e := endTrailerLine (appendTrailer d w)) after
        state state rfl (by simp [emptied, endTrailerLine, appendTrailer])
        (by simp only [emptied, endTrailerLine, appendTrailer]; omega)
      exact ⟨last, refused.trans barred, barred_stuck (d := endTrailerLine (appendTrailer d w)) state rfl
        ordinary barred marked⟩

/-- The decoder takes the line break at the front of the slice: as the end of a chunk size
    that announces data, or as the end of the body. -/
def Revives (d : ChunkedDecoder) (s : Bytes) : Prop :=
  ∃ t, s = cr :: lf :: t ∧
    ((d.state = .size ∧ ∃ n, n ≠ 0 ∧ parseChunkSize d.line = some n) ∨
      (d.state = .trailers ∧ d.line = [] ∧ ¬ Spent d))

theorem marked_of_safe {d : ChunkedDecoder} {w t : Bytes} (trailers : d.state = .trailers)
    (safe : ¬ Revives d (w ++ cr :: lf :: t)) : w = [] → Marked d := by
  rintro rfl
  by_contra unmarked
  simp only [Marked, not_or, ne_eq, not_not] at unmarked
  exact safe ⟨t, rfl, .inr ⟨trailers, unmarked.1, unmarked.2⟩⟩

theorem refusal_stuck_data {d last : ChunkedDecoder} {s t : Bytes} (data : d.state = .dataState)
    (refused : refusal d t = some last) (within : t.length ≤ s.length) : Stuck last s := by
  have nonempty : t ≠ [] := by
    rintro rfl
    simp [refusal_nil] at refused
  by_cases full : overflows d t.length
  · rw [(refusal_data data nonempty).1 full, Option.some.injEq] at refused
    subst refused
    refine .data data ?_ (overflows_mono within full)
    rintro rfl
    exact nonempty (List.length_eq_zero_iff.mp (Nat.le_zero.mp within))
  · simp [(refusal_data data nonempty).2 full] at refused

theorem refusal_stuck_size {d last : ChunkedDecoder} {s : Bytes} (size : d.state = .size)
    (refused : refusal d s = some last) (safe : ¬ Revives last s) : Stuck last s := by
  obtain ⟨w, z, rfl, ordinary, kind⟩ := first_line s
  rcases kind with rfl | rfl | broken | ⟨t, rfl⟩
  · rcases refusal_size_line (z := []) size ordinary with
      through | ⟨full, same, state, -, some_, long⟩
    · rw [through, refusal_nil] at refused
      simp at refused
    · rw [same, Option.some.injEq] at refused
      exact refused ▸ stuck_full (.inl state) long ordinary some_
  · rcases refusal_size_line (z := [cr]) size ordinary with
      through | ⟨full, same, state, -, some_, long⟩
    · rw [through, refusal_size_lone (d := appendLine d w) size] at refused
      simp at refused
    · rw [same, Option.some.injEq] at refused
      exact refused ▸ stuck_full (.inl state) long ordinary some_
  · obtain ⟨next, same, kept⟩ := refusal_broken (.inl size) ordinary broken
    rw [same, Option.some.injEq] at refused
    exact .broken (.inl (by rw [← refused, kept, size])) w z rfl ordinary broken
  · rcases refusal_size_first (t := t) size ordinary with
      ⟨full, same, state, some_, long⟩ | ⟨bad, same⟩ | ⟨n, parsed, same⟩
    · rw [same, Option.some.injEq] at refused
      exact refused ▸ stuck_full (.inl state) long ordinary some_
    · rw [same, Option.some.injEq] at refused
      exact refused ▸ .sizeBad size w t rfl ordinary (parseChunkSize_again bad)
    · rw [same] at refused
      by_cases zero : n = 0
      · subst zero
        have grown := refusal_trailers_grows (d := toTrailers d) rfl refused
        exact barred_stuck (d := toTrailers d) rfl rfl ordinary refused (marked_of_safe grown.state safe)
      · exact refusal_stuck_data (by simp [zero]) refused (by simp; omega)

theorem refusal_stuck_trailers {d last : ChunkedDecoder} {s : Bytes} (trailers : d.state = .trailers)
    (refused : refusal d s = some last) (safe : ¬ Revives last s) : Stuck last s := by
  have grown := refusal_trailers_grows trailers refused
  obtain ⟨w, z, rfl, ordinary, kind⟩ := first_line s
  have limited : ∀ {full : ChunkedDecoder} {z : Bytes}, full.state = .trailers → w ≠ [] →
      (chunkedMaxTrailerBytes ≤ full.trailerBytes ∨ chunkedMaxLine - 1 ≤ full.line.length) →
      Stuck full (w ++ z) := by
    intro full z state some_ limit
    rcases limit with spent | long
    · exact .spent state spent (by simp [some_])
    · exact stuck_full (.inr state) long ordinary some_
  rcases kind with rfl | rfl | broken | ⟨t, rfl⟩
  · rcases refusal_trailers_line (z := []) trailers ordinary with
      ⟨through, -⟩ | ⟨full, same, state, some_, limit⟩
    · rw [through, refusal_nil] at refused
      simp at refused
    · rw [same, Option.some.injEq] at refused
      exact refused ▸ limited state some_ limit
  · rcases refusal_trailers_line (z := [cr]) trailers ordinary with
      ⟨through, -⟩ | ⟨full, same, state, some_, limit⟩
    · have also : (appendTrailer d w).state = .trailers := trailers
      rcases refusal_trailers_lone also with open_ | spent
      · rw [through, open_] at refused
        simp at refused
      · rw [through, refusal_trailers_spent also spent (by simp), Option.some.injEq] at refused
        exact refused ▸ .spent also spent (by simp)
    · rw [same, Option.some.injEq] at refused
      exact refused ▸ limited state some_ limit
  · exact .broken (.inr grown.state) w z rfl ordinary broken
  · rcases refusal_trailers_first (t := t) trailers ordinary with
      ⟨full, same, state, limit⟩ | ⟨-, none⟩ | ⟨line, bad, same⟩ | ⟨-, -, same⟩
    · rw [same, Option.some.injEq] at refused
      refine refused ▸ limit.elim (fun spent => .spent state spent (by simp)) fun long => ?_
      exact stuck_full (.inr state) long.2 ordinary long.1
    · simp [none] at refused
    · rw [same, Option.some.injEq] at refused
      exact refused ▸ stuck_line trailers ordinary line bad
    · rw [same] at refused
      exact barred_stuck (d := endTrailerLine (appendTrailer d w)) trailers rfl ordinary refused
        (marked_of_safe grown.state safe)

theorem marked_of_limit {d : ChunkedDecoder} (limit : Spent d ∨ LineFull d) : Marked d := by
  rcases limit with spent | full
  · exact .inr spent
  · refine .inl ?_
    intro none
    simp [LineFull, none, chunkedMaxLine] at full

theorem barred_line {d : ChunkedDecoder} {v z : Bytes} (trailers : d.state = .trailers)
    (empty : d.line = []) (ordinary : Ordinary v) (some_ : v ≠ [])
    (stops : Broken z ∨ chunkedMaxLine - 1 < v.length) : Barred d [] (v ++ z) := by
  rcases refusal_trailers_line (z := z) trailers ordinary with
    ⟨through, short⟩ | ⟨last, refused, state, -, limit⟩
  · rcases stops with broken | long
    · have also : (appendTrailer d v).state = .trailers := trailers
      have held : (appendTrailer d v).line ≠ [] := by simp [appendTrailer, some_]
      by_cases spent : Spent (appendTrailer d v)
      · have open_ : z ≠ [] := by
          rcases broken with ⟨r, rfl⟩ | ⟨b, r, rfl, -⟩ <;> simp
        exact ⟨_, through.trans (refusal_trailers_spent also spent open_), fun _ => .inr spent⟩
      · rcases broken with ⟨r, rfl⟩ | ⟨b, r, rfl, notLf⟩
        · exact ⟨_, through.trans (refusal_trailers_lf also spent r), fun _ => .inl held⟩
        · exact ⟨_, through.trans (refusal_trailers_cr also spent notLf), fun _ => .inl held⟩
    · have short := short some_
      rw [empty, List.length_nil] at short
      omega
  · exact ⟨last, refused, fun _ => marked_of_limit limit⟩

theorem stuck_behind {d : ChunkedDecoder} {v z : Bytes} (size : d.state = .size)
    (ordinary : Ordinary v) (some_ : d.line ≠ [] → v ≠ [])
    (stops : Broken z ∨ chunkedMaxLine - 1 < v.length) (safe : ¬ Revives d (cr :: lf :: (v ++ z))) :
    Stuck d (cr :: lf :: (v ++ z)) := by
  cases parsed : parseChunkSize d.line with
  | none => exact .sizeBad size [] (v ++ z) rfl (by simp [Ordinary]) (by simpa using parsed)
  | some n =>
    by_cases zero : n = 0
    · subst zero
      have held : d.line ≠ [] := by
        intro none
        rw [none] at parsed
        simp [parseChunkSize, parseChunkDigits] at parsed
      exact .sizeZero size [] (v ++ z) rfl (by simp [Ordinary]) (by simpa using parsed)
        (barred_line rfl rfl ordinary (some_ held) stops)
    · exact absurd ⟨v ++ z, rfl, .inl ⟨size, n, zero, parsed⟩⟩ safe

theorem stuck_two_lines {d last : ChunkedDecoder} {v u : Bytes} (trailers : d.state = .trailers)
    (empty : d.line = []) (ordinary : Ordinary v) (some_ : v ≠ []) (refused : refusal d u = some last)
    (marked : Marked last) : Stuck last (cr :: lf :: (v ++ cr :: lf :: u)) := by
  have grown := refusal_trailers_grows trailers refused
  by_cases spent : Spent last
  · exact .spent grown.state spent (by simp)
  · have held : last.line ≠ [] := marked.resolve_right spent
    have also : (emptied last).state = .trailers := grown.state
    refine .trailerNext grown.state [] (v ++ cr :: lf :: u) rfl (by simp [Ordinary]) (by simpa using held) ?_
    rcases refusal_trailers_first (t := u) also ordinary with
      ⟨full, same, -, limit⟩ | ⟨none, -⟩ | ⟨-, -, same⟩ | ⟨-, -, same⟩
    · exact ⟨full, same, fun _ => marked_of_limit (limit.imp id And.right)⟩
    · exact absurd (List.append_eq_nil_iff.mp none).2 some_
    · exact ⟨_, same, fun _ => .inl (by simp [counted, appendTrailer, some_])⟩
    · have count := grown.count
      have bytes := grown.bytes
      obtain ⟨next, refused', -, marks⟩ := refusal_trailers_mono
        (e := endTrailerLine (appendTrailer (emptied last) v)) trailers also empty.symm
        (by simp only [endTrailerLine, appendTrailer, emptied]; omega)
        (by simp only [endTrailerLine, appendTrailer, emptied]; omega) refused
      exact ⟨next, same.trans refused', fun _ => marks marked⟩

theorem refusal_stuck_crlf {d last : ChunkedDecoder} {t : Bytes} (size : d.state = .size)
    (empty : d.line = []) (refused : refusal d t = some last)
    (safe : ¬ Revives last (cr :: lf :: t)) : Stuck last (cr :: lf :: t) := by
  obtain ⟨v, z, rfl, ordinary, kind⟩ := first_line t
  rcases refusal_size_line (z := z) size ordinary with
    through | ⟨full, same, state, long, some_, -⟩
  · rw [through] at refused
    have also : (appendLine d v).state = .size := size
    have line : (appendLine d v).line = v := by simp [appendLine, empty]
    have behind : Broken z → refusal (appendLine d v) z = some (appendLine d v) := by
      rintro (⟨r, rfl⟩ | ⟨b, r, rfl, notLf⟩)
      · exact refusal_size_lf also r
      · exact refusal_size_cr also notLf
    rcases kind with rfl | rfl | broken | ⟨u, rfl⟩
    · simp [refusal_nil] at refused
    · simp [refusal_size_lone also] at refused
    · rw [behind broken, Option.some.injEq] at refused
      subst refused
      exact stuck_behind also ordinary (by rw [line]; exact id) (.inl broken) safe
    · cases parsed : parseChunkSize (appendLine d v).line with
      | none =>
        rw [refusal_size_bad also parsed, Option.some.injEq] at refused
        subst refused
        exact .sizeBad also [] _ rfl (by simp [Ordinary]) (by simpa using parsed)
      | some n =>
        rw [refusal_size_end also parsed] at refused
        by_cases zero : n = 0
        · subst zero
          have held : v ≠ [] := by
            rintro rfl
            rw [line] at parsed
            simp [parseChunkSize, parseChunkDigits] at parsed
          have grown := refusal_trailers_grows (d := toTrailers (appendLine d v)) rfl refused
          exact stuck_two_lines (d := toTrailers (appendLine d v)) rfl rfl ordinary held refused
            (marked_of_safe (w := []) grown.state safe rfl)
        · exact refusal_stuck_data (by simp [zero]) refused (by simp; omega)
  · rw [same, Option.some.injEq] at refused
    subst refused
    rw [empty, List.length_nil, Nat.zero_add] at long
    exact stuck_behind state ordinary (fun _ => some_) (.inr long) safe

/-- A decoder that has just refused a slice is stuck on it, unless the slice revives it. -/
theorem refusal_stuck {d last : ChunkedDecoder} {s : Bytes} (sound : Sound d) (live : d.state ≠ .done)
    (refused : refusal d s = some last) (safe : ¬ Revives last s) : Stuck last s := by
  cases state : d.state with
  | size => exact refusal_stuck_size state refused safe
  | dataState => exact refusal_stuck_data state refused (Nat.le_refl _)
  | dataCrlf =>
    rcases s with _ | ⟨a, _ | ⟨b, rest⟩⟩
    · simp [refusal_nil] at refused
    · simp [refusal_crlf_short state] at refused
    · by_cases ends : a = cr ∧ b = lf
      · obtain ⟨rfl, rfl⟩ := ends
        rw [refusal_crlf_end state] at refused
        exact refusal_stuck_crlf (d := { d with state := .size }) rfl
          (sound.line_clear (.inr state)) refused safe
      · have other : a ≠ cr ∨ b ≠ lf := by
          by_contra both
          simp only [not_or, ne_eq, not_not] at both
          exact ends both
        rw [refusal_crlf_other state other, Option.some.injEq] at refused
        exact refused ▸ .crlf state a b rest rfl other
  | trailers => exact refusal_stuck_trailers state refused safe
  | done => exact absurd state live

end CkartaRejectedSlice
