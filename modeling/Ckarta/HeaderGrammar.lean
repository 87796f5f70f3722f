import Mathlib.Data.List.Forall2
import Ckarta.HeaderFraming
import Ckarta.InputMachine

/-!
What the header parser accepts, line by line: the block up to the first CRLF CRLF is a
request line and field lines of a plain grammar, and the request's spans are the parts of
these lines.
-/
namespace CkartaHeaderGrammar
open MachineWord CkartaHttpParser CkartaHeaderBlock CkartaHeaderFraming CkartaInputMachine

/-- k is the end of the first CRLF CRLF of s. -/
structure FirstEnd (s : Bytes) (k : Nat) : Prop where
  within : k ≤ s.length
  ends : ∃ u, s.take k = u ++ crlfCrlf
  first : ∀ j < k, ¬ ∃ u, s.take j = u ++ crlfCrlf

def targetByte (b : UInt8) : Bool := decide (32 < b) && b != 127

structure RequestLine (line method target version : Bytes) : Prop where
  parts : ∃ gap gap', line = method ++ gap ++ target ++ gap' ++ version ∧
    gap ≠ [] ∧ gap.all isOws = true ∧ gap' ≠ [] ∧ gap'.all isOws = true
  methodSize : 1 ≤ method.length ∧ method.length ≤ 32
  methodBytes : method.all isTchar = true
  targetSize : 1 ≤ target.length ∧ target.length ≤ 8192
  targetBytes : target.all targetByte = true
  literal : version = ascii "HTTP/1.1"

def Trimmed (text value : Bytes) : Prop :=
  ∃ before after, text = before ++ value ++ after ∧ before.all isOws = true ∧ after.all isOws = true ∧
    (∀ b ∈ value.head?, isOws b = false) ∧ ∀ b ∈ value.getLast?, isOws b = false

structure FieldLine (line : Bytes) (field : HttpHeader) : Prop where
  parts : ∃ text, line = field.name ++ colon :: text ∧ Trimmed text field.value
  nameSize : 1 ≤ field.name.length ∧ field.name.length ≤ 256
  nameBytes : field.name.all isTchar = true
  valueSize : field.value.length ≤ 16384

def BlockLines (block method target version : Bytes) (fields : List HttpHeader) : Prop :=
  ∃ line lines, crlfLines block = line :: lines ++ [[], []] ∧ RequestLine line method target version ∧
    List.Forall₂ FieldLine lines fields ∧ lines.length ≤ 128

def FramingAccepted (fields : List HttpHeader) : Prop :=
  ∃ contentLength transferEncoding close, parseContentLengthHeaders fields = some contentLength ∧
    parseTransferEncodingHeaders fields = some transferEncoding ∧
    parseConnectionHeaders fields = some close ∧
    (transferEncoding.1 = true → transferEncoding.2 = true)

theorem isTchar_solid {b : UInt8} (tchar : isTchar b = true) : isOws b = false ∧ b ≠ colon := by
  constructor
  · cases ows : isOws b with
    | false => rfl
    | true =>
      simp only [isOws, Bool.or_eq_true, beq_iff_eq] at ows
      rcases ows with rfl | rfl <;> exact absurd tchar (by decide)
  · rintro rfl
    exact absurd tchar (by decide)

theorem targetByte_solid {b : UInt8} (target : targetByte b = true) : isOws b = false := by
  cases ows : isOws b with
  | false => rfl
  | true =>
    simp only [isOws, Bool.or_eq_true, beq_iff_eq] at ows
    rcases ows with rfl | rfl <;> exact absurd target (by decide)

theorem targetBytes_eq (target : Bytes) :
    (target.any fun b => b ≤ 32 || b == 127) = false ↔ target.all targetByte = true := by
  simp only [List.any_eq_false, List.all_eq_true, targetByte, Bool.or_eq_true, decide_eq_true_eq,
    beq_iff_eq, not_or, Bool.and_eq_true, bne_iff_ne, UInt8.not_le]

theorem cut_while {p : UInt8 → Bool} {a b : Bytes} (inside : ∀ x ∈ a, p x = true)
    (stop : ∀ x ∈ b.head?, p x = false) : (a ++ b).takeWhile p = a ∧ (a ++ b).dropWhile p = b := by
  have front : b.takeWhile p = [] ∧ b.dropWhile p = b := by
    cases b with
    | nil => exact ⟨rfl, rfl⟩
    | cons x b => simp [stop x rfl]
  rw [List.takeWhile_append_of_pos inside, List.dropWhile_append_of_pos inside, front.1, front.2]
  exact ⟨List.append_nil a, rfl⟩

theorem dropWhile_head {p : UInt8 → Bool} (s : Bytes) : ∀ x ∈ (s.dropWhile p).head?, p x = false := by
  intro x member
  have found := List.head?_dropWhile_not p s
  rw [Option.mem_def.mp member] at found
  simpa using found

theorem drop_takeWhile (p : UInt8 → Bool) (s : Bytes) : s.drop (s.takeWhile p).length = s.dropWhile p := by
  conv_lhs => arg 2; rw [← List.takeWhile_append_dropWhile (p := p) (l := s)]
  exact List.drop_left

theorem takeWhile_nonempty {p : UInt8 → Bool} {s : Bytes} (starts : ∀ x ∈ s.head?, p x = true)
    (some : s ≠ []) : s.takeWhile p ≠ [] := by
  cases s with
  | nil => contradiction
  | cons b s => simp [starts b rfl]

theorem word_cut (s : Bytes) :
    s = (s.takeWhile fun b => !isOws b) ++ s.dropWhile (fun b => !isOws b) ∧
      ∀ x ∈ (s.dropWhile fun b => !isOws b).head?, isOws x = true := by
  refine ⟨(List.takeWhile_append_dropWhile).symm, ?_⟩
  intro x member
  simpa using dropWhile_head s x member

theorem parseRequestLine_sound {line method target version : Bytes}
    (parsed : parseRequestLine line = some (method, target, version)) :
    RequestLine line method target version := by
  simp only [parseRequestLine, drop_takeWhile] at parsed
  obtain ⟨whole, restHead⟩ := word_cut line
  generalize (line.takeWhile fun b => !isOws b) = m at parsed whole
  generalize (line.dropWhile fun b => !isOws b) = rest at parsed whole restHead
  obtain ⟨afterWhole, tailHead⟩ := word_cut (rest.dropWhile isOws)
  generalize (List.takeWhile (fun b => !isOws b) (rest.dropWhile isOws)) = t at parsed afterWhole
  generalize (List.dropWhile (fun b => !isOws b) (rest.dropWhile isOws)) = tail at parsed afterWhole tailHead
  split at parsed
  · cases parsed
  · rename_i size
    simp only [not_or] at size
    split at parsed
    · cases parsed
    · rename_i tchars
      rw [not_not] at tchars
      split at parsed
      · cases parsed
      · rename_i targetSize
        simp only [not_or] at targetSize
        split at parsed
        · cases parsed
        · rename_i targetBytes
          split at parsed
          · cases parsed
          · rename_i literal
            rw [not_not] at literal
            simp only [Option.some.injEq, Prod.mk.injEq] at parsed
            obtain ⟨rfl, rfl, rfl⟩ := parsed
            have spelled : line = m ++ rest.takeWhile isOws ++ t ++ tail.takeWhile isOws ++
                tail.dropWhile isOws := by
              calc line = m ++ rest := whole
                _ = m ++ (rest.takeWhile isOws ++ rest.dropWhile isOws) := by
                  rw [List.takeWhile_append_dropWhile]
                _ = m ++ (rest.takeWhile isOws ++ (t ++ tail)) := by rw [← afterWhole]
                _ = m ++ (rest.takeWhile isOws ++ (t ++ (tail.takeWhile isOws ++ tail.dropWhile isOws))) := by
                  rw [List.takeWhile_append_dropWhile]
                _ = _ := by simp only [List.append_assoc]
            have restSome : rest ≠ [] := by
              intro empty
              rw [whole, empty, List.append_nil] at size
              exact size.2.2 rfl
            have tailSome : tail ≠ [] := by
              intro empty
              rw [empty] at literal
              exact absurd literal (by decide)
            refine ⟨⟨rest.takeWhile isOws, tail.takeWhile isOws, spelled, takeWhile_nonempty restHead restSome,
              List.all_takeWhile, takeWhile_nonempty tailHead tailSome, List.all_takeWhile⟩, ?_, tchars, ?_,
              (targetBytes_eq _).mp (Bool.not_eq_true _ ▸ targetBytes), literal⟩
            · simp only [maxMethodBytes] at size
              omega
            · simp only [maxTargetBytes] at targetSize
              omega

theorem parseRequestLine_complete {line method target version : Bytes}
    (requestLine : RequestLine line method target version) :
    parseRequestLine line = some (method, target, version) := by
  obtain ⟨⟨gap, gap', rfl, some, ows, some', ows'⟩, methodSize, tchars, targetSize, targets, rfl⟩ := requestLine
  rw [List.append_assoc, List.append_assoc, List.append_assoc]
  have gapHead : ∀ x ∈ gap.head?, isOws x = true := fun x member =>
    List.all_eq_true.mp ows x (List.mem_of_mem_head? member)
  have gapHead' : ∀ x ∈ gap'.head?, isOws x = true := fun x member =>
    List.all_eq_true.mp ows' x (List.mem_of_mem_head? member)
  have first := cut_while (p := fun b => !isOws b) (a := method) (b := gap ++ (target ++ (gap' ++ ascii "HTTP/1.1")))
    (fun x inside => by simp [(isTchar_solid (List.all_eq_true.mp tchars x inside)).1])
    (fun x member => by
      rw [List.head?_append_of_ne_nil _ some] at member
      simp [gapHead x member])
  have second := cut_while (p := isOws) (a := gap) (b := target ++ (gap' ++ ascii "HTTP/1.1"))
    (List.all_eq_true.mp ows) (fun x member => by
      have nonempty : target ≠ [] := fun empty => by simp [empty] at targetSize
      rw [List.head?_append_of_ne_nil _ nonempty] at member
      exact targetByte_solid (List.all_eq_true.mp targets x (List.mem_of_mem_head? member)))
  have third := cut_while (p := fun b => !isOws b) (a := target) (b := gap' ++ ascii "HTTP/1.1")
    (fun x inside => by simp [targetByte_solid (List.all_eq_true.mp targets x inside)])
    (fun x member => by
      rw [List.head?_append_of_ne_nil _ some'] at member
      simp [gapHead' x member])
  have literal : (ascii "HTTP/1.1").head? = Option.some 72 := by decide
  have fourth := cut_while (p := isOws) (a := gap') (b := ascii "HTTP/1.1") (List.all_eq_true.mp ows')
    (fun x member => by
      rw [literal, Option.mem_some_iff] at member
      rw [← member]
      decide)
  have methodFits : ¬ (method.length = 0 ∨ method.length > maxMethodBytes ∨
      method.length = (method ++ (gap ++ (target ++ (gap' ++ ascii "HTTP/1.1")))).length) := by
    have positive := List.length_pos_iff.mpr some
    simp only [maxMethodBytes, List.length_append]
    omega
  have targetFits : ¬ (target.length = 0 ∨ target.length > maxTargetBytes) := by
    simp only [maxTargetBytes]
    omega
  simp only [parseRequestLine, List.drop_left, first.1, second.2, third.1, fourth.2,
    if_neg methodFits, if_neg targetFits, tchars, not_true_eq_false, ↓reduceIte,
    (targetBytes_eq target).mpr targets, Bool.false_eq_true, ne_eq]

theorem parseRequestLine_iff {line method target version : Bytes} :
    parseRequestLine line = some (method, target, version) ↔ RequestLine line method target version :=
  ⟨parseRequestLine_sound, parseRequestLine_complete⟩

theorem trimmed_trimOws (text : Bytes) : Trimmed text (trimOws text) := by
  have front := List.takeWhile_append_dropWhile (p := isOws) (l := text)
  have back := List.rdropWhile_append_rtakeWhile (p := isOws) (l := text.dropWhile isOws)
  refine ⟨text.takeWhile isOws, (text.dropWhile isOws).rtakeWhile isOws, ?_, List.all_takeWhile, ?_, ?_, ?_⟩
  · rw [trimOws, List.append_assoc, back, front]
  · rw [List.all_eq_true]
    intro b member
    exact List.mem_rtakeWhile_imp member
  · intro b member
    have inside : trimOws text <+: text.dropWhile isOws := List.rdropWhile_prefix isOws _
    obtain ⟨rest, joined⟩ := inside
    apply dropWhile_head text b
    rw [← joined]
    exact List.mem_head?_append_of_mem_head? member
  · intro b member
    have nonempty : trimOws text ≠ [] := by
      intro empty
      rw [empty] at member
      cases member
    have last := List.rdropWhile_last_not isOws (text.dropWhile isOws) nonempty
    rw [List.getLast?_eq_some_getLast nonempty, Option.mem_def, Option.some.injEq] at member
    rw [← member]
    exact Bool.not_eq_true _ ▸ last

theorem rdropWhile_cut {p : UInt8 → Bool} {a b : Bytes} (behind : b.all p = true)
    (stop : ∀ x ∈ a.getLast?, p x = false) : (a ++ b).rdropWhile p = a := by
  have turned := cut_while (p := p) (a := b.reverse) (b := a.reverse)
    (fun x member => List.all_eq_true.mp behind x (List.mem_reverse.mp member))
    (fun x member => stop x (by rw [← List.head?_reverse]; exact member))
  rw [List.rdropWhile, List.reverse_append, turned.2, List.reverse_reverse]

theorem trimOws_of_trimmed {text value : Bytes} (trimmed : Trimmed text value) : trimOws text = value := by
  obtain ⟨before, after, rfl, ows, ows', head, last⟩ := trimmed
  by_cases empty : value = []
  · subst empty
    have blank : ∀ b ∈ before ++ [] ++ after, isOws b = true := by
      intro b member
      simp only [List.append_nil, List.mem_append] at member
      rcases member with inside | inside
      · exact List.all_eq_true.mp ows b inside
      · exact List.all_eq_true.mp ows' b inside
    rw [trimOws, List.dropWhile_eq_nil_iff.mpr blank]
    rfl
  · have cut := cut_while (p := isOws) (a := before) (b := value ++ after) (List.all_eq_true.mp ows) (by
      intro x member
      rw [List.head?_append_of_ne_nil _ empty] at member
      exact head x member)
    rw [trimOws, List.append_assoc, cut.2]
    exact rdropWhile_cut ows' last

theorem fieldLine_iff {line : Bytes} {field : HttpHeader} :
    (validLine line = true ∧ shortValue line = true ∧ lineField line = field) ↔ FieldLine line field := by
  constructor
  · rintro ⟨valid, short, rfl⟩
    rw [validLine_iff] at valid
    simp only [maxHeaderNameBytes, not_or] at valid
    have small : (lineField line).value.length ≤ 16384 := of_decide_eq_true short
    have whole : line = lineName line ++ line.dropWhile (fun b => b != colon) :=
      List.takeWhile_append_dropWhile.symm
    have rest : line.drop (lineName line).length = line.dropWhile (fun b => b != colon) :=
      drop_takeWhile _ line
    have stop := dropWhile_head (p := fun b => b != colon) line
    cases tail : line.dropWhile (fun b => b != colon) with
    | nil =>
      rw [tail, List.append_nil] at whole
      rw [← whole] at valid
      omega
    | cons b text =>
      rw [tail] at whole rest stop
      have isColon : b = colon := by simpa using stop b rfl
      subst isColon
      have value : (lineField line).value = trimOws text := by
        rw [lineField, ← List.drop_drop, rest]
        rfl
      refine ⟨⟨text, whole, ?_⟩, ?_, valid.2, small⟩
      · rw [value]
        exact trimmed_trimOws text
      · simp only [lineField]
        omega
  · rintro ⟨⟨text, rfl, trimmed⟩, size, tchars, short⟩
    have name : lineName (field.name ++ colon :: text) = field.name :=
      (cut_while (p := fun b => b != colon)
        (fun x inside => by simp [(isTchar_solid (List.all_eq_true.mp tchars x inside)).2])
        (fun x member => by
          simp only [List.head?_cons, Option.mem_def, Option.some.injEq] at member
          simp [← member])).1
    have same : lineField (field.name ++ colon :: text) = field := by
      rw [lineField, name, ← List.drop_drop, List.drop_left, List.drop_one, List.tail_cons,
        trimOws_of_trimmed trimmed]
    refine ⟨?_, ?_, same⟩
    · rw [validLine_iff, name]
      simp only [maxHeaderNameBytes, List.length_append, List.length_cons]
      exact ⟨by omega, tchars⟩
    · rw [shortValue, same, decide_eq_true_eq]
      exact short

theorem crlfLines_join {s line : Bytes} {lines : List Bytes} (cut : crlfLines s = line :: lines) :
    s = line ++ (lines.map (cr :: lf :: ·)).flatten := by
  induction s using crlfLines.induct generalizing line lines with
  | case1 =>
    simp only [crlfLines, List.cons.injEq] at cut
    obtain ⟨rfl, rfl⟩ := cut
    rfl
  | case2 b =>
    simp only [crlfLines, List.cons.injEq] at cut
    obtain ⟨rfl, rfl⟩ := cut
    rfl
  | case3 a b rest ends ih =>
    rw [crlfLines, if_pos ends, List.cons.injEq] at cut
    obtain ⟨rfl, rfl⟩ := cut
    obtain ⟨next, more, split⟩ := List.exists_cons_of_ne_nil (crlfLines_nonempty rest)
    rw [split, ih split, ends.1, ends.2]
    simp
  | case4 a b rest ends ih =>
    obtain ⟨next, more, split⟩ := List.exists_cons_of_ne_nil (crlfLines_nonempty (b :: rest))
    rw [crlfLines, if_neg ends, split, consHead, List.cons.injEq] at cut
    obtain ⟨rfl, rfl⟩ := cut
    rw [ih split]
    rfl

theorem endsHeader_iff {buffer : Bytes} : endsHeader buffer = true ↔ ∃ u, buffer = u ++ crlfCrlf := by
  constructor
  · exact terminated_of_ends
  · rintro ⟨u, rfl⟩
    simp [endsHeader, crlfCrlf]

theorem crlfLines_block (u : Bytes) : crlfLines (u ++ crlfCrlf) = crlfLines u ++ [[], []] := by
  have shape : u ++ crlfCrlf = u ++ cr :: lf :: [cr, lf] := rfl
  rw [shape, crlfLines_cut]
  rfl

theorem earlier_end {u line : Bytes} {lines : List Bytes} (cut : crlfLines u = line :: lines)
    (empty : [] ∈ lines) : ∃ a b, u ++ [cr, lf] = a ++ crlfCrlf ++ b := by
  obtain ⟨front, back, rfl⟩ := List.append_of_mem empty
  have text := crlfLines_join cut
  refine ⟨line ++ (front.map (cr :: lf :: ·)).flatten, ?_⟩
  cases back with
  | nil => exact ⟨[], by rw [text]; simp [crlfCrlf]⟩
  | cons next back =>
    exact ⟨next ++ (back.map (cr :: lf :: ·)).flatten ++ [cr, lf], by rw [text]; simp [crlfCrlf]⟩

theorem block_lines {s : Bytes} {k : Nat} (firstEnd : FirstEnd s k) :
    crlfLines (s.take k) = requestLine (s.take k) :: fieldLines (s.take k) ++ [[], []] := by
  obtain ⟨u, shape⟩ := firstEnd.ends
  have size : (s.take k).length = k := List.length_take_of_le firstEnd.within
  obtain ⟨line, lines, cut⟩ := List.exists_cons_of_ne_nil (crlfLines_nonempty u)
  have solid : ∀ l ∈ lines, (!l.isEmpty) = true := by
    intro l member
    cases l with
    | cons b l => rfl
    | nil =>
      obtain ⟨a, b, early⟩ := earlier_end cut member
      have prefixed : a ++ crlfCrlf <+: s.take k := by
        rw [shape]
        exact ⟨b ++ [cr, lf], by rw [← List.append_assoc, ← early]; simp [crlfCrlf]⟩
      have shorter : (a ++ crlfCrlf).length < k := by
        have sized := congrArg List.length early
        rw [shape] at size
        simp only [List.length_append, crlfCrlf, List.length_cons, List.length_nil] at sized size ⊢
        omega
      have inside := prefixed.trans (List.take_prefix k s)
      exact absurd ⟨a, (List.prefix_iff_eq_take.mp inside).symm⟩ (firstEnd.first _ shorter)
  have all : crlfLines (s.take k) = line :: lines ++ [[], []] := by rw [shape, crlfLines_block, cut]
  have fields : fieldLines (s.take k) = lines := by
    rw [fieldLines, all]
    simp only [List.cons_append, List.tail_cons]
    rw [List.takeWhile_append_of_pos solid]
    simp
  rw [requestLine, fields, all]
  rfl

theorem parserFeedLoop_open {parser : HttpParser} {s : Bytes} {request : HttpRequest} {position : Nat}
    (opened : ∀ j, 0 < j → j ≤ s.length → parser.buffer.length + j ≤ maxHeaderBytes →
      endsHeader (parser.buffer ++ s.take j) = false)
    (fits : parser.buffer.length ≤ maxHeaderBytes) :
    (parserFeedLoop request parser position s).result =
      if parser.buffer.length + s.length ≤ maxHeaderBytes then .incomplete else .headerTooLarge := by
  induction s generalizing parser position with
  | nil => simp [parserFeedLoop, fits]
  | cons b s ih =>
    rw [parserFeedLoop]
    by_cases full : parser.buffer.length ≥ maxHeaderBytes
    · rw [if_pos full, if_neg (by rw [List.length_cons]; omega)]
    · have early : endsHeader (parser.push b).buffer = false := by
        simpa [HttpParser.push] using opened 1 (by omega) (by simp) (by omega)
      have sized : (parser.push b).buffer.length = parser.buffer.length + 1 := by simp [HttpParser.push]
      have later : (parserFeedLoop request (parser.push b) (position + 1) s).result = _ := ih (by
        intro j positive within room
        rw [sized] at room
        simpa [HttpParser.push] using opened (j + 1) (by omega) (by simpa using within) (by omega)) (by omega)
      rw [if_neg full]
      simp only [early, Bool.false_eq_true, ↓reduceIte]
      rw [later, sized, List.length_cons]
      congr 1
      rw [Nat.add_assoc, Nat.add_comm 1]

theorem feed_first {s : Bytes} {k : Nat} (old : HttpRequest) (firstEnd : FirstEnd s k)
    (fits : k ≤ maxHeaderBytes) :
    ckHttpParserFeed ckHttpParserInit s old = finishHeader ⟨s.take k, false⟩ k := by
  have size : (s.take k).length = k := List.length_take_of_le firstEnd.within
  have arrives : HeaderArrives ckHttpParserInit (s.take k) := by
    refine ⟨rfl, ?_, endsHeader_iff.mpr firstEnd.ends, ?_, ?_⟩
    · intro empty
      obtain ⟨u, shape⟩ := firstEnd.ends
      rw [empty] at shape
      exact absurd shape.symm (by simp [crlfCrlf])
    · intro j below positive
      rw [← Bool.not_eq_true]
      intro ends
      rw [size] at below
      refine firstEnd.first j below ?_
      have short : ckHttpParserInit.buffer ++ (s.take k).take j = s.take j := by
        rw [List.take_take, Nat.min_eq_left (Nat.le_of_lt below)]
        rfl
      rw [short] at ends
      exact endsHeader_iff.mp ends
    · simp only [ckHttpParserInit, List.nil_append, size]
      exact fits
  have fed : ckHttpParserFeed ckHttpParserInit (s.take k ++ s.drop k) old = _ := feed_arrives arrives
  rw [List.take_append_drop, size] at fed
  exact fed

theorem firstEnd_exists {s u : Bytes} {j : Nat} (within : j ≤ s.length) (ends : s.take j = u ++ crlfCrlf) :
    ∃ k, k ≤ j ∧ FirstEnd s k := by
  have found : ∃ k, endsHeader (s.take k) = true := ⟨j, endsHeader_iff.mpr ⟨u, ends⟩⟩
  have least : Nat.find found ≤ j := Nat.find_min' found (endsHeader_iff.mpr ⟨u, ends⟩)
  refine ⟨Nat.find found, least, Nat.le_trans least within, endsHeader_iff.mp (Nat.find_spec found), ?_⟩
  intro i below earlier
  exact Nat.find_min found below (endsHeader_iff.mpr earlier)

theorem feed_open {s : Bytes} (old : HttpRequest)
    (absent : ∀ k, k ≤ maxHeaderBytes → ¬ FirstEnd s k) :
    (ckHttpParserFeed ckHttpParserInit s old).result =
      if s.length ≤ maxHeaderBytes then .incomplete else .headerTooLarge := by
  have reads : (parserFeedLoop old ckHttpParserInit 0 s).result = _ := parserFeedLoop_open (by
    intro j positive within room
    rw [← Bool.not_eq_true]
    intro ends
    obtain ⟨u, shape⟩ := endsHeader_iff.mp ends
    obtain ⟨k, le, firstEnd⟩ := firstEnd_exists within shape
    simp only [ckHttpParserInit, List.length_nil, Nat.zero_add] at room
    exact absent k (by omega) firstEnd) (by simp [ckHttpParserInit])
  rw [ckHttpParserFeed, if_neg (by simp [ckHttpParserInit]), reads]
  simp [ckHttpParserInit]

theorem parseFraming_accepts (start : HttpRequest) :
    (parseFraming start).1 = .complete ↔ FramingAccepted start.headers := by
  unfold parseFraming FramingAccepted
  cases lengths : parseContentLengthHeaders start.headers with
  | none => simp
  | some contentLength =>
    cases codings : parseTransferEncodingHeaders start.headers with
    | none => simp
    | some transferEncoding =>
      cases options : parseConnectionHeaders start.headers with
      | none => simp
      | some close =>
        simp only [applyFraming]
        cases present : transferEncoding.1 <;> cases chunked : transferEncoding.2 <;>
          cases found : contentLength.2 <;> simp [present, chunked]

theorem parseFraming_spans (start : HttpRequest) :
    (parseFraming start).2.method = start.method ∧ (parseFraming start).2.target = start.target ∧
      (parseFraming start).2.version = start.version ∧ (parseFraming start).2.headers = start.headers := by
  unfold parseFraming
  split
  · simp
  · split
    · simp
    · split
      · simp
      · unfold applyFraming
        split
        · split <;> simp
        · split <;> simp

theorem forall_fieldLines {lines : List Bytes} {fs : List HttpHeader} :
    List.Forall₂ FieldLine lines fs ↔
      (∀ line ∈ lines, validLine line = true ∧ shortValue line = true) ∧ fs = lines.map lineField := by
  induction lines generalizing fs with
  | nil => simp [List.forall₂_nil_left_iff]
  | cons line lines ih =>
    constructor
    · rintro (_ | ⟨head, tail⟩)
      obtain ⟨valid, short, same⟩ := fieldLine_iff.mpr head
      obtain ⟨others, rfl⟩ := ih.mp tail
      refine ⟨?_, by rw [List.map_cons, same]⟩
      intro l member
      rcases List.mem_cons.mp member with rfl | member
      · exact ⟨valid, short⟩
      · exact others l member
    · rintro ⟨all, rfl⟩
      obtain ⟨valid, short⟩ := all line (by simp)
      exact .cons (fieldLine_iff.mp ⟨valid, short, rfl⟩) (ih.mpr ⟨fun l member => all l (by simp [member]), rfl⟩)

theorem blockLines_iff {s method target version : Bytes} {k : Nat} {fs : List HttpHeader}
    (firstEnd : FirstEnd s k) :
    BlockLines (s.take k) method target version fs ↔
      parseRequestLine (requestLine (s.take k)) = some (method, target, version) ∧
      ((∀ line ∈ fieldLines (s.take k), validLine line = true ∧ shortValue line = true) ∧
        fs = (fieldLines (s.take k)).map lineField) ∧ (fieldLines (s.take k)).length ≤ 128 := by
  have cut := block_lines firstEnd
  constructor
  · rintro ⟨line, lines, other, request, fields, few⟩
    rw [cut] at other
    simp only [List.cons_append, List.cons.injEq, List.append_cancel_right_eq] at other
    obtain ⟨rfl, rfl⟩ := other
    exact ⟨parseRequestLine_iff.mpr request, forall_fieldLines.mp fields, few⟩
  · rintro ⟨request, fields, few⟩
    exact ⟨_, _, cut, parseRequestLine_iff.mp request, forall_fieldLines.mpr fields, few⟩

theorem parseHeaderBlock_complete {s : Bytes} {k : Nat} (firstEnd : FirstEnd s k) {request : HttpRequest} :
    parseHeaderBlock (s.take k) = (.complete, request) ↔ ∃ method target version,
      BlockLines (s.take k) method target version (fields (s.take k)) ∧
      parseFraming { HttpRequest.zero with
        method := method, target := target, version := version, headers := fields (s.take k) } =
          (.complete, request) := by
  rw [parseHeaderBlock_eq (endsHeader_iff.mpr firstEnd.ends)]
  simp only [blockLines_iff firstEnd]
  cases parsed : parseRequestLine (requestLine (s.take k)) with
  | none => simp
  | some parts =>
    obtain ⟨method, target, version⟩ := parts
    simp only [Option.some.injEq, Prod.mk.injEq]
    constructor
    · intro complete
      split at complete
      · rename_i start scanned
        obtain ⟨valid, few, rfl⟩ := scanLines_complete_iff.mp scanned
        refine ⟨method, target, version, ⟨⟨rfl, rfl, rfl⟩, ⟨valid, rfl⟩, ?_⟩, by simpa [fields, HttpRequest.zero] using complete⟩
        rcases few with none | few
        · simp [none]
        · simpa [HttpRequest.zero, maxHeaders] using few
      · rename_i refused
        exact absurd complete (refused request)
    · rintro ⟨_, _, _, ⟨⟨rfl, rfl, rfl⟩, ⟨valid, -⟩, few⟩, framed⟩
      have scanned : scanLines (fieldLines (s.take k)) { HttpRequest.zero with method, target, version } =
          (.complete, _) :=
        scanLines_complete_iff.mpr ⟨valid, .inr (by simpa [HttpRequest.zero, maxHeaders] using few), rfl⟩
      rw [scanned]
      simpa [fields, HttpRequest.zero] using framed

theorem block_complete_iff {s : Bytes} {k : Nat} (firstEnd : FirstEnd s k) :
    (parseHeaderBlock (s.take k)).1 = .complete ↔ ∃ method target version fields,
      BlockLines (s.take k) method target version fields ∧ FramingAccepted fields := by
  constructor
  · intro complete
    obtain ⟨method, target, version, lines, framed⟩ :=
      (parseHeaderBlock_complete firstEnd).mp (Prod.ext complete rfl)
    exact ⟨method, target, version, _, lines, (parseFraming_accepts _).mp (congrArg Prod.fst framed)⟩
  · rintro ⟨method, target, version, fs, lines, accepted⟩
    obtain rfl : fs = fields (s.take k) := ((blockLines_iff firstEnd).mp lines).2.1.2
    have framed := (parseHeaderBlock_complete firstEnd).mpr
      ⟨method, target, version, lines, Prod.ext ((parseFraming_accepts _).mpr accepted) rfl⟩
    rw [framed]

theorem block_spans {s : Bytes} {k : Nat} (firstEnd : FirstEnd s k)
    (complete : (parseHeaderBlock (s.take k)).1 = .complete) :
    BlockLines (s.take k) (parseHeaderBlock (s.take k)).2.method (parseHeaderBlock (s.take k)).2.target
      (parseHeaderBlock (s.take k)).2.version (parseHeaderBlock (s.take k)).2.headers := by
  obtain ⟨method, target, version, lines, framed⟩ :=
    (parseHeaderBlock_complete firstEnd).mp (Prod.ext complete rfl)
  obtain ⟨sameMethod, sameTarget, sameVersion, sameHeaders⟩ := parseFraming_spans { HttpRequest.zero with
    method := method, target := target, version := version, headers := fields (s.take k) }
  rw [framed] at sameMethod sameTarget sameVersion sameHeaders
  dsimp only at sameMethod sameTarget sameVersion sameHeaders
  rw [sameMethod, sameTarget, sameVersion, sameHeaders]
  exact lines

theorem finishHeader_answer (buffer : Bytes) (k : Nat) :
    (finishHeader ⟨buffer, false⟩ k).result = (parseHeaderBlock buffer).1 ∧
      (finishHeader ⟨buffer, false⟩ k).request = (parseHeaderBlock buffer).2 ∧
      (finishHeader ⟨buffer, false⟩ k).consumed = k := by
  unfold finishHeader
  dsimp only
  generalize parseHeaderBlock buffer = answer
  obtain ⟨result, request⟩ := answer
  cases result <;> exact ⟨rfl, rfl, rfl⟩

theorem firstEnd_unique {s : Bytes} {j k : Nat} (left : FirstEnd s j) (right : FirstEnd s k) : j = k := by
  rcases Nat.lt_trichotomy j k with less | same | more
  · exact absurd left.ends (right.first j less)
  · exact same
  · exact absurd right.ends (left.first k more)

/-- The parser accepts exactly its line grammar, and its spans are the parts of the lines. In
    one piece: COMPLETE at k when k is the first end of a header, within the limit, whose
    lines are those of the grammar and whose list-valued fields are not rejected; INCOMPLETE
    when no header ends in s and s fits the buffer. -/
theorem header_accepts_grammar (s : Bytes) (old : HttpRequest) :
    (∀ k, (ckHttpParserFeed ckHttpParserInit s old).result = .complete ∧
        (ckHttpParserFeed ckHttpParserInit s old).consumed = k ↔
      FirstEnd s k ∧ k ≤ 32768 ∧ ∃ method target version fields,
        BlockLines (s.take k) method target version fields ∧ FramingAccepted fields) ∧
    ((ckHttpParserFeed ckHttpParserInit s old).result = .complete →
      BlockLines (s.take (ckHttpParserFeed ckHttpParserInit s old).consumed)
        (ckHttpParserFeed ckHttpParserInit s old).request.method
        (ckHttpParserFeed ckHttpParserInit s old).request.target
        (ckHttpParserFeed ckHttpParserInit s old).request.version
        (ckHttpParserFeed ckHttpParserInit s old).request.headers) ∧
    ((ckHttpParserFeed ckHttpParserInit s old).result = .incomplete ↔
      s.length ≤ 32768 ∧ ∀ k, ¬ FirstEnd s k) := by
  by_cases arrives : ∃ k, k ≤ maxHeaderBytes ∧ FirstEnd s k
  · obtain ⟨k, fits, firstEnd⟩ := arrives
    rw [feed_first old firstEnd fits]
    obtain ⟨result, request, consumed⟩ := finishHeader_answer (s.take k) k
    rw [result, request, consumed]
    refine ⟨?_, block_spans firstEnd, ?_⟩
    · intro j
      constructor
      · rintro ⟨complete, rfl⟩
        exact ⟨firstEnd, fits, (block_complete_iff firstEnd).mp complete⟩
      · rintro ⟨other, -, accepted⟩
        obtain rfl := firstEnd_unique firstEnd other
        exact ⟨(block_complete_iff firstEnd).mpr accepted, rfl⟩
    · apply iff_of_false
      · intro incomplete
        exact parseHeaderBlock_decides (Prod.ext incomplete rfl)
      · exact fun ⟨_, absent⟩ => absent k firstEnd
  · have absent : ∀ k, k ≤ maxHeaderBytes → ¬ FirstEnd s k := fun k fits firstEnd => arrives ⟨k, fits, firstEnd⟩
    rw [feed_open old absent]
    have unfinished : (if s.length ≤ maxHeaderBytes then ParseResult.incomplete else .headerTooLarge) ≠ .complete := by
      split <;> simp
    refine ⟨?_, fun complete => absurd complete unfinished, ?_⟩
    · intro k
      apply iff_of_false
      · exact fun ⟨complete, _⟩ => unfinished complete
      · exact fun ⟨firstEnd, fits, _⟩ => absent k fits firstEnd
    · by_cases short : s.length ≤ maxHeaderBytes
      · rw [if_pos short]
        refine iff_of_true rfl ⟨short, ?_⟩
        intro k firstEnd
        exact absent k (Nat.le_trans firstEnd.within short) firstEnd
      · rw [if_neg short]
        exact iff_of_false nofun fun ⟨fits, _⟩ => short fits

end CkartaHeaderGrammar
