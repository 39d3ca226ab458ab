import Zicade.Upstream.Framing

/-! # How the wire helpers read well-formed messages -/

namespace Zicade.Upstream

open Zicade.Foundation Zicade.Net

/-! ## Lines -/

theorem fromUtf8Lossy_append_crlf (line rest : Bytes) :
    fromUtf8Lossy (line ++ crlf ++ rest) =
      fromUtf8Lossy line ++ '\r' :: '\n' :: fromUtf8Lossy rest := by
  rw [List.append_assoc]
  change fromUtf8Lossy (line ++ cr :: lf :: rest) = _
  rw [fromUtf8Lossy_append_cons _ _ (by decide), fromUtf8Lossy_cons _ (by decide)]
  rfl

theorem splitCrlf_cons {c : Char} (rest : Text) (hc : c ≠ '\r') :
    splitCrlf (c :: rest) = (splitCrlf rest).modifyHead (c :: ·) := by
  rw [splitCrlf]
  intro tail hcr
  exact absurd hcr hc

theorem splitCrlf_append {line : Text} (rest : Text) (hline : '\r' ∉ line) :
    splitCrlf (line ++ '\r' :: '\n' :: rest) = line :: splitCrlf rest := by
  induction line with
  | nil => rfl
  | cons c line ih =>
      have hc : c ≠ '\r' := fun h => hline (h ▸ List.mem_cons_self)
      rw [List.cons_append, splitCrlf_cons _ hc,
        ih fun hmem => hline (List.mem_cons_of_mem c hmem)]
      rfl

/-- Splitting the text of a head at its line ends gives its lines back. -/
theorem splitCrlf_encodeLines {lines : List Bytes} (hlines : ∀ line ∈ lines, cr ∉ line) :
    splitCrlf (fromUtf8Lossy (encodeLines lines)) = lines.map fromUtf8Lossy ++ [[], []] := by
  induction lines with
  | nil => decide
  | cons line lines ih =>
      have hline : '\r' ∉ fromUtf8Lossy line :=
        not_mem_fromUtf8Lossy (by decide) (hlines line List.mem_cons_self)
      have hencode : encodeLines (line :: lines) = line ++ crlf ++ encodeLines lines := by
        simp [encodeLines]
      rw [hencode, fromUtf8Lossy_append_crlf, splitCrlf_append _ hline,
        ih fun other hmem => hlines other (List.mem_cons_of_mem line hmem)]
      rfl

/-- Two line ends in a row occur in a head only at its end. -/
theorem rest_nil_of_encodeLines {lines : List Bytes}
    (hlines : ∀ line ∈ lines, line ≠ [] ∧ cr ∉ line) {before rest : Bytes}
    (heq : before ++ (crlf ++ crlf) ++ rest = encodeLines lines) : rest = [] := by
  induction lines generalizing before with
  | nil =>
      have hlength := congrArg List.length heq
      simp only [encodeLines, crlf, List.flatMap_nil, List.length_append, List.length_cons,
        List.length_nil] at hlength
      omega
  | cons line lines ih =>
      have hrest : ∀ other ∈ lines, other ≠ [] ∧ cr ∉ other := fun other hmem =>
        hlines other (List.mem_cons_of_mem line hmem)
      -- what follows the first line's own end starts the next line, or ends the head
      have hnext : ∀ tail, encodeLines lines = cr :: lf :: tail → tail = [] := by
        intro tail htail
        cases lines with
        | nil => simpa [encodeLines, crlf] using htail.symm
        | cons next lines =>
            obtain ⟨hne, hcr⟩ := hrest next List.mem_cons_self
            cases next with
            | nil => exact absurd rfl hne
            | cons b next =>
                have hb : b = cr := by
                  simp only [encodeLines, List.flatMap_cons, List.cons_append] at htail
                  exact (List.cons.inj htail).1
                exact absurd (hb ▸ List.mem_cons_self) hcr
      have hline : before ++ cr :: lf :: cr :: lf :: rest =
          line ++ cr :: lf :: encodeLines lines := by
        simpa [encodeLines, crlf] using heq
      -- the two line ends start inside the first line, at its end, or after it
      rcases List.append_eq_append_iff.mp hline with ⟨gap, hgap, htail⟩ | ⟨gap, hgap, htail⟩
      · cases gap with
        | nil => exact hnext rest (by simpa using htail.symm)
        | cons b gap =>
            have hb : b = cr := (List.cons.inj htail).1.symm
            have hmem : cr ∈ line := by
              rw [hgap, hb]
              simp
            exact absurd hmem (hlines line List.mem_cons_self).2
      · match gap with
        | [] => exact hnext rest (by simpa using htail)
        | [b] =>
            have hlf : lf = cr := (List.cons.inj (List.cons.inj htail).2).1
            exact absurd hlf (by decide)
        | b :: c :: gap =>
            have htail' : encodeLines lines = gap ++ cr :: lf :: cr :: lf :: rest :=
              (List.cons.inj (List.cons.inj htail).2).2
            have hlater : gap ++ (crlf ++ crlf) ++ rest = encodeLines lines := by
              simpa [crlf] using htail'.symm
            exact ih hrest hlater

theorem endsFirst_encodeLines {lines : List Bytes} (hne : lines ≠ [])
    (hlines : ∀ line ∈ lines, line ≠ [] ∧ cr ∉ line) :
    EndsFirst (crlf ++ crlf) (encodeLines lines) := by
  constructor
  · obtain ⟨init, last, rfl⟩ := (List.eq_nil_or_concat' lines).resolve_left hne
    exact ⟨init.flatMap (· ++ crlf) ++ last, by simp [encodeLines]⟩
  · rintro before ⟨rest, hrest⟩ ⟨front, rfl⟩
    have hnil : rest = [] := rest_nil_of_encodeLines hlines hrest
    rwa [hnil, List.append_nil] at hrest

/-- A line without a line feed inside ends at its own. -/
theorem endsFirst_line {line : Bytes} (hline : lf ∉ line) : EndsFirst [lf] (line ++ [lf]) := by
  refine ⟨⟨line, rfl⟩, ?_⟩
  rintro before ⟨rest, hrest⟩ ⟨front, rfl⟩
  rw [List.append_assoc] at hrest
  rcases List.append_eq_append_iff.mp hrest with ⟨gap, hgap, htail⟩ | ⟨gap, hgap, htail⟩
  · cases gap with
    | nil =>
        rw [List.append_nil] at hgap
        rw [hgap]
    | cons b gap =>
        have hb : b = lf := (List.cons.inj htail).1.symm
        exact absurd (by rw [hgap, hb]; simp) hline
  · cases gap with
    | nil =>
        rw [List.append_nil] at hgap
        rw [hgap]
    | cons b gap =>
        have hlength := congrArg List.length htail
        simp at hlength

/-! ## Heads -/

theorem fromUtf8Lossy_fieldLine (field : Field) :
    fromUtf8Lossy field.line = field.name ++ ':' :: fromUtf8Lossy field.value := by
  rw [Field.line, fromUtf8Lossy_ascii_text _ fun c hc => isTchar_lt (field.name_tchar c hc),
    fromUtf8Lossy_cons _ (by decide)]
  rfl

theorem parseHeaderLine_fieldLine (field : Field) :
    parseHeaderLine (fromUtf8Lossy field.line) = some field.read := by
  have hcolon : ':' ∉ field.name := fun hmem => (isTchar_ne (field.name_tchar _ hmem)).1 rfl
  have htrim : trim field.name = field.name :=
    trim_of_no_whitespace fun c hc => isTchar_not_whitespace (field.name_tchar c hc)
  rw [fromUtf8Lossy_fieldLine, parseHeaderLine, if_neg (by simp), splitOnce_append _ hcolon]
  simp only [Option.map_some, htrim, Field.read]

theorem mem_ascii_ne {t : Text} {c : Char} (hc : c.toNat < 128)
    (ht : ∀ d ∈ t, d.toNat < 128 ∧ d ≠ c) : UInt8.ofNat c.toNat ∉ ascii t := by
  intro hmem
  obtain ⟨d, hd, heq⟩ := List.mem_map.mp hmem
  have hchar : asciiChar (UInt8.ofNat d.toNat) = asciiChar (UInt8.ofNat c.toNat) := by rw [heq]
  rw [asciiChar_ofNat (ht d hd).1, asciiChar_ofNat hc] at hchar
  exact (ht d hd).2 hchar

theorem fieldLine_ne_nil (field : Field) : field.line ≠ [] := by simp [Field.line]

/-- A byte that is in no name, is not the colon and is in no value is not in a line. -/
theorem not_mem_fieldLine {c : Char} (hc : c.toNat < 128) (hname : ∀ d, isTchar d = true → d ≠ c)
    (hcolon : UInt8.ofNat c.toNat ≠ UInt8.ofNat ':'.toNat)
    (hvalue : ∀ b, isFieldByte b = true → b ≠ UInt8.ofNat c.toNat) (field : Field) :
    UInt8.ofNat c.toNat ∉ field.line := by
  simp only [Field.line, List.mem_append, List.mem_cons, not_or]
  refine ⟨mem_ascii_ne hc fun d hd => ?_, hcolon,
    fun hmem => hvalue _ (field.value_field _ hmem) rfl⟩
  exact ⟨isTchar_lt (field.name_tchar d hd), hname d (field.name_tchar d hd)⟩

theorem cr_not_mem_fieldLine (field : Field) : cr ∉ field.line :=
  not_mem_fieldLine (c := '\r') (by decide) (fun _ hd => (isTchar_ne hd).2.1) (by decide)
    (fun _ hb => (isFieldByte_ne hb).1) field

theorem lf_not_mem_fieldLine (field : Field) : lf ∉ field.line :=
  not_mem_fieldLine (c := '\n') (by decide) (fun _ hd => (isTchar_ne hd).2.2) (by decide)
    (fun _ hb => (isFieldByte_ne hb).2) field

theorem digitValue_digitChar {d : Nat} (hd : d < 10) : digitValue 10 (digitChar d) = some d := by
  have hall : ∀ d < 10, digitValue 10 (digitChar d) = some d := by decide
  exact hall d hd

theorem digitsValue_statusDigits {status : Nat} (hstatus : status < 1000) :
    digitsValue 10 (statusDigits status) = some status := by
  have hhigh : status / 100 < 10 := by omega
  simp only [digitsValue, statusDigits, List.foldlM_cons, List.foldlM_nil,
    digitValue_digitChar hhigh, digitValue_digitChar (Nat.mod_lt _ (by decide : 0 < 10)),
    Option.map_some, Option.bind_eq_bind, Option.bind_some, Option.pure_def, Option.some.injEq]
  omega

theorem parseStatus_statusLine {status : Nat} (hstatus : status < 1000) (reason : Text) :
    parseStatus ("HTTP/1.1 ".toList ++ statusDigits status ++ " ".toList ++ reason) = status := by
  have hdigits := digitsValue_statusDigits hstatus
  have hword : splitWhitespace ("HTTP/1.1 ".toList ++ statusDigits status ++ " ".toList ++ reason)
      = "HTTP/1.1".toList :: statusDigits status :: splitWhitespace reason := by
    have hsplit : "HTTP/1.1 ".toList ++ statusDigits status ++ " ".toList ++ reason =
        "HTTP/1.1".toList ++ ' ' :: (statusDigits status ++ ' ' :: reason) := by simp
    rw [hsplit, splitWhitespace_word_append _ (by decide) (by decide) (by decide),
      splitWhitespace_word_append _ (by simp [statusDigits])
        (mem_digits_not_whitespace hdigits) (by decide)]
  rw [parseStatus, hword]
  change ((some (statusDigits status)).bind (fromStrRadix 10 65536)).getD 0 = status
  rw [Option.bind_some, fromStrRadix_of_digitsValue _ (by simp [statusDigits]) hdigits,
    if_pos (by omega)]
  rfl

theorem mem_statusLine_text {status : Nat} (hstatus : status < 1000) :
    ∀ c ∈ "HTTP/1.1 ".toList ++ statusDigits status ++ " ".toList, c.toNat < 128 ∧ c ≠ '\r' := by
  intro c hc
  rw [List.mem_append, List.mem_append] at hc
  rcases hc with (hc | hc) | hc
  · exact (by decide : ∀ c ∈ "HTTP/1.1 ".toList, c.toNat < 128 ∧ c ≠ '\r') c hc
  · have hrange := mem_digits_range (digitsValue_statusDigits hstatus) hc
    refine ⟨by omega, ?_⟩
    rintro rfl
    revert hrange
    decide
  · exact (by decide : ∀ c ∈ " ".toList, c.toNat < 128 ∧ c ≠ '\r') c hc

namespace ResponseHead

theorem statusLine_ok (head : ResponseHead) : head.statusLine ≠ [] ∧ cr ∉ head.statusLine := by
  constructor
  · simp [statusLine, ascii]
  · simp only [statusLine, List.mem_append, not_or]
    exact ⟨mem_ascii_ne (c := '\r') (by decide) (mem_statusLine_text head.status_lt),
      fun hmem => (isFieldByte_ne (head.reason_field _ hmem)).1 rfl⟩

theorem lines_ok (head : ResponseHead) :
    ∀ line ∈ head.statusLine :: head.fields.map Field.line, line ≠ [] ∧ cr ∉ line := by
  intro line hmem
  rcases List.mem_cons.mp hmem with rfl | hmem
  · exact head.statusLine_ok
  · obtain ⟨field, -, rfl⟩ := List.mem_map.mp hmem
    exact ⟨fieldLine_ne_nil field, cr_not_mem_fieldLine field⟩

/-- Parsing the bytes of a head gives its status and its header pairs. -/
theorem parseHead_encode (head : ResponseHead) : parseHead head.encode = head.parsed := by
  have hlines : splitCrlf (fromUtf8Lossy head.encode) =
      fromUtf8Lossy head.statusLine :: (head.fields.map fun field => fromUtf8Lossy field.line) ++
        [[], []] := by
    rw [encode, splitCrlf_encodeLines fun line hmem => (head.lines_ok line hmem).2]
    simp
  have hstatus : parseStatus (fromUtf8Lossy head.statusLine) = head.status := by
    rw [statusLine, fromUtf8Lossy_ascii_text _ fun c hc =>
      (mem_statusLine_text head.status_lt c hc).1]
    exact parseStatus_statusLine head.status_lt _
  have hfields : (head.fields.map fun field => fromUtf8Lossy field.line).filterMap
      parseHeaderLine = head.headers := by
    rw [List.filterMap_map, headers, ← List.filterMap_eq_map]
    exact List.filterMap_congr fun field _ => parseHeaderLine_fieldLine field
  rw [parseHead, hlines]
  simp only [List.cons_append, List.headD_cons, List.tail_cons, List.filterMap_append, hstatus,
    hfields]
  simp [parsed, parseHeaderLine]

theorem endsFirst_encode (head : ResponseHead) : EndsFirst (crlf ++ crlf) head.encode :=
  endsFirst_encodeLines (List.cons_ne_nil _ _) head.lines_ok

/-- Reading a head takes exactly its bytes, unless it is too large. -/
theorem readHead_encode (head : ResponseHead) {rest : Bytes} {socket : Socket}
    (hincoming : socket.incoming = head.encode ++ rest) :
    ReadsWithin readHead socket (head.encode.length ≤ maxHeadBytes + 1) head.encode
      head.parsed := by
  rw [← head.parseHead_encode]
  exact readHead_of_endsFirst head.endsFirst_encode hincoming

end ResponseHead

/-! ## Chunks -/

theorem mem_sizeDigits (line : SizeLine) : ∀ c ∈ line.digits, c.toNat < 128 ∧ c ≠ '\n' := by
  intro c hc
  have hrange := mem_digits_range line.digits_size hc
  refine ⟨by omega, ?_⟩
  rintro rfl
  revert hrange
  decide

theorem lf_not_mem_extension (extension : ChunkExtension) : lf ∉ extension.encode := by
  simp only [ChunkExtension.encode, List.mem_append, List.mem_cons, not_or]
  refine ⟨fun hmem => ?_, by decide,
    fun hmem => (isFieldByte_ne (extension.text_field _ hmem)).2 rfl⟩
  exact absurd (extension.padding_blank _ hmem) (by decide)

/-- A chunk-size line ends at its line feed. -/
theorem endsFirst_sizeLine (line : SizeLine) : EndsFirst [lf] line.encode := by
  have hextension : lf ∉ (line.extension.map ChunkExtension.encode).getD [] := by
    cases line.extension with
    | none => simp
    | some extension => exact lf_not_mem_extension extension
  have hdigits : lf ∉ ascii line.digits :=
    mem_ascii_ne (c := '\n') (by decide) (mem_sizeDigits line)
  have hcr : lf ∉ [cr] := by decide
  have heq : line.encode =
      (ascii line.digits ++
        ((line.extension.map ChunkExtension.encode).getD [] ++ [cr])) ++ [lf] := by
    simp [SizeLine.encode, crlf]
  rw [heq]
  apply endsFirst_line
  simp only [List.mem_append, not_or]
  exact ⟨hdigits, hextension, hcr⟩

theorem endsFirst_crlf : EndsFirst [lf] crlf := by
  have hcr : lf ∉ [cr] := by decide
  exact endsFirst_line hcr

/-- Before its extensions, and whatever they hold, a chunk line gives its size. -/
theorem chunkSize_sizeLine (line : SizeLine) : chunkSize (fromUtf8Lossy line.encode) =
    if line.size < usizeValues then some line.size else none := by
  have hwhite := mem_digits_not_whitespace line.digits_size
  have hdrop : line.digits.dropWhile isWhitespace = line.digits := by
    cases hdigits : line.digits with
    | nil => rfl
    | cons c rest =>
        rw [List.dropWhile_cons_of_neg]
        simp [hwhite c (hdigits ▸ List.mem_cons_self)]
  have hsemicolon : ';' ∉ line.digits := by
    intro hmem
    have hrange := mem_digits_range line.digits_size hmem
    revert hrange
    decide
  have hparse := fromStrRadix_of_digitsValue usizeValues line.digits_ne_nil line.digits_size
  rw [SizeLine.encode, fromUtf8Lossy_ascii_text _ fun c hc => (mem_sizeDigits line c hc).1]
  cases hextension : line.extension with
  | none =>
      change chunkSize (line.digits ++ fromUtf8Lossy crlf) = _
      rw [chunkSize, trim_append_right _ (by decide : ∀ c ∈ fromUtf8Lossy crlf, isWhitespace c),
        trim_of_no_whitespace hwhite, List.splitOn_eq_singleton hsemicolon, List.headD_cons,
        trim_of_no_whitespace hwhite]
      exact hparse
  | some extension =>
      have hpadding : ∀ b ∈ extension.padding, isAscii b := by
        intro b hb
        rcases extension.padding_blank b hb with rfl | rfl <;> decide
      have hblank : ∀ c ∈ extension.padding.map asciiChar, isWhitespace c ∧ c ≠ ';' := by
        intro c hc
        obtain ⟨b, hb, rfl⟩ := List.mem_map.mp hc
        rcases extension.padding_blank b hb with rfl | rfl <;> decide
      have htext : fromUtf8Lossy (((some extension).map ChunkExtension.encode).getD [] ++ crlf) =
          extension.padding.map asciiChar ++ ';' :: fromUtf8Lossy (extension.text ++ crlf) := by
        simp only [Option.map_some, Option.getD_some, ChunkExtension.encode, List.append_assoc,
          List.cons_append]
        rw [fromUtf8Lossy_ascii_append _ hpadding, fromUtf8Lossy_cons _ (by decide)]
        rfl
      have hfront : ';' ∉ line.digits ++ extension.padding.map asciiChar := by
        rw [List.mem_append, not_or]
        exact ⟨hsemicolon, fun hmem => (hblank _ hmem).2 rfl⟩
      have htrim : ∀ after : Text, trim (line.digits ++
          (extension.padding.map asciiChar ++ ';' :: after)) =
            (line.digits ++ extension.padding.map asciiChar) ++ ';' ::
              after.rdropWhile isWhitespace := by
        intro after
        rw [← List.append_assoc, trim_append_cons _ _ (by decide), List.dropWhile_append, hdrop,
          if_neg (by simp [line.digits_ne_nil])]
      rw [htext, chunkSize, htrim, List.splitOn_append_cons_self_of_not_mem hfront,
        List.headD_cons, trim_append_right _ fun c hc => (hblank c hc).1,
        trim_of_no_whitespace hwhite]
      exact hparse

end Zicade.Upstream
