import Zicade.Upstream.FramingLaws

/-! # Request heads and their strict receiver

A receiver that takes nothing but the grammar: lines end in CRLF and hold no other CR or
LF, the request line has three words, and every other line is a field. What it reads of a
well-formed head is that head, and what follows the head is left.
-/

namespace Zicade.Upstream

open Zicade.Foundation Zicade.Net

/-! ## The receiver -/

/-- The lines up to the first empty one, and the bytes after it; `ended` when the CR of a
line end was the last byte. -/
def scanLines (lines : List Bytes) (line : Bytes) (ended : Bool) :
    Bytes → Option (List Bytes × Bytes)
  | [] => none
  | b :: rest =>
      if ended then
        -- a CR alone is no line end
        if b ≠ lf then none
        else if line = [] then some (lines, rest)
        else scanLines (lines ++ [line]) [] false rest
      else if b = cr then scanLines lines line true rest
      else if b = lf then none
      else scanLines lines (line ++ [b]) false rest

/-- A visible byte, or one beyond ASCII. -/
def isVisibleByte (b : UInt8) : Bool := 33 ≤ b.toNat && b.toNat != 127

/-- Three words with one space between them. -/
def readRequestLine (line : Bytes) : Option (Bytes × Bytes × Bytes) :=
  match line.splitOn 32 with
  | [method, target, version] =>
      if [method, target, version].all fun word => !word.isEmpty && word.all isVisibleByte then
        some (method, target, version)
      else none
  | _ => none

def isBlankByte (b : UInt8) : Bool := b == 32 || b == 9

/-- The name, and what stands after the colon and the blanks that follow it. -/
def readField (line : Bytes) : Option (Text × Bytes) :=
  let name := line.takeWhile (· != 58)
  match line.dropWhile (· != 58) with
  | [] => none
  | _ :: value =>
      if name ≠ [] ∧ (name.all fun b => isAscii b && isTchar (asciiChar b)) ∧
          value.all isFieldByte then
        some (name.map asciiChar, value.dropWhile isBlankByte)
      else none

/-- What is read of a request head. -/
structure ReadRequest where
  method : Bytes
  target : Bytes
  version : Bytes
  fields : List (Text × Bytes)
  deriving DecidableEq, Repr

/-- The first request head of the bytes, and what follows it. -/
def readRequest (bytes : Bytes) : Option (ReadRequest × Bytes) := do
  let (lines, rest) ← scanLines [] [] false bytes
  match lines with
  | [] => none
  | first :: others =>
      let (method, target, version) ← readRequestLine first
      let fields ← others.mapM readField
      return (⟨method, target, version, fields⟩, rest)

/-! ## Well-formed request heads -/

/-- A word of a request line. -/
structure Word where
  bytes : Bytes
  nonempty : bytes ≠ []
  visible : ∀ b ∈ bytes, isVisibleByte b

structure RequestHead where
  method : Word
  target : Word
  version : Word
  fields : List Field

namespace RequestHead

def requestLine (head : RequestHead) : Bytes :=
  head.method.bytes ++ 32 :: (head.target.bytes ++ 32 :: head.version.bytes)

def lines (head : RequestHead) : List Bytes := head.requestLine :: head.fields.map Field.line

def encode (head : RequestHead) : Bytes := encodeLines head.lines

def read (head : RequestHead) : ReadRequest where
  method := head.method.bytes
  target := head.target.bytes
  version := head.version.bytes
  fields := head.fields.map fun field => (field.name, field.value.dropWhile isBlankByte)

end RequestHead

/-! ## What is read of them -/

theorem scanLines_append {line : Bytes} (hcr : cr ∉ line) (hlf : lf ∉ line) (lines : List Bytes)
    (before rest : Bytes) :
    scanLines lines before false (line ++ rest) = scanLines lines (before ++ line) false rest := by
  induction line generalizing before with
  | nil => rw [List.nil_append, List.append_nil]
  | cons b line ih =>
      have hb : b ≠ cr := fun heq => hcr (heq ▸ List.mem_cons_self)
      have hb' : b ≠ lf := fun heq => hlf (heq ▸ List.mem_cons_self)
      have ih := ih (fun hmem => hcr (List.mem_cons_of_mem b hmem))
        (fun hmem => hlf (List.mem_cons_of_mem b hmem)) (before ++ [b])
      rw [List.cons_append, scanLines, if_neg Bool.false_ne_true, if_neg hb, if_neg hb', ih,
        List.append_assoc]
      rfl

/-- A line end closes the line, or the head. -/
theorem scanLines_crlf (lines : List Bytes) (line rest : Bytes) :
    scanLines lines line false (crlf ++ rest) =
      if line = [] then some (lines, rest) else scanLines (lines ++ [line]) [] false rest := by
  have hlf : ¬lf ≠ lf := not_not.mpr rfl
  change scanLines lines line false (cr :: lf :: rest) = _
  rw [scanLines, if_neg Bool.false_ne_true, if_pos rfl, scanLines, if_pos rfl, if_neg hlf]

/-- Lines that are not empty are found again, and the scan ends at their empty line. -/
theorem scanLines_encodeLines {lines : List Bytes}
    (hlines : ∀ line ∈ lines, line ≠ [] ∧ cr ∉ line ∧ lf ∉ line) (found : List Bytes)
    (rest : Bytes) :
    scanLines found [] false (encodeLines lines ++ rest) = some (found ++ lines, rest) := by
  induction lines generalizing found with
  | nil =>
      rw [List.append_nil]
      exact scanLines_crlf found [] rest
  | cons line lines ih =>
      obtain ⟨hne, hcr, hlf⟩ := hlines line List.mem_cons_self
      have hencode : encodeLines (line :: lines) ++ rest =
          line ++ (crlf ++ (encodeLines lines ++ rest)) := by
        simp [encodeLines]
      rw [hencode, scanLines_append hcr hlf, List.nil_append, scanLines_crlf, if_neg hne,
        ih fun other hmem => hlines other (List.mem_cons_of_mem line hmem), List.append_assoc]
      rfl

theorem isVisibleByte_ne {b : UInt8} (hb : isVisibleByte b) : b ≠ 32 ∧ b ≠ cr ∧ b ≠ lf := by
  refine ⟨?_, ?_, ?_⟩ <;> rintro rfl <;> exact absurd hb (by decide)

theorem readRequestLine_requestLine (head : RequestHead) :
    readRequestLine head.requestLine =
      some (head.method.bytes, head.target.bytes, head.version.bytes) := by
  have hspace (word : Word) : 32 ∉ word.bytes := fun hmem =>
    (isVisibleByte_ne (word.visible _ hmem)).1 rfl
  have hword (word : Word) : (!word.bytes.isEmpty && word.bytes.all isVisibleByte) = true := by
    simp [word.nonempty, List.all_eq_true.mpr word.visible]
  have hsplit : head.requestLine.splitOn 32 =
      [head.method.bytes, head.target.bytes, head.version.bytes] := by
    rw [RequestHead.requestLine, List.splitOn_append_cons_self_of_not_mem (hspace _),
      List.splitOn_append_cons_self_of_not_mem (hspace _), List.splitOn_eq_singleton (hspace _)]
  rw [readRequestLine, hsplit]
  simp [hword]

theorem readField_line (field : Field) :
    readField field.line = some (field.name, field.value.dropWhile isBlankByte) := by
  have hcolon : ∀ b ∈ ascii field.name, (b != 58) = true := by
    intro b hb
    have hnot : 58 ∉ ascii field.name := mem_ascii_ne (c := ':') (by decide) fun c hc =>
      ⟨isTchar_lt (field.name_tchar c hc), (isTchar_ne (field.name_tchar c hc)).1⟩
    exact bne_iff_ne.mpr fun heq => hnot (heq ▸ hb)
  have htake : field.line.takeWhile (· != 58) = ascii field.name := by
    rw [Field.line, List.takeWhile_append_of_pos hcolon]
    simp
  have hdrop : field.line.dropWhile (· != 58) = 58 :: field.value := by
    rw [Field.line, List.dropWhile_append_of_pos hcolon]
    simp
  have hname : ascii field.name ≠ [] := by simpa [ascii] using field.name_ne_nil
  have htchar : ((ascii field.name).all fun b => isAscii b && isTchar (asciiChar b)) = true := by
    rw [List.all_eq_true]
    intro b hb
    obtain ⟨c, hc, rfl⟩ := List.mem_map.mp hb
    have hlt := isTchar_lt (field.name_tchar c hc)
    rw [asciiChar_ofNat hlt, isAscii_ofNat hlt, field.name_tchar c hc]
    rfl
  have hvalue : field.value.all isFieldByte = true := List.all_eq_true.mpr field.value_field
  simp only [readField, htake, hdrop]
  rw [if_pos ⟨hname, htchar, hvalue⟩,
    map_asciiChar_ascii fun c hc => isTchar_lt (field.name_tchar c hc)]

theorem mapM_readField (fields : List Field) :
    (fields.map Field.line).mapM readField =
      some (fields.map fun field => (field.name, field.value.dropWhile isBlankByte)) := by
  induction fields with
  | nil => rfl
  | cons field fields ih =>
      rw [List.map_cons, List.mapM_cons, readField_line, ih]
      rfl

theorem RequestHead.lines_ok (head : RequestHead) :
    ∀ line ∈ head.lines, line ≠ [] ∧ cr ∉ line ∧ lf ∉ line := by
  have hvisible (word : Word) : cr ∉ word.bytes ∧ lf ∉ word.bytes :=
    ⟨fun hmem => (isVisibleByte_ne (word.visible _ hmem)).2.1 rfl,
      fun hmem => (isVisibleByte_ne (word.visible _ hmem)).2.2 rfl⟩
  intro line hmem
  rcases List.mem_cons.mp hmem with rfl | hmem
  · refine ⟨by simp [requestLine], ?_, ?_⟩
    · simp only [requestLine, List.mem_append, List.mem_cons, not_or]
      exact ⟨(hvisible _).1, by decide, (hvisible _).1, by decide, (hvisible _).1⟩
    · simp only [requestLine, List.mem_append, List.mem_cons, not_or]
      exact ⟨(hvisible _).2, by decide, (hvisible _).2, by decide, (hvisible _).2⟩
  · obtain ⟨field, -, rfl⟩ := List.mem_map.mp hmem
    exact ⟨fieldLine_ne_nil field, cr_not_mem_fieldLine field, lf_not_mem_fieldLine field⟩

/-- A receiver reads of a well-formed head what it holds, and leaves what follows it. -/
theorem readRequest_encode (head : RequestHead) (rest : Bytes) :
    readRequest (head.encode ++ rest) = some (head.read, rest) := by
  rw [readRequest, RequestHead.encode, scanLines_encodeLines head.lines_ok, List.nil_append]
  simp only [RequestHead.lines, Option.bind_eq_bind, Option.bind_some, readRequestLine_requestLine,
    mapM_readField]
  rfl

end Zicade.Upstream
