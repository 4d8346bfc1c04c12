import TiyGate.Data.Mealy
import TiyGate.Text.Lines

/-!
# Reading server-sent events

The reader of the event stream format: lines end in LF or CRLF, a field is
what stands before the first colon, a blank line dispatches the message if it
has data, and an unfinished message at the end of the text is dropped.
-/

namespace TiyGate.Text.Sse

/-- A dispatched message. -/
structure Message where
  event : List Char
  data : List Char
  deriving DecidableEq

/-- What the reader keeps between lines: the event name and the data lines of
the message it is in. -/
structure Reader where
  event : List Char := []
  data : List (List Char) := []

/-- Field name and value of a line. -/
def field (line : List Char) : List Char × List Char :=
  (line.takeWhile (· ≠ ':'),
    match (line.dropWhile (· ≠ ':')).tail with
    | ' ' :: value => value
    | value => value)

/-- Read one line. -/
def Reader.step (reader : Reader) (line : List Char) : Reader × List Message :=
  if line = [] then
    ({}, if reader.data = [] then [] else [⟨reader.event, ['\n'].intercalate reader.data⟩])
  else if (field line).1 = "event".toList then
    ({ reader with event := (field line).2 }, [])
  else if (field line).1 = "data".toList then
    ({ reader with data := reader.data ++ [(field line).2] }, [])
  else (reader, [])

@[simp]
theorem Reader.step_nil (reader : Reader) :
    reader.step [] = ({}, if reader.data = [] then [] else
      [⟨reader.event, ['\n'].intercalate reader.data⟩]) := by
  rw [Reader.step, if_pos rfl]

/-- The messages of a text. -/
def read (text : List Char) : List Message :=
  Mealy.outputs Reader.step {} ((splitLines '\n' text).1.map stripCr)

theorem field_event (value : List Char) :
    field ("event: ".toList ++ value) = ("event".toList, value) :=
  rfl

theorem field_data (value : List Char) :
    field ("data: ".toList ++ value) = ("data".toList, value) :=
  rfl

theorem stripCr_of_not_mem {line : List Char} (absent : '\r' ∉ line) : stripCr line = line := by
  unfold stripCr
  rw [if_neg]
  intro last
  exact absent (List.mem_of_getLast? last)

/-- The lines of a message with one line of data. -/
def messageLines (name : Option (List Char)) (data : List Char) : List (List Char) :=
  (match name with
    | some name => ["event: ".toList ++ name]
    | none => []) ++ ["data: ".toList ++ data, []]

/-- The reader returns to its initial state behind a message. -/
theorem step_messageLines (name : Option (List Char)) (data : List Char)
    (rest : List (List Char)) :
    Mealy.outputs Reader.step {} (messageLines name data ++ rest) =
      ⟨name.getD [], data⟩ :: Mealy.outputs Reader.step {} rest := by
  cases name with
  | none => simp [messageLines, Reader.step, field, List.intercalate]
  | some name => simp [messageLines, Reader.step, field, List.intercalate]

/-! ## Octet by octet -/

/-- A reader of octets: it keeps the octets of the line it is in.  A line ends
in LF, CR or CRLF. -/
structure Scanner where
  line : List UInt8 := []
  afterCr : Bool := false
  reader : Reader := {}

namespace Scanner

/-- The line has come to its end. -/
def endLine (scanner : Scanner) (cr : Bool) : Scanner × List Message :=
  let (reader, messages) := scanner.reader.step (Utf8.decodeLossy scanner.line)
  ({ line := [], afterCr := cr, reader }, messages)

/-- Read one octet. -/
def step (scanner : Scanner) (octet : UInt8) : Scanner × List Message :=
  if octet = 10 then
    if scanner.afterCr then ({ scanner with afterCr := false }, []) else scanner.endLine false
  else if octet = 13 then scanner.endLine true
  else ({ scanner with line := scanner.line ++ [octet], afterCr := false }, [])

/-- The scanner is behind a line, and the reader is between two messages. -/
def isIdle (scanner : Scanner) : Prop :=
  scanner.line = [] ∧ scanner.reader = {}

end Scanner

/-- The messages of a stream of octets. -/
def messages (octets : List UInt8) : List Message :=
  Mealy.outputs Scanner.step {} octets

/-- The scanner behind the octets. -/
def scan (octets : List UInt8) : Scanner :=
  Mealy.final Scanner.step {} octets

theorem messages_append (front back : List UInt8) :
    messages (front ++ back) = messages front ++ Mealy.outputs Scanner.step (scan front) back :=
  Mealy.outputs_append _ _ front back

namespace Scanner

/-- Octets within a line. -/
theorem run_of_inline {octets : List UInt8} (inline : ∀ octet ∈ octets, octet ≠ 10 ∧ octet ≠ 13)
    (nonempty : octets ≠ []) (scanner : Scanner) :
    Mealy.run step scanner octets =
      ({ scanner with line := scanner.line ++ octets, afterCr := false }, []) := by
  induction octets generalizing scanner with
  | nil => exact absurd rfl nonempty
  | cons octet octets ih =>
      obtain ⟨notLf, notCr⟩ := inline octet List.mem_cons_self
      have first : step scanner octet =
          ({ scanner with line := scanner.line ++ [octet], afterCr := false }, []) := by
        rw [step, if_neg notLf, if_neg notCr]
      cases octets with
      | nil => simp [Mealy.run, first]
      | cons next octets =>
          have rest := ih (fun other mem => inline other (List.mem_cons_of_mem octet mem))
            (List.cons_ne_nil _ _) { scanner with line := scanner.line ++ [octet], afterCr := false }
          rw [Mealy.run, first]
          simp only [rest, List.append_assoc, List.cons_append, List.nil_append]

/-- The rest of a line and a blank line behind it. -/
theorem run_line (scanner : Scanner) (octets : List UInt8)
    (inline : ∀ octet ∈ octets, octet ≠ 10 ∧ octet ≠ 13) (nonempty : octets ≠ []) :
    Mealy.final step scanner (octets ++ [10, 10]) = {} ∧
      Mealy.outputs step scanner (octets ++ [10, 10]) =
        let (reader, messages) := scanner.reader.step (Utf8.decodeLossy (scanner.line ++ octets))
        messages ++ (reader.step []).2 := by
  have run_eq := run_of_inline inline nonempty scanner
  have final_eq := congrArg Prod.fst run_eq
  have outputs_eq := congrArg Prod.snd run_eq
  change Mealy.final step scanner octets = _ at final_eq
  change Mealy.outputs step scanner octets = _ at outputs_eq
  rw [Mealy.final_append, Mealy.outputs_append, final_eq, outputs_eq]
  simp [step, endLine, Utf8.decodeLossy_nil]

theorem isIdle_step_lf {scanner : Scanner} (idle : scanner.isIdle) :
    (step scanner 10).1.isIdle ∧ (step scanner 10).2 = [] := by
  obtain ⟨line_eq, reader_eq⟩ := idle
  cases cr : scanner.afterCr <;>
    simp [step, endLine, isIdle, cr, line_eq, reader_eq, Utf8.decodeLossy_nil]

theorem isIdle_step_cr {scanner : Scanner} (idle : scanner.isIdle) :
    (step scanner 13).1.isIdle ∧ (step scanner 13).2 = [] := by
  obtain ⟨line_eq, reader_eq⟩ := idle
  simp [step, endLine, isIdle, line_eq, reader_eq, Utf8.decodeLossy_nil]

/-- Two idle scanners read the same. -/
theorem outputs_of_isIdle {scanner other : Scanner} (idle : scanner.isIdle) (idle' : other.isIdle)
    (octets : List UInt8) :
    Mealy.outputs step scanner octets = Mealy.outputs step other octets := by
  induction octets generalizing scanner other with
  | nil => rfl
  | cons octet octets ih =>
      rw [Mealy.outputs_cons, Mealy.outputs_cons]
      by_cases lf : octet = 10
      · subst lf
        rw [(isIdle_step_lf idle).2, (isIdle_step_lf idle').2,
          ih (isIdle_step_lf idle).1 (isIdle_step_lf idle').1]
      by_cases cr : octet = 13
      · subst cr
        rw [(isIdle_step_cr idle).2, (isIdle_step_cr idle').2,
          ih (isIdle_step_cr idle).1 (isIdle_step_cr idle').1]
      -- Within a line it does not matter what ended the one before.
      have same : step scanner octet = step other octet := by
        rw [step, if_neg lf, if_neg cr, step, if_neg lf, if_neg cr, idle.1, idle.2, idle'.1,
          idle'.2]
      rw [same]

end Scanner

/-- Only a blank line dispatches a message. -/
theorem Reader.step_of_ne_nil (reader : Reader) {line : List Char} (nonempty : line ≠ []) :
    (reader.step line).2 = [] := by
  rw [Reader.step, if_neg nonempty]
  split_ifs <;> rfl

section Line

variable (front : List UInt8) (c : Char) (text : List Char) (ascii : c.toNat < 0x80)
variable (inline : ∀ octet ∈ Utf8.encode (c :: text), octet ≠ 10 ∧ octet ≠ 13)

theorem encode_cons_ne_nil (c : Char) (text : List Char) : Utf8.encode (c :: text) ≠ [] := by
  intro empty
  cases Utf8.encode_injective (empty.trans Utf8.encode_nil.symm)

include inline

/-- Behind a blank line the scanner starts anew. -/
theorem scan_append_line : scan (front ++ (Utf8.encode (c :: text) ++ [10, 10])) = {} := by
  rw [scan, Mealy.final_append]
  exact (Scanner.run_line _ _ inline (encode_cons_ne_nil c text)).1

include ascii

/-- The rest of a line is read together with what is there of it. -/
theorem messages_append_line :
    messages (front ++ (Utf8.encode (c :: text) ++ [10, 10])) = messages front ++
      (((scan front).reader.step (Utf8.decodeLossy (scan front).line ++ c :: text)).1.step []).2 := by
  rw [messages_append, (Scanner.run_line _ _ inline (encode_cons_ne_nil c text)).2,
    Utf8.decodeLossy_append_encode ascii]
  simp only [Reader.step_of_ne_nil _ (List.append_ne_nil_of_right_ne_nil _ (List.cons_ne_nil c text)),
    List.nil_append]

end Line

end TiyGate.Text.Sse
