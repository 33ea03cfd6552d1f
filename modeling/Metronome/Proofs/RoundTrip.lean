import Metronome.Adapter.Framing
import Metronome.Proofs.ReadingBack

namespace Metronome

open Metronome.Decimal (maxUnsigned)
open Metronome.Json (Legible ReadsBack nestingLimit)
open Metronome.Text (utf8Bytes utf8Text? splitLine)

namespace Json

theorem readFields?_writeFields {fields : List (String × Value)}
    (readable : ∀ field ∈ fields, ReadsBack (nestingLimit - 2) field.2) :
    readFields? ("\x7b" ++ Value.writeFields fields ++ "\x7d").toList = some fields := by
  have written : ("\x7b" ++ Value.writeFields fields ++ "\x7d").toList =
      '\x7b' :: ((Value.writeFields fields).toList ++ '\x7d' :: []) := by
    rw [String.toList_append, String.toList_append, List.append_assoc]
    rfl
  unfold readFields?
  rw [written, skipBlanks_cons rfl]
  simp only [readObject_writeFields readable]
  rfl

end Json

namespace Adapter

/-- A value that can stand in a field of its own: null would be taken for no value at all. -/
def Carried (value : Value) : Prop :=
  value.isNull = false ∧ Legible value ∧ value.depth ≤ nestingLimit - 2

def Content.Sendable : Content → Prop
  | .response requestSeq _ _ _ body =>
    requestSeq ≤ maxUnsigned ∧ ∀ value, body = some value → Carried value
  | .event _ body => ∀ value, body = some value → Carried value
  | .request _ arguments => ∀ value, arguments = some value → Carried value

/-- A message whose numbers and whose length fit 64 bits, and whose values can be read back. -/
structure Message.Sendable (message : Message) : Prop where
  seq : message.seq ≤ maxUnsigned
  content : message.content.Sendable
  length : (utf8Bytes message.write.toList).length ≤ maxUnsigned

theorem unsigned?_ofNat {n : Nat} (fits : n ≤ maxUnsigned) :
    (Value.ofNat n).unsigned? = some n := by
  have within : Numeral.inUnsigned (n : Int) = true := by
    simp only [Numeral.inUnsigned, Bool.and_eq_true, decide_eq_true_eq]
    exact ⟨Int.natCast_nonneg n, Int.ofNat_lt.mpr (Nat.lt_succ_of_le fits)⟩
  change Numeral.unsigned? (.int n) = some n
  rw [Numeral.unsigned?, if_pos within]
  rfl

theorem required?_of_once {α : Type} {name : String} {form : Value → Option α}
    {fields : List (String × Value)} {value : Value}
    (once : fieldOnce? name fields = some (some value)) :
    required? name form fields = form value := by
  unfold required?
  rw [once]
  rfl

theorem optional?_of_once {name : String} {fields : List (String × Value)} {value : Value}
    (once : fieldOnce? name fields = some (some value)) (solid : value.isNull = false) :
    optional? name some fields = some (some value) := by
  unfold optional?
  rw [once]
  cases value with
  | null => cases solid
  | _ => rfl

section

variable (seq kind : Value)

def headed (content : Content) : List (String × Value) :=
  ("seq", seq) :: ("type", kind) :: content.fields

theorem readResponse?_headed {requestSeq : Nat} (number : requestSeq ≤ maxUnsigned) (success : Bool)
    (command : String) (message : Option String) {body : Option Value}
    (carried : ∀ value, body = some value → Carried value) :
    readResponse? (headed seq kind (.response requestSeq success command message body)) =
      some (.response requestSeq success command message body) := by
  generalize made : headed seq kind (.response requestSeq success command message body) = fields
  have requestSeqs : required? "request_seq" Value.unsigned? fields = some requestSeq := by
    refine (required?_of_once ?_).trans (unsigned?_ofNat number)
    subst made
    cases message <;> cases body <;> rfl
  have successes : required? "success" Value.bool? fields = some success := by
    subst made
    cases message <;> cases body <;> rfl
  have commands : required? "command" Value.text? fields = some command := by
    subst made
    cases message <;> cases body <;> rfl
  have messages : optional? "message" Value.text? fields = some message := by
    subst made
    cases message <;> cases body <;> rfl
  have bodies : optional? "body" some fields = some body := by
    subst made
    cases body with
    | none => cases message <;> rfl
    | some value =>
      refine optional?_of_once ?_ (carried value rfl).1
      cases message <;> rfl
  unfold readResponse?
  rw [requestSeqs, successes, commands, messages, bodies]
  rfl

theorem readEvent?_headed (name : String) {body : Option Value}
    (carried : ∀ value, body = some value → Carried value) :
    readResponse? (headed seq kind (.event name body)) = none ∧
      readEvent? (headed seq kind (.event name body)) = some (.event name body) := by
  constructor
  · cases body <;> rfl
  · have bodies : optional? "body" some (headed seq kind (.event name body)) = some body := by
      cases body with
      | none => rfl
      | some value => exact optional?_of_once rfl (carried value rfl).1
    have names : required? "event" Value.text? (headed seq kind (.event name body)) =
        some name := by
      cases body <;> rfl
    unfold readEvent?
    rw [names, bodies]
    rfl

theorem readRequest?_headed (command : String) {arguments : Option Value}
    (carried : ∀ value, arguments = some value → Carried value) :
    readResponse? (headed seq kind (.request command arguments)) = none ∧
      readEvent? (headed seq kind (.request command arguments)) = none ∧
        readRequest? (headed seq kind (.request command arguments)) =
          some (.request command arguments) := by
  refine ⟨by cases arguments <;> rfl, by cases arguments <;> rfl, ?_⟩
  have given : optional? "arguments" some (headed seq kind (.request command arguments)) =
      some arguments := by
    cases arguments with
    | none => rfl
    | some value => exact optional?_of_once rfl (carried value rfl).1
  have commands : required? "command" Value.text? (headed seq kind (.request command arguments)) =
      some command := by
    cases arguments <;> rfl
  unfold readRequest?
  rw [commands, given]
  rfl

theorem ofFields?_headed {content : Content} (sendable : content.Sendable) :
    Content.ofFields? (headed seq kind content) = some content := by
  unfold Content.ofFields?
  cases content with
  | response requestSeq success command message body =>
    rw [readResponse?_headed seq kind sendable.1 success command message sendable.2]
    rfl
  | event name body =>
    obtain ⟨noResponse, event⟩ := readEvent?_headed seq kind name sendable
    rw [noResponse, event]
    rfl
  | request command arguments =>
    obtain ⟨noResponse, noEvent, request⟩ := readRequest?_headed seq kind command sendable
    rw [noResponse, noEvent, request]
    rfl

theorem fieldOnce?_headed (content : Content) :
    fieldOnce? "seq" (headed seq kind content) = some (some seq) ∧
      fieldOnce? "type" (headed seq kind content) = some (some kind) := by
  cases content with
  | response _ _ _ message body => cases message <;> cases body <;> exact ⟨rfl, rfl⟩
  | event _ body => cases body <;> exact ⟨rfl, rfl⟩
  | request _ arguments => cases arguments <;> exact ⟨rfl, rfl⟩

end

theorem mem_optionalField {name : String} {value : Option Value} {field : String × Value}
    (member : field ∈ optionalField name value) : value = some field.2 := by
  cases value with
  | none => cases member
  | some value =>
    rw [List.mem_singleton.mp member]

theorem Carried.readsBack {value : Value} (carried : Carried value) :
    ReadsBack (nestingLimit - 2) value :=
  Json.readsBack value carried.2.1 carried.2.2

theorem Content.Sendable.readable {content : Content} (sendable : content.Sendable) :
    ∀ field ∈ content.fields, ReadsBack (nestingLimit - 2) field.2 := by
  intro field member
  cases content with
  | response requestSeq success command message body =>
    rcases List.mem_append.mp member with member | member
    · rcases List.mem_append.mp member with member | member
      · simp only [List.mem_cons, List.not_mem_nil, or_false] at member
        rcases member with rfl | rfl | rfl
        · exact Json.readsBack_nat _ _ sendable.1
        · exact Json.readsBack (.bool success) trivial (Nat.zero_le _)
        · exact Json.readsBack_text _ command
      · have told := mem_optionalField member
        cases message with
        | none => cases told
        | some message =>
          rw [← Option.some.inj told]
          exact Json.readsBack_text _ message
    · exact (sendable.2 _ (mem_optionalField member)).readsBack
  | event name body =>
    rcases List.mem_cons.mp member with rfl | member
    · exact Json.readsBack_text _ name
    · exact (sendable _ (mem_optionalField member)).readsBack
  | request command arguments =>
    rcases List.mem_cons.mp member with rfl | member
    · exact Json.readsBack_text _ command
    · exact (sendable _ (mem_optionalField member)).readsBack

namespace Message.Sendable

variable {message : Message}

theorem ofFields?_fields (sendable : message.Sendable) :
    Message.ofFields? message.fields = some message := by
  obtain ⟨seq, kind, content⟩ := message
  obtain ⟨seqOnce, kindOnce⟩ := fieldOnce?_headed (.ofNat seq) (.text kind) content
  have contents := ofFields?_headed (.ofNat seq) (.text kind) sendable.content
  have seqs := (required?_of_once seqOnce).trans (unsigned?_ofNat sendable.seq)
  have kinds : required? "type" Value.text? (headed (.ofNat seq) (.text kind) content) =
      some kind := required?_of_once kindOnce
  change Message.ofFields? (headed (.ofNat seq) (.text kind) content) = _
  unfold Message.ofFields?
  rw [seqs, kinds, contents]
  rfl

theorem read?_write (sendable : message.Sendable) :
    Message.read? message.write.toList = some message := by
  have readable : ∀ field ∈ message.fields, ReadsBack (nestingLimit - 2) field.2 := by
    intro field member
    rcases List.mem_cons.mp member with rfl | member
    · exact Json.readsBack_nat _ _ sendable.seq
    · rcases List.mem_cons.mp member with rfl | member
      · exact Json.readsBack_text _ _
      · exact sendable.content.readable field member
  rw [Message.read?, Message.write, Json.readFields?_writeFields readable]
  exact sendable.ofFields?_fields

end Message.Sendable

theorem splitLine_line {line : List Char} (plain : ∀ c ∈ line, 10 ∉ String.utf8EncodeChar c)
    (rest : List UInt8) :
    splitLine (utf8Bytes (line ++ ['\n']) ++ rest) = (utf8Bytes (line ++ ['\n']), rest) := by
  have splits : ∀ bytes : List UInt8, 10 ∉ bytes →
      splitLine (bytes ++ 10 :: rest) = (bytes ++ [10], rest) := by
    intro bytes
    induction bytes with
    | nil => exact fun _ => rfl
    | cons byte bytes ih =>
      intro other
      rw [List.mem_cons, not_or] at other
      rw [List.cons_append, splitLine, if_neg (Ne.symm other.1), ih other.2]
      rfl
  have bytes : utf8Bytes (line ++ ['\n']) = utf8Bytes line ++ [10] := by
    rw [Text.utf8Bytes_append]
    rfl
  rw [bytes, List.append_assoc]
  apply splits
  intro member
  obtain ⟨c, inside, feed⟩ := List.mem_flatMap.mp member
  exact plain c inside feed

theorem digit_plain {c : Char} (digit : c.isDigit = true) :
    10 ∉ String.utf8EncodeChar c ∧ c ≠ '\r' ∧ c ≠ '\n' ∧ c ≠ '+' ∧ Text.isBlank c = false := by
  have bounds : 48 ≤ c.toNat ∧ c.toNat < 58 := by
    simp only [Char.isDigit, Bool.and_eq_true, decide_eq_true_eq, ge_iff_le, UInt32.le_iff_toNat_le]
      at digit
    exact ⟨digit.1, Nat.lt_succ_of_le digit.2⟩
  have all : ∀ n < 58, 48 ≤ n → 10 ∉ String.utf8EncodeChar (Char.ofNat n) ∧ Char.ofNat n ≠ '\r' ∧
      Char.ofNat n ≠ '\n' ∧ Char.ofNat n ≠ '+' ∧ Text.isBlank (Char.ofNat n) = false := by
    decide
  have plain := all c.toNat bounds.2 bounds.1
  rw [Char.ofNat_toNat] at plain
  exact plain

theorem toDigits_isDigit (n : Nat) : ∀ c ∈ Nat.toDigits 10 n, c.isDigit = true :=
  fun _ member => Nat.isDigit_of_mem_toDigits (by decide) (by decide) member

theorem toDigits_last (n : Nat) :
    ∃ front last, Nat.toDigits 10 n = front ++ [last] ∧ last.isDigit = true := by
  rcases List.eq_nil_or_concat (Nat.toDigits 10 n) with none | ⟨front, last, digits⟩
  · exact absurd none Nat.toDigits_ne_nil
  · rw [List.concat_eq_append] at digits
    have member : last ∈ Nat.toDigits 10 n := by
      rw [digits]
      exact List.mem_append_right _ List.mem_cons_self
    exact ⟨front, last, digits, toDigits_isDigit n last member⟩

theorem dropEndWhile_append {drop : Char → Bool} (ending : List Char)
    (drops : ∀ c ∈ ending, drop c = true) (front : List Char) {last : Char}
    (stays : drop last = false) :
    Text.dropEndWhile drop (front ++ [last] ++ ending) = front ++ [last] := by
  unfold Text.dropEndWhile
  rw [List.reverse_append, List.dropWhile_append_of_pos, List.reverse_append]
  · rw [List.reverse_singleton, List.singleton_append,
      List.dropWhile_cons_of_neg (ne_true_of_eq_false stays), List.reverse_cons,
      List.reverse_reverse]
  · exact fun c member => drops c (List.mem_reverse.mp member)

def lengthLine (n : Nat) : List Char :=
  lengthName ++ ':' :: ' ' :: Nat.toDigits 10 n

theorem unsigned?_toDigits {n : Nat} (fits : n ≤ maxUnsigned) :
    Decimal.unsigned? (Nat.toDigits 10 n) = some n := by
  have value : Decimal.ofDigits (Nat.toDigits 10 n) = n :=
    Nat.ofDigitChars_eq_foldl.symm.trans Nat.ofDigitChars_ten_toDigits
  have all : (Nat.toDigits 10 n).all Char.isDigit = true :=
    List.all_eq_true.mpr (toDigits_isDigit n)
  unfold Decimal.unsigned?
  split
  · rename_i rest same
    have plus := toDigits_isDigit n '+' (by rw [same]; exact List.mem_cons_self)
    exact absurd plus (by decide)
  · simp [all, value, fits]

theorem trim_toDigits (n : Nat) : Text.trim (' ' :: Nat.toDigits 10 n) = Nat.toDigits 10 n := by
  have starts : Text.trimStart (' ' :: Nat.toDigits 10 n) = Nat.toDigits 10 n := by
    cases digits : Nat.toDigits 10 n with
    | nil => rfl
    | cons c more =>
      have digit := toDigits_isDigit n c (by rw [digits]; exact List.mem_cons_self)
      exact List.dropWhile_cons_of_neg (ne_true_of_eq_false (digit_plain digit).2.2.2.2)
  obtain ⟨front, last, digits, digit⟩ := toDigits_last n
  have whole := dropEndWhile_append [] nofun front (digit_plain digit).2.2.2.2
  rw [Text.trim, starts, digits]
  rw [List.append_nil] at whole
  exact whole

theorem readHeaderLine_lengthLine {n : Nat} (fits : n ≤ maxUnsigned) :
    readHeaderLine (lengthLine n) = .ok (some n) := by
  have colon : (lengthLine n).contains ':' = true := rfl
  have name : (lengthLine n).takeWhile (· != ':') = lengthName := rfl
  have value : ((lengthLine n).dropWhile (· != ':')).drop 1 = ' ' :: Nat.toDigits 10 n := rfl
  have same : Text.sameIgnoringCase lengthName lengthName = true := by decide
  unfold readHeaderLine
  rw [if_pos colon, name, if_pos same, value, trim_toDigits, unsigned?_toDigits fits]

theorem headerText_lengthLine (n : Nat) :
    headerText (lengthLine n ++ ['\r'] ++ ['\n']) = lengthLine n := by
  obtain ⟨front, last, digits, digit⟩ := toDigits_last n
  obtain ⟨-, noReturn, noFeed, -, -⟩ := digit_plain digit
  have line : lengthLine n = lengthName ++ ':' :: ' ' :: front ++ [last] := by
    rw [lengthLine, digits]
    simp
  have stays : (last == '\r' || last == '\n') = false := by
    simp [noReturn, noFeed]
  have ends : ∀ c ∈ ['\r', '\n'], (c == '\r' || c == '\n') = true := by simp
  unfold headerText
  rw [List.append_assoc (lengthLine n), line]
  exact dropEndWhile_append ['\r', '\n'] ends _ stays

theorem readHeader_line {line : List Char} (plain : ∀ c ∈ line, 10 ∉ String.utf8EncodeChar c)
    (length : Option Nat) (rest : List UInt8) :
    readHeader length (utf8Bytes (line ++ ['\n']) ++ rest) =
      match headerText (line ++ ['\n']), length with
      | [], some length => .ok (some (length, rest))
      | [], none => readHeader none rest
      | header, _ =>
        match readHeaderLine header with
        | .ok given => readHeader (given.or length) rest
        | .error error => .error error := by
  have splits := splitLine_line plain rest
  have decodes := Text.utf8Text?_utf8Bytes (line ++ ['\n'])
  cases bytes : utf8Bytes (line ++ ['\n']) ++ rest with
  | nil =>
    rw [Text.utf8Bytes_append] at bytes
    cases (List.append_eq_nil_iff.mp (List.append_eq_nil_iff.mp bytes).1).2
  | cons byte more =>
    rw [bytes] at splits
    rw [readHeader]
    cases shows : headerText (line ++ ['\n']) with
    | nil => cases length <;> simp only [splits, decodes, shows]
    | cons c header =>
      cases reads : readHeaderLine (c :: header) <;> simp only [splits, decodes, shows, reads]

theorem lengthLine_plain (n : Nat) :
    ∀ c ∈ lengthLine n ++ ['\r'], 10 ∉ String.utf8EncodeChar c := by
  have fixed : (lengthName ++ [':', ' ', '\r']).all (10 ∉ String.utf8EncodeChar ·) = true := by
    decide
  intro c member
  simp only [lengthLine, List.mem_append, List.mem_cons, List.not_mem_nil, or_false,
    List.all_eq_true, decide_eq_true_eq] at member fixed
  rcases member with (name | colon | blank | digit) | feed
  · exact fixed c (.inl name)
  · exact fixed c (.inr (.inl colon))
  · exact fixed c (.inr (.inr (.inl blank)))
  · exact (digit_plain (toDigits_isDigit n c digit)).1
  · exact fixed c (.inr (.inr (.inr feed)))

theorem frame_eq (body : List UInt8) :
    frame body = utf8Bytes (lengthLine body.length ++ ['\r'] ++ ['\n']) ++
      (utf8Bytes (['\r'] ++ ['\n']) ++ body) := by
  rw [frame, ← List.append_assoc, ← Text.utf8Bytes_append]
  simp [lengthLine]

theorem readHeader_frame {body : List UInt8} (fits : body.length ≤ maxUnsigned)
    (rest : List UInt8) :
    readHeader none (frame body ++ rest) = .ok (some (body.length, body ++ rest)) := by
  have first : readHeader none (frame body ++ rest) =
      readHeader (some body.length) (utf8Bytes (['\r'] ++ ['\n']) ++ (body ++ rest)) := by
    rw [frame_eq, List.append_assoc (utf8Bytes (lengthLine _ ++ _ ++ _)),
      List.append_assoc (utf8Bytes (_ ++ _)), readHeader_line (lengthLine_plain _),
      headerText_lengthLine]
    have reads := readHeaderLine_lengthLine fits
    cases line : lengthLine body.length with
    | nil => cases line
    | cons c more =>
      rw [line] at reads
      simp only [reads, Option.some_or]
  have blank : headerText (['\r'] ++ ['\n']) = [] := rfl
  have plain : ∀ c ∈ ['\r'], 10 ∉ String.utf8EncodeChar c :=
    fun c member => lengthLine_plain 0 c (List.mem_append_right _ member)
  rw [first, readHeader_line plain, blank]

theorem unframe_frame {body : List UInt8} (fits : body.length ≤ maxUnsigned) (rest : List UInt8) :
    unframe (frame body ++ rest) = .ok (some (body, rest)) := by
  have within : ¬(body ++ rest).length < body.length := by
    rw [List.length_append]
    omega
  unfold unframe
  rw [readHeader_frame fits]
  simp only [if_neg within, List.take_left, List.drop_left]

theorem Message.Sendable.take_encode {message : Message} (sendable : message.Sendable)
    (rest : List UInt8) : Message.take (message.encode ++ rest) = .ok (some (message, rest)) := by
  have decodes : Message.decode? (utf8Bytes message.write.toList) = some message := by
    rw [Message.decode?, Text.utf8Text?_utf8Bytes, Option.bind_some, sendable.read?_write]
  unfold Message.take Message.encode
  rw [unframe_frame sendable.length]
  simp only [decodes]

theorem take_nil : Message.take [] = .ok none := by
  have ended : readHeader none [] = .ok none := by rw [readHeader]
  unfold Message.take unframe
  rw [ended]

theorem encode_length_pos (message : Message) : 0 < message.encode.length := by
  have feed : (utf8Bytes ['\n']).length = 1 := rfl
  rw [Message.encode, frame_eq, Text.utf8Bytes_append, List.length_append, List.length_append, feed]
  omega

theorem length_le_encodings (messages : List Message) :
    messages.length ≤ (messages.flatMap Message.encode).length := by
  induction messages with
  | nil => exact Nat.le_refl 0
  | cons message messages ih =>
    have first := encode_length_pos message
    rw [List.flatMap_cons, List.length_append, List.length_cons]
    omega

/-- Reading takes these messages off a stream one after the other, and then finds its end. -/
inductive Gives : List UInt8 → List Message → Prop where
  | ended {stream : List UInt8} (ends : Message.take stream = .ok none) : Gives stream []
  | next {stream rest : List UInt8} {message : Message} {messages : List Message}
      (taken : Message.take stream = .ok (some (message, rest))) (more : Gives rest messages) :
      Gives stream (message :: messages)

theorem Gives.takeMany {stream : List UInt8} {messages : List Message}
    (gives : Gives stream messages) {count : Nat} (enough : messages.length < count) :
    Message.takeMany count stream = (messages, none) := by
  induction gives generalizing count with
  | ended ends =>
    cases count with
    | zero => cases enough
    | succ count => rw [Message.takeMany, ends]
  | next taken _ ih =>
    cases count with
    | zero => cases enough
    | succ count =>
      rw [Message.takeMany, taken]
      simp only [ih (Nat.lt_of_succ_lt_succ enough)]

/-- Reading from the encodings of messages gives those messages, and then the end of the stream. -/
theorem encodings_read_back {messages : List Message}
    (sendable : ∀ message ∈ messages, message.Sendable) :
    Gives (messages.flatMap Message.encode) messages ∧
      Message.takeAll (messages.flatMap Message.encode) = (messages, none) := by
  have gives : Gives (messages.flatMap Message.encode) messages := by
    induction messages with
    | nil => exact .ended take_nil
    | cons message messages ih =>
      have first := sendable message List.mem_cons_self
      exact .next (first.take_encode _)
        (ih fun other member => sendable other (List.mem_cons_of_mem _ member))
  exact ⟨gives, gives.takeMany (Nat.lt_succ_of_le (length_le_encodings messages))⟩

theorem half_legible : Json.LegibleNumeral (.float 0.5) := by
  intro depth rest closed
  have written : (Value.number (.float 0.5)).write.toList = ['0', '.', '5'] := by decide +kernel
  have reads : Json.readNumeral false ('0' :: (['.', '5'] ++ rest)) = some (.float 0.5, rest) := by
    cases closed <;> rfl
  rw [written, List.cons_append, Json.readValue_digit depth rfl, reads]
  rfl

def mixed : List Message :=
  let frames := Value.list [.object [("id", .ofNat 1), ("line", .ofInt (-3)), ("name", .null)]]
  [⟨1, "response", .response 7 true "stackTrace" none (some frames)⟩,
    ⟨2, "event", .event "output" (some (.text "Content-Length: 5\r\n\r\n"))⟩,
    ⟨3, "response", .response 8 false "launch" (some "naïve\x0c → \"…\"") none⟩,
    ⟨4, "request", .request "setSpeed" (some (.object [("speed", .number (.float 0.5))]))⟩,
    ⟨5, "request", .request "threads" none⟩]

theorem mixed_read_back : Message.takeAll (mixed.flatMap Message.encode) = (mixed, none) := by
  have numbered : ∀ message ∈ mixed, message.seq ≤ maxUnsigned := by decide
  have fits : ∀ message ∈ mixed, (utf8Bytes message.write.toList).length ≤ maxUnsigned := by
    decide +kernel
  have one : Json.LegibleNumeral (.int 1) := .inl rfl
  have minusThree : Json.LegibleNumeral (.int (-3)) := .inl rfl
  have contents : ∀ message ∈ mixed, message.content.Sendable := by
    intro message member
    simp only [mixed, List.mem_cons, List.not_mem_nil, or_false] at member
    rcases member with rfl | rfl | rfl | rfl | rfl
    · refine ⟨by decide, ?_⟩
      rintro value ⟨⟩
      have ordered : Json.Ordered [("id", .ofNat 1), ("line", .ofInt (-3)), ("name", .null)] := by
        unfold Json.Ordered
        decide
      exact ⟨rfl, ⟨⟨ordered, one, minusThree, trivial, trivial⟩, trivial⟩, by decide⟩
    · rintro value ⟨⟩
      exact ⟨rfl, trivial, by decide⟩
    · exact ⟨by decide, nofun⟩
    · rintro value ⟨⟩
      have ordered : Json.Ordered [("speed", .number (.float 0.5))] := List.pairwise_singleton ..
      exact ⟨rfl, ⟨ordered, half_legible, trivial⟩, by decide⟩
    · exact nofun
  exact (encodings_read_back fun message member =>
    ⟨numbered message member, contents message member, fits message member⟩).2

end Adapter

end Metronome
