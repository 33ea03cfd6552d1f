import Metronome.Adapter.Message
import Metronome.Decimal.Reading
import Metronome.Text.Blank
import Metronome.Text.Quoted
import Metronome.Text.Utf8

namespace Metronome.Adapter

open Metronome.Text (splitLine utf8Bytes utf8Text?)

inductive ReadError where
  | truncated
  | notText
  | badHeader (line : String)
  | malformed
  deriving DecidableEq, Repr

def ReadError.message : ReadError → String
  | truncated => "transport error: failed to fill whole buffer"
  | notText => "transport error: stream did not contain valid UTF-8"
  | badHeader line => "invalid header line: " ++ Text.quoted line
  | malformed => "malformed message: not a message"

def ReadError.cause? : ReadError → Option String
  | truncated => some "failed to fill whole buffer"
  | notText => some "stream did not contain valid UTF-8"
  | badHeader _ => none
  | malformed => some "not a message"

def lengthName : List Char := "Content-Length".toList

def frame (body : List UInt8) : List UInt8 :=
  utf8Bytes (lengthName ++ ": ".toList ++ Nat.toDigits 10 body.length ++ "\r\n\r\n".toList) ++ body

def Message.encode (message : Message) : List UInt8 :=
  frame (utf8Bytes message.write.toList)

def headerText (line : List Char) : List Char :=
  Text.dropEndWhile (fun c => c == '\r' || c == '\n') line

def readHeaderLine (line : List Char) : Except ReadError (Option Nat) :=
  if line.contains ':' then
    if Text.sameIgnoringCase (line.takeWhile (· != ':')) lengthName then
      match Decimal.unsigned? (Text.trim ((line.dropWhile (· != ':')).drop 1)) with
      | some length => .ok (some length)
      | none => .error (.badHeader (String.ofList line))
    else .ok none
  else .error (.badHeader (String.ofList line))

theorem length_splitLine_lt {byte : UInt8} {rest : List UInt8} :
    (splitLine (byte :: rest)).2.length < (byte :: rest).length := by
  have whole := congrArg List.length (Text.splitLine_append (byte :: rest))
  have first : 0 < (splitLine (byte :: rest)).1.length := by
    by_cases feed : byte = 10 <;> simp [splitLine, feed]
  rw [List.length_append] at whole
  omega

/-- Reads a header to its end: the length that it gives last, and what follows it. Empty lines
before a length count for nothing. There is no header where the stream ends. -/
def readHeader (length : Option Nat) : List UInt8 → Except ReadError (Option (Nat × List UInt8))
  | [] => .ok none
  | byte :: rest =>
    let line := splitLine (byte :: rest)
    match utf8Text? line.1 with
    | none => .error .notText
    | some text =>
      match headerText text, length with
      | [], some length => .ok (some (length, line.2))
      | [], none => readHeader none line.2
      | header, _ =>
        match readHeaderLine header with
        | .ok given => readHeader (given.or length) line.2
        | .error error => .error error
termination_by bytes => bytes.length
decreasing_by all_goals exact length_splitLine_lt

def unframe (stream : List UInt8) : Except ReadError (Option (List UInt8 × List UInt8)) :=
  match readHeader none stream with
  | .error error => .error error
  | .ok none => .ok none
  | .ok (some (length, rest)) =>
    if rest.length < length then .error .truncated
    else .ok (some (rest.take length, rest.drop length))

def Message.decode? (body : List UInt8) : Option Message :=
  (utf8Text? body).bind Message.read?

def Message.take (stream : List UInt8) : Except ReadError (Option (Message × List UInt8)) :=
  match unframe stream with
  | .error error => .error error
  | .ok none => .ok none
  | .ok (some (body, rest)) =>
    match Message.decode? body with
    | some message => .ok (some (message, rest))
    | none => .error .malformed

def Message.takeMany : Nat → List UInt8 → List Message × Option ReadError
  | 0, _ => ([], none)
  | count + 1, stream =>
    match Message.take stream with
    | .error error => ([], some error)
    | .ok none => ([], none)
    | .ok (some (message, rest)) =>
      let (messages, error) := Message.takeMany count rest
      (message :: messages, error)

def Message.takeAll (stream : List UInt8) : List Message × Option ReadError :=
  Message.takeMany (stream.length + 1) stream

end Metronome.Adapter
