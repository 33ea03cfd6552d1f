import Metronome.Value.Reading
import Metronome.Value.Writing

/-!
Messages of the Debug Adapter Protocol and their JSON text. What a message is shows in the fields
that it has, whatever its type says: a response also has a command, so that a response is looked
for first, then an event, then a request.
-/
namespace Metronome.Adapter

inductive Content where
  | response (requestSeq : Nat) (success : Bool) (command : String) (message : Option String)
      (body : Option Value)
  | event (name : String) (body : Option Value)
  | request (command : String) (arguments : Option Value)

def Content.kind : Content → String
  | .response .. => "response"
  | .event .. => "event"
  | .request .. => "request"

structure Message where
  seq : Nat
  kind : String
  content : Content

def optionalField (name : String) : Option Value → List (String × Value)
  | some value => [(name, value)]
  | none => []

def Content.fields : Content → List (String × Value)
  | .response requestSeq success command message body =>
    [("request_seq", .ofNat requestSeq), ("success", .bool success), ("command", .text command)] ++
      optionalField "message" (message.map .text) ++ optionalField "body" body
  | .event name body => ("event", .text name) :: optionalField "body" body
  | .request command arguments =>
    ("command", .text command) :: optionalField "arguments" arguments

def Message.fields (message : Message) : List (String × Value) :=
  ("seq", .ofNat message.seq) :: ("type", .text message.kind) :: message.content.fields

def Message.write (message : Message) : String :=
  "\x7b" ++ Value.writeFields message.fields ++ "\x7d"

/-- The value of a field that a message may have, but once. -/
def fieldOnce? (name : String) (fields : List (String × Value)) : Option (Option Value) :=
  match fields.filter (·.1 == name) with
  | [] => some none
  | [(_, value)] => some (some value)
  | _ => none

def required? {α : Type} (name : String) (form : Value → Option α)
    (fields : List (String × Value)) : Option α := do
  (← fieldOnce? name fields).bind form

/-- The value of a field that a message may have; null stands for none. -/
def optional? {α : Type} (name : String) (form : Value → Option α)
    (fields : List (String × Value)) : Option (Option α) := do
  match ← fieldOnce? name fields with
  | none | some .null => some none
  | some value => (form value).map some

def readResponse? (fields : List (String × Value)) : Option Content := do
  let requestSeq ← required? "request_seq" Value.unsigned? fields
  let success ← required? "success" Value.bool? fields
  let command ← required? "command" Value.text? fields
  let message ← optional? "message" Value.text? fields
  let body ← optional? "body" some fields
  return .response requestSeq success command message body

def readEvent? (fields : List (String × Value)) : Option Content := do
  let name ← required? "event" Value.text? fields
  let body ← optional? "body" some fields
  return .event name body

def readRequest? (fields : List (String × Value)) : Option Content := do
  let command ← required? "command" Value.text? fields
  let arguments ← optional? "arguments" some fields
  return .request command arguments

/-- The content that fields make up; fields that it does not know count for nothing. -/
def Content.ofFields? (fields : List (String × Value)) : Option Content :=
  (readResponse? fields).or ((readEvent? fields).or (readRequest? fields))

def Message.ofFields? (fields : List (String × Value)) : Option Message := do
  let seq ← required? "seq" Value.unsigned? fields
  let kind ← required? "type" Value.text? fields
  let content ← Content.ofFields? fields
  return ⟨seq, kind, content⟩

def Message.read? (text : List Char) : Option Message :=
  (Json.readFields? text).bind Message.ofFields?

end Metronome.Adapter
