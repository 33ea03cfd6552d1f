import Metronome.Adapter.Framing
import Metronome.Adapter.Session

namespace Metronome.Adapter

structure Served where
  session : Session
  rest : List UInt8
  error : Option ReadError

/-- Serves messages, as many as given at most, until the client leaves or the stream ends; then
the session is shut down. After an error it is left as it is. -/
def serveMany (now : Instant) : Nat → Session → List UInt8 → Served
  | 0, session, stream => ⟨session, stream, none⟩
  | count + 1, session, stream =>
    match Message.take stream with
    | .error error => ⟨session, stream, some error⟩
    | .ok none => ⟨session.shutDown false now, [], none⟩
    | .ok (some (message, rest)) =>
      match session.receive message now with
      | (session, true) => serveMany now count session rest
      | (session, false) => ⟨session.shutDown false now, rest, none⟩

def serve (session : Session) (stream : List UInt8) (now : Instant) : Served :=
  serveMany now (stream.length + 1) session stream

def Session.output (session : Session) : List UInt8 :=
  session.sent.toList.flatMap Message.encode

end Metronome.Adapter
