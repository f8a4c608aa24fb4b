import CallDebugger.Link.Receiver
import CallDebugger.Link.SocketError
import Std.Async.DNS
import Std.Async.TCP

/-!
# Wires

A `Wire` carries the messages of a link over a socket. It never makes its owner wait: polling gives
the events that have come up since the last time. What is sent before the socket is connected waits
until it is.
-/

namespace CallDebugger

open Std.Async

/-- Where the socket of a wire stands. -/
inductive WireState where
  | opening (socket : AsyncTask TCP.Socket.Client)
  /-- Bytes are awaited, and what came before them is in the receiver. -/
  | up (socket : TCP.Socket.Client) (arriving : AsyncTask (Option ByteArray)) (receiver : Receiver)
  | down

/-- A wire, and how many of the messages of its link it has written. -/
structure Wire where
  state : WireState
  written : Nat

namespace Wire

/-- What is said of a local socket, which no wire is made for. -/
def unsupportedText : String := "local domain sockets are not supported on this platform"

/-- The number of a system error, which is told as it is or with its sign changed. -/
def codeOf? : IO.Error → Option UInt32
  | .alreadyExists _ code _ | .otherError code _ | .resourceBusy code _
  | .resourceVanished code _ | .unsupportedOperation code _ | .hardwareFault code _
  | .unsatisfiedConstraints code _ | .illegalOperation code _ | .protocolError code _
  | .timeExpired code _ | .interrupted _ code _ | .noFileOrDirectory _ code _
  | .invalidArgument _ code _ | .permissionDenied _ code _ | .resourceExhausted _ code _
  | .inappropriateType _ code _ | .noSuchThing _ code _ => some code
  | .unexpectedEof | .userError _ => none

/-- The wording of a system error. -/
def reasonOf (e : IO.Error) : String :=
  let cause := (codeOf? e).bind fun code =>
    (SocketError.ofCode? code.toNat).or (SocketError.ofCode? (-code).toNat)
  match cause with
  | some cause => cause.message
  | none => e.toString

/-- How many bytes are awaited at a time. -/
def chunkSize : UInt64 := 65536

/-- The address that an address of a host and a port make. -/
def address (port : UInt16) : Std.Net.IPAddr → Std.Net.SocketAddress
  | .v4 host => .v4 ⟨host, port⟩
  | .v6 host => .v6 ⟨host, port⟩

/-- The addresses of a host and a port. -/
def addresses (host : String) (port : UInt16) : Async (List Std.Net.SocketAddress) := do
  return (← DNS.getAddrInfo host (toString port.toNat)).toList.map (address port)

/-- Connects to the first address that can be connected to. -/
def connectAny : List Std.Net.SocketAddress → Async TCP.Socket.Client
  | [] => throw (IO.userError "could not resolve to any addresses")
  | a :: rest => do
    let socket ← TCP.Socket.Client.mk
    try
      socket.connect a
      socket.noDelay
      return socket
    catch e => if rest.isEmpty then throw e else connectAny rest

/-- A wire that is down from the start. -/
def broken : Wire := ⟨.down, 0⟩

/-- A wire to an endpoint, and what is known at once. -/
def dial : Endpoint → IO (Wire × List LinkEvent)
  | .unix _ => return (broken, [.disconnected unsupportedText])
  | .tcp host port => do
    let socket ← (do connectAny (← addresses host port) : Async TCP.Socket.Client).toIO
    return (⟨.opening socket, 0⟩, [])

/-- A wire for the first one who connects to an endpoint, and the endpoint that is listened on. -/
def listen : Endpoint → IO (Wire × Endpoint)
  | .unix _ => throw (IO.userError unsupportedText)
  | .tcp host port => do
    let a :: _ ← (addresses host port).block
      | throw (IO.userError "could not resolve to any addresses")
    let server ← TCP.Socket.Server.mk
    server.bind a
    server.listen 1
    let bound := match ← server.getSockName with
      | .v4 a => Endpoint.tcp a.addr.toString a.port
      | .v6 a => Endpoint.tcp a.addr.toString a.port
    return (⟨.opening (← server.accept.toIO), 0⟩, bound)

/-- Puts the wire down. -/
def close (w : Wire) : IO Wire := do
  if let .up socket _ _ := w.state then
    try socket.shutdown.block catch _ => pure ()
  return { w with state := .down }

/-- The wire goes down, for a reason. -/
def fail (w : Wire) (reason : String) : IO (Wire × List LinkEvent) := do
  return (← w.close, [.disconnected reason])

/-- What has come up since the last time. -/
def poll (w : Wire) : IO (Wire × List LinkEvent) := do
  match w.state with
  | .down => return (w, [])
  | .opening opened =>
    if !(← IO.hasFinished opened) then return (w, [])
    match opened.get with
    | .error e => w.fail (reasonOf e)
    | .ok socket =>
      let arriving ← (socket.recv? chunkSize).toIO
      return ({ w with state := .up socket arriving .start }, [.connected])
  | .up socket arriving receiver =>
    if !(← IO.hasFinished arriving) then return (w, [])
    match arriving.get with
    | .error e => w.fail (reasonOf e)
    | .ok none => w.fail Receiver.endOfStream
    | .ok (some bytes) =>
      let progress := receiver.feed bytes.toList
      let events := progress.messages.map LinkEvent.message
      match progress.next with
      | .error e =>
        let (w, ended) ← w.fail e.message
        return (w, events ++ ended)
      | .ok receiver =>
        let arriving ← (socket.recv? chunkSize).toIO
        return ({ w with state := .up socket arriving receiver }, events)

/-- Writes the messages that were sent and not written, in one go. -/
def flush (w : Wire) (sent : List Message) : IO (Wire × List LinkEvent) := do
  match w.state with
  | .up socket _ _ =>
    let frames := (sent.drop w.written).filterMap fun m => (Frame.encode m).toOption
    if frames.isEmpty then return (w, [])
    try
      (socket.send ⟨frames.flatten.toArray⟩).block
      return ({ w with written := sent.length }, [])
    catch e => w.fail (reasonOf e)
  | _ => return (w, [])

end Wire

end CallDebugger
