import RgbLightning.Base.Runs
import RgbLightning.Node.ChannelPeers

/-! # The connections to the peers

The command line, a loop that reconnects to the peers of the channels and a listener make
connections at the same time. Other peers connect, leave, and open and close channels when
they want. When the command line ends, it sets a flag that the other two read, and
disconnects all peers.
-/
namespace RgbLightning.Node
open Decimal Words Payment Runs

/-- The peer data as one turn of the loop has read it, from the lines stored so far. -/
structure PeerData where
  stored : List Text
  lookup : HostLookup
  info : PublicKey → Option SocketAddr

/-- A turn of the loop, with the connections it has tried. -/
structure ReconnectTurn where
  data : PeerData
  peers : List PublicKey
  channels : List PublicKey
  tried : List (PublicKey × SocketAddr)

/-- Where the loop is. `nodes` are the peers still to visit. -/
inductive ReconnectLoop where
  | waiting
  | read (data : PeerData)
  | gotPeers (data : PeerData) (peers : List PublicKey)
  | visiting (turn : ReconnectTurn) (nodes : List PublicKey)
  /-- The flag was not set. -/
  | chosen (turn : ReconnectTurn) (target : PublicKey × SocketAddr) (nodes : List PublicKey)
  | dialing (turn : ReconnectTurn) (target : PublicKey × SocketAddr) (nodes : List PublicKey)
  | awaiting (turn : ReconnectTurn) (target : PublicKey × SocketAddr) (nodes : List PublicKey)
  | returned

inductive Listener where
  | accepting
  | accepted
  /-- The flag was not set. -/
  | passed
  | returned
  deriving DecidableEq

/-- Where the command line is, as far as it deals with peers. A connection made for
`openchannel` has the word that is to be stored. -/
inductive PeerPrompt where
  | prompt
  | dialing (peer : PublicKey) (channel : Option Text)
  | awaiting (peer : PublicKey) (channel : Option Text)
  | creating (peer : PublicKey) (word : Text)
  | created (peer : PublicKey) (word : Text)
  /-- The peer had no channel. -/
  | withoutChannel (peer : PublicKey)
  | disconnecting (peer : PublicKey)
  | stopping
  | left

structure PeerState where
  connected : List PublicKey
  /-- Connections that the peer manager has, before the peer is known. -/
  handshakes : ℕ
  /-- The peer of each channel. -/
  channels : List PublicKey
  stored : List Text
  /-- The peers of the channels opened by the command line, once they are stored. -/
  opened : List PublicKey
  stopListenConnect : Bool
  loop : ReconnectLoop
  turns : List ReconnectTurn
  listener : Listener
  /-- Accepted connections whose task has not set them up. -/
  spawned : ℕ
  command : PeerPrompt

/-- The node starts with the lines of earlier runs. -/
def PeerState.init (channels : List PublicKey) (stored : List Text) : PeerState where
  connected := []
  handshakes := 0
  channels := channels
  stored := stored
  opened := []
  stopListenConnect := false
  loop := .waiting
  turns := []
  listener := .accepting
  spawned := 0
  command := .prompt

/-- Commands whose other arguments are accepted. -/
inductive PeerCommand where
  | connectpeer (word : Text)
  | openchannel (word : Text) (hword : IsWord word)
  | disconnectpeer (peer : PublicKey)
  | quit

inductive PeerInput where
  | channels (listed : List PublicKey)
  | handshake (peer : PublicKey)
  | handshakeFailed
  | lost (peer : PublicKey)
  | enter (command : PeerCommand) (lookup : HostLookup)
  /-- The command line goes on. The answer is that of the call under way; of a
  connection that is awaited it says whether it was closed. -/
  | command (answer : Bool)
  | reconnect (lookup : HostLookup) (answer : Bool)
  | listen
  | setupInbound

namespace PeerState
variable (keys : PublicKeyText) (parseSocketAddr : Text → Option SocketAddr) (s : PeerState)

/-- `connect_peer_if_necessary` -/
def connectPeerIfNecessary (peer : PublicKey) (channel : Option Text) : PeerState :=
  if s.connected.contains peer then
    match channel with
    | some word => { s with command := .creating peer word }
    | none => s
  else { s with command := .dialing peer channel }

def enter (lookup : HostLookup) : PeerCommand → PeerState
  | .connectpeer word =>
    match parsePeerInfo keys parseSocketAddr lookup word with
    | .ok (peer, _) => s.connectPeerIfNecessary peer none
    | .error _ => s
  | .openchannel word _ =>
    match parsePeerInfo keys parseSocketAddr lookup word with
    | .ok (peer, _) => s.connectPeerIfNecessary peer (some word)
    | .error _ => s
  | .disconnectpeer peer =>
    if s.channels.contains peer then s else { s with command := .withoutChannel peer }
  | .quit => { s with stopListenConnect := true, command := .stopping }

def commandStep (answer : Bool) : PeerState :=
  match s.command with
  | .prompt | .left => s
  | .dialing peer channel =>
    if answer then { s with handshakes := s.handshakes + 1, command := .awaiting peer channel }
    else { s with command := .prompt }
  | .awaiting peer channel =>
    if answer then { s with command := .prompt }
    else if s.connected.contains peer then
      match channel with
      | some word => { s with command := .creating peer word }
      | none => { s with command := .prompt }
    else s
  | .creating peer word =>
    if answer then { s with channels := s.channels ++ [peer], command := .created peer word }
    else { s with command := .prompt }
  | .created peer word =>
    if answer then
      { s with stored := s.stored ++ [word], opened := s.opened ++ [peer], command := .prompt }
    else { s with command := .prompt }
  | .withoutChannel peer =>
    if s.connected.contains peer then { s with command := .disconnecting peer }
    else { s with command := .prompt }
  | .disconnecting peer =>
    { s with connected := s.connected.filter fun p => p ≠ peer, command := .prompt }
  | .stopping => { s with connected := [], handshakes := 0, command := .left }

/-- One step of the loop: it reads the file, the peers and the channels one after the other,
and reads the flag before each peer. -/
def reconnectStep (lookup : HostLookup) (answer : Bool) : PeerState :=
  match s.loop with
  | .waiting =>
    match readChannelPeerData keys parseSocketAddr lookup (peerFile s.stored) with
    | .ok info => { s with loop := .read ⟨s.stored, lookup, info⟩ }
    | .error _ => s
  | .read data => { s with loop := .gotPeers data s.connected }
  | .gotPeers data peers =>
    { s with
      loop := .visiting ⟨data, peers, s.channels, []⟩ (s.channels.filter fun id => !peers.contains id) }
  | .visiting turn [] => { s with loop := .waiting, turns := s.turns ++ [turn] }
  | .visiting turn (node :: nodes) =>
    if s.stopListenConnect then { s with loop := .returned }
    else
      match turn.data.info node with
      | some addr => { s with loop := .chosen turn (node, addr) nodes }
      | none => { s with loop := .visiting turn nodes }
  | .chosen turn target nodes =>
    { s with loop := .dialing { turn with tried := turn.tried ++ [target] } target nodes }
  | .dialing turn target nodes =>
    if answer then { s with handshakes := s.handshakes + 1, loop := .awaiting turn target nodes }
    else { s with loop := .visiting turn nodes }
  | .awaiting turn target nodes =>
    if answer || s.connected.contains target.1 then { s with loop := .visiting turn nodes } else s
  | .returned => s

def listenStep : PeerState :=
  match s.listener with
  | .accepting => { s with listener := .accepted }
  | .accepted => { s with listener := if s.stopListenConnect then .returned else .passed }
  | .passed => { s with listener := .accepting, spawned := s.spawned + 1 }
  | .returned => s

end PeerState

section Step
variable (keys : PublicKeyText) (parseSocketAddr : Text → Option SocketAddr)

/-- An input that is not possible changes nothing. -/
def peerStep (s : PeerState) : PeerInput → PeerState
  | .channels listed => { s with channels := listed }
  | .handshake peer =>
    if 0 < s.handshakes then
      { s with handshakes := s.handshakes - 1, connected := s.connected ++ [peer] }
    else s
  | .handshakeFailed => { s with handshakes := s.handshakes - 1 }
  | .lost peer => { s with connected := s.connected.filter fun p => p ≠ peer }
  | .enter command lookup =>
    match s.command with
    | .prompt => s.enter keys parseSocketAddr lookup command
    | _ => s
  | .command answer => s.commandStep answer
  | .reconnect lookup answer => s.reconnectStep keys parseSocketAddr lookup answer
  | .listen => s.listenStep
  | .setupInbound =>
    if 0 < s.spawned then { s with spawned := s.spawned - 1, handshakes := s.handshakes + 1 } else s

def peerRun (channels : List PublicKey) (stored : List Text) (inputs : List PeerInput) : PeerState :=
  run (peerStep keys parseSocketAddr) (.init channels stored) inputs

end Step

end RgbLightning.Node
