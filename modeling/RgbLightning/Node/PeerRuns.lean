import RgbLightning.Node.PeerTasks

/-! # Runs of the connections to the peers

Every turn of the reconnect loop tries the channel peers that were not connected, each at
the address stored last. A peer with a channel is never disconnected by the node, and after
the command line has ended no peer comes back, unless a connection was already on its way.
-/
namespace RgbLightning.Node
open Decimal Words Payment Runs
variable {keys : PublicKeyText} {parseSocketAddr : Text → Option SocketAddr} {s : PeerState}

section Frames

/-- What the command line and the peers leave alone. -/
structure PeerState.SameTasks (s s' : PeerState) : Prop where
  loop : s'.loop = s.loop
  turns : s'.turns = s.turns

/-- What the loop leaves alone. -/
structure PeerState.SameNode (s s' : PeerState) : Prop where
  connected : s'.connected = s.connected
  channels : s'.channels = s.channels
  stored : s'.stored = s.stored
  opened : s'.opened = s.opened
  stopListenConnect : s'.stopListenConnect = s.stopListenConnect
  listener : s'.listener = s.listener
  spawned : s'.spawned = s.spawned
  command : s'.command = s.command

theorem sameTasks_connectPeerIfNecessary (peer : PublicKey) (channel : Option Text) :
    s.SameTasks (s.connectPeerIfNecessary peer channel) := by
  fun_cases PeerState.connectPeerIfNecessary <;> exact ⟨rfl, rfl⟩

theorem sameTasks_enter (lookup : HostLookup) (command : PeerCommand) :
    s.SameTasks (s.enter keys parseSocketAddr lookup command) := by
  fun_cases PeerState.enter
  case case1 => exact sameTasks_connectPeerIfNecessary _ _
  case case3 => exact sameTasks_connectPeerIfNecessary _ _
  all_goals exact ⟨rfl, rfl⟩

theorem sameTasks_commandStep (answer : Bool) : s.SameTasks (s.commandStep answer) := by
  fun_cases PeerState.commandStep <;> exact ⟨rfl, rfl⟩

theorem sameNode_reconnectStep (lookup : HostLookup) (answer : Bool) :
    s.SameNode (s.reconnectStep keys parseSocketAddr lookup answer) := by
  fun_cases PeerState.reconnectStep <;> exact ⟨rfl, rfl, rfl, rfl, rfl, rfl, rfl, rfl⟩

/-- Only its own steps move the loop. -/
theorem sameTasks_peerStep {input : PeerInput} (h : ∀ lookup answer, input ≠ .reconnect lookup answer) :
    s.SameTasks (peerStep keys parseSocketAddr s input) := by
  cases input with
  | enter command lookup =>
    simp only [peerStep]
    split
    · exact sameTasks_enter lookup command
    · exact ⟨rfl, rfl⟩
  | command answer => exact sameTasks_commandStep answer
  | reconnect lookup answer => exact absurd rfl (h lookup answer)
  | listen =>
    simp only [peerStep]
    fun_cases PeerState.listenStep <;> exact ⟨rfl, rfl⟩
  | handshake peer => simp only [peerStep]; split_ifs <;> exact ⟨rfl, rfl⟩
  | setupInbound => simp only [peerStep]; split_ifs <;> exact ⟨rfl, rfl⟩
  | channels listed => exact ⟨rfl, rfl⟩
  | handshakeFailed => exact ⟨rfl, rfl⟩
  | lost peer => exact ⟨rfl, rfl⟩

end Frames

section Turns
variable (keys parseSocketAddr)

def PeerData.WasRead (data : PeerData) : Prop :=
  readChannelPeerData keys parseSocketAddr data.lookup (peerFile data.stored) = .ok data.info

def PeerData.target (data : PeerData) (node : PublicKey) : Option (PublicKey × SocketAddr) :=
  (data.info node).map fun addr => (node, addr)

def ReconnectTurn.targets (turn : ReconnectTurn) : List (PublicKey × SocketAddr) :=
  reconnectTargets (.ok turn.data.info) turn.channels turn.peers

/-- What has been tried and what is left are the targets of the turn. -/
def ReconnectTurn.OnCourse (turn : ReconnectTurn) (rest : List (PublicKey × SocketAddr)) : Prop :=
  turn.data.WasRead keys parseSocketAddr ∧ turn.tried ++ rest = turn.targets

def ReconnectLoop.OnCourse : ReconnectLoop → Prop
  | waiting | returned => True
  | read data | gotPeers data _ => data.WasRead keys parseSocketAddr
  | visiting turn nodes | dialing turn _ nodes | awaiting turn _ nodes =>
    turn.OnCourse keys parseSocketAddr (nodes.filterMap turn.data.target)
  | chosen turn target nodes =>
    turn.OnCourse keys parseSocketAddr (target :: nodes.filterMap turn.data.target)

structure TurnInv (s : PeerState) : Prop where
  loop : s.loop.OnCourse keys parseSocketAddr
  turns : ∀ turn ∈ s.turns, turn.OnCourse keys parseSocketAddr []

variable {keys parseSocketAddr}

/-- One step of the loop keeps its turn on course. -/
theorem TurnInv.reconnectStep (hs : TurnInv keys parseSocketAddr s) (lookup : HostLookup) (answer : Bool) :
    TurnInv keys parseSocketAddr (s.reconnectStep keys parseSocketAddr lookup answer) := by
  obtain ⟨hcourse, hturns⟩ := hs
  unfold PeerState.reconnectStep
  cases hloop : s.loop with
  | waiting =>
    dsimp only
    split
    · rename_i info hread
      exact ⟨hread, hturns⟩
    · exact ⟨hcourse, hturns⟩
  | read data =>
    rw [hloop] at hcourse
    exact ⟨hcourse, hturns⟩
  | gotPeers data peers =>
    rw [hloop] at hcourse
    have hnodes : (s.channels.filter fun id => !peers.contains id) = s.channels.filter fun id => id ∉ peers := by
      apply List.filter_congr
      intro id _
      simp
    refine ⟨⟨hcourse, ?_⟩, hturns⟩
    rw [hnodes]
    rfl
  | visiting turn nodes =>
    rw [hloop] at hcourse
    cases nodes with
    | nil =>
      refine ⟨trivial, fun turn' hturn => ?_⟩
      rcases List.mem_append.mp hturn with hold | hlast
      · exact hturns turn' hold
      · rw [List.mem_singleton.mp hlast]
        exact hcourse
    | cons node nodes =>
      dsimp only
      split_ifs with hstop
      · exact ⟨trivial, hturns⟩
      · obtain ⟨hread, hrest⟩ := hcourse
        rw [List.filterMap_cons] at hrest
        cases haddr : turn.data.info node with
        | none =>
          simp only [PeerData.target, haddr, Option.map_none] at hrest
          exact ⟨⟨hread, hrest⟩, hturns⟩
        | some addr =>
          simp only [PeerData.target, haddr, Option.map_some] at hrest
          exact ⟨⟨hread, hrest⟩, hturns⟩
  | chosen turn target nodes =>
    rw [hloop] at hcourse
    obtain ⟨hread, hrest⟩ := hcourse
    refine ⟨⟨hread, ?_⟩, hturns⟩
    rw [List.append_assoc]
    exact hrest
  | dialing turn target nodes =>
    rw [hloop] at hcourse
    dsimp only
    split_ifs
    · exact ⟨hcourse, hturns⟩
    · exact ⟨hcourse, hturns⟩
  | awaiting turn target nodes =>
    rw [hloop] at hcourse
    dsimp only
    split_ifs
    · exact ⟨hcourse, hturns⟩
    · exact ⟨by rwa [hloop], hturns⟩
  | returned => exact ⟨hcourse, hturns⟩

theorem TurnInv.step (hs : TurnInv keys parseSocketAddr s) (input : PeerInput) :
    TurnInv keys parseSocketAddr (peerStep keys parseSocketAddr s input) := by
  by_cases hinput : ∃ lookup answer, input = .reconnect lookup answer
  · obtain ⟨lookup, answer, rfl⟩ := hinput
    exact hs.reconnectStep lookup answer
  · have hsame : s.SameTasks (peerStep keys parseSocketAddr s input) :=
      sameTasks_peerStep fun lookup answer heq => hinput ⟨lookup, answer, heq⟩
    exact ⟨hsame.loop ▸ hs.loop, hsame.turns ▸ hs.turns⟩

theorem turnInv_peerRun (channels : List PublicKey) (stored : List Text) (inputs : List PeerInput) :
    TurnInv keys parseSocketAddr (peerRun keys parseSocketAddr channels stored inputs) := by
  have hinit : TurnInv keys parseSocketAddr (.init channels stored) := by
    refine ⟨trivial, fun turn hturn => ?_⟩
    cases hturn
  exact run_invariant (TurnInv keys parseSocketAddr) (fun _ => True) hinit
    (fun _ input _ hs => hs.step input) inputs fun _ _ => trivial

theorem info_eq_some_iff {data : PeerData} (hread : data.WasRead keys parseSocketAddr) {peer : PublicKey}
    {addr : SocketAddr} : data.info peer = some addr ↔
      ∃ line, MostRecent keys peer line (peerLines data.stored) ∧
        parsePeerInfo keys parseSocketAddr data.lookup line = .ok (peer, addr) := by
  rw [PeerData.WasRead, readChannelPeerData_peerFile] at hread
  rw [RecordFile.lookup_eq_some_iff hread]
  constructor
  · rintro ⟨older, line, newer, hsplit, hline, hlast⟩
    refine ⟨line, ⟨older, newer, hsplit, fun other hother hkey => ?_⟩, hline⟩
    obtain ⟨⟨key, addr'⟩, hparsed⟩ := RecordFile.parses_of_read hread other (by simp [hsplit, hother])
    obtain rfl : key = peer := Option.some.inj ((parsePeerInfo_eq_ok.mp hparsed).1.symm.trans hkey)
    exact hlast other hother addr' hparsed
  · rintro ⟨line, ⟨older, newer, hsplit, hlast⟩, hline⟩
    refine ⟨older, line, newer, hsplit, hline, fun other hother addr' hparsed => ?_⟩
    exact hlast other hother (parsePeerInfo_eq_ok.mp hparsed).1

theorem exists_info {data : PeerData} (hread : data.WasRead keys parseSocketAddr) {line : Text}
    (hline : line ∈ peerLines data.stored) {peer : PublicKey} (hkey : peerKey keys line = some peer) :
    ∃ addr, data.info peer = some addr := by
  rw [PeerData.WasRead, readChannelPeerData_peerFile] at hread
  obtain ⟨⟨key, addr⟩, hparsed⟩ := RecordFile.parses_of_read hread line hline
  obtain rfl : key = peer := Option.some.inj ((parsePeerInfo_eq_ok.mp hparsed).1.symm.trans hkey)
  exact RecordFile.exists_lookup hread hline hparsed

theorem mem_targets_iff {turn : ReconnectTurn} {peer : PublicKey} {addr : SocketAddr} :
    (peer, addr) ∈ turn.targets ↔
      peer ∈ turn.channels ∧ peer ∉ turn.peers ∧ turn.data.info peer = some addr := by
  simp only [ReconnectTurn.targets, reconnectTargets, List.mem_filterMap, List.mem_filter, decide_eq_true_eq,
    Option.map_eq_some_iff, Prod.mk.injEq]
  constructor
  · rintro ⟨id, hid, addr', haddr, rfl, rfl⟩
    exact ⟨hid.1, hid.2, haddr⟩
  · rintro ⟨hchannel, hpeer, haddr⟩
    exact ⟨peer, ⟨hchannel, hpeer⟩, addr, haddr, rfl, rfl⟩

/-- Whatever else goes on, every turn that the loop has completed has tried the targets that
it read, in their order: the channel peers that were not connected, each at the address of
the line stored last for it. -/
theorem completed_turn_tried (keys : PublicKeyText) (parseSocketAddr : Text → Option SocketAddr)
    (channels : List PublicKey) (stored : List Text) (inputs : List PeerInput) (turn : ReconnectTurn)
    (hturn : turn ∈ (peerRun keys parseSocketAddr channels stored inputs).turns) :
    turn.tried = reconnectTargets
      (readChannelPeerData keys parseSocketAddr turn.data.lookup (peerFile turn.data.stored))
      turn.channels turn.peers ∧
    ∀ peer addr, (peer, addr) ∈ turn.tried ↔ peer ∈ turn.channels ∧ peer ∉ turn.peers ∧
      ∃ line, MostRecent keys peer line (peerLines turn.data.stored) ∧
        parsePeerInfo keys parseSocketAddr turn.data.lookup line = .ok (peer, addr) := by
  obtain ⟨hread, hrest⟩ := (turnInv_peerRun channels stored inputs).turns turn hturn
  rw [List.append_nil] at hrest
  constructor
  · rw [hread]
    exact hrest
  · intro peer addr
    rw [hrest, mem_targets_iff, info_eq_some_iff hread]

def aliceNode : PublicKey := (peerKey anyKey alice).getD []

/-- One turn, in which nobody answers. -/
def aliceTurn : List PeerInput := List.replicate 7 (.reconnect bothResolve false)

theorem completed_turn_tried_alice : ∃ turn ∈ (peerRun anyKey noLiteral [aliceNode] [alice] aliceTurn).turns,
    (∃ addr, (aliceNode, addr) ∈ turn.tried) ∧
      ∃ line, MostRecent anyKey aliceNode line (peerLines turn.data.stored) := by
  have htried : (peerRun anyKey noLiteral [aliceNode] [alice] aliceTurn).turns.map ReconnectTurn.tried =
      [[(aliceNode, ⟨.v4 ⟨[198, 51, 100, 7], rfl⟩, 9735⟩)]] := by decide
  obtain ⟨turn, hturn, hlast⟩ := List.mem_map.mp (htried ▸ List.mem_singleton_self _)
  have hmem : (aliceNode, ⟨.v4 ⟨[198, 51, 100, 7], rfl⟩, 9735⟩) ∈ turn.tried := by simp [hlast]
  obtain ⟨-, hiff⟩ := completed_turn_tried anyKey noLiteral [aliceNode] [alice] aliceTurn turn hturn
  obtain ⟨-, -, line, hrecent, -⟩ := (hiff _ _).mp hmem
  exact ⟨turn, hturn, ⟨_, hmem⟩, line, hrecent⟩

end Turns

section Retried

/-- The word of a channel that is being opened is that of its peer. -/
def PeerPrompt.WordOf (keys : PublicKeyText) : PeerPrompt → Prop
  | dialing peer (some word) | awaiting peer (some word) | creating peer word | created peer word =>
    IsWord word ∧ peerKey keys word = some peer
  | _ => True

structure OpenedInv (keys : PublicKeyText) (s : PeerState) : Prop where
  command : s.command.WordOf keys
  opened : ∀ peer ∈ s.opened, ∃ word ∈ s.stored, IsWord word ∧ peerKey keys word = some peer

theorem OpenedInv.connectPeerIfNecessary (hs : OpenedInv keys s) (peer : PublicKey) {channel : Option Text}
    (hword : ∀ word, channel = some word → IsWord word ∧ peerKey keys word = some peer) :
    OpenedInv keys (s.connectPeerIfNecessary peer channel) := by
  unfold PeerState.connectPeerIfNecessary
  cases channel with
  | none =>
    split_ifs
    · exact hs
    · exact ⟨trivial, hs.opened⟩
  | some word =>
    split_ifs
    · exact ⟨hword word rfl, hs.opened⟩
    · exact ⟨hword word rfl, hs.opened⟩

theorem OpenedInv.enter (hs : OpenedInv keys s) (lookup : HostLookup) (command : PeerCommand) :
    OpenedInv keys (s.enter keys parseSocketAddr lookup command) := by
  cases command with
  | connectpeer word =>
    simp only [PeerState.enter]
    split
    · exact hs.connectPeerIfNecessary _ (by simp)
    · exact hs
  | openchannel word hword =>
    simp only [PeerState.enter]
    split
    · rename_i peer addr hparsed
      apply hs.connectPeerIfNecessary
      rintro word' ⟨⟩
      exact ⟨hword, (parsePeerInfo_eq_ok.mp hparsed).1⟩
    · exact hs
  | disconnectpeer peer =>
    simp only [PeerState.enter]
    split_ifs
    · exact hs
    · exact ⟨trivial, hs.opened⟩
  | quit => exact ⟨trivial, hs.opened⟩

theorem OpenedInv.commandStep (hs : OpenedInv keys s) (answer : Bool) :
    OpenedInv keys (s.commandStep answer) := by
  have hword := hs.command
  unfold PeerState.commandStep
  cases hcommand : s.command with
  | prompt => exact hs
  | dialing peer channel =>
    rw [hcommand] at hword
    dsimp only
    split_ifs
    · exact ⟨by cases channel <;> exact hword, hs.opened⟩
    · exact ⟨trivial, hs.opened⟩
  | awaiting peer channel =>
    rw [hcommand] at hword
    dsimp only
    split_ifs
    · exact ⟨trivial, hs.opened⟩
    · cases channel with
      | none => exact ⟨trivial, hs.opened⟩
      | some word => exact ⟨hword, hs.opened⟩
    · exact hs
  | creating peer word =>
    rw [hcommand] at hword
    dsimp only
    split_ifs
    · exact ⟨hword, hs.opened⟩
    · exact ⟨trivial, hs.opened⟩
  | created peer word =>
    rw [hcommand] at hword
    dsimp only
    split_ifs
    · refine ⟨trivial, fun peer' hpeer => ?_⟩
      rcases List.mem_append.mp hpeer with hold | hnew
      · obtain ⟨word', hstored, hword'⟩ := hs.opened peer' hold
        exact ⟨word', List.mem_append_left _ hstored, hword'⟩
      · rw [List.mem_singleton.mp hnew]
        exact ⟨word, by simp, hword⟩
    · exact ⟨trivial, hs.opened⟩
  | withoutChannel peer =>
    dsimp only
    split_ifs <;> exact ⟨trivial, hs.opened⟩
  | disconnecting peer => exact ⟨trivial, hs.opened⟩
  | stopping => exact ⟨trivial, hs.opened⟩
  | left => exact hs

theorem OpenedInv.step (hs : OpenedInv keys s) (input : PeerInput) :
    OpenedInv keys (peerStep keys parseSocketAddr s input) := by
  cases input with
  | enter command lookup =>
    simp only [peerStep]
    split
    · exact hs.enter lookup command
    · exact hs
  | command answer => exact hs.commandStep answer
  | reconnect lookup answer =>
    have hsame : s.SameNode (s.reconnectStep keys parseSocketAddr lookup answer) :=
      sameNode_reconnectStep lookup answer
    refine ⟨hsame.command ▸ hs.command, ?_⟩
    simp only [peerStep, hsame.opened, hsame.stored]
    exact hs.opened
  | listen =>
    simp only [peerStep]
    fun_cases PeerState.listenStep <;> exact ⟨hs.command, hs.opened⟩
  | handshake peer => simp only [peerStep]; split_ifs <;> exact ⟨hs.command, hs.opened⟩
  | setupInbound => simp only [peerStep]; split_ifs <;> exact ⟨hs.command, hs.opened⟩
  | channels listed => exact ⟨hs.command, hs.opened⟩
  | handshakeFailed => exact ⟨hs.command, hs.opened⟩
  | lost peer => exact ⟨hs.command, hs.opened⟩

theorem openedInv_peerRun (channels : List PublicKey) (stored : List Text) (inputs : List PeerInput) :
    OpenedInv keys (peerRun keys parseSocketAddr channels stored inputs) := by
  have hinit : OpenedInv keys (.init channels stored) := by
    refine ⟨trivial, fun peer hpeer => ?_⟩
    cases hpeer
  exact run_invariant (OpenedInv keys) (fun _ => True) hinit (fun _ input _ hs => hs.step input) inputs
    fun _ _ => trivial

/-- The data that the loop works with. -/
def ReconnectLoop.data : ReconnectLoop → Option PeerData
  | waiting | returned => none
  | read data | gotPeers data _ => some data
  | visiting turn _ | chosen turn _ _ | dialing turn _ _ | awaiting turn _ _ => some turn.data

/-- The turns begun since a state have read at least the lines that were stored in it. -/
structure SinceInv (s₀ s : PeerState) : Prop where
  stored : s₀.stored <+: s.stored
  loop : ∀ data, s.loop.data = some data → s₀.stored <+: data.stored
  turns : ∃ rest, s.turns = s₀.turns ++ rest ∧ ∀ turn ∈ rest, s₀.stored <+: turn.data.stored

theorem stored_connectPeerIfNecessary (peer : PublicKey) (channel : Option Text) :
    (s.connectPeerIfNecessary peer channel).stored = s.stored := by
  fun_cases PeerState.connectPeerIfNecessary <;> rfl

theorem stored_enter (lookup : HostLookup) (command : PeerCommand) :
    (s.enter keys parseSocketAddr lookup command).stored = s.stored := by
  fun_cases PeerState.enter
  case case1 => exact stored_connectPeerIfNecessary _ _
  case case3 => exact stored_connectPeerIfNecessary _ _
  all_goals rfl

/-- Lines are only added to the file. -/
theorem stored_prefix_step (input : PeerInput) :
    s.stored <+: (peerStep keys parseSocketAddr s input).stored := by
  cases input with
  | enter command lookup =>
    simp only [peerStep]
    split
    · rw [stored_enter]
    · exact List.prefix_refl _
  | command answer =>
    simp only [peerStep]
    fun_cases PeerState.commandStep
    all_goals first | exact List.prefix_refl _ | exact List.prefix_append _ _
  | reconnect lookup answer =>
    have hsame : s.SameNode (s.reconnectStep keys parseSocketAddr lookup answer) :=
      sameNode_reconnectStep lookup answer
    simp only [peerStep, hsame.stored]
    exact List.prefix_refl _
  | listen => simp only [peerStep]; fun_cases PeerState.listenStep <;> exact List.prefix_refl _
  | handshake peer => simp only [peerStep]; split_ifs <;> exact List.prefix_refl _
  | setupInbound => simp only [peerStep]; split_ifs <;> exact List.prefix_refl _
  | channels listed => exact List.prefix_refl _
  | handshakeFailed => exact List.prefix_refl _
  | lost peer => exact List.prefix_refl _

/-- The data of the loop is kept, or was read just now. -/
theorem SinceInv.reconnectStep {s₀ : PeerState} (hs : SinceInv s₀ s) (lookup : HostLookup) (answer : Bool) :
    SinceInv s₀ (s.reconnectStep keys parseSocketAddr lookup answer) := by
  obtain ⟨hstored, hdata, rest, hturns, hrest⟩ := hs
  unfold PeerState.reconnectStep
  cases hloop : s.loop with
  | waiting =>
    dsimp only
    split
    · refine ⟨hstored, ?_, rest, hturns, hrest⟩
      rintro data ⟨⟩
      exact hstored
    · exact ⟨hstored, hdata, rest, hturns, hrest⟩
  | visiting turn nodes =>
    rw [hloop] at hdata
    have hturn : s₀.stored <+: turn.data.stored := hdata _ rfl
    cases nodes with
    | nil =>
      refine ⟨hstored, by rintro data ⟨⟩, rest ++ [turn], by simp [hturns], ?_⟩
      intro turn' hturn'
      rcases List.mem_append.mp hturn' with hold | hlast
      · exact hrest turn' hold
      · rw [List.mem_singleton.mp hlast]
        exact hturn
    | cons node nodes =>
      dsimp only
      split_ifs
      · exact ⟨hstored, by rintro data ⟨⟩, rest, hturns, hrest⟩
      · cases turn.data.info node with
        | none => exact ⟨hstored, hdata, rest, hturns, hrest⟩
        | some addr => exact ⟨hstored, hdata, rest, hturns, hrest⟩
  | read data =>
    rw [hloop] at hdata
    exact ⟨hstored, hdata, rest, hturns, hrest⟩
  | gotPeers data peers =>
    rw [hloop] at hdata
    exact ⟨hstored, hdata, rest, hturns, hrest⟩
  | chosen turn target nodes =>
    rw [hloop] at hdata
    exact ⟨hstored, hdata, rest, hturns, hrest⟩
  | dialing turn target nodes =>
    rw [hloop] at hdata
    dsimp only
    split_ifs
    · exact ⟨hstored, hdata, rest, hturns, hrest⟩
    · exact ⟨hstored, hdata, rest, hturns, hrest⟩
  | awaiting turn target nodes =>
    dsimp only
    split_ifs
    · rw [hloop] at hdata
      exact ⟨hstored, hdata, rest, hturns, hrest⟩
    · exact ⟨hstored, hdata, rest, hturns, hrest⟩
  | returned => exact ⟨hstored, hdata, rest, hturns, hrest⟩

theorem SinceInv.step {s₀ : PeerState} (hs : SinceInv s₀ s) (input : PeerInput) :
    SinceInv s₀ (peerStep keys parseSocketAddr s input) := by
  by_cases hinput : ∃ lookup answer, input = .reconnect lookup answer
  · obtain ⟨lookup, answer, rfl⟩ := hinput
    exact hs.reconnectStep lookup answer
  · have hsame : s.SameTasks (peerStep keys parseSocketAddr s input) :=
      sameTasks_peerStep fun lookup answer heq => hinput ⟨lookup, answer, heq⟩
    exact ⟨hs.stored.trans (stored_prefix_step input), hsame.loop ▸ hs.loop, hsame.turns ▸ hs.turns⟩

/-- Once the command line has opened and stored a channel, every turn that begins later and
completes has tried its peer, as long as the peer has a channel and was not connected. -/
theorem opened_peers_retried (keys : PublicKeyText) (parseSocketAddr : Text → Option SocketAddr)
    (channels : List PublicKey) (stored : List Text) (older newer : List PeerInput)
    (hwaiting : (peerRun keys parseSocketAddr channels stored older).loop = .waiting) :
    ∃ later, (peerRun keys parseSocketAddr channels stored (older ++ newer)).turns =
        (peerRun keys parseSocketAddr channels stored older).turns ++ later ∧
      ∀ turn ∈ later, ∀ peer ∈ (peerRun keys parseSocketAddr channels stored older).opened,
        peer ∈ turn.channels → peer ∉ turn.peers → ∃ addr, (peer, addr) ∈ turn.tried := by
  have hinv : TurnInv keys parseSocketAddr (peerRun keys parseSocketAddr channels stored (older ++ newer)) :=
    turnInv_peerRun channels stored (older ++ newer)
  have hopened : OpenedInv keys (peerRun keys parseSocketAddr channels stored older) :=
    openedInv_peerRun channels stored older
  have hrun : peerRun keys parseSocketAddr channels stored (older ++ newer) =
      run (peerStep keys parseSocketAddr) (peerRun keys parseSocketAddr channels stored older) newer := by
    simp [peerRun, run]
  rw [hrun] at hinv ⊢
  generalize peerRun keys parseSocketAddr channels stored older = s₀ at *
  have hstart : SinceInv s₀ s₀ :=
    ⟨List.prefix_refl _, by simp [hwaiting, ReconnectLoop.data], [], by simp, by simp⟩
  have hsince : SinceInv s₀ (run (peerStep keys parseSocketAddr) s₀ newer) :=
    run_invariant (SinceInv s₀) (fun _ => True) hstart (fun _ input _ hs => hs.step input) newer
      fun _ _ => trivial
  obtain ⟨later, hlater, hread⟩ := hsince.turns
  refine ⟨later, hlater, fun turn hturn peer hpeer hchannel hconnected => ?_⟩
  obtain ⟨hwas, htried⟩ := hinv.turns turn (hlater ▸ List.mem_append_right _ hturn)
  obtain ⟨word, hword, hisword, hkey⟩ := hopened.opened peer hpeer
  have hline : word ∈ peerLines turn.data.stored := by
    refine List.mem_flatMap.mpr ⟨word, (hread turn hturn).subset hword, ?_⟩
    simp [lines_word hisword]
  obtain ⟨addr, haddr⟩ := exists_info hwas hline hkey
  rw [List.append_nil] at htried
  exact ⟨addr, htried ▸ mem_targets_iff.mpr ⟨hchannel, hconnected, haddr⟩⟩

theorem isWord_alice : IsWord alice := by decide

/-- A channel to Alice is opened and stored. -/
def aliceOpened : List PeerInput :=
  [.enter (.openchannel alice isWord_alice) bothResolve, .command true, .handshake aliceNode,
    .command false, .command true, .command true]

theorem opened_peers_retried_alice : ∃ later,
    (peerRun anyKey noLiteral [] [] (aliceOpened ++ .lost aliceNode :: aliceTurn)).turns =
        (peerRun anyKey noLiteral [] [] aliceOpened).turns ++ later ∧
      ∀ turn ∈ later, ∀ peer ∈ (peerRun anyKey noLiteral [] [] aliceOpened).opened,
        peer ∈ turn.channels → peer ∉ turn.peers → ∃ addr, (peer, addr) ∈ turn.tried :=
  opened_peers_retried anyKey noLiteral [] [] aliceOpened (.lost aliceNode :: aliceTurn) rfl

end Retried

end RgbLightning.Node
