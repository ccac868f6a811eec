import RgbLightning.Node.PeerRuns

/-! # Peers that stay and peers that are gone

The node disconnects a peer on a command, which it refuses for a peer with a channel, and
all peers at its end. The tasks that make connections read a flag before, but they are not
waited for.
-/
namespace RgbLightning.Node
open Decimal Words Payment Runs
variable {keys : PublicKeyText} {parseSocketAddr : Text → Option SocketAddr} {s : PeerState}
  {channels : List PublicKey} {stored : List Text} {inputs : List PeerInput}

theorem peerRun_concat (input : PeerInput) : peerRun keys parseSocketAddr channels stored (inputs ++ [input]) =
    peerStep keys parseSocketAddr (peerRun keys parseSocketAddr channels stored inputs) input :=
  run_concat _ _ _ _

section Prompt

/-- Where a command may lead. -/
inductive Entered (s : PeerState) : PeerCommand → PeerPrompt → Prop
  | kept (command : PeerCommand) : Entered s command s.command
  | dialing (command : PeerCommand) (peer : PublicKey) (channel : Option Text) :
      Entered s command (.dialing peer channel)
  | creating (command : PeerCommand) (peer : PublicKey) (word : Text) :
      Entered s command (.creating peer word)
  | withoutChannel {peer : PublicKey} (hchannel : peer ∉ s.channels) :
      Entered s (.disconnectpeer peer) (.withoutChannel peer)
  | stopping : Entered s .quit .stopping

/-- Where a step of the command line may lead. -/
inductive Advanced : PeerPrompt → PeerPrompt → Prop
  | kept (c : PeerPrompt) : Advanced c c
  | prompt (c : PeerPrompt) : Advanced c .prompt
  | awaiting (peer : PublicKey) (channel : Option Text) : Advanced (.dialing peer channel) (.awaiting peer channel)
  | creating (peer : PublicKey) (word : Text) : Advanced (.awaiting peer (some word)) (.creating peer word)
  | created (peer : PublicKey) (word : Text) : Advanced (.creating peer word) (.created peer word)
  | disconnecting (peer : PublicKey) : Advanced (.withoutChannel peer) (.disconnecting peer)
  | left : Advanced .stopping .left

theorem connectPeerIfNecessary_entered (command : PeerCommand) (peer : PublicKey) (channel : Option Text) :
    Entered s command (s.connectPeerIfNecessary peer channel).command := by
  unfold PeerState.connectPeerIfNecessary
  cases channel with
  | none =>
    split_ifs
    · exact .kept command
    · exact .dialing command peer none
  | some word =>
    split_ifs
    · exact .creating command peer word
    · exact .dialing command peer (some word)

theorem enter_entered (lookup : HostLookup) (command : PeerCommand) :
    Entered s command (s.enter keys parseSocketAddr lookup command).command := by
  cases command with
  | connectpeer word =>
    simp only [PeerState.enter]
    split
    · exact connectPeerIfNecessary_entered ..
    · exact .kept _
  | openchannel word hword =>
    simp only [PeerState.enter]
    split
    · exact connectPeerIfNecessary_entered ..
    · exact .kept _
  | disconnectpeer peer =>
    simp only [PeerState.enter]
    split_ifs with hchannel
    · exact .kept _
    · exact .withoutChannel (by simpa using hchannel)
  | quit => exact .stopping

theorem commandStep_advanced (answer : Bool) : Advanced s.command (s.commandStep answer).command := by
  unfold PeerState.commandStep
  cases hcommand : s.command with
  | prompt =>
    rw [hcommand]
    exact .kept _
  | dialing peer channel =>
    dsimp only
    split_ifs
    · exact .awaiting peer channel
    · exact .prompt _
  | awaiting peer channel =>
    dsimp only
    split_ifs
    · exact .prompt _
    · cases channel with
      | none => exact .prompt _
      | some word => exact .creating peer word
    · rw [hcommand]
      exact .kept _
  | creating peer word =>
    dsimp only
    split_ifs
    · exact .created peer word
    · exact .prompt _
  | created peer word =>
    dsimp only
    split_ifs
    · exact .prompt _
    · exact .prompt _
  | withoutChannel peer =>
    dsimp only
    split_ifs
    · exact .disconnecting peer
    · exact .prompt _
  | disconnecting peer => exact .prompt _
  | stopping => exact .left
  | left =>
    rw [hcommand]
    exact .kept _

/-- The other inputs leave the prompt and the flag alone. -/
theorem peerStep_command {input : PeerInput} (henter : ∀ command lookup, input ≠ .enter command lookup)
    (hcommand : ∀ answer, input ≠ .command answer) :
    (peerStep keys parseSocketAddr s input).command = s.command ∧
      (peerStep keys parseSocketAddr s input).stopListenConnect = s.stopListenConnect := by
  cases input with
  | enter command lookup => exact absurd rfl (henter command lookup)
  | command answer => exact absurd rfl (hcommand answer)
  | reconnect lookup answer =>
    exact ⟨(sameNode_reconnectStep lookup answer).command,
      (sameNode_reconnectStep lookup answer).stopListenConnect⟩
  | listen =>
    simp only [peerStep]
    fun_cases PeerState.listenStep <;> exact ⟨rfl, rfl⟩
  | handshake p =>
    simp only [peerStep]
    split_ifs <;> exact ⟨rfl, rfl⟩
  | setupInbound =>
    simp only [peerStep]
    split_ifs <;> exact ⟨rfl, rfl⟩
  | channels listed => exact ⟨rfl, rfl⟩
  | handshakeFailed => exact ⟨rfl, rfl⟩
  | lost p => exact ⟨rfl, rfl⟩

end Prompt

section Disconnected

/-- The command that is about to disconnect a peer. -/
def PeerPrompt.drops (peer : PublicKey) : PeerPrompt → Bool
  | withoutChannel p | disconnecting p => p = peer
  | _ => false

/-- Only a `disconnectpeer` of a peer without channel is taken up. -/
theorem drops_of_entered {peer : PublicKey} {command : PeerCommand} {c : PeerPrompt}
    (hidle : s.command = .prompt) (h : Entered s command c) (hdrops : c.drops peer = true) :
    command = .disconnectpeer peer ∧ peer ∉ s.channels := by
  cases h with
  | kept => simp [hidle, PeerPrompt.drops] at hdrops
  | dialing p channel => cases hdrops
  | creating p word => cases hdrops
  | @withoutChannel p hchannel =>
    obtain rfl : p = peer := of_decide_eq_true hdrops
    exact ⟨rfl, hchannel⟩
  | stopping => cases hdrops

theorem drops_of_advanced {peer : PublicKey} {c c' : PeerPrompt} (h : Advanced c c')
    (hdrops : c'.drops peer = true) : c.drops peer = true := by
  cases h with
  | kept => exact hdrops
  | disconnecting p => exact hdrops
  | _ => cases hdrops

theorem drops_peerStep {peer : PublicKey} {input : PeerInput}
    (h : (peerStep keys parseSocketAddr s input).command.drops peer = true) :
    s.command.drops peer = true ∨
      ∃ lookup, input = .enter (.disconnectpeer peer) lookup ∧ peer ∉ s.channels := by
  cases input with
  | enter command lookup =>
    simp only [peerStep] at h
    split at h
    · rename_i hprompt
      obtain ⟨rfl, hchannel⟩ := drops_of_entered hprompt (enter_entered lookup command) h
      exact .inr ⟨lookup, rfl, hchannel⟩
    · exact .inl h
  | command answer => exact .inl (drops_of_advanced (commandStep_advanced answer) h)
  | _ =>
    rw [(peerStep_command (by simp) (by simp)).1] at h
    exact .inl h

/-- A `disconnectpeer` that was entered when the peer had no channel, and that has not
ended since. -/
def DisconnectUnderWay (keys : PublicKeyText) (parseSocketAddr : Text → Option SocketAddr)
    (channels : List PublicKey) (stored : List Text) (inputs : List PeerInput) (peer : PublicKey) : Prop :=
  ∃ before lookup middle, inputs = before ++ .enter (.disconnectpeer peer) lookup :: middle ∧
    peer ∉ (peerRun keys parseSocketAddr channels stored before).channels ∧
    ∀ done rest, middle = done ++ rest →
      (peerRun keys parseSocketAddr channels stored
        (before ++ .enter (.disconnectpeer peer) lookup :: done)).command.drops peer = true

theorem disconnectUnderWay_of_drops {peer : PublicKey}
    (h : (peerRun keys parseSocketAddr channels stored inputs).command.drops peer = true) :
    DisconnectUnderWay keys parseSocketAddr channels stored inputs peer := by
  induction inputs using List.reverseRecOn with
  | nil => cases h
  | append_singleton inputs input ih =>
    have hstep := h
    rw [peerRun_concat] at hstep
    rcases drops_peerStep hstep with hold | ⟨lookup, rfl, hchannel⟩
    · obtain ⟨before, lookup, middle, rfl, hchannel, hsince⟩ := ih hold
      refine ⟨before, lookup, middle ++ [input], by simp, hchannel, fun done rest hsplit => ?_⟩
      rcases List.eq_nil_or_concat rest with rfl | ⟨rest, last, rfl⟩
      · rw [List.append_nil] at hsplit
        subst hsplit
        simpa using h
      · rw [List.concat_eq_append, ← List.append_assoc] at hsplit
        exact hsince done rest (List.append_inj' hsplit rfl).1
    · refine ⟨inputs, lookup, [], rfl, hchannel, fun done rest hsplit => ?_⟩
      obtain ⟨rfl, rfl⟩ := List.append_eq_nil_iff.mp hsplit.symm
      exact h

theorem connected_connectPeerIfNecessary (peer : PublicKey) (channel : Option Text) :
    (s.connectPeerIfNecessary peer channel).connected = s.connected := by
  fun_cases PeerState.connectPeerIfNecessary <;> rfl

theorem connected_enter (lookup : HostLookup) (command : PeerCommand) :
    (s.enter keys parseSocketAddr lookup command).connected = s.connected := by
  fun_cases PeerState.enter
  case case1 => exact connected_connectPeerIfNecessary _ _
  case case3 => exact connected_connectPeerIfNecessary _ _
  all_goals rfl

/-- The command line takes a peer off the list in two places. -/
theorem mem_connected_commandStep {peer : PublicKey} (h : peer ∈ s.connected)
    (hrunning : s.command ≠ .stopping) (hother : s.command ≠ .disconnecting peer) (answer : Bool) :
    peer ∈ (s.commandStep answer).connected := by
  unfold PeerState.commandStep
  cases hcommand : s.command with
  | disconnecting p =>
    have hne : peer ≠ p := fun heq => hother (heq ▸ hcommand)
    exact List.mem_filter.mpr ⟨h, decide_eq_true hne⟩
  | stopping => exact absurd hcommand hrunning
  | awaiting p channel =>
    dsimp only
    split_ifs
    · exact h
    · cases channel <;> exact h
    · exact h
  | prompt => exact h
  | left => exact h
  | dialing p channel => dsimp only; split_ifs <;> exact h
  | creating p word => dsimp only; split_ifs <;> exact h
  | created p word => dsimp only; split_ifs <;> exact h
  | withoutChannel p => dsimp only; split_ifs <;> exact h

theorem mem_connected_peerStep {peer : PublicKey} {input : PeerInput} (h : peer ∈ s.connected)
    (hlost : input ≠ .lost peer) (hrunning : s.command ≠ .stopping)
    (hother : s.command ≠ .disconnecting peer) :
    peer ∈ (peerStep keys parseSocketAddr s input).connected := by
  cases input with
  | lost p =>
    have hne : peer ≠ p := fun heq => hlost (heq ▸ rfl)
    exact List.mem_filter.mpr ⟨h, decide_eq_true hne⟩
  | command answer => exact mem_connected_commandStep h hrunning hother answer
  | enter command lookup =>
    simp only [peerStep]
    split
    · rw [connected_enter]
      exact h
    · exact h
  | reconnect lookup answer =>
    rw [peerStep, (sameNode_reconnectStep lookup answer).connected]
    exact h
  | handshake p =>
    simp only [peerStep]
    split_ifs
    · exact List.mem_append_left _ h
    · exact h
  | listen =>
    simp only [peerStep]
    fun_cases PeerState.listenStep <;> exact h
  | setupInbound =>
    simp only [peerStep]
    split_ifs <;> exact h
  | channels listed => exact h
  | handshakeFailed => exact h

/-- A peer that goes has left itself, or the node is ending, or its disconnection was asked
for at a time when it had no channel. -/
theorem disconnected_by (keys : PublicKeyText) (parseSocketAddr : Text → Option SocketAddr)
    (channels : List PublicKey) (stored : List Text) (inputs : List PeerInput) (input : PeerInput)
    (peer : PublicKey) (hbefore : peer ∈ (peerRun keys parseSocketAddr channels stored inputs).connected)
    (hafter : peer ∉ (peerRun keys parseSocketAddr channels stored (inputs ++ [input])).connected) :
    input = .lost peer ∨ (peerRun keys parseSocketAddr channels stored inputs).command = .stopping ∨
      DisconnectUnderWay keys parseSocketAddr channels stored inputs peer := by
  rw [peerRun_concat] at hafter
  by_contra hnone
  rw [not_or, not_or] at hnone
  obtain ⟨hlost, hrunning, hasked⟩ := hnone
  refine hafter (mem_connected_peerStep hbefore hlost hrunning fun hcommand => ?_)
  apply hasked
  apply disconnectUnderWay_of_drops
  rw [hcommand]
  exact decide_eq_true rfl

/-- Bob connects and is disconnected again. -/
def bobDisconnected : List PeerInput :=
  [.listen, .listen, .listen, .setupInbound, .handshake [2], .enter (.disconnectpeer [2]) bothResolve,
    .command true]

theorem disconnected_by_command : DisconnectUnderWay anyKey noLiteral [] [] bobDisconnected [2] := by
  have hby := disconnected_by anyKey noLiteral [] [] bobDisconnected (.command true) [2]
    (by decide) (by decide)
  rcases hby with hlost | hstopping | hasked
  · cases hlost
  · cases hstopping
  · exact hasked

end Disconnected

section Quit

/-- The loop is about to make a connection. -/
def ReconnectLoop.dials : ReconnectLoop → Bool
  | chosen .. | dialing .. => true
  | _ => false

/-- A connection that will come without reading the flag again. -/
def PeerState.OnTheWay (s : PeerState) : Prop :=
  s.loop.dials = true ∨ s.listener = .passed ∨ 0 < s.spawned

/-- The flag is set, no peer is there, and none is on its way. -/
structure Gone (s : PeerState) : Prop where
  stopListenConnect : s.stopListenConnect = true
  command : s.command = .left
  connected : s.connected = []
  handshakes : s.handshakes = 0
  loop : s.loop.dials = false
  listener : s.listener ≠ .passed
  spawned : s.spawned = 0

theorem Gone.reconnectStep (hs : Gone s) (lookup : HostLookup) (answer : Bool) :
    (s.reconnectStep keys parseSocketAddr lookup answer).handshakes = 0 ∧
      (s.reconnectStep keys parseSocketAddr lookup answer).loop.dials = false := by
  have hdials := hs.loop
  unfold PeerState.reconnectStep
  cases hloop : s.loop with
  | waiting =>
    dsimp only
    split
    · exact ⟨hs.handshakes, rfl⟩
    · exact ⟨hs.handshakes, hdials⟩
  | read data => exact ⟨hs.handshakes, rfl⟩
  | gotPeers data peers => exact ⟨hs.handshakes, rfl⟩
  | visiting turn nodes =>
    cases nodes with
    | nil => exact ⟨hs.handshakes, rfl⟩
    | cons node nodes =>
      dsimp only
      rw [if_pos hs.stopListenConnect]
      exact ⟨hs.handshakes, rfl⟩
  | chosen turn target nodes => simp [hloop, ReconnectLoop.dials] at hdials
  | dialing turn target nodes => simp [hloop, ReconnectLoop.dials] at hdials
  | awaiting turn target nodes =>
    dsimp only
    split_ifs
    · exact ⟨hs.handshakes, rfl⟩
    · exact ⟨hs.handshakes, hdials⟩
  | returned => exact ⟨hs.handshakes, hdials⟩

theorem Gone.step (hs : Gone s) (input : PeerInput) : Gone (peerStep keys parseSocketAddr s input) := by
  cases input with
  | channels listed => exact { hs with }
  | handshake peer =>
    have hnone : ¬0 < s.handshakes := by simp [hs.handshakes]
    simpa only [peerStep, if_neg hnone] using hs
  | handshakeFailed => exact { hs with handshakes := by simp [peerStep, hs.handshakes] }
  | lost peer => exact { hs with connected := by simp [peerStep, hs.connected] }
  | enter command lookup =>
    simp only [peerStep, hs.command]
    exact hs
  | command answer =>
    simp only [peerStep, PeerState.commandStep, hs.command]
    exact hs
  | reconnect lookup answer =>
    have hsame : s.SameNode (s.reconnectStep keys parseSocketAddr lookup answer) :=
      sameNode_reconnectStep lookup answer
    exact ⟨hsame.stopListenConnect.trans hs.stopListenConnect, hsame.command.trans hs.command,
      hsame.connected.trans hs.connected, (hs.reconnectStep lookup answer).1,
      (hs.reconnectStep lookup answer).2, hsame.listener ▸ hs.listener, hsame.spawned.trans hs.spawned⟩
  | listen =>
    simp only [peerStep, PeerState.listenStep]
    cases hlistener : s.listener with
    | accepting => exact { hs with listener := by simp }
    | accepted => exact { hs with listener := by simp [hs.stopListenConnect] }
    | passed => exact absurd hlistener hs.listener
    | returned => exact hs
  | setupInbound =>
    have hnone : ¬0 < s.spawned := by simp [hs.spawned]
    simpa only [peerStep, if_neg hnone] using hs

theorem Gone.run (hs : Gone s) (later : List PeerInput) :
    Gone (run (peerStep keys parseSocketAddr) s later) :=
  run_invariant Gone (fun _ => True) hs (fun _ input _ hs => hs.step input) later fun _ _ => trivial

def PeerPrompt.ended : PeerPrompt → Bool
  | stopping | left => true
  | _ => false

/-- The flag is set when the command line has ended. -/
def FlagSet (s : PeerState) : Prop := s.command.ended = true → s.stopListenConnect = true

theorem stopListenConnect_enter (lookup : HostLookup) {command : PeerCommand}
    (hc : (s.enter keys parseSocketAddr lookup command).command.ended = true) (hprompt : s.command = .prompt) :
    (s.enter keys parseSocketAddr lookup command).stopListenConnect = true := by
  have hentered : Entered s command (s.enter keys parseSocketAddr lookup command).command :=
    enter_entered lookup command
  generalize (s.enter keys parseSocketAddr lookup command).command = c at hc hentered
  cases hentered with
  | kept => simp [hprompt, PeerPrompt.ended] at hc
  | stopping => rfl
  | _ => cases hc

theorem stopListenConnect_commandStep (answer : Bool) :
    (s.commandStep answer).stopListenConnect = s.stopListenConnect := by
  fun_cases PeerState.commandStep <;> rfl

theorem ended_of_advanced {c c' : PeerPrompt} (h : Advanced c c') (hended : c'.ended = true) :
    c.ended = true := by
  cases h with
  | kept => exact hended
  | left => rfl
  | _ => cases hended

theorem FlagSet.step (hs : FlagSet s) (input : PeerInput) :
    FlagSet (peerStep keys parseSocketAddr s input) := by
  intro hended
  cases input with
  | enter command lookup =>
    by_cases hprompt : s.command = .prompt
    · simp only [peerStep, hprompt] at hended ⊢
      exact stopListenConnect_enter lookup hended hprompt
    · have hsame : peerStep keys parseSocketAddr s (.enter command lookup) = s := by
        simp only [peerStep]
      rw [hsame] at hended ⊢
      exact hs hended
  | command answer =>
    rw [peerStep, stopListenConnect_commandStep]
    exact hs (ended_of_advanced (commandStep_advanced answer) hended)
  | _ =>
    rw [(peerStep_command (by simp) (by simp)).1] at hended
    rw [(peerStep_command (by simp) (by simp)).2]
    exact hs hended

theorem flagSet_peerRun (channels : List PublicKey) (stored : List Text) (inputs : List PeerInput) :
    FlagSet (peerRun keys parseSocketAddr channels stored inputs) := by
  have hinit : FlagSet (.init channels stored) := by
    intro h
    cases h
  exact run_invariant FlagSet (fun _ => True) hinit (fun _ input _ hs => hs.step input) inputs
    fun _ _ => trivial

/-- What is on its way can still bring a peer. -/
theorem exists_connected_of_onTheWay (h : s.OnTheWay) (peer : PublicKey) :
    ∃ later, peer ∈ (run (peerStep keys parseSocketAddr) s later).connected := by
  have hset : ∀ s : PeerState, 0 < s.spawned →
      peer ∈ (run (peerStep keys parseSocketAddr) s [.setupInbound, .handshake peer]).connected := by
    intro s hspawned
    simp [run, peerStep, hspawned]
  have hdial : ∀ s : PeerState, ∀ turn target nodes, s.loop = .dialing turn target nodes →
      peer ∈ (run (peerStep keys parseSocketAddr) s
        [.reconnect (fun _ _ => none) true, .handshake peer]).connected := by
    intro s turn target nodes hloop
    simp [run, peerStep, PeerState.reconnectStep, hloop]
  rcases h with hloop | hpassed | hspawned
  · cases hcase : s.loop with
    | chosen turn target nodes =>
      refine ⟨[.reconnect (fun _ _ => none) true, .reconnect (fun _ _ => none) true, .handshake peer], ?_⟩
      exact hdial _ _ target nodes (by simp [peerStep, PeerState.reconnectStep, hcase]; rfl)
    | dialing turn target nodes => exact ⟨_, hdial s turn target nodes hcase⟩
    | _ => simp [hcase, ReconnectLoop.dials] at hloop
  · refine ⟨[.listen, .setupInbound, .handshake peer], ?_⟩
    exact hset _ (by simp [peerStep, PeerState.listenStep, hpassed])
  · exact ⟨_, hset s hspawned⟩

/-- Once all peers are disconnected at its end, the node stays without peers whatever the
other tasks do, iff no connection was on its way past the flag. -/
theorem without_peers_iff (keys : PublicKeyText) (parseSocketAddr : Text → Option SocketAddr)
    (channels : List PublicKey) (stored : List Text) (inputs : List PeerInput) (answer : Bool)
    (hstopping : (peerRun keys parseSocketAddr channels stored inputs).command = .stopping) :
    (∀ later, (peerRun keys parseSocketAddr channels stored
        (inputs ++ .command answer :: later)).connected = []) ↔
      ¬(peerRun keys parseSocketAddr channels stored inputs).OnTheWay := by
  have hflag : (peerRun keys parseSocketAddr channels stored inputs).stopListenConnect = true :=
    flagSet_peerRun channels stored inputs (by rw [hstopping]; rfl)
  have hrun : ∀ later, peerRun keys parseSocketAddr channels stored (inputs ++ .command answer :: later) =
      run (peerStep keys parseSocketAddr)
        ((peerRun keys parseSocketAddr channels stored inputs).commandStep answer) later := by
    intro later
    simp [peerRun, run, peerStep]
  simp only [hrun]
  generalize peerRun keys parseSocketAddr channels stored inputs = s at *
  have hleft : s.commandStep answer = { s with connected := [], handshakes := 0, command := .left } := by
    simp only [PeerState.commandStep, hstopping]
  rw [hleft]
  constructor
  · intro hempty honTheWay
    have hstill : { s with connected := [], handshakes := 0, command := PeerPrompt.left }.OnTheWay := honTheWay
    obtain ⟨later, hmem⟩ := exists_connected_of_onTheWay hstill []
    rw [hempty later] at hmem
    cases hmem
  · intro hnone later
    simp only [PeerState.OnTheWay, not_or, Bool.not_eq_true, Nat.not_lt, Nat.le_zero] at hnone
    obtain ⟨hloop, hlistener, hspawned⟩ := hnone
    have hgone : Gone { s with connected := [], handshakes := 0, command := .left } :=
      ⟨hflag, rfl, rfl, rfl, hloop, hlistener, hspawned⟩
    exact (hgone.run later).connected

/-- The listener has read the flag when the command line ends. -/
def quitWhileAccepting : List PeerInput := [.listen, .listen, .enter .quit bothResolve]

theorem without_peers_iff_quitWhileAccepting : ¬∀ later,
    (peerRun anyKey noLiteral [] [] (quitWhileAccepting ++ .command true :: later)).connected = [] :=
  fun hempty => (without_peers_iff anyKey noLiteral [] [] quitWhileAccepting true rfl).mp hempty
    (.inr (.inl rfl))

end Quit

end RgbLightning.Node
