import RgbLightning.Base.RecordFile
import RgbLightning.Base.Split
import RgbLightning.Base.Words
import RgbLightning.Payment.Senders

/-! # The peers of the channels

A line is appended for every channel that is opened. The reconnect loop reads the whole
file every second and resolves all host names in it.
-/
namespace RgbLightning.Node
open Decimal Split Words Payment

/-- What the resolver answers for a host and a port, at one time. -/
abbrev HostLookup := Text → ℕ → Option (List SocketAddr)

section Code
variable (keys : PublicKeyText) (parseSocketAddr : Text → Option SocketAddr) (lookup : HostLookup)

/-- A literal address is its own result, a host and a port are looked up. -/
def toSocketAddrs (s : Text) : Option (List SocketAddr) :=
  match parseSocketAddr s with
  | some addr => some [addr]
  | none =>
    match rsplitn ':' 2 s with
    | [port, host] =>
      match parseU16 port with
      | .ok port => lookup host port
      | .error _ => none
    | _ => none

def parsePeerInfo (peerPubkeyAndIpAddr : Text) : Except String (PublicKey × SocketAddr) :=
  match peerPubkeyAndIpAddr.splitOn '@' with
  | pubkey :: peerAddrStr :: _ =>
    match (toSocketAddrs parseSocketAddr lookup peerAddrStr).bind List.head? with
    | none => .error "ERROR: couldn't parse pubkey@host:port into a socket address"
    | some peerAddr =>
      match toCompressedPubkey keys pubkey with
      | none => .error "ERROR: unable to parse given pubkey for node"
      | some pubkey => .ok (pubkey, peerAddr)
  | _ => .error "ERROR: incorrectly formatted peer info. Should be formatted as: `pubkey@host:port`"

/-- The file, if there is one, after a line is appended. -/
def persistChannelPeer (file : Option Text) (peerInfo : Text) : Option Text :=
  some (file.getD [] ++ (peerInfo ++ ['\n']))

def readChannelPeerData : Option Text → Except String (PublicKey → Option SocketAddr)
  | none => .ok fun _ => none
  | some contents => RecordFile.read (parsePeerInfo keys parseSocketAddr lookup) (lines contents)

/-- One turn of the reconnect loop: the peers it connects to, of those with a channel. -/
def reconnectTargets (info : Except String (PublicKey → Option SocketAddr))
    (channelPeers connected : List PublicKey) : List (PublicKey × SocketAddr) :=
  match info with
  | .ok info => (channelPeers.filter fun id => id ∉ connected).filterMap fun id =>
      (info id).map fun addr => (id, addr)
  | .error _ => []

end Code

section Stored
variable (keys : PublicKeyText) (parseSocketAddr : Text → Option SocketAddr) (now : HostLookup)

/-- The file that a sequence of calls leaves. -/
def peerFile (stored : List Text) : Option Text := stored.foldl persistChannelPeer none

/-- The lines of that file. -/
def peerLines (stored : List Text) : List Text := stored.flatMap fun s => lines (s ++ ['\n'])

def peerKey (line : Text) : Option PublicKey :=
  match line.splitOn '@' with
  | pubkey :: _ => toCompressedPubkey keys pubkey
  | [] => none

def peerAddr (line : Text) : Option SocketAddr :=
  match line.splitOn '@' with
  | _ :: addr :: _ => (toSocketAddrs parseSocketAddr now addr).bind List.head?
  | _ => none

/-- No line after this one has its key. -/
def MostRecent (key : PublicKey) (line : Text) (file : List Text) : Prop :=
  ∃ older newer, file = older ++ line :: newer ∧ ∀ other ∈ newer, peerKey keys other ≠ some key

/-- The file is read, and every key whose most recent line still parses has the address
of that line. -/
def Reconnectable (stored : List Text) : Prop :=
  ∃ data, readChannelPeerData keys parseSocketAddr now (peerFile stored) = .ok data ∧
    ∀ key line addr, MostRecent keys key line (peerLines stored) →
      parsePeerInfo keys parseSocketAddr now line = .ok (key, addr) → data key = some addr

def StillParses (line : Text) : Prop := RecordFile.Parses (parsePeerInfo keys parseSocketAddr now) line

instance (line : Text) : Decidable (StillParses keys parseSocketAddr now line) :=
  inferInstanceAs (Decidable (RecordFile.Parses _ _))

/-- The host of a stored peer has an address now. -/
def StillResolves (line : Text) : Prop := (peerAddr parseSocketAddr now line).isSome = true

instance (line : Text) : Decidable (StillResolves parseSocketAddr now line) :=
  inferInstanceAs (Decidable (_ = true))

end Stored

section Lines
variable {keys : PublicKeyText} {parseSocketAddr : Text → Option SocketAddr} {now : HostLookup}

/-- A line parses iff it has a key and an address. -/
theorem parsePeerInfo_eq_ok {line : Text} {key : PublicKey} {addr : SocketAddr} :
    parsePeerInfo keys parseSocketAddr now line = .ok (key, addr) ↔
      peerKey keys line = some key ∧ peerAddr parseSocketAddr now line = some addr := by
  unfold parsePeerInfo peerKey peerAddr
  cases line.splitOn '@' with
  | nil => simp
  | cons pubkey rest =>
    cases rest with
    | nil => simp
    | cons addrStr rest =>
      dsimp only
      cases (toSocketAddrs parseSocketAddr now addrStr).bind List.head? with
      | none => simp
      | some a => cases toCompressedPubkey keys pubkey <;> simp

/-- What parsed once parses again as soon as its host resolves: the key stays. -/
theorem stillParses_iff {before : HostLookup} {line : Text}
    (haccepted : StillParses keys parseSocketAddr before line) :
    StillParses keys parseSocketAddr now line ↔ StillResolves parseSocketAddr now line := by
  obtain ⟨⟨key, addr⟩, hparsed⟩ := haccepted
  have hkey := (parsePeerInfo_eq_ok.mp hparsed).1
  constructor
  · rintro ⟨⟨key', addr'⟩, hnow⟩
    exact Option.isSome_iff_exists.mpr ⟨addr', (parsePeerInfo_eq_ok.mp hnow).2⟩
  · intro hresolves
    obtain ⟨addr', hnow⟩ := Option.isSome_iff_exists.mp hresolves
    exact ⟨(key, addr'), parsePeerInfo_eq_ok.mpr ⟨hkey, hnow⟩⟩

theorem peerFile_eq (stored : List Text) (hne : stored ≠ []) :
    peerFile stored = some (stored.flatMap fun s => s ++ ['\n']) := by
  induction stored using List.reverseRecOn with
  | nil => exact absurd rfl hne
  | append_singleton stored s ih =>
    rw [peerFile, List.foldl_append]
    change persistChannelPeer (peerFile stored) s = _
    by_cases hstored : stored = []
    · simp [hstored, peerFile, persistChannelPeer]
    · rw [ih hstored]
      simp [persistChannelPeer]

/-- Reading goes through the lines of all calls, in their order. -/
theorem readChannelPeerData_peerFile (stored : List Text) :
    readChannelPeerData keys parseSocketAddr now (peerFile stored) =
      RecordFile.read (parsePeerInfo keys parseSocketAddr now) (peerLines stored) := by
  by_cases hstored : stored = []
  · rw [hstored]
    rfl
  · rw [peerFile_eq stored hstored, readChannelPeerData, lines_flatMap, peerLines]

/-- A word of the command line is stored as one line. -/
theorem lines_word {s : Text} (hs : IsWord s) : lines (s ++ ['\n']) = [s] := by
  have hfeed : '\n' ∉ s := by
    intro hmem
    have hspace := hs.2 '\n' hmem
    revert hspace
    decide
  have hreturn : s.getLast? ≠ some '\r' := by
    intro hlast
    have hspace := hs.2 '\r' (List.mem_of_getLast? hlast)
    revert hspace
    decide
  rw [lines_single hfeed, stripCr, if_neg hreturn]

theorem peerLines_words {stored : List Text} (hwords : ∀ s ∈ stored, IsWord s) :
    peerLines stored = stored := by
  induction stored with
  | nil => rfl
  | cons s stored ih =>
    have hrest := ih fun t ht => hwords t (List.mem_cons_of_mem s ht)
    rw [peerLines, List.flatMap_cons, lines_word (hwords s (List.mem_cons_self ..))]
    exact congrArg (s :: ·) hrest

/-- One line that does not parse keeps the loop from every peer. -/
theorem reconnectTargets_of_stale {stored : List Text} {line : Text} (hline : line ∈ peerLines stored)
    (hstale : ¬StillParses keys parseSocketAddr now line) (channelPeers connected : List PublicKey) :
    reconnectTargets (readChannelPeerData keys parseSocketAddr now (peerFile stored)) channelPeers
      connected = [] := by
  cases hread : readChannelPeerData keys parseSocketAddr now (peerFile stored) with
  | error e => rfl
  | ok data =>
    rw [readChannelPeerData_peerFile] at hread
    exact absurd (RecordFile.parses_of_read hread line hline) hstale

end Lines

section Exact
variable (keys : PublicKeyText) (parseSocketAddr : Text → Option SocketAddr) (now : HostLookup)

/-- The stored peers are found iff every line of the file still parses. For the words that
the command line stores after parsing them, that is: iff every stored host still resolves. -/
theorem peers_reconnectable_iff (stored : List Text) :
    (Reconnectable keys parseSocketAddr now stored ↔
      ∀ line ∈ peerLines stored, StillParses keys parseSocketAddr now line) ∧
    ((∀ s ∈ stored, IsWord s ∧ ∃ before, StillParses keys parseSocketAddr before s) →
      (Reconnectable keys parseSocketAddr now stored ↔
        ∀ s ∈ stored, StillResolves parseSocketAddr now s)) := by
  have hlines : Reconnectable keys parseSocketAddr now stored ↔
      ∀ line ∈ peerLines stored, StillParses keys parseSocketAddr now line := by
    unfold Reconnectable
    rw [readChannelPeerData_peerFile]
    constructor
    · rintro ⟨data, hread, -⟩
      exact RecordFile.parses_of_read hread
    · intro hparses
      have hread := RecordFile.read_eq_ok.mpr ⟨hparses, rfl⟩
      refine ⟨_, hread, ?_⟩
      rintro key line addr ⟨older, newer, hsplit, hlast⟩ hline
      apply RecordFile.lookup_of_last hread hsplit hline
      intro other hother addr' hparsed
      exact hlast other hother (parsePeerInfo_eq_ok.mp hparsed).1
  refine ⟨hlines, fun haccepted => ?_⟩
  rw [hlines, peerLines_words fun s hs => (haccepted s hs).1]
  constructor
  · intro h s hs
    obtain ⟨before, hbefore⟩ := (haccepted s hs).2
    exact (stillParses_iff hbefore).mp (h s hs)
  · intro h s hs
    obtain ⟨before, hbefore⟩ := (haccepted s hs).2
    exact (stillParses_iff hbefore).mpr (h s hs)

def alice : Text :=
  "0279be667ef9dcbbac55a06295ce870b07029bfcdb2dce28d959f2815b16f81798@alice.example:9735".toList

def bob : Text :=
  "02c6047f9441ed7d6d3045406e95c07cd85c778e4b8cef3ca7abac09b95c709ee5@bob.example:9736".toList

def anyKey : PublicKeyText := ⟨some, fun _ => .error "malformed public key"⟩

/-- Neither of the two is given as a literal address. -/
def noLiteral : Text → Option SocketAddr := fun _ => none

def bothResolve : HostLookup := fun _ port => some [⟨.v4 ⟨[198, 51, 100, 7], rfl⟩, port⟩]

def aliceGone : HostLookup := fun host port =>
  if host = "alice.example".toList then none else bothResolve host port

theorem peers_reconnectable_bothResolve : Reconnectable anyKey noLiteral bothResolve [alice, bob] := by
  obtain ⟨-, hwords⟩ := peers_reconnectable_iff anyKey noLiteral bothResolve [alice, bob]
  have hresolve : [alice, bob].all (fun s => IsWord s ∧ StillParses anyKey noLiteral bothResolve s ∧
      StillResolves noLiteral bothResolve s) = true := by decide
  have hstored : ∀ s ∈ [alice, bob], IsWord s ∧ StillParses anyKey noLiteral bothResolve s ∧
      StillResolves noLiteral bothResolve s := by simpa using hresolve
  apply (hwords fun s hs => ⟨(hstored s hs).1, bothResolve, (hstored s hs).2.1⟩).mpr
  exact fun s hs => (hstored s hs).2.2

/-- Bob still has an address, and is not found because Alice is stored too. -/
theorem bob_unreachable : StillResolves noLiteral aliceGone bob ∧
    ¬Reconnectable anyKey noLiteral aliceGone [alice, bob] := by
  refine ⟨by decide, ?_⟩
  rintro ⟨data, hread, -⟩
  rw [readChannelPeerData_peerFile] at hread
  have hparses := RecordFile.parses_of_read hread alice (by decide)
  revert hparses
  decide

end Exact

end RgbLightning.Node
