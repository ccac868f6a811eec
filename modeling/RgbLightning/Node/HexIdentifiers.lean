import RgbLightning.Swap.MakerExecute

/-! # Identifiers given in hexadecimal

Payment hashes, payment secrets and channel ids are decoded from hexadecimal words.
Their readers check how many bytes come out, not how many digits went in.
-/
namespace RgbLightning.Node
open MachineInt Decimal HexUtils Payment Swap

section Close
variable (keys : PublicKeyText)

/-- The arguments of `closechannel` and `forceclosechannel`. -/
def closeArgs (command : String) (words : List Text) : Except String (ChannelId × PublicKey) :=
  match words with
  | [] => .error ("ERROR: " ++ command ++ " requires a channel ID: `" ++ command ++
      " <channel_id> <peer_pubkey>`")
  | channelId :: rest =>
    match toBytes32 channelId with
    | none => .error "ERROR: couldn't parse channel_id"
    | some channelId =>
      match rest with
      | [] => .error ("ERROR: " ++ command ++ " requires a peer pubkey: `" ++ command ++
          " <channel_id> <peer_pubkey>`")
      | peerPubkey :: _ =>
        match (toVec peerPubkey).bind keys.fromSlice with
        | none => .error "ERROR: couldn't parse peer_pubkey"
        | some peerPubkey => .ok (channelId, peerPubkey)

def closechannelArgs (words : List Text) : Except String (ChannelId × PublicKey) :=
  closeArgs keys "closechannel" words

def forceclosechannelArgs (words : List Text) : Except String (ChannelId × PublicKey) :=
  closeArgs keys "forceclosechannel" words

variable {keys}

theorem closeArgs_eq_ok {command : String} {words : List Text} {args : ChannelId × PublicKey}
    (h : closeArgs keys command words = .ok args) :
    ∃ word, words[0]? = some word ∧ toBytes32 word = some args.1 := by
  unfold closeArgs at h
  split at h
  · cases h
  · rename_i channelId rest
    split at h
    · cases h
    · split at h
      · cases h
      · split at h
        · cases h
        · cases h
          exact ⟨channelId, rfl, by assumption⟩

end Close

section Accepted
variable {ids : ContractIdText} {keys : PublicKeyText} {p : Profile}

theorem fromStr_paymentHash {s : Text} {swap : SwapString} (h : Swap.fromStr ids p s = .ok swap) :
    ∃ hash, (s.splitOn ':')[5]? = some hash ∧ toBytes32 hash = some swap.paymentHash := by
  obtain ⟨parts, hparts, h⟩ := Outcome.bind_eq_ok.mp h
  obtain ⟨swapType, -, hswap⟩ := Outcome.bind_eq_ok.mp h
  cases hswap
  have hparsed := Outcome.ofExcept_eq_ok.mp hparts
  unfold parseParts at hparsed
  split at hparsed
  · rename_i paymentHash hsplit
    split at hparsed
    · split at hparsed
      · cases hparsed
      · cases hparsed
        exact ⟨paymentHash, by rw [hsplit]; rfl, by assumption⟩
    · cases hparsed
  · cases hparsed

theorem makerexecuteArgs_paymentSecret {now : ℕ} {words : List Text} {args : ExecuteArgs}
    (h : makerexecuteArgs ids keys p now words = .ok args) :
    ∃ secret, words[1]? = some secret ∧ toBytes32 secret = some args.paymentSecret := by
  unfold makerexecuteArgs at h
  split at h
  · rename_i swapstring paymentSecret peerPubkey rest
    split at h
    · cases h
    · cases h
    · split at h
      · cases h
      · split at h
        · cases h
        · split at h
          · cases h
          · cases h
            exact ⟨paymentSecret, rfl, by assumption⟩
  · cases h

/-- The words of accepted commands that stand for 32 bytes. -/
inductive AcceptedId : Text → Prop
  | paymentHash {ids : ContractIdText} {p : Profile} {s hash : Text} {swap : SwapString}
      (haccepted : Swap.fromStr ids p s = .ok swap) (hword : (s.splitOn ':')[5]? = some hash) :
      AcceptedId hash
  | paymentSecret {ids : ContractIdText} {keys : PublicKeyText} {p : Profile} {now : ℕ}
      {words : List Text} {secret : Text} {args : ExecuteArgs}
      (haccepted : makerexecuteArgs ids keys p now words = .ok args)
      (hword : words[1]? = some secret) : AcceptedId secret
  | closechannel {keys : PublicKeyText} {words : List Text} {channelId : Text}
      {args : ChannelId × PublicKey} (haccepted : closechannelArgs keys words = .ok args)
      (hword : words[0]? = some channelId) : AcceptedId channelId
  | forceclosechannel {keys : PublicKeyText} {words : List Text} {channelId : Text}
      {args : ChannelId × PublicKey} (haccepted : forceclosechannelArgs keys words = .ok args)
      (hword : words[0]? = some channelId) : AcceptedId channelId

theorem AcceptedId.decoded {word : Text} (h : AcceptedId word) :
    ∃ v : Bytes32, toBytes32 word = some v := by
  cases h with
  | paymentHash haccepted hword =>
    obtain ⟨hash, hhash, hdecoded⟩ := fromStr_paymentHash haccepted
    cases hword.symm.trans hhash
    exact ⟨_, hdecoded⟩
  | paymentSecret haccepted hword =>
    obtain ⟨secret, hsecret, hdecoded⟩ := makerexecuteArgs_paymentSecret haccepted
    cases hword.symm.trans hsecret
    exact ⟨_, hdecoded⟩
  | closechannel haccepted hword =>
    obtain ⟨channelId, hchannelId, hdecoded⟩ := closeArgs_eq_ok haccepted
    cases hword.symm.trans hchannelId
    exact ⟨_, hdecoded⟩
  | forceclosechannel haccepted hword =>
    obtain ⟨channelId, hchannelId, hdecoded⟩ := closeArgs_eq_ok haccepted
    cases hword.symm.trans hchannelId
    exact ⟨_, hdecoded⟩

/-- Exactly 64 hexadecimal digits. -/
def SixtyFourDigits (word : Text) : Prop := IsHex word ∧ word.length = 64

theorem acceptedId_iff {word : Text} (h : AcceptedId word) : SixtyFourDigits word ↔ ¬OddHex word := by
  obtain ⟨v, hv⟩ := h.decoded
  obtain ⟨hhex, hlength⟩ := toBytes32_length hv
  simp only [SixtyFourDigits, OddHex, hhex, true_and]
  omega

/-- Encoding is undone by decoding. Decoding is exact, and an accepted identifier was
given as 64 digits, iff the text is not an odd number of hexadecimal digits. -/
theorem hex_inverse_iff (v : List UInt8) (hex word : Text) :
    toVec (hexStr v) = some v ∧ (DecodesExactly hex ↔ ¬OddHex hex) ∧
      (AcceptedId word → (SixtyFourDigits word ↔ ¬OddHex word)) :=
  ⟨toVec_hexStr v, decodesExactly_iff hex, acceptedId_iff⟩

/-- One key, which takes 33 bytes. -/
def oneKey : PublicKeyText where
  fromSlice v := if v.length = 33 ∧ v.head? = some 2 then some (Bytes32.fill 5) else none
  fromStr _ := .error ""

/-- 65 digits are read as a channel id, and three digits as one byte. -/
theorem oddDigits_accepted :
    ¬((∀ hex, DecodesExactly hex) ∧ ∀ word, AcceptedId word → SixtyFourDigits word) ∧
    toVec "abc".toList = some [171] ∧
    AcceptedId (List.replicate 65 '0') ∧ ¬SixtyFourDigits (List.replicate 65 '0') := by
  have hdropped : toVec "abc".toList = some [171] := by decide
  refine ⟨?_, hdropped, ?_, ?_⟩
  · intro hclaim
    have heven := ((hclaim.1 "abc".toList [171]).mp hdropped).1
    revert heven
    decide
  · have haccepted : closechannelArgs oneKey
        [List.replicate 65 '0', "02".toList ++ List.replicate 64 '1'] =
          .ok (Bytes32.fill 0, Bytes32.fill 5) := by rfl
    exact .closechannel haccepted rfl
  · intro hexact
    have hlength := hexact.2
    simp at hlength

end Accepted

end RgbLightning.Node
