import RgbLightning.Node.CommandWords

/-! # The arguments of the commands

The readers of the commands on assets, channels and peers take back the words of their
arguments, and read nothing that has no such words.
-/
namespace RgbLightning.Node
open MachineInt Decimal Split Words HexUtils Payment Swap

section Arguments
variable {R : Readers}

theorem mineArgs_format (R : Readers) : Format AllWords
    (fun words a => mineArgs R.network words = .ok a) (fun n => [Nat.toDigits 10 n])
    (fun n => R.network = .regtest ∧ n < 2 ^ u16) where
  dom n _ := by simp [isWord_toDigits]
  reads n h := by
    have hread : parseU16 (Nat.toDigits 10 n) = .ok n := parseUnsigned_toDigits h.2
    simp [mineArgs, h.1, hread]
  sound words n _ h := by
    unfold mineArgs at h
    split_ifs at h with hregtest
    cases words with
    | nil => cases h
    | cons word words =>
      cases hread : parseU16 word with
      | error e => simp [hread] at h
      | ok m =>
        simp only [hread, Except.ok.injEq] at h
        subst h
        exact ⟨not_not.mp hregtest, parseUnsigned_lt hread⟩

theorem issueArgs_format : Format AllWords (fun words a => issueArgs words = .ok a)
    IssueArgs.words IssueArgs.Accepted where
  dom a h := by simp [IssueArgs.words, isWord_toDigits, h.2.1.1, h.2.2.1.1]
  reads a h := by
    obtain ⟨hamount, ⟨-, hticker⟩, ⟨-, hname⟩, hprecision⟩ := h
    simp [IssueArgs.words, issueArgs, parseU64_toDigits hamount, hticker, hname,
      parseUnsigned_toDigits hprecision]
  sound words a hwords h := by
    unfold issueArgs at h
    split at h
    · rename_i amount ticker name precision rest
      cases hamount : parseU64 amount with
      | error e => simp [hamount] at h
      | ok n =>
        simp only [hamount] at h
        split_ifs at h with hticker hname
        cases hprecision : parseUnsigned 8 precision with
        | error e => simp [hprecision] at h
        | ok m =>
          simp only [hprecision, Except.ok.injEq] at h
          subst h
          simp only [allWords_cons] at hwords
          exact ⟨parseUnsigned_lt hamount, ⟨hwords.2.1, by simpa using hticker⟩,
            ⟨hwords.2.2.1, by simpa using hname⟩, parseUnsigned_lt hprecision⟩
    · cases h

theorem contractIdArg_display (hR : R.Lawful) (id : ContractId) :
    contractIdArg R.ids (R.ids.display id) = .ok id := by
  rw [contractIdArg, hR.ids.fromStr_display]

theorem assetbalanceArgs_format (hR : R.Lawful) : Format AllWords
    (fun words a => assetbalanceArgs R.ids words = .ok a) (fun id => [R.ids.display id])
    (fun _ => True) where
  dom id _ := by simp [hR.isWord_display]
  reads id _ := by simp [assetbalanceArgs, contractIdArg_display hR]
  sound _ _ _ _ := trivial

theorem sendassetArgs_format (hR : R.Lawful) : Format AllWords
    (fun words a => sendassetArgs R.ids words = .ok a) (SendArgs.words R)
    (fun a => a.amtRgb < 2 ^ u64 ∧ IsWord a.blindedUtxo) where
  dom a h := by simp [SendArgs.words, hR.isWord_display, isWord_toDigits, h.2]
  reads a h := by
    simp [SendArgs.words, sendassetArgs, contractIdArg_display hR, parseU64_toDigits h.1]
  sound words a hwords h := by
    unfold sendassetArgs at h
    split at h
    · rename_i contractId amtRgb blindedUtxo rest
      cases hid : contractIdArg R.ids contractId with
      | error e => simp [hid] at h
      | ok id =>
        cases hamount : parseU64 amtRgb with
        | error e => simp [hid, hamount] at h
        | ok n =>
          simp only [hid, hamount, Except.ok.injEq] at h
          subst h
          simp only [allWords_cons] at hwords
          exact ⟨parseUnsigned_lt hamount, hwords.2.2.1⟩
    · cases h

theorem parsePeer_eq_ok {peer : Text} {info : PublicKey × SocketAddr} (h : peerInfoArg R peer = .ok info) :
    parsePeerInfo R.keys R.parseSocketAddr R.lookup peer = .ok info := by
  unfold peerInfoArg at h
  cases hread : parsePeerInfo R.keys R.parseSocketAddr R.lookup peer with
  | error e => simp [hread] at h
  | ok info' => simpa [hread] using h

theorem peerInfoArg_of {peer : Text} {info : PublicKey × SocketAddr}
    (h : parsePeerInfo R.keys R.parseSocketAddr R.lookup peer = .ok info) :
    peerInfoArg R peer = .ok info := by
  rw [peerInfoArg, h]

theorem channelAmountArg_toDigits {n : ℕ} (hmin : OPENCHANNEL_MIN_SAT ≤ n) (hmax : n ≤ OPENCHANNEL_MAX_SAT) :
    channelAmountArg (Nat.toDigits 10 n) = .ok n := by
  have hword : n < 2 ^ u64 := hmax.trans_lt (by decide)
  simp [channelAmountArg, parseU64_toDigits hword, Nat.not_lt.mpr hmin, Nat.not_lt.mpr hmax]

theorem channelAmountArg_eq_ok {word : Text} {n : ℕ} (h : channelAmountArg word = .ok n) :
    OPENCHANNEL_MIN_SAT ≤ n ∧ n ≤ OPENCHANNEL_MAX_SAT := by
  unfold channelAmountArg at h
  cases hread : parseU64 word with
  | error e => simp [hread] at h
  | ok m =>
    simp only [hread] at h
    split_ifs at h with hmin hmax
    cases h
    exact ⟨Nat.not_lt.mp hmin, Nat.not_lt.mp hmax⟩

theorem pushAmountArg_toDigits {isColored : Bool} {n : ℕ} (hword : n < 2 ^ u64)
    (hdust : isColored = true → DUST_LIMIT_MSAT ≤ n) :
    pushAmountArg isColored (Nat.toDigits 10 n) = .ok n := by
  have hlimit : ¬(isColored = true ∧ n < DUST_LIMIT_MSAT) := by
    rintro ⟨hcolored, hlt⟩
    exact absurd (hdust hcolored) (Nat.not_le.mpr hlt)
  simp only [pushAmountArg, parseU64_toDigits hword, if_neg hlimit]

theorem pushAmountArg_eq_ok {isColored : Bool} {word : Text} {n : ℕ}
    (h : pushAmountArg isColored word = .ok n) :
    n < 2 ^ u64 ∧ (isColored = true → DUST_LIMIT_MSAT ≤ n) := by
  unfold pushAmountArg at h
  cases hread : parseU64 word with
  | error e => simp [hread] at h
  | ok m =>
    simp only [hread] at h
    split_ifs at h with hlimit
    cases h
    refine ⟨parseUnsigned_lt hread, fun hcolored => ?_⟩
    by_contra hlt
    exact hlimit ⟨hcolored, Nat.not_le.mp hlt⟩

theorem channelRgbArg_words (hR : R.Lawful) {rgb : ContractId × ℕ} (h : rgb.2 < 2 ^ u64) :
    channelRgbArg R.ids (R.ids.display rgb.1) (Nat.toDigits 10 rgb.2) = .ok rgb := by
  simp only [channelRgbArg, contractIdArg_display hR, parseU64_toDigits h]

theorem channelRgbArg_eq_ok {contractId amount : Text} {rgb : ContractId × ℕ}
    (h : channelRgbArg R.ids contractId amount = .ok rgb) : rgb.2 < 2 ^ u64 := by
  unfold channelRgbArg at h
  cases hid : contractIdArg R.ids contractId with
  | error e => simp [hid] at h
  | ok id =>
    cases hread : parseU64 amount with
    | error e => simp [hid, hread] at h
    | ok n =>
      simp only [hid, hread, Except.ok.injEq] at h
      subst h
      exact parseUnsigned_lt hread

theorem openArgs_eq_ok {isColored announceChannel : Bool} {peer channelValueSat pushValueMsat : Text}
    {parse : Text → Except String Unit} {a : OpenArgs}
    (h : openArgs parse isColored peer channelValueSat pushValueMsat announceChannel = .ok a) :
    parse peer = .ok () ∧ channelAmountArg channelValueSat = .ok a.chanAmtSat ∧
      pushAmountArg isColored pushValueMsat = .ok a.pushAmtMsat ∧ a.rgb = none := by
  obtain ⟨u, hpeer, h⟩ := Outcome.except_bind_eq_ok.mp h
  obtain ⟨chanAmtSat, hamount, h⟩ := Outcome.except_bind_eq_ok.mp h
  obtain ⟨pushAmtMsat, hpush, h⟩ := Outcome.except_bind_eq_ok.mp h
  cases h
  exact ⟨hpeer, hamount, hpush, rfl⟩

theorem openArgs_words (isColored announceChannel : Bool) {peer : Text}
    {info : PublicKey × SocketAddr} {a : OpenArgs} (hpeer : parsePeerInfo R.keys R.parseSocketAddr R.lookup peer = .ok info)
    (ha : a.Accepted) (hdust : isColored = true → DUST_LIMIT_MSAT ≤ a.pushAmtMsat) :
    openArgs (peerCheck R) isColored peer
      (Nat.toDigits 10 a.chanAmtSat) (Nat.toDigits 10 a.pushAmtMsat) announceChannel =
        .ok ⟨a.chanAmtSat, a.pushAmtMsat, announceChannel, none⟩ := by
  have hcheck : peerCheck R peer = .ok () := by rw [peerCheck, peerInfoArg_of hpeer, Except.map]
  simp only [openArgs, hcheck, channelAmountArg_toDigits ha.1.1 ha.1.2,
    pushAmountArg_toDigits ha.2.1 hdust]
  rfl

theorem announceArg_public (announceChannel : Bool) :
    announceArg (if announceChannel then ["--public".toList] else [])[0]? = .ok announceChannel := by
  cases announceChannel with
  | false => rfl
  | true => rfl

theorem openchannelArgs_cons {parse : Text → Except String Unit} {peer amount push : Text}
    {rest : List Text} {announceChannel : Bool} (h : announceArg rest[0]? = .ok announceChannel) :
    openchannelArgs parse (peer :: amount :: push :: rest) =
      openArgs parse false peer amount push announceChannel := by
  have hbind : openchannelArgs parse (peer :: amount :: push :: rest) =
      announceArg rest[0]? >>= fun b => openArgs parse false peer amount push b := rfl
  rw [hbind, h]
  rfl

theorem opencoloredchannelArgs_cons {parse : Text → Except String Unit}
    {peer amount push id chanAmtRgb : Text} {rest : List Text} {announceChannel : Bool}
    (h : announceArg rest[0]? = .ok announceChannel) :
    opencoloredchannelArgs R.ids parse (peer :: amount :: push :: id :: chanAmtRgb :: rest) =
      openArgs parse true peer amount push announceChannel >>= fun args =>
        channelRgbArg R.ids id chanAmtRgb >>= fun rgb => .ok { args with rgb := some rgb } := by
  have hbind : opencoloredchannelArgs R.ids parse (peer :: amount :: push :: id :: chanAmtRgb :: rest) =
      announceArg rest[0]? >>= fun b => openArgs parse true peer amount push b >>= fun args =>
        channelRgbArg R.ids id chanAmtRgb >>= fun rgb => .ok { args with rgb := some rgb } := rfl
  rw [hbind, h]
  rfl

theorem openchannelArgs_eq_ok {parse : Text → Except String Unit} {words : List Text} {a : OpenArgs}
    (h : openchannelArgs parse words = .ok a) :
    ∃ peer amount push rest announceChannel, words = peer :: amount :: push :: rest ∧
      openArgs parse false peer amount push announceChannel = .ok a := by
  obtain ⟨announceChannel, -, h⟩ := Outcome.except_bind_eq_ok.mp h
  split at h
  · exact ⟨_, _, _, _, announceChannel, rfl, h⟩
  · cases h

theorem opencoloredchannelArgs_eq_ok {parse : Text → Except String Unit} {words : List Text}
    {a : OpenArgs} (h : opencoloredchannelArgs R.ids parse words = .ok a) :
    ∃ peer amount push id chanAmtRgb rest announceChannel args rgb,
      words = peer :: amount :: push :: id :: chanAmtRgb :: rest ∧
      openArgs parse true peer amount push announceChannel = .ok args ∧
      channelRgbArg R.ids id chanAmtRgb = .ok rgb ∧ a = { args with rgb := some rgb } := by
  obtain ⟨announceChannel, -, h⟩ := Outcome.except_bind_eq_ok.mp h
  split at h
  · obtain ⟨args, hargs, h⟩ := Outcome.except_bind_eq_ok.mp h
    obtain ⟨rgb, hrgb, h⟩ := Outcome.except_bind_eq_ok.mp h
    cases h
    exact ⟨_, _, _, _, _, _, announceChannel, args, rgb, rfl, hargs, hrgb, rfl⟩
  · cases h

theorem except_map_eq_ok {A B : Type} {read : Except String A} {f : A → B} {b : B}
    (h : read.map f = .ok b) : ∃ a, read = .ok a ∧ f a = b := by
  cases read with
  | error e => cases h
  | ok a => exact ⟨a, rfl, Except.ok.inj h⟩

theorem parsePeer_of_check {peer : Text} (h : peerCheck R peer = .ok ()) :
    ∃ info, parsePeerInfo R.keys R.parseSocketAddr R.lookup peer = .ok info := by
  obtain ⟨info, hread, -⟩ := except_map_eq_ok h
  exact ⟨info, parsePeer_eq_ok hread⟩

theorem openArgsWithPeer_format (hR : R.Lawful) (isColored : Bool) : Format AllWords
    (fun words a => openArgsWithPeer R isColored words = .ok a)
    (fun (peer, args) => openWords R peer args)
    (fun (peer, args) => args.rgb.isSome = isColored ∧ (Request.openchannel peer args).Accepted R) where
  dom := by
    rintro ⟨peer, a⟩ ⟨-, hpeer, -⟩
    simp only [openWords, allWords_append, allWords_cons, allWords_nil, hpeer, isWord_toDigits,
      hR.allWords_rgbWords, true_and, and_true]
    split_ifs
    · simp only [allWords_cons, allWords_nil, and_true]
      decide
    · exact allWords_nil
  reads := by
    rintro ⟨peer, a⟩ ⟨hcolored, -, ⟨info, hpeer⟩, ha⟩
    have hannounce := announceArg_public a.announceChannel
    cases hrgb : a.rgb with
    | none =>
      have hplain : isColored = false := by simpa [hrgb] using hcolored.symm
      have hdust : isColored = true → DUST_LIMIT_MSAT ≤ a.pushAmtMsat := by simp [hplain]
      have hopen := openArgs_words isColored a.announceChannel hpeer ha hdust
      rw [hplain] at hopen ⊢
      simp only [openArgsWithPeer, openWords, hrgb, rgbWords, List.append_nil, List.cons_append,
        List.nil_append, if_neg Bool.false_ne_true]
      rw [openchannelArgs_cons hannounce, hopen, ← hrgb]
      rfl
    | some rgb =>
      obtain ⟨hdust, hamount⟩ := ha.2.2 rgb hrgb
      have hplain : isColored = true := by simpa [hrgb] using hcolored.symm
      have hopen := openArgs_words true a.announceChannel hpeer ha fun _ => hdust
      rw [hplain]
      simp only [openArgsWithPeer, openWords, hrgb, rgbWords, List.cons_append, List.nil_append, if_true]
      rw [opencoloredchannelArgs_cons hannounce, hopen, channelRgbArg_words hR hamount]
      cases a
      cases hrgb
      rfl
  sound := by
    rintro words ⟨peer, a⟩ hwords hok
    obtain ⟨a', hread, ha'⟩ := except_map_eq_ok hok
    cases ha'
    cases isColored with
    | false =>
      obtain ⟨peer, amount, push, rest, announceChannel, rfl, hargs⟩ := openchannelArgs_eq_ok hread
      obtain ⟨hpeer, hamount, hpush, hrgb⟩ := openArgs_eq_ok hargs
      refine ⟨by rw [hrgb]; rfl, (allWords_cons.mp hwords).1, parsePeer_of_check hpeer,
        channelAmountArg_eq_ok hamount, (pushAmountArg_eq_ok hpush).1, ?_⟩
      intro rgb hsome
      rw [hrgb] at hsome
      cases hsome
    | true =>
      obtain ⟨peer, amount, push, id, chanAmtRgb, rest, announceChannel, args, rgb, rfl, hargs, hrgb,
        rfl⟩ := opencoloredchannelArgs_eq_ok hread
      obtain ⟨hpeer, hamount, hpush, -⟩ := openArgs_eq_ok hargs
      obtain ⟨hword, hdust⟩ := pushAmountArg_eq_ok hpush
      refine ⟨rfl, (allWords_cons.mp hwords).1, parsePeer_of_check hpeer, channelAmountArg_eq_ok hamount,
        hword, ?_⟩
      rintro rgb ⟨⟩
      exact ⟨hdust rfl, channelRgbArg_eq_ok hrgb⟩

theorem connectpeerArgs_format (R : Readers) : Format AllWords
    (fun words a => connectpeerArgs R words = .ok a) (fun (peer, _) => [peer])
    (fun (peer, info) => (Request.connectpeer peer info).Accepted R) where
  dom := by
    rintro ⟨peer, info⟩ ⟨hword, -⟩
    simpa using hword
  reads := by
    rintro ⟨peer, info⟩ ⟨-, hread⟩
    simp [connectpeerArgs, peerInfoArg_of hread, Except.map]
  sound := by
    rintro words ⟨peer, info⟩ hwords h
    cases words with
    | nil => cases h
    | cons word words =>
      obtain ⟨info', hread, hinfo⟩ := except_map_eq_ok h
      cases hinfo
      exact ⟨(allWords_cons.mp hwords).1, parsePeer_eq_ok hread⟩

theorem disconnectpeerArgs_format (hR : R.Lawful) : Format AllWords
    (fun words a => disconnectpeerArgs R words = .ok a) (fun key => [hexStr key]) R.Key where
  dom key h := by simpa using h.isWord
  reads key h := by simp [disconnectpeerArgs, hR.fromStr_hexStr key h]
  sound words key hwords h := by
    cases words with
    | nil => cases h
    | cons word words =>
      rw [disconnectpeerArgs] at h
      cases hread : R.keys.fromStr word with
      | error e => simp [hread] at h
      | ok key' =>
        simp only [hread, Except.ok.injEq] at h
        subst h
        exact hR.key_of_fromStr word _ hread

theorem closeArgs_format (hR : R.Lawful) (command : String) : Format AllWords
    (fun words a => closeArgs R.keys command words = .ok a)
    (fun (channelId, peerPubkey) => [hexStr channelId.val, hexStr peerPubkey])
    (fun (_, peerPubkey) => R.Key peerPubkey) where
  dom := by
    rintro ⟨channelId, peerPubkey⟩ hkey
    simpa using ⟨isWord_hexStr_bytes32 channelId, Readers.Key.isWord hkey⟩
  reads := by
    rintro ⟨channelId, peerPubkey⟩ hkey
    simp [closeArgs, hkey.1]
  sound := by
    rintro words ⟨channelId, peerPubkey⟩ hwords h
    unfold closeArgs at h
    cases words with
    | nil => cases h
    | cons word words =>
      cases hid : toBytes32 word with
      | none => simp [hid] at h
      | some id =>
        simp only [hid] at h
        cases words with
        | nil => cases h
        | cons peer words =>
          cases hpeer : (toVec peer).bind R.keys.fromSlice with
          | none => simp [hpeer] at h
          | some key =>
            simp only [hpeer, Except.ok.injEq, Prod.mk.injEq] at h
            obtain ⟨-, rfl⟩ := h
            obtain ⟨bytes, -, hslice⟩ := Option.bind_eq_some_iff.mp hpeer
            exact hR.key_of_fromSlice bytes _ hslice

/-- The keys of the path, joined by commas. -/
theorem onionPath_intercalate {keys : List PublicKey} (hne : keys ≠ []) (h : ∀ key ∈ keys, R.Key key) :
    onionPath R ([','].intercalate (keys.map hexStr)) = .ok keys := by
  have hcomma : ∀ piece ∈ keys.map hexStr, ',' ∉ piece := by
    intro piece hpiece hmem
    obtain ⟨key, -, rfl⟩ := List.mem_map.mp hpiece
    obtain ⟨b, -, hdigit⟩ := List.mem_flatMap.mp hmem
    have hbyte : b.toNat < 256 := b.toNat_lt
    have hnever : ∀ n < 16, hexDigit n ≠ ',' := by decide
    rcases List.mem_pair.mp hdigit with hdigit | hdigit
    · exact hnever _ (by omega) hdigit.symm
    · exact hnever _ (by omega) hdigit.symm
  rw [onionPath, List.splitOn_intercalate ',' hcomma (by simpa using hne), List.mapM_map]
  clear hne hcomma
  induction keys with
  | nil => rfl
  | cons key keys ih =>
    have hkey : R.keys.fromSlice key = some key := (h key (List.mem_cons_self ..)).1
    have hrest := ih fun k hk => h k (List.mem_cons_of_mem _ hk)
    simp only [List.mapM_cons, Function.comp_apply, toVec_hexStr, Option.bind_some, hkey]
    rw [hrest]
    rfl

theorem onionPath_eq_ok (hR : R.Lawful) {word : Text} {keys : List PublicKey}
    (h : onionPath R word = .ok keys) : ∀ key ∈ keys, R.Key key := by
  unfold onionPath at h
  generalize word.splitOn ',' = pieces at h
  induction pieces generalizing keys with
  | nil =>
    cases h
    simp
  | cons piece pieces ih =>
    rw [List.mapM_cons] at h
    obtain ⟨key, hkey, h⟩ := Outcome.except_bind_eq_ok.mp h
    obtain ⟨rest, hrest, h⟩ := Outcome.except_bind_eq_ok.mp h
    cases h
    have hfirst : R.Key key := by
      cases hslice : (toVec piece).bind R.keys.fromSlice with
      | none => simp [hslice] at hkey
      | some key' =>
        simp only [hslice, Except.ok.injEq] at hkey
        subst hkey
        obtain ⟨bytes, -, hread⟩ := Option.bind_eq_some_iff.mp hslice
        exact hR.key_of_fromSlice bytes _ hread
    intro k hk
    rcases List.mem_cons.mp hk with rfl | hk
    · exact hfirst
    · exact ih hrest k hk

theorem tlvTypeArg_eq_ok {word : Option Text} {n : ℕ} (h : tlvTypeArg word = .ok n) :
    64 ≤ n ∧ n < 2 ^ u64 := by
  cases word with
  | none => cases h
  | some word =>
    simp only [tlvTypeArg, Option.map_some] at h
    cases hread : parseU64 word with
    | error e => simp [hread] at h
    | ok m =>
      simp only [hread] at h
      split_ifs at h with hmin
      cases h
      exact ⟨hmin, parseUnsigned_lt hread⟩

theorem tlvTypeArg_toDigits {n : ℕ} (hmin : 64 ≤ n) (hword : n < 2 ^ u64) :
    tlvTypeArg (some (Nat.toDigits 10 n)) = .ok n := by
  simp [tlvTypeArg, parseU64_toDigits hword, hmin]

theorem isWord_dataWord (data : List UInt8) : IsWord (dataWord data) := by
  unfold dataWord
  split_ifs with h
  · decide
  · exact isWord_hexStr h

theorem dataArg_dataWord (data : List UInt8) : dataArg (some (dataWord data)) = .ok data := by
  unfold dataWord
  split_ifs with h
  · subst h
    rfl
  · simp [dataArg]

theorem isWord_path {keys : List PublicKey} (hne : keys ≠ []) (h : ∀ key ∈ keys, R.Key key) :
    IsWord ([','].intercalate (keys.map hexStr)) := by
  obtain ⟨key, keys, rfl⟩ := List.exists_cons_of_ne_nil hne
  rw [List.map_cons]
  apply isWord_intercalate (by decide) (h key (List.mem_cons_self ..)).isWord
  intro piece hpiece
  obtain ⟨k, hk, rfl⟩ := List.mem_map.mp hpiece
  exact (h k (List.mem_cons_of_mem _ hk)).isWord.2

theorem onionArgs_format (hR : R.Lawful) : Format AllWords (fun words a => onionArgs R words = .ok a)
    OnionArgs.words (OnionArgs.Accepted R) where
  dom a h := by
    have hpath := isWord_path (by simp) h.1
    simp only [OnionArgs.words, allWords_cons, allWords_nil, hpath, isWord_toDigits, isWord_dataWord,
      and_self]
  reads a h := by
    have hpath := onionPath_intercalate (by simp) h.1
    simp only [OnionArgs.words, onionArgs, hpath, List.getElem?_cons_zero, List.getElem?_cons_succ,
      tlvTypeArg_toDigits h.2.1 h.2.2, dataArg_dataWord, Outcome.ofExcept_ok, Outcome.bind_ok,
      List.getLast?_concat, Outcome.ofOption_some, List.dropLast_concat]
  sound words a hwords hok := by
    cases words with
    | nil => cases hok
    | cons path words =>
      obtain ⟨keys, hpath, h⟩ := Outcome.ofExcept_bind_eq_ok.mp hok
      obtain ⟨tlvType, htlv, h⟩ := Outcome.ofExcept_bind_eq_ok.mp h
      obtain ⟨data, hdata, h⟩ := Outcome.ofExcept_bind_eq_ok.mp h
      obtain ⟨destinationPk, hlast, h⟩ := Outcome.bind_eq_ok.mp h
      cases h
      have hkeys := onionPath_eq_ok hR hpath
      refine ⟨?_, tlvTypeArg_eq_ok htlv⟩
      rwa [List.dropLast_append_getLast? destinationPk (Outcome.ofOption_eq_ok.mp hlast)]

end Arguments

end RgbLightning.Node
