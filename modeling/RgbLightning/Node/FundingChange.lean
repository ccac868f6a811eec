import RgbLightning.Node.Commitments

/-! # The change of a coloured funding

The balance of a channel is checked by the command that opens it. The handler that
funds the channel later subtracts its amount from what the loop has counted, without
a check of its own.
-/
namespace RgbLightning.Node
open MachineInt Decimal Rgb Runs Cover

/-- The subtraction does not underflow. -/
def ChangeCount.Covered (c : ChangeCount) : Prop := c.channelRgbAmount ≤ c.inputAmount

/-- What the command has checked before it opened the channel. -/
structure ColouredChannel.Sound (channel : ColouredChannel) : Prop where
  fits : channel.rgbInfo.localRgbAmount < 2 ^ u64
  nodup : channel.checked.Nodup
  enough : channel.rgbInfo.localRgbAmount ≤ total OwnedValue.amount channel.checked

variable (ids : ContractIdText) (p : Profile)

/-- A funding that computes its change finds the channel's amount: since the command no
more of the contract has left the wallet than it had to spare and has received. -/
def FundedFromSpare (s : CommitState) (choice : CommitChoice) : Prop :=
  ∀ channelId calls channel count, choice = .fundingGenerationReady channelId calls →
    s.channels channelId = some channel →
    s.changeCount p channel.rgbInfo (s.view calls.assets) = some count →
    StillCovered p channel.rgbInfo.localRgbAmount channel.checked
      ((s.view calls.assets).owned channel.rgbInfo.contractId)

section Opened
variable {ids p} {s : CommitState} {choice : CommitChoice} {words : List Text} {calls : OpenCalls}
  {info : RgbInfo}

theorem channelRgbArg_lt {contractId chanAmtRgb : Text} {rgb : ContractId × ℕ}
    (h : channelRgbArg ids contractId chanAmtRgb = .ok rgb) : rgb.2 < 2 ^ u64 := by
  unfold channelRgbArg at h
  split at h
  · cases h
  · split at h
    · cases h
    · cases h
      exact parseUnsigned_lt ‹_›

theorem opencoloredchannelArgs_lt {parsePeerInfo : Text → Except String Unit} {args : OpenArgs}
    {rgb : ContractId × ℕ} (h : opencoloredchannelArgs ids parsePeerInfo words = .ok args)
    (hrgb : args.rgb = some rgb) : rgb.2 < 2 ^ u64 := by
  obtain ⟨announceChannel, -, h⟩ := Outcome.except_bind_eq_ok.mp h
  split at h
  · obtain ⟨parsed, -, h⟩ := Outcome.except_bind_eq_ok.mp h
    obtain ⟨colour, hcolour, h⟩ := Outcome.except_bind_eq_ok.mp h
    cases h
    cases hrgb
    exact channelRgbArg_lt hcolour
  · cases h

theorem owned_nodup (assets : Assets) (id : ContractId) : (assets.owned id).Nodup := by
  unfold Assets.owned getAssetOwnedValues
  cases assets.history id with
  | none => exact List.nodup_nil
  | some h => exact collectOwned_nodup _ _

/-- A balance is at most what is owned, as it can only have wrapped. -/
theorem total_of_balance {assets : Assets} {id : ContractId} {t : ℕ}
    (h : getRgbTotalAmount p assets.history assets.unspents id = some (.ok t)) :
    t ≤ total OwnedValue.amount (assets.owned id) := by
  obtain ⟨owned, howned, hnarrow⟩ := getRgbTotalAmount_eq_ok.mp h
  rw [Assets.owned, howned]
  exact narrow_le hnarrow

/-- The amount of the info file has passed the check of the command. -/
theorem openRgbInfo_checked (h : openRgbInfo ids p true words calls = .ok (some info)) :
    info.localRgbAmount < 2 ^ u64 ∧
      info.localRgbAmount ≤ total OwnedValue.amount (calls.assets.owned info.contractId) := by
  obtain ⟨args, hargs, h⟩ := Outcome.bind_eq_ok.mp ((if_pos rfl).symm.trans h)
  cases hrgb : args.rgb with
  | none =>
    rw [hrgb] at h
    cases h
  | some rgb =>
    rw [hrgb] at h
    obtain ⟨balance, hbalance, h⟩ := Outcome.bind_eq_ok.mp h
    obtain ⟨_, hcheck, h⟩ := Outcome.bind_eq_ok.mp h
    cases h
    obtain ⟨t, rfl, hle⟩ := checkEnough_eq_ok.mp (Outcome.ofExcept_eq_ok.mp hcheck)
    refine ⟨opencoloredchannelArgs_lt (Outcome.ofExcept_eq_ok.mp hargs) hrgb, hle.trans ?_⟩
    exact total_of_balance (Outcome.ofOption_eq_ok.mp hbalance)

theorem openChannel_channels (s : CommitState) (words : List Text) (calls : OpenCalls) :
    (s.openChannel ids p words calls).channels = s.channels ∨ ∃ channelId channel,
      channel.Sound ∧ (s.openChannel ids p words calls).channels =
        Function.update s.channels channelId (some channel) := by
  unfold CommitState.openChannel
  dsimp only
  split
  · rename_i rgbInfo channelId _ hinfo _ _
    obtain ⟨hfits, henough⟩ := openRgbInfo_checked hinfo
    exact .inr ⟨channelId, _, ⟨hfits, owned_nodup _ _, henough⟩, rfl⟩
  · exact .inl rfl

end Opened

section Step
variable {ids p} {s : CommitState} {choice : CommitChoice}

/-- What a choice does to the counts. -/
inductive CountsStep (p : Profile) (s : CommitState) : CommitChoice → List ChangeCount → Prop
  | kept {choice : CommitChoice} (hnone : ∀ channelId calls,
      choice = .fundingGenerationReady channelId calls → s.channels channelId = none) :
      CountsStep p s choice s.counts
  | counted {channelId : ChannelId} {calls : FundingCalls} (channel : ColouredChannel)
      (hchannel : s.channels channelId = some channel) :
      CountsStep p s (.fundingGenerationReady channelId calls)
        (s.counts ++ (s.changeCount p channel.rgbInfo (s.view calls.assets)).toList)

theorem openChannel_counts (words : List Text) (calls : OpenCalls) :
    (s.openChannel ids p words calls).counts = s.counts := by
  unfold CommitState.openChannel
  dsimp only
  split <;> rfl

variable (ids p s choice) in
theorem commitStep_counts : CountsStep p s choice (commitStep ids p s choice).counts := by
  cases choice with
  | opencoloredchannel words calls =>
    rw [commitStep, openChannel_counts]
    exact .kept fun _ _ h => by cases h
  | fundingGenerationReady channelId calls =>
    cases hchannel : s.channels channelId with
    | none =>
      simp only [commitStep, hchannel]
      apply CountsStep.kept
      rintro _ _ ⟨⟩
      exact hchannel
    | some channel =>
      simp only [commitStep, hchannel]
      exact .counted channel hchannel
  | sendasset words calls =>
    simp only [commitStep]
    split
    · exact .kept fun _ _ h => by cases h
    · exact .kept fun _ _ h => by cases h
  | _ => exact .kept fun _ _ h => by cases h

theorem commitStep_sound (hs : ∀ channelId channel, s.channels channelId = some channel → channel.Sound)
    (choice : CommitChoice) : ∀ channelId channel,
      (commitStep ids p s choice).channels channelId = some channel → channel.Sound := by
  intro channelId channel hchannel
  cases choice with
  | opencoloredchannel words calls =>
    rcases openChannel_channels s words calls with hkept | ⟨openedId, opened, hopened, hupdate⟩
    · rw [commitStep, hkept] at hchannel
      exact hs channelId channel hchannel
    · rw [commitStep, hupdate] at hchannel
      by_cases hid : channelId = openedId
      · subst hid
        rw [Function.update_self] at hchannel
        cases hchannel
        exact hopened
      · rw [Function.update_of_ne hid] at hchannel
        exact hs channelId channel hchannel
  | fundingGenerationReady fundedId calls =>
    simp only [commitStep] at hchannel
    split at hchannel <;> exact hs channelId channel hchannel
  | sendasset words calls =>
    simp only [commitStep] at hchannel
    split at hchannel <;> exact hs channelId channel hchannel
  | _ => exact hs channelId channel hchannel

/-- The count covers the amount iff there is enough to spare. -/
theorem changeCount_covered {channel : ColouredChannel} {assets : Assets} {count : ChangeCount}
    (hsound : channel.Sound) (h : s.changeCount p channel.rgbInfo assets = some count) :
    count.Covered ↔ StillCovered p channel.rgbInfo.localRgbAmount channel.checked
      (assets.owned channel.rgbInfo.contractId) := by
  unfold CommitState.changeCount at h
  split at h
  · obtain ⟨values, hvalues, h⟩ := Option.bind_eq_some_iff.mp h
    obtain ⟨⟨rgbInputs, inputAmount⟩, hloop, rfl⟩ := Option.map_eq_some_iff.mp h
    have howned : assets.owned channel.rgbInfo.contractId = values.toList :=
      Assets.owned_eq (Outcome.except_toOption_eq_some.mp hvalues)
    rw [howned]
    exact covered_iff_since hloop hsound.fits hsound.nodup (howned ▸ owned_nodup _ _)
  · cases h

/-- The handler subtracts from the count. -/
theorem fundingInputs_change {info : RgbInfo} {assets : Assets} {count : ChangeCount}
    (h : s.changeCount p info assets = some count) :
    (subWord u64 p count.inputAmount count.channelRgbAmount = none →
      ((fundingInputs p info assets).exec s.node.machine).1 = .aborted) ∧
    ∀ change, subWord u64 p count.inputAmount count.channelRgbAmount = some change →
      ∃ rgbInputs, ((fundingInputs p info assets).exec s.node.machine).1 =
        .returned ⟨rgbInputs, change⟩ := by
  unfold CommitState.changeCount at h
  split at h
  · rename_i hfree
    obtain ⟨-, hruntime, hwallet⟩ := hfree
    obtain ⟨values, hvalues, h⟩ := Option.bind_eq_some_iff.mp h
    obtain ⟨⟨rgbInputs, inputAmount⟩, hloop, rfl⟩ := Option.map_eq_some_iff.mp h
    have hselect : selectInputs p info.localRgbAmount values.toList =
        (subWord u64 p inputAmount info.localRgbAmount).map fun change => ⟨rgbInputs, change⟩ := by
      rw [selectInputs, hloop, Option.bind_some]
    constructor
    · intro hsub
      simp [fundingInputs, assetOwnedValues, Task.lock, Task.unlock, Task.bind, Task.exec, Machine.perform,
        Task.expect, hruntime, hwallet, hvalues, hselect, hsub]
    · intro change hsub
      have howned := Outcome.except_toOption_eq_some.mp hvalues
      have hselected : selectInputs p info.localRgbAmount values.toList = some ⟨rgbInputs, change⟩ := by
        rw [hselect, hsub, Option.map_some]
      obtain ⟨m', hexec, -⟩ := fundingInputs_exec hruntime hwallet howned hselected
      exact ⟨rgbInputs, by rw [hexec]⟩
  · cases h

/-- A channel whose checked values are all still there is covered. -/
theorem stillCovered_of_nothing_left {channel : ColouredChannel} (hsound : channel.Sound)
    {owned : List (OwnedValue ℕ)} (hfits : total OwnedValue.amount owned < 2 ^ u64)
    (hleft : ∀ v ∈ channel.checked, v ∈ owned) :
    StillCovered p channel.rgbInfo.localRgbAmount channel.checked owned := by
  have hnone : channel.checked.filter (fun v => v ∉ owned) = [] := by
    rw [List.filter_eq_nil_iff]
    intro v hv
    simpa using hleft v hv
  have henough := hsound.enough
  rw [StillCovered, if_pos hfits, hnone, total_nil]
  omega

structure CountInv (s : CommitState) : Prop where
  sound : ∀ channelId channel, s.channels channelId = some channel → channel.Sound
  covered : ∀ c ∈ s.counts, c.Covered

theorem commitStep_covered (hs : CountInv s) (hok : FundedFromSpare p s choice) :
    CountInv (commitStep ids p s choice) := by
  refine ⟨commitStep_sound hs.sound choice, ?_⟩
  have hspec := commitStep_counts ids p s choice
  generalize (commitStep ids p s choice).counts = counts at hspec
  cases hspec with
  | kept hnone => exact hs.covered
  | @counted channelId calls channel hchannel =>
    intro c hc
    rcases List.mem_append.mp hc with hc | hc
    · exact hs.covered c hc
    · have hcount := Option.mem_toList.mp hc
      apply (changeCount_covered (hs.sound channelId channel hchannel) hcount).mpr
      exact hok channelId calls channel c rfl hchannel hcount

theorem commitStep_underflows (hs : CountInv s) (hbad : ¬FundedFromSpare p s choice) :
    ¬∀ c ∈ (commitStep ids p s choice).counts, c.Covered := by
  simp only [FundedFromSpare, not_forall] at hbad
  obtain ⟨channelId, calls, channel, count, rfl, hchannel, hcount, hshort⟩ := hbad
  have hspec := commitStep_counts ids p s (.fundingGenerationReady channelId calls)
  generalize (commitStep ids p s (.fundingGenerationReady channelId calls)).counts = counts at hspec
  intro hall
  cases hspec with
  | kept hnone =>
    rw [hnone channelId calls rfl] at hchannel
    cases hchannel
  | counted channel' hchannel' =>
    cases hchannel.symm.trans hchannel'
    have hmem : count ∈ s.counts ++ (s.changeCount p channel.rgbInfo (s.view calls.assets)).toList := by
      simp [hcount]
    exact hshort ((changeCount_covered (hs.sound channelId channel hchannel) hcount).mp (hall count hmem))

theorem counts_of_step (h : ∀ c ∈ (commitStep ids p s choice).counts, c.Covered) :
    ∀ c ∈ s.counts, c.Covered := by
  have hspec := commitStep_counts ids p s choice
  generalize (commitStep ids p s choice).counts = counts at h hspec
  cases hspec with
  | kept hnone => exact h
  | counted channel hchannel => exact fun c hc => h c (List.mem_append_left _ hc)

end Step

/-- No funding change underflows iff every channel is funded from what was to spare
when its balance was checked and what has come in since. -/
theorem funding_change_iff (file : RgbUtxos) (choices : List CommitChoice) :
    (∀ c ∈ (commitRun ids p file choices).counts, c.Covered) ↔
      EachAfter (fun older choice => FundedFromSpare p (commitRun ids p file older) choice) choices := by
  have hinit : CountInv (.init file) := ⟨by simp [CommitState.init], by simp [CommitState.init]⟩
  have hstep : ∀ s choice, CountInv s → FundedFromSpare p s choice →
      CountInv (commitStep ids p s choice) := fun _ _ => commitStep_covered
  exact run_exact_last (P := fun s : CommitState => ∀ c ∈ s.counts, c.Covered) hinit hstep
    (fun _ hs => hs.covered) (fun _ _ => commitStep_underflows) (fun _ _ => counts_of_step) choices

/-- 50 of 100 units are sent and the rest comes back on a UTXO of the list. -/
def sendFifty : SendCalls where
  assets := ownedUnits
  sealValid _ := true
  finish params := some ⟨Bytes32.fill 4, params.addUtxos⟩
  sendRgb := true
  postConsignment := true
  acceptTransfer := true

def changeUtxo : OutPoint := ⟨Bytes32.fill 2, 0⟩

def afterSending : Assets where
  history _ := some ⟨[⟨0, ⟨Bytes32.fill 1, 0⟩, 100⟩, ⟨1, changeUtxo, 50⟩], by simp⟩
  unspents := [⟨Bytes32.fill 1, 0⟩, changeUtxo]

/-- Units are sent between the command that opens a channel of 60 and its funding. -/
def sentMeanwhile : List CommitChoice :=
  [.opencoloredchannel ["peer".toList, "100000".toList, "600000".toList, "rgb".toList, "60".toList]
      quickPeer,
    .sendasset ["rgb".toList, "50".toList, "utxob".toList] sendFifty,
    .fundingGenerationReady (Bytes32.fill 9) { colouredFunding with assets := afterSending }]

theorem sentMeanwhile_underflows :
    (commitRun oneContract .release [⟨changeUtxo, false⟩] sentMeanwhile).counts = [⟨50, 60⟩] ∧
    ¬∀ c ∈ (commitRun oneContract .release [⟨changeUtxo, false⟩] sentMeanwhile).counts, c.Covered := by
  have hrun : (commitRun oneContract .release [⟨changeUtxo, false⟩] sentMeanwhile).counts =
      [⟨50, 60⟩] := by decide
  refine ⟨hrun, ?_⟩
  rw [hrun]
  simp [ChangeCount.Covered]

end RgbLightning.Node
