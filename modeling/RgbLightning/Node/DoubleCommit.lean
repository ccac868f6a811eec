import RgbLightning.Node.Commitments

/-! # Assets committed twice

Two operations that are both still valid must not have selected the same outpoint.
The wallet's report rules this out once a transaction has been seen; before that
nothing does.
-/
namespace RgbLightning.Node
open MachineInt Decimal Rgb Runs

/-- No outpoint is selected by two operations unless one of them is abandoned. -/
def CommittedOnce (s : CommitState) : Prop :=
  s.commitments.Pairwise fun c d =>
    c.stage ≠ .abandoned → d.stage ≠ .abandoned → c.rgbInputs.Disjoint d.rgbInputs

variable (ids : ContractIdText) (p : Profile)

/-- The values an operation reaches before its amount is covered are not on inputs of
transactions that may still be broadcast. -/
def SelectsUnreserved (s : CommitState) (choice : CommitChoice) : Prop :=
  ∀ d, s.demand ids choice = some d → d.stage ≠ .abandoned → s.selected ids p d.operation ≠ [] →
    ∀ before v after, d.assets.owned d.contractId = before ++ v :: after → Unfilled d.amount before →
      v.outpoint ∉ s.reserved

section Step
variable {ids p} {s : CommitState} {choice : CommitChoice} {d : Demand}

/-- What a choice does to the commitments. -/
inductive CommitmentsStep (ids : ContractIdText) (p : Profile) (s : CommitState) :
    CommitChoice → List Commitment → Prop
  | kept {choice : CommitChoice} (hnone : s.demand ids choice = none) :
      CommitmentsStep ids p s choice s.commitments
  | committed {choice : CommitChoice} (d : Demand) (hd : s.demand ids choice = some d) :
      CommitmentsStep ids p s choice (s.commit ids p d).commitments
  | restaged {choice : CommitChoice} (txid : Txid) (stage : Stage) (hnone : s.demand ids choice = none) :
      CommitmentsStep ids p s choice (s.restage txid stage).commitments

theorem openChannel_commitments (words : List Text) (calls : OpenCalls) :
    (s.openChannel ids p words calls).commitments = s.commitments := by
  unfold CommitState.openChannel
  dsimp only
  split <;> rfl

variable (ids p s choice) in
theorem commitStep_commitments :
    CommitmentsStep ids p s choice (commitStep ids p s choice).commitments := by
  cases choice with
  | opencoloredchannel words calls =>
    rw [commitStep, openChannel_commitments]
    exact .kept rfl
  | fundingGenerationReady channelId calls =>
    cases hchannel : s.channels channelId with
    | none =>
      simp only [commitStep, hchannel]
      exact .kept (by simp [CommitState.demand, hchannel])
    | some channel =>
      simp only [commitStep, hchannel]
      exact .committed (fundingDemand s channel.rgbInfo calls) (by simp [CommitState.demand, hchannel])
  | sendasset words calls =>
    cases hargs : sendassetArgs ids words with
    | error e =>
      simp only [commitStep, hargs]
      exact .kept (by simp [CommitState.demand, hargs, Except.toOption])
    | ok args =>
      simp only [commitStep, hargs]
      exact .committed (sendassetDemand s words args calls)
        (by simp [CommitState.demand, hargs, Except.toOption])
  | spawned task => exact .kept rfl
  | seen txid => exact .restaged txid .seen rfl
  | abandoned txid => exact .restaged txid .abandoned rfl

theorem mem_inputs_of_stage {commitments : List Commitment} {c : Commitment} {o : OutPoint}
    (hc : c ∈ commitments) (ho : o ∈ c.rgbInputs) :
    o ∈ (commitments.filter fun d => d.stage = c.stage).flatMap Commitment.rgbInputs := by
  rw [List.mem_flatMap]
  exact ⟨c, List.mem_filter.mpr ⟨hc, by simp⟩, ho⟩

theorem view_unspents {assets : Assets} {o : OutPoint} (ho : o ∈ (s.view assets).unspents) :
    o ∉ s.spent := by
  simpa using (List.mem_filter.mp ho).2

theorem demand_view (h : s.demand ids choice = some d) : ∃ assets, d.assets = s.view assets := by
  cases choice with
  | fundingGenerationReady channelId calls =>
    obtain ⟨channel, -, rfl⟩ := Option.map_eq_some_iff.mp h
    exact ⟨calls.assets, rfl⟩
  | sendasset words calls =>
    obtain ⟨args, -, rfl⟩ := Option.map_eq_some_iff.mp h
    exact ⟨calls.assets, rfl⟩
  | _ => cases h

theorem owned_unspent {assets : Assets} {id : ContractId} {v : OwnedValue ℕ} (hv : v ∈ assets.owned id) :
    v.outpoint ∈ assets.unspents := by
  unfold Assets.owned at hv
  split at hv
  · obtain ⟨h, -, o, -, hseal, rfl⟩ := mem_getAssetOwnedValues ‹_› hv
    exact hseal
  · cases hv

theorem selectedFrom_iff {assets : Assets} {id : ContractId} {amount : ℕ} {rgbInputs : List OutPoint}
    (h : SelectedFrom p assets id amount rgbInputs) {o : OutPoint} :
    o ∈ rgbInputs ↔ ∃ before v after, assets.owned id = before ++ v :: after ∧ v.outpoint = o ∧
      Unfilled amount before := by
  obtain ⟨owned, inputAmount, howned, hloop⟩ := h
  rw [mem_rgbInputs_iff hloop, Assets.owned_eq howned]

/-- A selection from unreserved values is disjoint from everything still valid. -/
theorem CommittedOnce.commit (hs : CommittedOnce s) (hd : s.demand ids choice = some d)
    (hok : SelectsUnreserved ids p s choice) : CommittedOnce (s.commit ids p d) := by
  unfold CommittedOnce
  rcases selected_of_demand p hd with hnone | ⟨txid, rgbInputs, hsel, hfrom⟩
  · rw [commit_commitments hnone]
    exact hs
  · rw [commit_commitments_of hsel, List.pairwise_append]
    refine ⟨hs, List.pairwise_singleton _ _, ?_⟩
    intro c hc new hnew hlive hstage o hoc ho
    cases List.mem_singleton.mp hnew
    obtain ⟨before, v, after, hv, rfl, hunfilled⟩ := (selectedFrom_iff hfrom).mp ho
    have hreported : v.outpoint ∉ s.spent := by
      obtain ⟨assets, hassets⟩ := demand_view hd
      apply view_unspents
      rw [← hassets]
      exact owned_unspent (by rw [hv]; simp)
    have hmem := mem_inputs_of_stage hc hoc
    cases hc : c.stage with
    | pending =>
      rw [hc] at hmem
      exact hok d hd hstage (by simp [hsel]) before v after hv hunfilled hmem
    | seen =>
      rw [hc] at hmem
      exact hreported hmem
    | abandoned => exact hlive hc

theorem CommittedOnce.restage (hs : CommittedOnce s) (txid : Txid) (stage : Stage) :
    CommittedOnce (s.restage txid stage) := by
  unfold CommittedOnce CommitState.restage
  rw [List.pairwise_map]
  apply List.Pairwise.imp _ hs
  have hkeep : ∀ c : Commitment,
      (if c.txid = txid ∧ c.stage = .pending then { c with stage := stage } else c).rgbInputs =
        c.rgbInputs := by
    intro c
    split <;> rfl
  have hlive : ∀ c : Commitment,
      (if c.txid = txid ∧ c.stage = .pending then { c with stage := stage } else c).stage ≠ .abandoned →
        c.stage ≠ .abandoned := by
    intro c
    split
    · rename_i hpending
      simp [hpending.2]
    · exact id
  intro c d hdisjoint hc hd
  rw [hkeep c, hkeep d]
  exact hdisjoint (hlive c hc) (hlive d hd)

theorem commitStep_once (hs : CommittedOnce s) (hok : SelectsUnreserved ids p s choice) :
    CommittedOnce (commitStep ids p s choice) := by
  have hspec := commitStep_commitments ids p s choice
  unfold CommittedOnce
  generalize (commitStep ids p s choice).commitments = commitments at hspec
  cases hspec with
  | kept hnone => exact hs
  | committed d hd => exact hs.commit hd hok
  | restaged txid stage hnone => exact hs.restage txid stage

/-- A reserved value that is reached is committed twice. -/
theorem commitStep_twice (hbad : ¬SelectsUnreserved ids p s choice) :
    ¬CommittedOnce (commitStep ids p s choice) := by
  simp only [SelectsUnreserved, not_forall, not_not] at hbad
  obtain ⟨d, hd, hstage, hselects, before, v, after, hv, hunfilled, hreserved⟩ := hbad
  obtain ⟨txid, rgbInputs, hsel, hfrom⟩ := (selected_of_demand p hd).resolve_left hselects
  have hspec := commitStep_commitments ids p s choice
  unfold CommittedOnce
  generalize (commitStep ids p s choice).commitments = commitments at hspec
  intro honce
  cases hspec with
  | kept hnone => simp [hd] at hnone
  | restaged txid stage hnone => simp [hd] at hnone
  | committed d' hd' =>
    cases hd.symm.trans hd'
    rw [commit_commitments_of hsel, List.pairwise_append] at honce
    obtain ⟨c, hc, hinput⟩ := List.mem_flatMap.mp hreserved
    obtain ⟨hc, hpending⟩ := List.mem_filter.mp hc
    have hlive : c.stage ≠ .abandoned := by
      rw [of_decide_eq_true hpending]
      simp
    have hchosen : v.outpoint ∈ rgbInputs :=
      (selectedFrom_iff hfrom).mpr ⟨before, v, after, hv, rfl, hunfilled⟩
    exact honce.2.2 c hc _ (List.mem_singleton_self _) hlive hstage hinput hchosen

end Step

/-- In every run nothing is committed twice iff every operation that selects assets
covers its amount before it reaches an input of a transaction not yet seen. -/
theorem committed_once_iff (file : RgbUtxos) (choices : List CommitChoice) :
    (∀ older newer, choices = older ++ newer → CommittedOnce (commitRun ids p file older)) ↔
      EachAfter (fun older choice => SelectsUnreserved ids p (commitRun ids p file older) choice)
        choices := by
  have hinit : CommittedOnce (.init file) := List.Pairwise.nil
  have hstep : ∀ s choice, CommittedOnce s → SelectsUnreserved ids p s choice →
      CommittedOnce (commitStep ids p s choice) := fun _ _ => commitStep_once
  exact run_exact hinit hstep (fun _ => id) (fun _ _ _ => commitStep_twice) choices

def openForty (channelId : ChannelId) : CommitChoice :=
  .opencoloredchannel ["peer".toList, "100000".toList, "600000".toList, "rgb".toList, "40".toList]
    { quickPeer with createChannel := .ok channelId }

def fundingBy (txid : Txid) : FundingCalls :=
  { colouredFunding with finish := fun params => some ⟨txid, params.addUtxos⟩ }

/-- Two channels are funded before the first funding transaction is broadcast. -/
def twoFundings : List CommitChoice :=
  [openForty (Bytes32.fill 9), openForty (Bytes32.fill 10),
    .fundingGenerationReady (Bytes32.fill 9) (fundingBy (Bytes32.fill 5)),
    .fundingGenerationReady (Bytes32.fill 10) (fundingBy (Bytes32.fill 6))]

theorem twoFundings_twice : ¬CommittedOnce (commitRun oneContract .release [] twoFundings) := by
  have hrun : (commitRun oneContract .release [] twoFundings).commitments =
      [⟨Bytes32.fill 5, [⟨Bytes32.fill 1, 0⟩], .pending⟩,
        ⟨Bytes32.fill 6, [⟨Bytes32.fill 1, 0⟩], .pending⟩] := by decide
  intro honce
  unfold CommittedOnce at honce
  rw [hrun] at honce
  simp at honce

end RgbLightning.Node
