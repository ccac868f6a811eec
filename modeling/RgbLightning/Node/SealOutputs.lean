import RgbLightning.Node.FailedOperations
import RgbLightning.Node.CreateUtxos
import RgbLightning.Rgb.SendRgb

/-! # Outputs that seals point at

A seal names an output of the transaction that is being built by its index. The
funding uses a fixed index for its change, the sweep computes one from the position
of the commitment. The output to the wallet is left out when it would be dust.
-/
namespace RgbLightning.Node
open MachineInt Decimal Rgb Cover

/-- The script of an address of the wallet or of a channel. -/
abbrev Address := List UInt8

inductive ScriptPubkey where
  | opReturn (data : List UInt8)
  | address (script : Address)
  deriving DecidableEq

structure TxOut where
  value : ℕ
  scriptPubkey : ScriptPubkey
  deriving DecidableEq

def TxOut.isOpReturn (out : TxOut) : Bool :=
  match out.scriptPubkey with
  | .opReturn _ => true
  | .address _ => false

def TxOut.pay (value : ℕ) (address : Address) : TxOut := ⟨value, .address address⟩

/-- The output added as data. -/
def commitment : TxOut := ⟨0, .opReturn [1]⟩

/-- `send_rgb` writes the commitment into the first such output. -/
def commitOpret (data : List UInt8) : List TxOut → List TxOut
  | [] => []
  | out :: rest =>
    if out.isOpReturn then { out with scriptPubkey := .opReturn data } :: rest
    else out :: commitOpret data rest

/-- What remains for the wallet is an output unless it is dust. -/
def drain (dust : ℕ) (address : Address) (rest : ℕ) : List TxOut :=
  if dust ≤ rest then [.pay rest address] else []

/-- The output exists, is no commitment and pays the address. -/
def PaysAt (outputs : List TxOut) (vout : ℕ) (address : Address) : Prop :=
  ∃ out, outputs[vout]? = some out ∧ out.isOpReturn = false ∧ out.scriptPubkey = .address address

section Outputs
variable {data : List UInt8} {outputs : List TxOut} {vout : ℕ} {address : Address}

@[simp] theorem isOpReturn_pay (value : ℕ) (address : Address) :
    (TxOut.pay value address).isOpReturn = false := rfl

@[simp] theorem isOpReturn_commitment : commitment.isOpReturn = true := rfl

/-- Writing the commitment changes no output that is not one. -/
theorem commitOpret_getElem? {out : TxOut} (hout : out.isOpReturn = false) :
    (commitOpret data outputs)[vout]? = some out ↔ outputs[vout]? = some out := by
  induction outputs generalizing vout with
  | nil => rfl
  | cons first rest ih =>
    unfold commitOpret
    split
    · cases vout with
      | zero =>
        have hcommitted : ({ first with scriptPubkey := .opReturn data } : TxOut) ≠ out := by
          rintro rfl
          cases hout
        have hfirst : first ≠ out := by
          rintro rfl
          simp_all
        simp [hcommitted, hfirst]
      | succ vout => rfl
    · cases vout with
      | zero => rfl
      | succ vout => exact ih

theorem paysAt_commitOpret : PaysAt (commitOpret data outputs) vout address ↔ PaysAt outputs vout address := by
  unfold PaysAt
  constructor
  · rintro ⟨out, hget, hout, hscript⟩
    exact ⟨out, (commitOpret_getElem? hout).mp hget, hout, hscript⟩
  · rintro ⟨out, hget, hout, hscript⟩
    exact ⟨out, (commitOpret_getElem? hout).mpr hget, hout, hscript⟩

end Outputs

section Ordered

structure UnsignedTx where
  txid : Txid
  inputs : List Coin
  outputs : List TxOut

/-- What a transaction builder is told. -/
structure TxRequest where
  params : TxParams
  recipients : List TxOut
  drainTo : Address

/-- With untouched ordering the outputs are the recipients and then what the coins
leave over after the fee, which is that of the transaction with this output. -/
def OrderedOutputs (finish : TxRequest → Option UnsignedTx) (fee : List Coin → ℕ) (dust : ℕ) : Prop :=
  ∀ request tx, finish request = some tx →
    tx.outputs = request.recipients ++ drain dust request.drainTo
      (total Prod.snd tx.inputs - (total TxOut.value request.recipients + fee tx.inputs))

/-- The funding transaction pays the channel, holds the commitment and drains to the wallet. -/
def fundingRequest (script : Address) (channelValueSatoshis : ℕ) (address : Address)
    (params : TxParams) : TxRequest :=
  ⟨params, [.pay channelValueSatoshis script, commitment], address⟩

/-- The calls of a funding whose transaction comes from the wallet. -/
def FundingCalls.built (calls : FundingCalls) (finish : TxRequest → Option UnsignedTx)
    (script : Address) (channelValueSatoshis : ℕ) (address : Address) : FundingCalls :=
  { calls with
    finish := fun params => (finish (fundingRequest script channelValueSatoshis address params)).map
      fun tx => ⟨tx.txid, tx.inputs.map Prod.fst⟩ }

/-- Channel, commitment, and change at an index. -/
def FundingOutputs (outputs : List TxOut) (script : Address) (channelValueSatoshis : ℕ)
    (address : Address) (changeVout : ℕ) : Prop :=
  outputs[0]? = some (.pay channelValueSatoshis script) ∧
    (∃ out, outputs[1]? = some out ∧ out.isOpReturn = true) ∧ PaysAt outputs changeVout address

variable {finish : TxRequest → Option UnsignedTx} {fee : List Coin → ℕ} {dust : ℕ}
  {script address : Address} {channelValueSatoshis : ℕ}

theorem fundingOutputs_drain (data : List UInt8) (rest : ℕ) :
    FundingOutputs (commitOpret data
      ([.pay channelValueSatoshis script, commitment] ++ drain dust address rest))
      script channelValueSatoshis address 2 ↔ dust ≤ rest := by
  unfold FundingOutputs
  rw [paysAt_commitOpret]
  unfold drain
  split
  · simp [commitOpret, PaysAt, TxOut.isOpReturn, commitment, TxOut.pay, *]
  · simp [PaysAt, *]

variable {p : Profile} {calls : FundingCalls} {info : RgbInfo} {owned : OwnedValues ℕ}
  {selected : Selection} {m : Machine Lock RgbUtxos Note} {tx : UnsignedTx}

/-- The output that the funding pushes as its change exists iff what the selected coins
leave over is not dust. -/
theorem funding_outputs_iff (hwallet : OrderedOutputs finish fee dust) (hfree : ∀ l, m.held l = false)
    (hinfo : calls.rgbInfo = some info)
    (howned : getAssetOwnedValues calls.assets.history calls.assets.unspents info.contractId = .ok owned)
    (hselected : selectInputs p info.localRgbAmount owned.toList = some selected)
    (hchange : 0 < selected.rgbChangeAmount) (hsend : calls.sendRgb = true)
    (hfinish : finish (fundingRequest script channelValueSatoshis address
      (fundingParams (some selected) m.cell)) = some tx) (data : List UInt8) :
    ∃ vout, ((fundingGenerationReady p (calls.built finish script channelValueSatoshis address)).exec
        m).2.cell = m.cell ++ [⟨⟨tx.txid, vout⟩, true⟩] ∧
      (FundingOutputs (commitOpret data tx.outputs) script channelValueSatoshis address vout ↔
        dust ≤ total Prod.snd tx.inputs - (channelValueSatoshis + fee tx.inputs)) := by
  refine ⟨2, ?_, ?_⟩
  · have hbuilt : (calls.built finish script channelValueSatoshis address).finish
        (fundingParams (some selected) m.cell) = some ⟨tx.txid, tx.inputs.map Prod.fst⟩ := by
      simp [FundingCalls.built, hfinish]
    have hcoloured : (calls.built finish script channelValueSatoshis address).rgbInfo = some info := hinfo
    exact fundingGenerationReady_pushes (hfree _) (hfree _) hcoloured howned hselected hbuilt hsend hchange
  · rw [hwallet _ _ hfinish]
    simpa [fundingRequest, TxOut.pay, commitment] using fundingOutputs_drain data _

/-- One coin of the wallet pays for the transaction. The fee is 1340 satoshis, and 1650 with
an output to the wallet. -/
def oneCoinFunding (sats : ℕ) (request : TxRequest) : Option UnsignedTx :=
  if total TxOut.value request.recipients + 1340 ≤ sats then
    some ⟨Bytes32.fill 5, [(firstCoin, sats)], request.recipients ++ drain 294 request.drainTo
      (sats - (total TxOut.value request.recipients + 1650))⟩
  else none

theorem oneCoinFunding_ordered (sats : ℕ) : OrderedOutputs (oneCoinFunding sats) (fun _ => 1650) 294 := by
  intro request tx h
  unfold oneCoinFunding at h
  split at h
  · cases h
    simp
  · cases h

/-- The state and calls of a coloured funding with 40 units of change. -/
def fundingMachine : Machine Lock RgbUtxos Note := ⟨fun _ => false, [], []⟩

theorem selected_change : ∃ owned, getAssetOwnedValues ownedUnits.history ownedUnits.unspents
    (Bytes32.fill 7) = .ok owned ∧ selectInputs .release 60 owned.toList =
      some ⟨[⟨Bytes32.fill 1, 0⟩], 40⟩ := ⟨_, rfl, rfl⟩

theorem funding_outputs_present :
    ∃ vout, ((fundingGenerationReady .release
        (colouredFunding.built (oneCoinFunding 52200) [1] 50000 [2])).exec fundingMachine).2.cell =
        fundingMachine.cell ++ [⟨⟨Bytes32.fill 5, vout⟩, true⟩] ∧
      FundingOutputs (commitOpret [9] [.pay 50000 [1], commitment, .pay 550 [2]]) [1] 50000 [2] vout := by
  obtain ⟨owned, howned, hselected⟩ := selected_change
  have hinfo : colouredFunding.rgbInfo = some ⟨Bytes32.fill 7, 60, 0⟩ := rfl
  have hfinish : oneCoinFunding 52200 (fundingRequest [1] 50000 [2]
      (fundingParams (some ⟨[⟨Bytes32.fill 1, 0⟩], 40⟩) [])) = some
        ⟨Bytes32.fill 5, [(firstCoin, 52200)], [.pay 50000 [1], commitment, .pay 550 [2]]⟩ := by
    simp [oneCoinFunding, fundingRequest, drain, commitment, TxOut.pay]
  obtain ⟨vout, hcell, hiff⟩ := funding_outputs_iff (m := fundingMachine) (oneCoinFunding_ordered 52200)
    (fun _ => rfl) hinfo howned hselected (Nat.succ_pos _) rfl hfinish [9]
  exact ⟨vout, hcell, hiff.mpr (by simp)⟩

/-- The coin pays the channel and the fee, and the 150 satoshis left are dust. -/
theorem funding_outputs_absent :
    OrderedOutputs (oneCoinFunding 51800) (fun _ => 1650) 294 ∧
    ((fundingGenerationReady .release
        (colouredFunding.built (oneCoinFunding 51800) [1] 50000 [2])).exec fundingMachine).2.cell =
      [⟨⟨Bytes32.fill 5, 2⟩, true⟩] ∧
    oneCoinFunding 51800 (fundingRequest [1] 50000 [2]
        (fundingParams (some ⟨[⟨Bytes32.fill 1, 0⟩], 40⟩) fundingMachine.cell)) =
      some ⟨Bytes32.fill 5, [(firstCoin, 51800)], [.pay 50000 [1], commitment]⟩ ∧
    ¬FundingOutputs (commitOpret [9] [.pay 50000 [1], commitment]) [1] 50000 [2] 2 := by
  refine ⟨oneCoinFunding_ordered _, rfl, ?_, ?_⟩
  · simp [oneCoinFunding, fundingRequest, drain, commitment, TxOut.pay]
  · rintro ⟨-, -, hpays⟩
    obtain ⟨out, hget, -⟩ := paysAt_commitOpret.mp hpays
    cases hget

end Ordered

section Sweep

inductive DescriptorKind where
  | staticPaymentOutput
  | delayedPaymentOutput
  | staticOutput
  deriving DecidableEq

/-- The outputs of a transaction that spends one coin of a value, from the wallet
library and from the lightning library. -/
structure SweepBuilders where
  finish : List TxOut → Address → ℕ → Option (List TxOut)
  maybeAddChangeOutput : List TxOut → Address → ℕ → Option (List TxOut)

/-- The outputs each branch builds. The one that is built by hand pushes the
commitment last, with or without colour. -/
def sweepTxOutputs (builders : SweepBuilders) (kind : DescriptorKind) (isColored : Bool)
    (address : Address) (value : ℕ) : Option (List TxOut) :=
  match kind with
  | .staticPaymentOutput => builders.finish (if isColored then [commitment] else []) address value
  | .delayedPaymentOutput => (builders.maybeAddChangeOutput [] address value).map (· ++ [commitment])
  | .staticOutput => builders.finish [commitment] address value

/-- What is left of a coin of a value after fees. -/
structure SweepFees where
  finish : List TxOut → ℕ → ℕ
  maybeAddChangeOutput : ℕ → ℕ

/-- What is left in the branch of a coloured output. -/
def SweepFees.left (fees : SweepFees) (kind : DescriptorKind) (value : ℕ) : ℕ :=
  match kind with
  | .staticPaymentOutput | .staticOutput => fees.finish [commitment] value
  | .delayedPaymentOutput => fees.maybeAddChangeOutput value

/-- What is left goes to the address unless it is dust. The wallet library shuffles the
outputs. -/
structure SweepBuilders.Honest (builders : SweepBuilders) (fees : SweepFees) (dust : ℕ) : Prop where
  finish : ∀ {recipients address value outputs},
    builders.finish recipients address value = some outputs →
      outputs.Perm (recipients ++ drain dust address (fees.finish recipients value))
  maybeAddChangeOutput : ∀ {before address value outputs},
    builders.maybeAddChangeOutput before address value = some outputs →
      outputs = before ++ drain dust address (fees.maybeAddChangeOutput value)

/-- The beneficiary of a sweep is a seal next to the commitment. -/
def updateTransitionBeneficiary {Opout : Type} (outputs : List TxOut) (beneficiaries : List Seal)
    (builder : TransitionBuilder Opout) (amtRgb : ℕ) : ℕ × List Seal × TransitionBuilder Opout :=
  let vout := sealVout (outputs.findIdx? TxOut.isOpReturn)
  (vout, beneficiaries ++ [.witnessVout vout],
    { builder with assignments := builder.assignments ++ [(.witnessVout vout, amtRgb)] })

variable {builders : SweepBuilders} {fees : SweepFees} {dust rest value : ℕ} {kind : DescriptorKind}
  {address : Address} {outputs : List TxOut} {m : Machine Lock RgbUtxos Note}

/-- Every branch has the commitment and what is left, in some order. -/
theorem sweepTxOutputs_perm (h : builders.Honest fees dust)
    (hbuilt : sweepTxOutputs builders kind true address value = some outputs) :
    outputs.Perm (commitment :: drain dust address (fees.left kind value)) := by
  cases kind with
  | staticPaymentOutput => exact h.finish hbuilt
  | staticOutput => exact h.finish hbuilt
  | delayedPaymentOutput =>
    obtain ⟨before, hadd, rfl⟩ := Option.map_eq_some_iff.mp hbuilt
    rw [h.maybeAddChangeOutput hadd, List.nil_append]
    exact List.perm_append_singleton _ _

/-- Next to the commitment there is an output iff there is a second one. -/
theorem paysAt_sealVout (h : outputs.Perm (commitment :: drain dust address rest)) :
    PaysAt outputs (sealVout (outputs.findIdx? TxOut.isOpReturn)) address ↔ dust ≤ rest := by
  by_cases hdust : dust ≤ rest
  · have hpays : ∃ out, out.isOpReturn = false ∧ out.scriptPubkey = .address address ∧
        (outputs = [commitment, out] ∨ outputs = [out, commitment]) := by
      rw [drain, if_pos hdust] at h
      exact ⟨_, rfl, rfl, List.perm_pair.mp h⟩
    obtain ⟨out, hout, hscript, rfl | rfl⟩ := hpays
    · simp [PaysAt, List.findIdx?_cons, sealVout, hout, hscript, hdust]
    · simp [PaysAt, List.findIdx?_cons, sealVout, hout, hscript, hdust]
  · have halone : outputs = [commitment] := by
      rw [drain, if_neg hdust] at h
      exact List.perm_singleton.mp h
    subst halone
    simp [PaysAt, List.findIdx?_cons, sealVout, hdust]

/-- A coloured output is listed before its transfer is accepted. -/
theorem sweepOutput_recorded {output : SpendableOutput} {txid : Txid} (hwallet : m.held .wallet = false)
    (hvalid : output.transfer = some .valid) (htxid : output.txid = some txid) :
    ∃ m', (sweepOutput output).exec m =
        ((require output.acceptTransfer).bind fun _ => Task.unlock .wallet).exec m' ∧
      m'.cell = m.cell ++ [⟨⟨txid, sealVout output.opReturnIndex⟩, true⟩] := by
  simp only [sweepOutput, hvalid, htxid, pushSwept, Task.bind_def, Option.isSome_some, ne_eq,
    not_true_eq_false, and_false, if_false, if_true, Task.bind_assoc]
  rw [Task.exec_lock_bind hwallet, Task.exec_expect_bind, Task.exec_note_bind, Task.exec_note_bind,
    Task.exec_get_bind, Task.exec_put_bind]
  exact ⟨_, rfl, rfl⟩

/-- The index pushed to the list is the one of the seal. -/
theorem sweepOutput_pushes {output : SpendableOutput} {txid : Txid} (hwallet : m.held .wallet = false)
    (hvalid : output.transfer = some .valid) (htxid : output.txid = some txid) :
    ((sweepOutput output).exec m).2.cell =
      m.cell ++ [⟨⟨txid, sealVout output.opReturnIndex⟩, true⟩] := by
  obtain ⟨m', hexec, hcell⟩ := sweepOutput_recorded hwallet hvalid htxid
  rw [hexec, ← hcell]
  apply KeepsFile.cell
  simp [KeepsFile]

/-- The seal of a sweep points at an output to the wallet iff what is left of the coin
is not dust. -/
theorem sweep_seal_iff {Opout : Type} (h : builders.Honest fees dust) (hwallet : m.held .wallet = false)
    (hbuilt : sweepTxOutputs builders kind true address value = some outputs)
    (data : List UInt8) (beneficiaries : List Seal) (builder : TransitionBuilder Opout) (amtRgb : ℕ)
    (outpoint : OutPoint) (txid : Txid) (acceptTransfer : Bool) :
    ((sweepOutput ⟨outpoint, some .valid, some txid, outputs.findIdx? TxOut.isOpReturn,
        acceptTransfer⟩).exec m).2.cell =
      m.cell ++ [⟨⟨txid, (updateTransitionBeneficiary outputs beneficiaries builder amtRgb).1⟩, true⟩] ∧
    (PaysAt (commitOpret data outputs)
        (updateTransitionBeneficiary outputs beneficiaries builder amtRgb).1 address ↔
      dust ≤ fees.left kind value) := by
  constructor
  · exact sweepOutput_pushes hwallet rfl rfl
  · rw [paysAt_commitOpret]
    exact paysAt_sealVout (sweepTxOutputs_perm h hbuilt)

/-- Builders at ten satoshis per virtual byte; the wallet puts the commitment last. A coin
that does not pay the fee without an output to the address is refused. -/
def tenSatsPerVb : SweepBuilders where
  finish recipients address value :=
    if 790 + 120 * recipients.length ≤ value then
      some (drain 294 address (value - (1100 + 120 * recipients.length)) ++ recipients)
    else none
  maybeAddChangeOutput before address value :=
    if 1085 ≤ value then some (before ++ drain 294 address (value - 1395)) else none

def leftAtTen : SweepFees :=
  ⟨fun recipients value => value - (1100 + 120 * recipients.length), fun value => value - 1395⟩

theorem tenSatsPerVb_honest : tenSatsPerVb.Honest leftAtTen 294 where
  finish h := by
    simp only [tenSatsPerVb, Option.ite_none_right_eq_some, Option.some.injEq] at h
    rw [← h.2]
    exact List.perm_append_comm
  maybeAddChangeOutput h := by
    simp only [tenSatsPerVb, Option.ite_none_right_eq_some, Option.some.injEq] at h
    exact h.2.symm

theorem sweep_seal_present :
    PaysAt (commitOpret [9] [.pay 305 [2], commitment])
      (updateTransitionBeneficiary [.pay 305 [2], commitment] [] (⟨[], []⟩ : TransitionBuilder ℕ) 40).1 [2] := by
  have hbuilt : sweepTxOutputs tenSatsPerVb .delayedPaymentOutput true [2] 1700 =
      some [.pay 305 [2], commitment] := by simp [sweepTxOutputs, tenSatsPerVb, drain]
  exact ((sweep_seal_iff tenSatsPerVb_honest (m := fundingMachine) rfl hbuilt [9] [] ⟨[], []⟩ 40
    ⟨Bytes32.fill 1, 0⟩ (Bytes32.fill 5) true).2).mpr (by simp [SweepFees.left, leftAtTen])

/-- 1450 satoshis pay the fee and leave dust. The seal points behind the only output. -/
theorem sweep_seal_absent :
    tenSatsPerVb.Honest leftAtTen 294 ∧
    sweepTxOutputs tenSatsPerVb .delayedPaymentOutput true [2] 1450 = some [commitment] ∧
    (updateTransitionBeneficiary [commitment] [] (⟨[], []⟩ : TransitionBuilder ℕ) 40).1 = 1 ∧
    ((sweepOutput ⟨⟨Bytes32.fill 1, 0⟩, some .valid, some (Bytes32.fill 5),
        [commitment].findIdx? TxOut.isOpReturn, true⟩).exec fundingMachine).2.cell =
      [⟨⟨Bytes32.fill 5, 1⟩, true⟩] ∧
    ¬PaysAt (commitOpret [9] [commitment]) 1 [2] := by
  refine ⟨tenSatsPerVb_honest, ?_, rfl, rfl, ?_⟩
  · simp [sweepTxOutputs, tenSatsPerVb, drain]
  · rintro ⟨out, hget, -⟩
    cases hget

end Sweep

end RgbLightning.Node
