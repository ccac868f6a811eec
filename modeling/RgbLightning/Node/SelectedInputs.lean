import RgbLightning.Node.Events
import RgbLightning.Rgb.SelectedInputs

/-! # Selected inputs of a send and of a funding

Both select from the values owned by the wallet, up to an amount that was compared
with their sum. The selected outpoints are added to the transaction as they are.
-/
namespace RgbLightning.Node
open MachineInt Decimal Rgb Cover

variable {p : Profile} {assets : Assets} {id : ContractId} {amt t : ℕ}
  {m : Machine Lock RgbUtxos Note}

theorem amount_lt_of_owned {owned : OwnedValues ℕ}
    (hword : ∀ c, assets.history id = some c → ∀ o ∈ c.fungibles, o.amount < 2 ^ u64)
    (howned : getAssetOwnedValues assets.history assets.unspents id = .ok owned) :
    ∀ v ∈ owned.toList, OwnedValue.amount v < 2 ^ u64 := by
  intro v hv
  obtain ⟨c, hc, o, ho, -, rfl⟩ := mem_getAssetOwnedValues howned hv
  exact hword c hc o ho

/-- What has passed the check is selected, by either build. -/
theorem exists_selected {owned : List (OwnedValue ℕ)}
    (hbalance : narrow u64 p (total OwnedValue.amount owned) = some t) (henough : amt ≤ t) :
    ∃ selected, selectInputs p amt owned = some selected := by
  rcases p with ⟨_ | _⟩
  · obtain ⟨taken, rest, -, hloop, -, -⟩ := selectFrom_release amt owned (by positivity : 0 < 2 ^ u64) []
    have hsub : ∃ change, subWord u64 ⟨false⟩ ((0 + total OwnedValue.amount taken) % 2 ^ u64) amt =
        some change := by
      unfold subWord
      split
      · exact ⟨_, rfl⟩
      · exact ⟨_, rfl⟩
    obtain ⟨change, hchange⟩ := hsub
    exact ⟨_, selectInputs_of hloop hchange⟩
  · obtain ⟨rfl, hfits⟩ := narrow_dev_eq hbalance
    have hcount : ∀ before a after, owned = before ++ a :: after →
        0 + total OwnedValue.amount before < amt →
        0 + total OwnedValue.amount before + OwnedValue.amount a < 2 ^ u64 := by
      intro before a after hsplit _
      rw [hsplit, total_append, total_cons] at hfits
      omega
    obtain ⟨rest, hsplit, hstop⟩ := exists_cover_append OwnedValue.amount amt 0 owned
    have hcovered : amt ≤ 0 + total OwnedValue.amount (cover OwnedValue.amount amt 0 owned) := by
      rcases hstop with rfl | hle
      · rw [List.append_nil] at hsplit
        rw [← hsplit]
        omega
      · exact hle
    exact ⟨_, selectInputs_of (selectFrom_eq_cover _ 0 [] hcount) (subWord_of_le hcovered)⟩

/-- The selection of a send and that of a funding, for an amount not above the balance:
its outpoints are well formed iff the amount is positive, no coin is reached twice,
and the count stays within the word. -/
theorem selected_inputs_iff
    (hword : ∀ c, assets.history id = some c → ∀ o ∈ c.fungibles, o.amount < 2 ^ u64)
    (hbalance : getRgbTotalAmount p assets.history assets.unspents id = some (.ok t))
    (henough : amt ≤ t) (hruntime : m.held .runtime = false) (hwallet : m.held .wallet = false) :
    ∃ owned selected, getAssetOwnedValues assets.history assets.unspents id = .ok owned ∧
      (∀ (args : SendArgs) (calls : SendCalls), args.contractId = id → args.amtRgb = amt →
        calls.assets = assets → ((sendassetInputs p args calls).exec m).1 = .returned selected) ∧
      (∀ info : RgbInfo, info.contractId = id → info.localRgbAmount = amt →
        ((fundingInputs p info assets).exec m).1 = .returned selected) ∧
      (WellFormedInputs amt owned.toList selected.rgbInputs ↔
        0 < amt ∧ ReachedApart amt owned.toList ∧ CountFits amt owned.toList) := by
  obtain ⟨owned, howned, hnarrow⟩ := getRgbTotalAmount_eq_ok.mp hbalance
  obtain ⟨selected, hselected⟩ := exists_selected hnarrow henough
  obtain ⟨inputAmount, hloop, -⟩ := selectInputs_eq_some hselected
  have ht : t < 2 ^ u64 := (narrow_eq_some_iff.mp hnarrow).1
  have htotal : t ≤ total OwnedValue.amount owned.toList := narrow_le hnarrow
  refine ⟨owned, selected, howned, ?_, ?_, ?_⟩
  · rintro args calls rfl rfl rfl
    obtain ⟨m', hexec, -⟩ := sendassetInputs_exec hwallet howned hselected
    rw [hexec]
  · rintro info rfl rfl
    obtain ⟨m', hexec, -⟩ := fundingInputs_exec hruntime hwallet howned hselected
    rw [hexec]
  · exact wellFormedInputs_iff hloop (henough.trans_lt ht) (henough.trans htotal)
      (amount_lt_of_owned hword howned)

/-- Some units of one contract, on the coins given. -/
def unitsOn (units : ℕ) (first second : OutPoint) : Assets where
  history _ := some ⟨[⟨0, first, units⟩, ⟨1, second, units⟩], by simp⟩
  unspents := [first, second]

def coinOf (b : UInt8) : OutPoint := ⟨Bytes32.fill b, 0⟩

theorem selected_inputs_apart : ∃ owned, ∃ selected : Selection,
    getAssetOwnedValues (unitsOn 60 (coinOf 1) (coinOf 2)).history
        (unitsOn 60 (coinOf 1) (coinOf 2)).unspents (Bytes32.fill 7) = .ok owned ∧
      WellFormedInputs 100 owned.toList selected.rgbInputs := by
  have hword : ∀ c, (unitsOn 60 (coinOf 1) (coinOf 2)).history (Bytes32.fill 7) = some c →
      ∀ o ∈ c.fungibles, o.amount < 2 ^ u64 := by
    intro c hc
    cases hc
    decide
  have hbalance : getRgbTotalAmount .release (unitsOn 60 (coinOf 1) (coinOf 2)).history
      (unitsOn 60 (coinOf 1) (coinOf 2)).unspents (Bytes32.fill 7) = some (.ok 120) := by decide
  have henough : 100 ≤ 120 := by decide
  obtain ⟨owned, selected, howned, -, -, hiff⟩ :=
    selected_inputs_iff (m := ⟨fun _ => false, [], []⟩) hword hbalance henough rfl rfl
  have hlist : owned.toList = [(0, coinOf 1, 60), (1, coinOf 2, 60)] := by
    cases howned
    decide
  refine ⟨owned, selected, howned, hiff.mpr ⟨by decide, ?_, ?_⟩⟩
  · intro before a between b after hsplit _
    rw [hlist] at hsplit
    exact nodup_map_iff_split.mp (by decide) before a between b after hsplit
  · intro before a after hsplit _ _
    have htotal : 120 = total OwnedValue.amount (before ++ a :: after) :=
      congrArg (total OwnedValue.amount) (hlist.symm.trans hsplit)
    have hword : 120 < 2 ^ u64 := by decide
    rw [total_append, total_cons] at htotal
    omega

/-- An amount of zero selects nothing, and two allocations on one coin select it twice. -/
theorem selected_inputs_malformed :
    getRgbTotalAmount .release (unitsOn 60 (coinOf 1) (coinOf 1)).history
      (unitsOn 60 (coinOf 1) (coinOf 1)).unspents (Bytes32.fill 7) = some (.ok 120) ∧
    ∀ amt ∈ [0, 100], ∃ owned selected,
      getAssetOwnedValues (unitsOn 60 (coinOf 1) (coinOf 1)).history
        (unitsOn 60 (coinOf 1) (coinOf 1)).unspents (Bytes32.fill 7) = .ok owned ∧
      selectInputs .release amt owned.toList = some selected ∧
      ¬WellFormedInputs amt owned.toList selected.rgbInputs := by
  refine ⟨by decide, ?_⟩
  intro amt hamt
  rcases List.mem_pair.mp hamt with rfl | rfl
  · refine ⟨_, ⟨[], 0⟩, rfl, by decide, ?_⟩
    intro hformed
    exact hformed.nonempty rfl
  · refine ⟨_, ⟨[coinOf 1, coinOf 1], 20⟩, rfl, by decide, ?_⟩
    intro hformed
    exact absurd hformed.nodup (by decide)

end RgbLightning.Node
