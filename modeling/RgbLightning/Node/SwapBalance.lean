import RgbLightning.Node.Schedule
import RgbLightning.Rgb.Conservation

/-! # The balance check of a swap

A swap is paid along one path, out of one channel. The check of `taker` and
`makerinit` looks at the allocations on the wallet's outputs, whose units are not in
any channel.
-/
namespace RgbLightning.Node
open MachineInt Decimal Rgb Cover Swap

/-- Some channel of the contract can send the amount. -/
def ChannelCovers (channels : List RgbInfo) (id : ContractId) (amount : ℕ) : Prop :=
  ∃ c ∈ channels, c.contractId = id ∧ amount ≤ c.localRgbAmount

/-- The units allocated to the wallet's unspent outputs. -/
def Assets.onChain (assets : Assets) (id : ContractId) : ℕ :=
  match assets.history id with
  | some h => total FungibleOutput.amount (h.fungibles.filter fun o => o.sealOutpoint ∈ assets.unspents)
  | none => 0

/-- The contract is known, and what is on chain, as a 64-bit sum, reaches the amount. -/
def OnChainCovers (p : Profile) (assets : Assets) (id : ContractId) (amount : ℕ) : Prop :=
  (assets.history id).isSome = true ∧ ∃ t, narrow u64 p (assets.onChain id) = some t ∧ amount ≤ t

variable {ids : ContractIdText} {p : Profile} {assets : Assets} {id : ContractId} {amount : ℕ}
  {m : Machine Lock RgbUtxos Note}

theorem getRgbTotalAmount_eq_some {t : ℕ} :
    getRgbTotalAmount p assets.history assets.unspents id = some (.ok t) ↔
      (assets.history id).isSome = true ∧ narrow u64 p (assets.onChain id) = some t := by
  rw [getRgbTotalAmount_eq_ok]
  unfold getAssetOwnedValues Assets.onChain
  cases assets.history id with
  | none => simp
  | some h =>
    have hsum := total_perm OwnedValue.amount (collectOwned_perm assets.unspents h)
    have hamount : OwnedValue.amount ∘ FungibleOutput.owned =
        (FungibleOutput.amount : FungibleOutput ℕ → ℕ) := rfl
    rw [total, total, List.map_map, hamount] at hsum
    simp [total, hsum]

/-- The check passes iff the units on chain cover the amount. -/
theorem ensureAssets_passes (hruntime : m.held .runtime = false) (hwallet : m.held .wallet = false) :
    ((ensureAssets p assets id amount).exec m).1 = .returned (.ok ()) ↔
      OnChainCovers p assets id amount := by
  have hfree : (m.perform (.acquire .runtime)).held .wallet = false := by
    simp [Machine.perform, hwallet]
  have hcovers : OnChainCovers p assets id amount ↔ ∃ t,
      getRgbTotalAmount p assets.history assets.unspents id = some (.ok t) ∧ amount ≤ t := by
    simp [OnChainCovers, getRgbTotalAmount_eq_some, and_assoc]
  simp only [ensureAssets, Task.bind_def]
  rw [Task.exec_lock_bind hruntime, rgbTotalAmount_exec_bind hfree, hcovers]
  cases getRgbTotalAmount p assets.history assets.unspents id with
  | none => simp [Task.expect, Task.bind, Task.exec]
  | some total =>
    rw [Task.exec_expect_bind]
    cases total with
    | error e => simp [orPrint, printed, Except.mapError, Task.exec]
    | ok t =>
      have hcheck : checkEnough amount (.ok t) = .ok () ↔ _ := checkEnough_eq_ok
      simpa [orPrint, printed, Except.mapError, Task.exec_unlock_bind, Task.exec] using hcheck

/-- The check passes exactly when a channel can send the amount. -/
def ChecksChannels (program : Program Reply) (m : Machine Lock RgbUtxos Note)
    (channels : List RgbInfo) (id : ContractId) (amount : ℕ) : Prop :=
  (program.exec m).1 = .returned (.ok ()) ↔ ChannelCovers channels id amount

/-- The checks of a selling taker and of a maker who is bought from are right about
the channels iff the units on chain and some channel both cover the amount or both
do not. -/
theorem swap_balance_iff (hruntime : m.held .runtime = false) (hwallet : m.held .wallet = false)
    (assets : Assets) (channels : List RgbInfo) :
    (∀ now words swap, takerSwapString ids p now words = .ok swap → swap.swapType.isBuy = false →
      (ChecksChannels (taker ids p now words assets) m channels swap.assetId swap.swapType.amountRgb ↔
        (OnChainCovers p assets swap.assetId swap.swapType.amountRgb ↔
          ChannelCovers channels swap.assetId swap.swapType.amountRgb))) ∧
    (∀ fetchPrice words args swaptype, makerArgs ids fetchPrice words = .ok args →
      makerSwapType p args = .ok swaptype → swaptype.isBuy = true →
      (ChecksChannels (makerinit ids p fetchPrice words assets) m channels args.assetId
          swaptype.amountRgb ↔
        (OnChainCovers p assets args.assetId swaptype.amountRgb ↔
          ChannelCovers channels args.assetId swaptype.amountRgb))) := by
  constructor
  · intro now words swap hswap hsell
    have hprogram : taker ids p now words assets =
        ensureAssets p assets swap.assetId swap.swapType.amountRgb := by
      simp [taker, hswap, orAbort, hsell]
    rw [ChecksChannels, hprogram, ensureAssets_passes hruntime hwallet]
  · intro fetchPrice words args swaptype hargs htype hbuy
    have hprogram : makerinit ids p fetchPrice words assets =
        ensureAssets p assets args.assetId swaptype.amountRgb := by
      simp [makerinit, hargs, htype, orPrint, orAbort, hbuy]
    rw [ChecksChannels, hprogram, ensureAssets_passes hruntime hwallet]

def rgbIds : ContractIdText := ⟨fun t => if t = "rgb".toList then some (Bytes32.fill 7) else none,
  fun _ => "rgb".toList⟩

/-- An offer to buy 40 units from the taker, one millisatoshi each. -/
def sellForty : List Text := ["40:rgb:sell:1:9:".toList ++ List.replicate 64 '0']

/-- 100 units, which are on an unspent output of the wallet or were spent into a channel. -/
def hundredUnits (unspents : List OutPoint) : Assets := { ownedUnits with unspents := unspents }

theorem swap_balance_split :
    ChecksChannels (taker rgbIds .release 5 sellForty (hundredUnits [⟨Bytes32.fill 1, 0⟩]))
      ⟨fun _ => false, [], []⟩ [⟨Bytes32.fill 7, 50, 0⟩] (Bytes32.fill 7) 40 := by
  have hswap : takerSwapString rgbIds .release 5 sellForty =
      .ok ⟨Bytes32.fill 7, .sellAsset 40 40, 9, Bytes32.fill 0⟩ := by rfl
  have hiff := (swap_balance_iff (m := ⟨fun _ => false, [], []⟩) rfl rfl
    (hundredUnits [⟨Bytes32.fill 1, 0⟩]) [⟨Bytes32.fill 7, 50, 0⟩]).1 5 sellForty _ hswap rfl
  have hchain : OnChainCovers .release (hundredUnits [⟨Bytes32.fill 1, 0⟩]) (Bytes32.fill 7) 40 :=
    ⟨rfl, 100, by decide, by decide⟩
  have hchannel : ChannelCovers [⟨Bytes32.fill 7, 50, 0⟩] (Bytes32.fill 7) 40 :=
    ⟨_, List.mem_singleton_self _, rfl, by decide⟩
  exact hiff.mpr ⟨fun _ => hchannel, fun _ => hchain⟩

/-- With everything in a channel the swap is refused, and with everything on chain it
is accepted. -/
theorem all_in_channel_refused :
    (((taker rgbIds .release 5 sellForty (hundredUnits [])).exec ⟨fun _ => false, [], []⟩).1 =
        .returned (.error "ERROR: do not have enough RGB assets") ∧
      ¬ChecksChannels (taker rgbIds .release 5 sellForty (hundredUnits [])) ⟨fun _ => false, [], []⟩
        [⟨Bytes32.fill 7, 100, 0⟩] (Bytes32.fill 7) 40) ∧
    ¬ChecksChannels (taker rgbIds .release 5 sellForty (hundredUnits [⟨Bytes32.fill 1, 0⟩]))
      ⟨fun _ => false, [], []⟩ [] (Bytes32.fill 7) 40 := by
  have hrefused : ((taker rgbIds .release 5 sellForty (hundredUnits [])).exec ⟨fun _ => false, [], []⟩).1 =
      .returned (.error "ERROR: do not have enough RGB assets") := by rfl
  have hpassed : ((taker rgbIds .release 5 sellForty (hundredUnits [⟨Bytes32.fill 1, 0⟩])).exec
      ⟨fun _ => false, [], []⟩).1 = .returned (.ok ()) := by rfl
  refine ⟨⟨hrefused, ?_⟩, ?_⟩
  · intro hchecks
    have hcovers : ChannelCovers [⟨Bytes32.fill 7, 100, 0⟩] (Bytes32.fill 7) 40 :=
      ⟨_, List.mem_singleton_self _, rfl, by decide⟩
    have hpasses := hchecks.mpr hcovers
    rw [hrefused] at hpasses
    cases hpasses
  · intro hchecks
    obtain ⟨c, hc, -⟩ := hchecks.mp hpassed
    cases hc

end RgbLightning.Node
