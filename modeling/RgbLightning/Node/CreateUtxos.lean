import RgbLightning.Base.Cover
import RgbLightning.Node.Commands

/-! # Funds for `createutxos`

The command compares what is not listed in the file with a constant, and then builds
a transaction of four outputs from the coins that are not listed.
-/
namespace RgbLightning.Node
open MachineInt Decimal Cover

def UTXO_SIZE_SAT : ℕ := 32000

/-- An unspent output of the wallet and its value. -/
abbrev Coin := OutPoint × ℕ

def spendable (coins : List Coin) (unspendable : List OutPoint) : List Coin :=
  coins.filter fun u => u.1 ∉ unspendable

/-- Some of the coins pay an amount and the fee for spending them. -/
def Pays (fee : List Coin → ℕ) (coins : List Coin) (amount : ℕ) : Prop :=
  ∃ selected, selected.Sublist coins ∧ amount + fee selected ≤ total Prod.snd selected

theorem total_le_of_sublist {selected coins : List Coin} (h : selected.Sublist coins) :
    total Prod.snd selected ≤ total Prod.snd coins :=
  (h.map Prod.snd).sum_le_sum fun _ _ => Nat.zero_le _

variable {p : Profile} {calls : CreateUtxosCalls} {fee : List Coin → ℕ}

/-- The wallet's balance is the sum of its coins, and a transaction can be finished
iff the coins that are not unspendable pay the outputs and the fee. -/
structure CreateUtxosCalls.Honest (calls : CreateUtxosCalls) (fee : List Coin → ℕ) : Prop where
  balance : calls.balance = total Prod.snd calls.listUnspent
  fits : calls.balance < 2 ^ u64
  finish : ∀ unspendable, (calls.finish ⟨[], unspendable, false⟩).isSome = true ↔
    Pays fee (spendable calls.listUnspent unspendable) (UTXO_NUM * UTXO_SIZE_SAT)

theorem total_spendable (coins : List Coin) (unspendable : List OutPoint) :
    total Prod.snd (coins.filter fun u => u.1 ∈ unspendable) +
      total Prod.snd (spendable coins unspendable) = total Prod.snd coins := by
  rw [← total_filter_add Prod.snd coins fun u => decide (u.1 ∈ unspendable)]
  simp [spendable]

/-- What is available is what the transaction may spend; nothing underflows. -/
theorem availableSats_eq (h : calls.Honest fee) (unspendable : List OutPoint) :
    availableSats p calls unspendable =
      some (total Prod.snd (spendable calls.listUnspent unspendable)) := by
  have hsplit := total_spendable calls.listUnspent unspendable
  have hbalance := h.balance
  have hfits := h.fits
  have hlisted : total Prod.snd (calls.listUnspent.filter fun u => u.1 ∈ unspendable) < 2 ^ u64 := by
    omega
  have hsum : ((calls.listUnspent.filter fun u => u.1 ∈ unspendable).foldlM
      (fun acc u => addWord u64 p acc u.2) 0) =
      some (total Prod.snd (calls.listUnspent.filter fun u => u.1 ∈ unspendable)) :=
    (foldlM_addWord p Prod.snd _).trans (narrow_of_lt hlisted)
  rw [availableSats, hsum, Option.bind_some, subWord_of_le (by omega)]
  congr 1
  omega

/-- The command prints that there is not enough, or the transaction is finished. -/
def CreatesOrRefuses (p : Profile) (calls : CreateUtxosCalls) (m : Machine Lock RgbUtxos Note) : Prop :=
  (∃ available, availableSats p calls (m.cell.map RgbUtxo.outpoint) = some available ∧
    ((createutxos p calls).exec m).1 = .returned (.error
      ("ERROR: not enough funds, call getaddress and send " ++
        toString (MIN_CREATE_UTXOS_SATS - available) ++ " satoshis"))) ∨
  ((createutxos p calls).exec m).1 = .returned (.ok ())

variable {m : Machine Lock RgbUtxos Note}

theorem createutxos_refuses {available : ℕ} (hfree : m.held .wallet = false)
    (havailable : availableSats p calls (m.cell.map RgbUtxo.outpoint) = some available)
    (hfew : available < MIN_CREATE_UTXOS_SATS) :
    ((createutxos p calls).exec m).1 = .returned (.error
      ("ERROR: not enough funds, call getaddress and send " ++
        toString (MIN_CREATE_UTXOS_SATS - available) ++ " satoshis")) := by
  simp [createutxos, Task.lock, Task.unlock, Task.get, Task.bind, Task.exec, Machine.perform,
    Task.expect, hfree, havailable, hfew]

theorem createutxos_aborts {available : ℕ} (hfree : m.held .wallet = false)
    (havailable : availableSats p calls (m.cell.map RgbUtxo.outpoint) = some available)
    (hmany : ¬available < MIN_CREATE_UTXOS_SATS)
    (hfinish : calls.finish ⟨[], m.cell.map RgbUtxo.outpoint, false⟩ = none) :
    ((createutxos p calls).exec m).1 = .aborted := by
  simp [createutxos, Task.lock, Task.get, Task.bind, Task.exec, Machine.perform,
    Task.expect, hfree, havailable, hmany, hfinish]

theorem createutxos_creates {available : ℕ} {tx : Tx} (hfree : m.held .wallet = false)
    (havailable : availableSats p calls (m.cell.map RgbUtxo.outpoint) = some available)
    (hmany : ¬available < MIN_CREATE_UTXOS_SATS)
    (hfinish : calls.finish ⟨[], m.cell.map RgbUtxo.outpoint, false⟩ = some tx) :
    ((createutxos p calls).exec m).1 = .returned (.ok ()) := by
  simp only [createutxos, Task.bind_def]
  rw [Task.exec_lock_bind hfree, Task.exec_get_bind]
  simp only [Machine.perform, havailable, Task.exec_expect_bind, if_neg hmany, hfinish,
    Task.exec_note_bind, Task.exec_put_bind]
  rw [Task.exec_bind_returned (Task.exec_forEach_note _ _ _), Task.exec_unlock_bind]
  rfl

/-- The guard lets through what cannot pay for the outputs alone. -/
theorem createutxos_aborts_between (h : calls.Honest fee) (hfree : m.held .wallet = false)
    (hguard : MIN_CREATE_UTXOS_SATS ≤
      total Prod.snd (spendable calls.listUnspent (m.cell.map RgbUtxo.outpoint)))
    (hshort : total Prod.snd (spendable calls.listUnspent (m.cell.map RgbUtxo.outpoint)) <
      UTXO_NUM * UTXO_SIZE_SAT) : ((createutxos p calls).exec m).1 = .aborted := by
  have hnone : calls.finish ⟨[], m.cell.map RgbUtxo.outpoint, false⟩ = none := by
    rw [← Option.not_isSome_iff_eq_none, h.finish]
    intro hpays
    obtain ⟨selected, hsub, hpays⟩ := hpays
    have hle := total_le_of_sublist hsub
    omega
  exact createutxos_aborts hfree (availableSats_eq h _) (Nat.not_lt.mpr hguard) hnone

/-- Nothing underflows, and the command aborts unless the coins that are not listed are
below the guard or pay four outputs and the fee. -/
theorem createutxos_funds_iff (h : calls.Honest fee) (hfree : m.held .wallet = false) :
    availableSats p calls (m.cell.map RgbUtxo.outpoint) =
      some (total Prod.snd (spendable calls.listUnspent (m.cell.map RgbUtxo.outpoint))) ∧
    (CreatesOrRefuses p calls m ↔
      total Prod.snd (spendable calls.listUnspent (m.cell.map RgbUtxo.outpoint)) <
          MIN_CREATE_UTXOS_SATS ∨
        Pays fee (spendable calls.listUnspent (m.cell.map RgbUtxo.outpoint))
          (UTXO_NUM * UTXO_SIZE_SAT)) := by
  have havailable := availableSats_eq (p := p) h (m.cell.map RgbUtxo.outpoint)
  refine ⟨havailable, ?_⟩
  by_cases hfew : total Prod.snd (spendable calls.listUnspent (m.cell.map RgbUtxo.outpoint)) <
      MIN_CREATE_UTXOS_SATS
  · have hrefuses := createutxos_refuses hfree havailable hfew
    exact ⟨fun _ => .inl hfew, fun _ => .inl ⟨_, havailable, hrefuses⟩⟩
  · rw [or_iff_right hfew, ← h.finish]
    cases hfinish : calls.finish ⟨[], m.cell.map RgbUtxo.outpoint, false⟩ with
    | none =>
      have haborts := createutxos_aborts hfree havailable hfew hfinish
      simp [CreatesOrRefuses, haborts]
    | some tx =>
      have hcreates := createutxos_creates hfree havailable hfew hfinish
      simp [CreatesOrRefuses, hcreates]

def firstCoin : OutPoint := ⟨Bytes32.fill 1, 0⟩

/-- A wallet with one coin, which pays 2030 sat of fee. -/
def oneCoinOf (sats : ℕ) : CreateUtxosCalls where
  balance := sats
  listUnspent := [(firstCoin, sats)]
  finish params :=
    if firstCoin ∉ params.unspendable ∧ UTXO_NUM * UTXO_SIZE_SAT + 2030 ≤ sats then
      some ⟨Bytes32.fill 2, [firstCoin]⟩
    else none

theorem oneCoinOf_honest {sats : ℕ} (hfits : sats < 2 ^ u64) :
    (oneCoinOf sats).Honest fun _ => 2030 where
  balance := by simp [oneCoinOf]
  fits := hfits
  finish := by
    intro unspendable
    have hsome : ((oneCoinOf sats).finish ⟨[], unspendable, false⟩).isSome = true ↔
        firstCoin ∉ unspendable ∧ UTXO_NUM * UTXO_SIZE_SAT + 2030 ≤ sats := by
      simp only [oneCoinOf]
      split <;> simp_all
    rw [hsome]
    constructor
    · rintro ⟨hfree, hpays⟩
      exact ⟨[(firstCoin, sats)], by simp [spendable, oneCoinOf, hfree], by simpa using hpays⟩
    · rintro ⟨selected, hsub, hpays⟩
      by_cases hfree : firstCoin ∈ unspendable
      · simp only [spendable, oneCoinOf, List.filter_cons, hfree, not_true, decide_false,
          Bool.false_eq_true, if_false, List.filter_nil, List.sublist_nil] at hsub
        rw [hsub] at hpays
        simp [UTXO_NUM, UTXO_SIZE_SAT] at hpays
      · refine ⟨hfree, ?_⟩
        have hle : total Prod.snd selected ≤ total Prod.snd [(firstCoin, sats)] := by
          apply total_le_of_sublist
          simpa [spendable, oneCoinOf, hfree] using hsub
        simp only [total_cons, total_nil] at hle hpays
        omega

theorem createutxos_funds_enough :
    CreatesOrRefuses .release (oneCoinOf 200000) ⟨fun _ => false, [], []⟩ := by
  have hhonest : (oneCoinOf 200000).Honest fun _ => 2030 := oneCoinOf_honest (by decide)
  have hiff := (createutxos_funds_iff (p := .release) (m := ⟨fun _ => false, [], []⟩) hhonest rfl).2
  exact hiff.mpr (.inr ⟨[(firstCoin, 200000)], by decide, by decide⟩)

/-- 50000 sat pass the guard but do not pay for the outputs. -/
theorem fiftyThousand_aborts :
    (oneCoinOf 50000).Honest (fun _ => 2030) ∧
    ((createutxos .release (oneCoinOf 50000)).exec ⟨fun _ => false, [], []⟩).1 = .aborted ∧
    ¬CreatesOrRefuses .release (oneCoinOf 50000) ⟨fun _ => false, [], []⟩ := by
  have haborts : ((createutxos .release (oneCoinOf 50000)).exec ⟨fun _ => false, [], []⟩).1 =
      .aborted := by rfl
  refine ⟨oneCoinOf_honest (by decide), haborts, ?_⟩
  simp [CreatesOrRefuses, haborts]

end RgbLightning.Node
