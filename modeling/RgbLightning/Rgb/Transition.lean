import RgbLightning.Rgb.OwnedValues

/-! # RGB transitions built from owned values

`sendasset` and the coloured channel funding select inputs with the same greedy
loop, one opout at a time. `send_rgb` then consumes every allocation of the
contract on the transaction's inputs.
-/
namespace RgbLightning.Rgb
open MachineInt Cover
variable {Opout : Type*}

structure Selection where
  rgbInputs : List OutPoint
  rgbChangeAmount : ℕ
  deriving DecidableEq

/-- The loop over the owned values, from the inputs and the amount collected so far. -/
def selectFrom (p : Profile) (amt : ℕ) :
    List (OwnedValue Opout) → List OutPoint → ℕ → Option (List OutPoint × ℕ)
  | [], rgbInputs, inputAmount => some (rgbInputs, inputAmount)
  | value :: rest, rgbInputs, inputAmount =>
    if inputAmount ≥ amt then some (rgbInputs, inputAmount)
    else (addWord u64 p inputAmount value.amount).bind fun inputAmount =>
      selectFrom p amt rest (rgbInputs ++ [value.outpoint]) inputAmount

/-- The greedy selection and the change it leaves. -/
def selectInputs (p : Profile) (amt : ℕ) (owned : List (OwnedValue Opout)) : Option Selection :=
  (selectFrom p amt owned [] 0).bind fun (rgbInputs, inputAmount) =>
    (subWord u64 p inputAmount amt).map fun rgbChangeAmount => ⟨rgbInputs, rgbChangeAmount⟩

/-- The opouts a transition consumes and the amounts it assigns. -/
structure Transition (Opout : Type*) where
  inputs : List (Opout × ℕ)
  assignments : List ℕ
  deriving DecidableEq

def Transition.Balanced (t : Transition Opout) : Prop :=
  (t.inputs.map Prod.snd).sum = t.assignments.sum

instance (t : Transition Opout) : Decidable t.Balanced :=
  inferInstanceAs (Decidable (_ = _))

/-- What the RGB runtime is asked for. -/
structure Runtime (Opout : Type*) where
  debugHistory : History Opout
  stateForOutpoints : ContractId → List OutPoint → List (Opout × ℕ)

/-- `send_rgb` adds every allocation on the previous outputs as an input. -/
def sendRgb (runtime : Runtime Opout) (id : ContractId) (prevOutputs : List OutPoint)
    (assignments : List ℕ) : Transition Opout :=
  ⟨runtime.stateForOutpoints id prevOutputs, assignments⟩

/-- The change is assigned only when there is some. -/
def changeAssignment (rgbChangeAmount : ℕ) : List ℕ :=
  if rgbChangeAmount > 0 then [rgbChangeAmount] else []

@[simp] theorem changeAssignment_sum (n : ℕ) : (changeAssignment n).sum = n := by
  unfold changeAssignment
  split
  · simp
  · simp only [List.sum_nil]
    omega

variable [LinearOrder Opout] (p : Profile) (runtime : Runtime Opout) (unspents : List OutPoint)
  (id : ContractId) (amt : ℕ)

/-- The checks of `sendasset` before it selects inputs. -/
def sendassetAccepts (sealValid : Bool) : Outcome Unit :=
  (Outcome.ofOption (getRgbTotalAmount p runtime.debugHistory unspents id)).bind fun total =>
    (Outcome.ofExcept (checkEnough amt total)).bind fun _ =>
      if sealValid then .ok ()
      else .err "ERROR: blinded_utxo must be a valid RGB blinded UTXO"

/-- The transition `sendasset` builds. Its transaction spends the selected inputs only. -/
def sendassetTransition (sealValid uncoloredAvailable : Bool) : Outcome (Transition Opout) :=
  (sendassetAccepts p runtime unspents id amt sealValid).bind fun _ =>
    match getAssetOwnedValues runtime.debugHistory unspents id with
    | .error _ => .abort
    | .ok owned =>
      (Outcome.ofOption (selectInputs p amt owned.toList)).bind fun selected =>
        if selected.rgbChangeAmount > 0 ∧ uncoloredAvailable = false then
          .err Error.noAvailableUtxos.message
        else .ok (sendRgb runtime id selected.rgbInputs
          (changeAssignment selected.rgbChangeAmount ++ [amt]))

/-- The transition of a coloured `FundingGenerationReady` carrying `amt`. Its
transaction also spends coins for fees. -/
def fundingTransition (feeCoins : List OutPoint) : Outcome (Transition Opout) :=
  match getAssetOwnedValues runtime.debugHistory unspents id with
  | .error _ => .abort
  | .ok owned =>
    (Outcome.ofOption (selectInputs p amt owned.toList)).bind fun selected =>
      .ok (sendRgb runtime id (selected.rgbInputs ++ feeCoins)
        (amt :: changeAssignment selected.rgbChangeAmount))

end RgbLightning.Rgb
