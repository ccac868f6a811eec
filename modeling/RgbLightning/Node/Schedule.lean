import RgbLightning.Base.LockNesting
import RgbLightning.Node.Events

/-! # The interleaved node

Commands run one at a time on one task and events on another. Every task spawned
by an event runs once, at any time after it was spawned.
-/
namespace RgbLightning.Node
open MachineInt Decimal

inductive TaskId where
  | cli
  | event
  /-- The task spawned by the log entry at this position. -/
  | spawned (position : ℕ)
  deriving DecidableEq

abbrev NodeSystem := TaskSystem TaskId Lock RgbUtxos Note Operation

def mayStart (t : TaskId) (op : Operation) (log : List (TaskId × Note)) (last : Option Operation) :
    Bool :=
  match t, op with
  | .cli, .command _ => true
  | .event, .event _ => true
  | .spawned position, .spawned task =>
    last.isNone && log[position]? = some (.event, .spawned task)
  | _, _ => false

def nodeSchedule (ids : ContractIdText) (p : Profile) :
    Schedule TaskId Lock RgbUtxos Note Operation where
  body op := op.program p ids
  mayStart := mayStart

/-- The node after a list of choices, from an empty file. -/
def interleave (ids : ContractIdText) (p : Profile) (choices : List (Choice TaskId Operation)) :
    Option NodeSystem :=
  TaskSystem.after (nodeSchedule ids p) [] choices

theorem mayStart_event {t : TaskId} {e : Event} {log : List (TaskId × Note)}
    {last : Option Operation} (h : mayStart t (.event e) log last = true) : t = .event := by
  cases t with
  | event => rfl
  | cli => cases h
  | spawned position => cases h

/-- A task acts a number of times, or starts an operation and then acts. -/
def acting (t : TaskId) (n : ℕ) : List (Choice TaskId Operation) := List.replicate n (.act t)
def starting (t : TaskId) (op : Operation) (n : ℕ) : List (Choice TaskId Operation) :=
  .start t op :: acting t n

def ownedUnits : Assets where
  history _ := some ⟨[⟨0, ⟨Bytes32.fill 1, 0⟩, 100⟩], by simp⟩
  unspents := [⟨Bytes32.fill 1, 0⟩]

def colouredFunding : FundingCalls where
  rgbInfo := some ⟨Bytes32.fill 7, 60, 0⟩
  assets := ownedUnits
  finish params := some ⟨Bytes32.fill 5, params.addUtxos⟩
  sendRgb := true
  saveConsignment := true
  posted := true
  validity := .valid

end RgbLightning.Node
