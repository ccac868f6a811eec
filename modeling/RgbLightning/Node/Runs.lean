import RgbLightning.Base.Monitor
import RgbLightning.Base.Runs
import RgbLightning.Node.Events

/-! # Runs of whole operations

Operations run one after the other, each to its end. A run stops when an
operation aborts the process or waits for a lock that nobody will release.
-/
namespace RgbLightning.Node
open MachineInt Decimal Runs

inductive Status where
  | running
  | aborted
  | blocked
  deriving DecidableEq

structure NodeState where
  status : Status
  machine : Machine Lock RgbUtxos Note

/-- A new node has an empty file and no lock is held. -/
def NodeState.init : NodeState := ⟨.running, ⟨fun _ => false, [], []⟩⟩

def Exit.status {α : Type} : Exit Lock α → Status
  | .returned _ => .running
  | .aborted => .aborted
  | .blocked _ => .blocked

variable (ids : ContractIdText) (p : Profile)

def nodeStep (s : NodeState) (op : Operation) : NodeState :=
  if s.status = .running then
    ⟨Exit.status ((op.program p ids).exec s.machine).1, ((op.program p ids).exec s.machine).2⟩
  else s

def nodeRun (ops : List Operation) : NodeState := run (nodeStep ids p) .init ops

end RgbLightning.Node
