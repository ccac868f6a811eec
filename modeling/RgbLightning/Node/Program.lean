import RgbLightning.Base.Monitor
import RgbLightning.Rgb.OwnedValues

/-! # Programs of the node

Commands and event handlers are tasks over two locks, the wallet mutex and the
RGB runtime lock, and one cell, the `rgb_utxos` file. The results of library and
network calls are fixed inputs of a program.
-/
namespace RgbLightning.Node
open MachineInt Decimal Rgb

inductive Lock where
  | wallet
  | runtime
  deriving DecidableEq

abbrev RgbUtxos := List RgbUtxo

/-- The parameters of a transaction builder that decide what it may spend. -/
structure TxParams where
  addUtxos : List OutPoint
  unspendable : List OutPoint
  manuallySelectedOnly : Bool
  deriving DecidableEq

structure Tx where
  txid : Txid
  inputs : List OutPoint
  deriving DecidableEq

inductive Validity where
  | valid
  | unminedTerminals
  | other
  deriving DecidableEq

structure FundingTask where
  coloured : Bool
  posted : Bool
  validity : Validity
  deriving DecidableEq

/-- What a program notes: changes of the file it has written, UTXOs it got from the file,
outpoints on which it placed or announced an allocation, transactions it built, tasks it
spawned. -/
inductive Note where
  | pushed (utxo : RgbUtxo)
  | marked (outpoint : OutPoint)
  | handed (outpoint : OutPoint)
  | placed (outpoint : OutPoint)
  | built (params : TxParams) (tx : Tx)
  | spawned (task : FundingTask)
  deriving DecidableEq

abbrev Program := Task Lock RgbUtxos Note

abbrev Reply := Except String Unit

section Control
variable {α β : Type}

def orPrint (r : Except String α) (k : α → Program (Except String β)) :
    Program (Except String β) :=
  match r with
  | .ok a => k a
  | .error e => pure (.error e)

def orAbort (r : Outcome α) (k : α → Program Reply) : Program Reply :=
  match r with
  | .ok a => k a
  | .err e => pure (.error e)
  | .abort => .abort

def require (b : Bool) : Program Unit := if b then pure () else .abort

def printed (r : Except Error α) : Except String α := r.mapError Error.message

variable {σ : Type} {M : Monitor Lock RgbUtxos Note σ} {s : σ}

@[simp] theorem wp_orPrint {r : Except String α} {k : α → Program (Except String β)}
    {post : Except String β → σ → Prop} :
    (orPrint r k).wp M post s ↔
      (∀ a, r = .ok a → (k a).wp M post s) ∧ ∀ e, r = .error e → post (.error e) s := by
  cases r <;> simp [orPrint]

@[simp] theorem wp_orAbort {r : Outcome α} {k : α → Program Reply} {post : Reply → σ → Prop} :
    (orAbort r k).wp M post s ↔
      (∀ a, r = .ok a → (k a).wp M post s) ∧ ∀ e, r = .err e → post (.error e) s := by
  cases r <;> simp [orAbort]

@[simp] theorem wp_require {b : Bool} {post : Unit → σ → Prop} :
    (require b).wp M post s ↔ (b = true → post () s) := by
  cases b <;> simp [require]

@[simp] theorem printed_eq_ok {r : Except Error α} {a : α} : printed r = .ok a ↔ r = .ok a := by
  cases r <;> simp [printed, Except.mapError]

@[simp] theorem printed_eq_error {r : Except Error α} {m : String} :
    printed r = .error m ↔ ∃ e, r = .error e ∧ e.message = m := by
  cases r <;> simp [printed, Except.mapError]

end Control

/-- Mark the first entry of an outpoint. -/
def markColored (outpoint : OutPoint) : RgbUtxos → Option RgbUtxos
  | [] => none
  | u :: rest =>
    if u.outpoint = outpoint then some ({ u with colored := true } :: rest)
    else (markColored outpoint rest).map (u :: ·)

def firstUncolored (utxos : RgbUtxos) : Option RgbUtxo := utxos.find? fun u => !u.colored

theorem mem_of_firstUncolored {utxos : RgbUtxos} {u : RgbUtxo} (h : firstUncolored utxos = some u) :
    u ∈ utxos ∧ u.colored = false := by
  refine ⟨List.mem_of_find?_eq_some h, ?_⟩
  simpa using List.find?_some h

def checkUncoloredUtxos : Program (Except Error Unit) := do
  let utxos ← Task.get
  match firstUncolored utxos with
  | some _ => pure (.ok ())
  | none => pure (.error .noAvailableUtxos)

def getUtxo : Program RgbUtxo := do
  let utxos ← Task.get
  let utxo ← Task.expect (firstUncolored utxos)
  Task.note (.handed utxo.outpoint)
  pure utxo

/-- Read the file, mark the outpoint, write the file back. -/
def colorUtxo (outpoint : OutPoint) : Program Unit := do
  let utxos ← Task.get
  let utxos ← Task.expect (markColored outpoint utxos)
  Task.put utxos
  Task.note (.marked outpoint)

structure Assets where
  history : History ℕ
  unspents : List OutPoint

/-- The wallet is locked and synced while the values are collected. -/
def assetOwnedValues (assets : Assets) (id : ContractId) :
    Program (Except Error (OwnedValues ℕ)) := do
  Task.lock .wallet
  Task.unlock .wallet
  pure (getAssetOwnedValues assets.history assets.unspents id)

def rgbTotalAmount (p : Profile) (assets : Assets) (id : ContractId) :
    Program (Except Error ℕ) := do
  Task.lock .wallet
  Task.unlock .wallet
  Task.expect (getRgbTotalAmount p assets.history assets.unspents id)

section Rules
variable {σ : Type} {M : Monitor Lock RgbUtxos Note σ} {s : σ}

@[simp] theorem wp_checkUncoloredUtxos {post : Except Error Unit → σ → Prop} :
    checkUncoloredUtxos.wp M post s ↔ ∀ v, M.sees s v →
      ((firstUncolored v).isSome = true → post (.ok ()) (M.next s (.read v))) ∧
      (firstUncolored v = none → post (.error .noAvailableUtxos) (M.next s (.read v))) := by
  simp only [checkUncoloredUtxos, Task.bind_def, Task.wp_bind, Task.wp_get]
  refine forall₂_congr fun v _ => ?_
  cases firstUncolored v <;> simp

@[simp] theorem wp_getUtxo {post : RgbUtxo → σ → Prop} :
    getUtxo.wp M post s ↔ ∀ v, M.sees s v → ∀ u, firstUncolored v = some u →
      M.ok (M.next s (.read v)) (.emit (.handed u.outpoint)) ∧
      post u (M.next (M.next s (.read v)) (.emit (.handed u.outpoint))) := by
  simp [getUtxo]

@[simp] theorem wp_assetOwnedValues {assets : Assets} {id : ContractId}
    {post : Except Error (OwnedValues ℕ) → σ → Prop} :
    (assetOwnedValues assets id).wp M post s ↔
      M.ok s (.acquire .wallet) ∧
      M.ok (M.next s (.acquire .wallet)) (.release .wallet) ∧
      post (getAssetOwnedValues assets.history assets.unspents id)
        (M.next (M.next s (.acquire .wallet)) (.release .wallet)) := by
  simp [assetOwnedValues]

@[simp] theorem wp_rgbTotalAmount {p : Profile} {assets : Assets} {id : ContractId}
    {post : Except Error ℕ → σ → Prop} :
    (rgbTotalAmount p assets id).wp M post s ↔
      M.ok s (.acquire .wallet) ∧
      M.ok (M.next s (.acquire .wallet)) (.release .wallet) ∧
      ∀ total, getRgbTotalAmount p assets.history assets.unspents id = some total →
        post total (M.next (M.next s (.acquire .wallet)) (.release .wallet)) := by
  simp [rgbTotalAmount]

variable {m : Machine Lock RgbUtxos Note} {α : Type}

theorem rgbTotalAmount_lock_bind {p : Profile} {assets : Assets} {id : ContractId}
    {f : Except Error ℕ → Program α} :
    (rgbTotalAmount p assets id).bind f =
      (Task.lock .wallet).bind fun _ => (Task.unlock .wallet).bind fun _ =>
        (Task.expect (getRgbTotalAmount p assets.history assets.unspents id)).bind f := rfl

theorem assetOwnedValues_lock_bind {assets : Assets} {id : ContractId}
    {f : Except Error (OwnedValues ℕ) → Program α} :
    (assetOwnedValues assets id).bind f =
      (Task.lock .wallet).bind fun _ => (Task.unlock .wallet).bind fun _ =>
        f (getAssetOwnedValues assets.history assets.unspents id) := rfl

/-- The wallet is locked and released; what follows runs in the same file. -/
theorem rgbTotalAmount_exec_bind {p : Profile} {assets : Assets} {id : ContractId}
    {f : Except Error ℕ → Program α} (hwallet : m.held .wallet = false) :
    ((rgbTotalAmount p assets id).bind f).exec m =
      ((Task.expect (getRgbTotalAmount p assets.history assets.unspents id)).bind f).exec
        ((m.perform (.acquire .wallet)).perform (.release .wallet)) := by
  rw [rgbTotalAmount_lock_bind, Task.exec_lock_bind hwallet, Task.exec_unlock_bind]

theorem assetOwnedValues_exec_bind {assets : Assets} {id : ContractId}
    {f : Except Error (OwnedValues ℕ) → Program α} (hwallet : m.held .wallet = false) :
    ((assetOwnedValues assets id).bind f).exec m =
      (f (getAssetOwnedValues assets.history assets.unspents id)).exec
        ((m.perform (.acquire .wallet)).perform (.release .wallet)) := by
  rw [assetOwnedValues_lock_bind, Task.exec_lock_bind hwallet, Task.exec_unlock_bind]

end Rules

/-- The file has a coloured entry for the outpoint. -/
def ListedColored (outpoint : OutPoint) (utxos : RgbUtxos) : Prop :=
  ∃ u ∈ utxos, u.outpoint = outpoint ∧ u.colored = true

/-- The file has an entry for the outpoint. -/
def Listed (outpoint : OutPoint) (utxos : RgbUtxos) : Prop := ∃ u ∈ utxos, u.outpoint = outpoint

instance (outpoint : OutPoint) (utxos : RgbUtxos) : Decidable (Listed outpoint utxos) :=
  inferInstanceAs (Decidable (∃ u ∈ utxos, u.outpoint = outpoint))

theorem ListedColored.append {o : OutPoint} {utxos : RgbUtxos} (h : ListedColored o utxos)
    (more : RgbUtxos) : ListedColored o (utxos ++ more) := by
  obtain ⟨u, hu, ho⟩ := h
  exact ⟨u, List.mem_append_left _ hu, ho⟩

theorem Listed.append {o : OutPoint} {utxos : RgbUtxos} (h : Listed o utxos) (more : RgbUtxos) :
    Listed o (utxos ++ more) := by
  obtain ⟨u, hu, ho⟩ := h
  exact ⟨u, List.mem_append_left _ hu, ho⟩

theorem ListedColored.listed {o : OutPoint} {utxos : RgbUtxos} (h : ListedColored o utxos) :
    Listed o utxos := by
  obtain ⟨u, hu, ho, -⟩ := h
  exact ⟨u, hu, ho⟩

theorem listedColored_concat (o : OutPoint) (utxos : RgbUtxos) :
    ListedColored o (utxos ++ [⟨o, true⟩]) := ⟨⟨o, true⟩, by simp, rfl, rfl⟩

/-- Marking colours the entry and keeps every other. -/
theorem markColored_spec {o : OutPoint} {utxos utxos' : RgbUtxos}
    (h : markColored o utxos = some utxos') :
    ListedColored o utxos' ∧ (∀ x, ListedColored x utxos → ListedColored x utxos') ∧
      ∀ x, Listed x utxos → Listed x utxos' := by
  induction utxos generalizing utxos' with
  | nil => cases h
  | cons u rest ih =>
    unfold markColored at h
    by_cases hu : u.outpoint = o
    · rw [if_pos hu] at h
      cases h
      refine ⟨⟨_, List.mem_cons_self .., hu, rfl⟩, ?_, ?_⟩
      · rintro x ⟨v, hv, hx, hc⟩
        rcases List.mem_cons.mp hv with rfl | hv
        · exact ⟨_, List.mem_cons_self .., hx, rfl⟩
        · exact ⟨v, List.mem_cons_of_mem _ hv, hx, hc⟩
      · rintro x ⟨v, hv, hx⟩
        rcases List.mem_cons.mp hv with rfl | hv
        · exact ⟨_, List.mem_cons_self .., hx⟩
        · exact ⟨v, List.mem_cons_of_mem _ hv, hx⟩
    · rw [if_neg hu] at h
      obtain ⟨rest', hrest, rfl⟩ := Option.map_eq_some_iff.mp h
      obtain ⟨hmarked, hcolored, hlisted⟩ := ih hrest
      refine ⟨?_, ?_, ?_⟩
      · obtain ⟨v, hv, hx⟩ := hmarked
        exact ⟨v, List.mem_cons_of_mem _ hv, hx⟩
      · rintro x ⟨v, hv, hx⟩
        rcases List.mem_cons.mp hv with rfl | hv
        · exact ⟨_, List.mem_cons_self .., hx⟩
        · obtain ⟨w, hw, hw'⟩ := hcolored x ⟨v, hv, hx⟩
          exact ⟨w, List.mem_cons_of_mem _ hw, hw'⟩
      · rintro x ⟨v, hv, hx⟩
        rcases List.mem_cons.mp hv with rfl | hv
        · exact ⟨_, List.mem_cons_self .., hx⟩
        · obtain ⟨w, hw, hw'⟩ := hlisted x ⟨v, hv, hx⟩
          exact ⟨w, List.mem_cons_of_mem _ hw, hw'⟩

end RgbLightning.Node
