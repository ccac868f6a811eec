import RgbLightning.Base.KeyedRuns
import RgbLightning.Swap.MakerOffers

/-! # The inbound payments

An invoice is entered as pending under its hash. A claimed payment settles the entry of
its hash, or makes one where there is none. `invoicestatus` reads the entry.
-/
namespace RgbLightning.Payment
open MachineInt Decimal Runs KeyedRuns Swap

section Invoices
variable (ids : ContractIdText)

structure GetInvoiceArgs where
  amtMsat : ℕ
  expirySecs : ℕ
  rgb : Option (ContractId × ℕ)
  deriving DecidableEq

def getinvoiceCmd : String := "`getinvoice <amt_msats> <expiry_secs> <rgb_contract_id> <amt_rgb>`"

def invoiceAmountArg (amtStr : Text) : Except String ℕ :=
  match parseU64 amtStr with
  | .error _ => .error "ERROR: getinvoice provided payment amount was not a number"
  | .ok amtMsat =>
    if amtMsat < INVOICE_MIN_MSAT then
      .error ("ERROR: amt_msat cannot be less than " ++ toString INVOICE_MIN_MSAT)
    else .ok amtMsat

def invoiceExpiryArg (expirySecsStr : Text) : Except String ℕ :=
  match parseU32 expirySecsStr with
  | .error _ => .error "ERROR: getinvoice provided expiry was not a number"
  | .ok expirySecs => .ok expirySecs

def invoiceRgbArg (contractIdStr amtRgbStr : Text) : Except String (ContractId × ℕ) :=
  match ids.fromStr contractIdStr with
  | none => .error ("ERROR: invalid contract ID: " ++ String.ofList contractIdStr)
  | some contractId =>
    match parseU64 amtRgbStr with
    | .error e => .error ("ERROR: couldn't parse amt_rgb: " ++ e.message)
    | .ok amtRgb => .ok (contractId, amtRgb)

def getinvoiceArgs : List Text → Except String GetInvoiceArgs
  | amtStr :: expirySecsStr :: _ => do
    let amtMsat ← invoiceAmountArg amtStr
    let expirySecs ← invoiceExpiryArg expirySecsStr
    return ⟨amtMsat, expirySecs, none⟩
  | _ => .error "ERROR: getinvoice has 2 required arguments: getinvoice <amt_msats> <expiry_secs>"

def getcoloredinvoiceArgs : List Text → Except String GetInvoiceArgs
  | amtStr :: expirySecsStr :: contractIdStr :: amtRgbStr :: _ => do
    let amtMsat ← invoiceAmountArg amtStr
    let expirySecs ← invoiceExpiryArg expirySecsStr
    let rgb ← invoiceRgbArg ids contractIdStr amtRgbStr
    return ⟨amtMsat, expirySecs, some rgb⟩
  | _ => .error ("ERROR: getcoloredinvoice has 4 required arguments: " ++ getinvoiceCmd)

/-- What `get_invoice` enters for the invoice it has created. -/
def Invoice.pendingInfo (invoice : Invoice) (amtMsat : ℕ) : PaymentInfo where
  preimage := none
  secret := some invoice.paymentSecret
  status := .pending
  amtMsat := some amtMsat

def Invoice.enter (invoice : Invoice) (amtMsat : ℕ) (inbound : Payments) : Payments :=
  Function.update inbound invoice.paymentHash (some (invoice.pendingInfo amtMsat))

/-- An invoice that could not be created is reported and not entered. -/
def getInvoice (amtMsat : ℕ) (created : Except String Invoice) (inbound : Payments) : Payments :=
  match created with
  | .error _ => inbound
  | .ok invoice => invoice.enter amtMsat inbound

def invoiceStatus (inbound : Payments) (paymentHash : PaymentHash) (isExpired : Bool) :
    Except String String :=
  match inbound paymentHash with
  | none => .error "ERROR: unknown invoice"
  | some v =>
    match v.status with
    | .pending => .ok (if isExpired then "expired" else "pending")
    | .succeeded => .ok "succeeded"
    | .failed => .ok "failed"

end Invoices

section Runs
variable (ids : ContractIdText)

inductive InboundInput where
  | getinvoice (words : List Text) (create : GetInvoiceArgs → Except String Invoice)
  | getcoloredinvoice (words : List Text) (create : GetInvoiceArgs → Except String Invoice)
  | paymentClaimed (ev : PaymentClaimed)

def inboundStep (inbound : Payments) : InboundInput → Payments
  | .getinvoice words create =>
    match getinvoiceArgs words with
    | .error _ => inbound
    | .ok args => getInvoice args.amtMsat (create args) inbound
  | .getcoloredinvoice words create =>
    match getcoloredinvoiceArgs ids words with
    | .error _ => inbound
    | .ok args => getInvoice args.amtMsat (create args) inbound
  | .paymentClaimed ev => ev.settle inbound

def inboundRun (inputs : List InboundInput) : Payments := run (inboundStep ids) (fun _ => none) inputs

/-- What happens to the entry of one hash. -/
inductive InboundChange where
  | issued (invoice : Invoice) (amtMsat : ℕ)
  | claimed (ev : PaymentClaimed)
  deriving DecidableEq

namespace InboundChange

def hash : InboundChange → PaymentHash
  | issued invoice _ => invoice.paymentHash
  | claimed ev => ev.paymentHash

def cell : InboundChange → Option PaymentInfo → Option PaymentInfo
  | issued invoice amtMsat, _ => some (invoice.pendingInfo amtMsat)
  | claimed ev, some info => some (ev.info info.amtMsat)
  | claimed ev, none => some (ev.info (some ev.amountMsat))

def issuedAmount : InboundChange → Option ℕ
  | issued _ amtMsat => some amtMsat
  | claimed _ => none

def claimedAmount : InboundChange → Option ℕ
  | issued .. => none
  | claimed ev => some ev.amountMsat

end InboundChange

def issuedBy (args : Except String GetInvoiceArgs) (create : GetInvoiceArgs → Except String Invoice) :
    Option InboundChange :=
  match args with
  | .error _ => none
  | .ok args =>
    match create args with
    | .error _ => none
    | .ok invoice => some (.issued invoice args.amtMsat)

def InboundInput.change : InboundInput → Option InboundChange
  | getinvoice words create => issuedBy (getinvoiceArgs words) create
  | getcoloredinvoice words create => issuedBy (getcoloredinvoiceArgs ids words) create
  | paymentClaimed ev => some (.claimed ev)

/-- What has happened to a hash, in order. -/
def changesOf (hash : PaymentHash) (inputs : List InboundInput) : List InboundChange :=
  touching (fun c => some c.hash) hash (inputs.filterMap (InboundInput.change ids))

/-- The amount of the last invoice, or of the first claim where no invoice was issued. -/
def shownAmount (changes : List InboundChange) : Option ℕ :=
  (changes.reverse.findSome? InboundChange.issuedAmount).or
    (changes.findSome? InboundChange.claimedAmount)

/-- The entry of a hash to which these changes have happened. -/
def shownInfo (changes : List InboundChange) : Option PaymentInfo :=
  match changes.getLast? with
  | none => none
  | some (.issued invoice amtMsat) => some (invoice.pendingInfo amtMsat)
  | some (.claimed ev) => some (ev.info (shownAmount changes))

variable {ids}

theorem settle_eq_cell (ev : PaymentClaimed) (inbound : Payments) :
    ev.settle inbound = Function.update inbound ev.paymentHash
      ((InboundChange.claimed ev).cell (inbound ev.paymentHash)) := by
  unfold PaymentClaimed.settle
  cases inbound ev.paymentHash <;> rfl

theorem inboundRun_eq_keyed (inputs : List InboundInput) :
    inboundRun ids inputs = run (keyedStep (fun c => some c.hash) InboundChange.cell) (fun _ => none)
      (inputs.filterMap (InboundInput.change ids)) := by
  induction inputs using List.reverseRecOn with
  | nil => rfl
  | append_singleton inputs input ih =>
    rw [inboundRun, run_concat, ← inboundRun, List.filterMap_append]
    have hstep : ∀ inbound, inboundStep ids inbound input =
        run (keyedStep (fun c => some c.hash) InboundChange.cell) inbound
          ([input].filterMap (InboundInput.change ids)) := by
      intro inbound
      cases input with
      | getinvoice words create =>
        cases hargs : getinvoiceArgs words with
        | error e => simp [inboundStep, InboundInput.change, issuedBy, hargs]
        | ok args =>
          cases hcreate : create args with
          | error e => simp [inboundStep, InboundInput.change, issuedBy, getInvoice, hargs, hcreate]
          | ok invoice =>
            simp [inboundStep, InboundInput.change, issuedBy, getInvoice, hargs, hcreate, run]
            rfl
      | getcoloredinvoice words create =>
        cases hargs : getcoloredinvoiceArgs ids words with
        | error e => simp [inboundStep, InboundInput.change, issuedBy, hargs]
        | ok args =>
          cases hcreate : create args with
          | error e => simp [inboundStep, InboundInput.change, issuedBy, getInvoice, hargs, hcreate]
          | ok invoice =>
            simp [inboundStep, InboundInput.change, issuedBy, getInvoice, hargs, hcreate, run]
            rfl
      | paymentClaimed ev => exact settle_eq_cell ev inbound
    rw [hstep, ih, run, run, run, List.foldl_append]

theorem shownAmount_issued (changes : List InboundChange) (invoice : Invoice) (amtMsat : ℕ) :
    shownAmount (changes ++ [.issued invoice amtMsat]) = some amtMsat := by
  simp [shownAmount, InboundChange.issuedAmount, List.findSome?_cons]

theorem shownAmount_claimed (changes : List InboundChange) (ev : PaymentClaimed) :
    shownAmount (changes ++ [.claimed ev]) = (shownAmount changes).or (some ev.amountMsat) := by
  simp [shownAmount, InboundChange.issuedAmount, InboundChange.claimedAmount, List.findSome?_append,
    List.findSome?_cons]

theorem shownAmount_isSome {changes : List InboundChange} (h : changes ≠ []) :
    (shownAmount changes).isSome = true := by
  induction changes using List.reverseRecOn with
  | nil => exact absurd rfl h
  | append_singleton changes last =>
    cases last with
    | issued invoice amtMsat => rw [shownAmount_issued, Option.isSome_some]
    | claimed ev => simp [shownAmount_claimed]

/-- An entry shows the amount of its changes. -/
theorem shownInfo_concat (changes : List InboundChange) (last : InboundChange) :
    ∃ info, shownInfo (changes ++ [last]) = some info ∧
      info.amtMsat = shownAmount (changes ++ [last]) := by
  unfold shownInfo
  rw [List.getLast?_concat]
  cases last with
  | issued invoice amtMsat => exact ⟨_, rfl, (shownAmount_issued changes invoice amtMsat).symm⟩
  | claimed ev => exact ⟨_, rfl, rfl⟩

theorem run_cell (changes : List InboundChange) :
    run (fun v (c : InboundChange) => c.cell v) none changes = shownInfo changes := by
  induction changes using List.reverseRecOn with
  | nil => rfl
  | append_singleton changes last ih =>
    rw [run_concat, ih]
    cases last with
    | issued invoice amtMsat => simp [shownInfo, InboundChange.cell]
    | claimed ev =>
      have hlast : shownInfo (changes ++ [.claimed ev]) =
          some (ev.info ((shownAmount changes).or (some ev.amountMsat))) := by
        rw [← shownAmount_claimed]
        simp [shownInfo]
      rw [hlast]
      -- the first change settles the amount, unless it is this one
      cases changes using List.reverseRecOn with
      | nil => rfl
      | append_singleton changes earlier =>
        obtain ⟨info, hinfo, hamt⟩ := shownInfo_concat changes earlier
        have hissome : (shownAmount (changes ++ [earlier])).isSome = true :=
          shownAmount_isSome (by simp)
        obtain ⟨amt, hsome⟩ := Option.isSome_iff_exists.mp hissome
        rw [hinfo, hsome, Option.some_or, InboundChange.cell, hamt, hsome]

/-- After every run the entry of a hash is the one its invoices and claims leave, and
`invoicestatus` tells the last of them: it never says that an invoice has failed. -/
theorem inbound_entry_exact (ids : ContractIdText) (inputs : List InboundInput) (hash : PaymentHash)
    (isExpired : Bool) :
    inboundRun ids inputs hash = shownInfo (changesOf ids hash inputs) ∧
    invoiceStatus (inboundRun ids inputs) hash isExpired =
      match (changesOf ids hash inputs).getLast? with
      | none => .error "ERROR: unknown invoice"
      | some (.issued ..) => .ok (if isExpired then "expired" else "pending")
      | some (.claimed _) => .ok "succeeded" := by
  have hentry : inboundRun ids inputs hash = shownInfo (changesOf ids hash inputs) := by
    rw [inboundRun_eq_keyed, run_keyedStep, run_cell, changesOf]
  refine ⟨hentry, ?_⟩
  unfold invoiceStatus
  rw [hentry, shownInfo]
  cases (changesOf ids hash inputs).getLast? with
  | none => rfl
  | some last => cases last <;> rfl

end Runs

end RgbLightning.Payment
