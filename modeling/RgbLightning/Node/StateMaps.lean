import RgbLightning.Base.Serializable
import RgbLightning.Payment.Inbound
import RgbLightning.Swap.TakerRuns

/-! # The maps of the node and their mutexes

Payments and trades are kept in four maps. Each has a mutex of its own, and commands and
event handlers lock it for as long as they use the map. A `tradeslist` locks one map
after the other and counts as two operations.
-/
namespace RgbLightning.Node
open Payment Swap Runs Guarded

inductive MapLock where
  | inbound
  | outbound
  | maker
  | whitelisted
  deriving DecidableEq

namespace MapLock

@[reducible] def Content : MapLock → Type
  | inbound | outbound => Payments
  | maker | whitelisted => Trades

/-- The order in which an operation takes two of them. -/
def rank : MapLock → ℕ
  | inbound => 0
  | outbound => 1
  | maker => 2
  | whitelisted => 3

theorem rank_lt (l : MapLock) : l.rank < 4 := by cases l <;> decide

end MapLock

abbrev Maps := Store MapLock.Content

def Maps.empty : Maps
  | .inbound | .outbound => fun _ => none
  | .maker | .whitelisted => fun _ => none

/-- What an operation does besides using the maps. -/
inductive MapNote where
  | invoiced (hash : PaymentHash)
  | offered (hash : PaymentHash)
  | handed (hash : PaymentHash) (accepted : Bool)
  | answered (call : Swap.Call)
  | claimed (hash : PaymentHash)
  | status (hash : PaymentHash) (reply : Except String String)
  | payments (inbound outbound : Payments)
  | trades (trades : Trades)

abbrev MapProc := Proc MapLock MapLock.Content MapNote

/-- Lock a map, change it, and drop the guard. -/
def locked (l : MapLock) (update : l.Content → l.Content) : MapProc :=
  .acquire l (.access l update fun _ => .release l .done)

/-- Lock a map, print what is read, and drop the guard. -/
def printing (l : MapLock) (note : l.Content → MapNote) : MapProc :=
  .acquire l (.access l id fun content => .emit (note content) (.release l .done))

inductive MapOp where
  | getInvoice (amtMsat : ℕ) (created : Except String Invoice)
  | invoiceStatus (hash : PaymentHash) (isExpired : Bool)
  | listPayments
  /-- `send_payment`, `keysend` and `maker_execute` from the hand-over on. -/
  | send (attempt : Attempt) (answer : Answer)
  /-- `maker_init` with the payment that was created, if it was. -/
  | makerInit (created : Option PaymentHash) (terms : Terms)
  | taker (swap : SwapString)
  | listTaker
  | listMaker
  | paymentClaimed (ev : PaymentClaimed)
  | payment (e : PaymentEvent)
  | htlcIntercepted (ev : HTLCIntercepted) (view : ChannelView)

def getInvoiceBody (amtMsat : ℕ) (created : Except String Invoice) : MapProc :=
  .acquire .inbound <|
    match created with
    | .error _ => .release .inbound .done
    | .ok invoice => .emit (.invoiced invoice.paymentHash) <|
        .access .inbound (invoice.enter amtMsat) fun _ => .release .inbound .done

def listPaymentsBody : MapProc :=
  .acquire .inbound <| .acquire .outbound <| .access .inbound id fun inbound =>
    .access .outbound id fun outbound => .emit (.payments inbound outbound) <|
      .release .outbound <| .release .inbound .done

def sendBody (attempt : Attempt) (answer : Answer) : MapProc :=
  .emit (.handed attempt.paymentHash answer.accepted) <|
    match attempt.status answer with
    | .ok status => locked .outbound (attempt.insert status)
    | _ => .abort

/-- The guard of the payments lives until the trade is removed. -/
def paymentClaimedBody (ev : PaymentClaimed) : MapProc :=
  .acquire .inbound <| .access .inbound ev.settle fun _ => .emit (.claimed ev.paymentHash) <|
    .acquire .maker <| .access .maker (fun trades => Function.update trades ev.paymentHash none)
      fun _ => .release .maker <| .release .inbound .done

def swapChecksBody (ev : HTLCIntercepted) (view : ChannelView) : MapProc :=
  match channelByScid view.inboundListing ev.prevShortChannelId,
      channelByScid view.outboundListing ev.requestedNextHopScid with
  | some _, some _ => .acquire .whitelisted <|
      .access .whitelisted (fun trades => (verdict ev view trades).trades ev trades) fun trades =>
        match (verdict ev view trades).call ev with
        | some call => .emit (.answered call) <|
            if ev.isSwap then .release .whitelisted .done else .abort
        | none => .abort
  | _, _ => .abort

def htlcInterceptedBody (ev : HTLCIntercepted) (view : ChannelView) : MapProc :=
  if ev.isSwap then swapChecksBody ev view
  else .emit (.answered (.failInterceptedHtlc ev.interceptId)) (swapChecksBody ev view)

def MapOp.body : MapOp → MapProc
  | getInvoice amtMsat created => getInvoiceBody amtMsat created
  | invoiceStatus hash isExpired =>
    printing .inbound fun inbound => .status hash (Payment.invoiceStatus inbound hash isExpired)
  | listPayments => listPaymentsBody
  | send attempt answer => sendBody attempt answer
  | makerInit none _ => .abort
  | makerInit (some hash) terms => .emit (.offered hash) <|
      locked .maker fun trades => Function.update trades hash (some terms)
  | taker swap =>
    locked .whitelisted fun trades => Function.update trades swap.paymentHash (some swap.terms)
  | listTaker => printing .whitelisted .trades
  | listMaker => printing .maker .trades
  | paymentClaimed ev => paymentClaimedBody ev
  | payment e => locked .outbound e.handle
  | htlcIntercepted ev view => htlcInterceptedBody ev view

/-- What an operation leaves in the maps when it runs alone. -/
def MapOp.effect : MapOp → Maps → Maps
  | getInvoice amtMsat created, maps =>
    Function.update maps .inbound (Payment.getInvoice amtMsat created (maps .inbound))
  | send attempt answer, maps =>
    match attempt.status answer with
    | .ok status => Function.update maps .outbound (attempt.insert status (maps .outbound))
    | _ => maps
  | makerInit (some hash) terms, maps =>
    Function.update maps .maker (Function.update (maps .maker) hash (some terms))
  | taker swap, maps => Function.update maps .whitelisted
      (Function.update (maps .whitelisted) swap.paymentHash (some swap.terms))
  | paymentClaimed ev, maps =>
    Function.update (Function.update maps .inbound (ev.settle (maps .inbound))) .maker
      (Function.update (maps .maker) ev.paymentHash none)
  | payment e, maps => Function.update maps .outbound (e.handle (maps .outbound))
  | htlcIntercepted ev view, maps => Function.update maps .whitelisted
      ((verdict ev view (maps .whitelisted)).trades ev (maps .whitelisted))
  | makerInit none _, maps | invoiceStatus .., maps | listPayments, maps | listTaker, maps
  | listMaker, maps => maps

/-- What it does besides. -/
def MapOp.notes : MapOp → Maps → List MapNote
  | getInvoice _ (.ok invoice), _ => [.invoiced invoice.paymentHash]
  | invoiceStatus hash isExpired, maps =>
    [.status hash (Payment.invoiceStatus (maps .inbound) hash isExpired)]
  | listPayments, maps => [.payments (maps .inbound) (maps .outbound)]
  | send attempt answer, _ => [.handed attempt.paymentHash answer.accepted]
  | makerInit (some hash) _, _ => [.offered hash]
  | listTaker, maps => [.trades (maps .whitelisted)]
  | listMaker, maps => [.trades (maps .maker)]
  | htlcIntercepted ev view, maps =>
    (if ev.isSwap then [] else [.answered (.failInterceptedHtlc ev.interceptId)]) ++
      (((verdict ev view (maps .whitelisted)).call ev).map MapNote.answered).toList
  | paymentClaimed ev, _ => [.claimed ev.paymentHash]
  | getInvoice _ (.error _), _ | makerInit none _, _ | taker _, _ | payment _, _ => []

section Alone

theorem exec_printing (l : MapLock) (note : l.Content → MapNote) (maps : Maps) :
    (printing l note).exec maps = (maps, [note (maps l)]) := by
  simp [printing, Proc.exec]

theorem exec_swapChecksBody (ev : HTLCIntercepted) (view : ChannelView) (maps : Maps) :
    (swapChecksBody ev view).exec maps =
      (Function.update maps .whitelisted
          ((verdict ev view (maps .whitelisted)).trades ev (maps .whitelisted)),
        (((verdict ev view (maps .whitelisted)).call ev).map MapNote.answered).toList) := by
  unfold swapChecksBody
  split
  · rename_i inbound outbound _ _
    simp only [Proc.exec]
    cases hcall : (verdict ev view (maps .whitelisted)).call ev with
    | none => rfl
    | some call => cases hs : ev.isSwap <;> rfl
  · rename_i hnone
    have hverdict : verdict ev view (maps .whitelisted) = .noChannel := by
      unfold verdict
      split
      · rename_i inbound outbound hin hout
        exact absurd hout (hnone inbound outbound hin)
      · rfl
    rw [hverdict]
    simp [Proc.exec, Verdict.trades, Verdict.call]

/-- An operation that runs alone has its effect and makes its notes. -/
theorem MapOp.exec_body (op : MapOp) (maps : Maps) : op.body.exec maps = (op.effect maps, op.notes maps) := by
  cases op with
  | getInvoice amtMsat created =>
    cases created with
    | error e => simp [body, getInvoiceBody, effect, notes, Proc.exec, Payment.getInvoice]
    | ok invoice => rfl
  | invoiceStatus hash isExpired => exact exec_printing ..
  | listPayments => simp [body, listPaymentsBody, effect, notes, Proc.exec]
  | send attempt answer =>
    simp only [body, sendBody, effect, notes, Proc.exec]
    cases attempt.status answer <;> rfl
  | makerInit created terms => cases created <;> rfl
  | taker swap => rfl
  | listTaker => exact exec_printing ..
  | listMaker => exact exec_printing ..
  | paymentClaimed ev => rfl
  | payment e => rfl
  | htlcIntercepted ev view =>
    cases hs : ev.isSwap <;>
      simp [body, htlcInterceptedBody, effect, notes, hs, Proc.exec, exec_swapChecksBody]

end Alone

section Discipline

theorem locked_disciplined (l : MapLock) (update : l.Content → l.Content) :
    (locked l update).Disciplined MapLock.rank ∅ := by
  simp [locked, Proc.Disciplined, Proc.Leaving]

theorem printing_disciplined (l : MapLock) (note : l.Content → MapNote) :
    (printing l note).Disciplined MapLock.rank ∅ := by
  simp [printing, Proc.Disciplined, Proc.Leaving]

theorem getInvoiceBody_disciplined (amtMsat : ℕ) (created : Except String Invoice) :
    (getInvoiceBody amtMsat created).Disciplined MapLock.rank ∅ := by
  cases created <;> simp [getInvoiceBody, Proc.Disciplined, Proc.Leaving]

theorem listPaymentsBody_disciplined : listPaymentsBody.Disciplined MapLock.rank ∅ := by
  simp [listPaymentsBody, Proc.Disciplined, Proc.Leaving, MapLock.rank, Finset.erase_insert_eq_erase]

theorem paymentClaimedBody_disciplined (ev : PaymentClaimed) :
    (paymentClaimedBody ev).Disciplined MapLock.rank ∅ := by
  simp [paymentClaimedBody, Proc.Disciplined, Proc.Leaving, MapLock.rank, Finset.erase_insert_eq_erase]

theorem swapChecksBody_disciplined (ev : HTLCIntercepted) (view : ChannelView) :
    (swapChecksBody ev view).Disciplined MapLock.rank ∅ := by
  unfold swapChecksBody
  split
  · refine ⟨by simp, by simp, fun trades => ?_⟩
    dsimp only
    cases (verdict ev view trades).call ev with
    | none => trivial
    | some call => cases ev.isSwap <;> simp [Proc.Disciplined, Proc.Leaving]
  · trivial

/-- Every operation takes the maps in the one order and drops no guard before its last use
of a map. -/
theorem MapOp.body_disciplined (op : MapOp) : op.body.Disciplined MapLock.rank ∅ := by
  cases op with
  | getInvoice amtMsat created => exact getInvoiceBody_disciplined amtMsat created
  | invoiceStatus hash isExpired => exact printing_disciplined ..
  | listPayments => exact listPaymentsBody_disciplined
  | send attempt answer =>
    simp only [body, sendBody, Proc.Disciplined]
    cases attempt.status answer with
    | ok status => exact locked_disciplined ..
    | _ => trivial
  | makerInit created terms =>
    cases created with
    | none => trivial
    | some hash => exact locked_disciplined ..
  | taker swap => exact locked_disciplined ..
  | listTaker => exact printing_disciplined ..
  | listMaker => exact printing_disciplined ..
  | paymentClaimed ev => exact paymentClaimedBody_disciplined ev
  | payment e => exact locked_disciplined ..
  | htlcIntercepted ev view =>
    simp only [body, htlcInterceptedBody]
    split
    · exact swapChecksBody_disciplined ev view
    · exact swapChecksBody_disciplined ev view

end Discipline

end RgbLightning.Node
