import RgbLightning.Base.Cover
import RgbLightning.Node.Types

/-! # Asset values owned by the wallet

The wallet owns the fungible outputs whose seals are on its unspent outpoints.
They are collected in a map ordered by opout.
-/
namespace RgbLightning.Rgb
open MachineInt Cover
variable {Opout : Type*}

structure FungibleOutput (Opout : Type*) where
  opout : Opout
  sealOutpoint : OutPoint
  amount : ℕ
  deriving DecidableEq

/-- The outputs of one contract. Each opout is one output. -/
structure ContractHistory (Opout : Type*) where
  fungibles : List (FungibleOutput Opout)
  nodup : (fungibles.map FungibleOutput.opout).Nodup

abbrev History (Opout : Type*) := ContractId → Option (ContractHistory Opout)

/-- One entry of the owned values: the opout, its outpoint and its amount. -/
abbrev OwnedValue (Opout : Type*) := Opout × OutPoint × ℕ

def FungibleOutput.owned (o : FungibleOutput Opout) : OwnedValue Opout := (o.opout, o.sealOutpoint, o.amount)

abbrev OwnedValue.amount (v : OwnedValue Opout) : ℕ := v.2.2
abbrev OwnedValue.outpoint (v : OwnedValue Opout) : OutPoint := v.2.1

/-- A `u64` sum, hence `none` when a checked build overflows. -/
def sumAmounts (p : Profile) (values : List (OwnedValue Opout)) : Option ℕ :=
  values.foldlM (fun acc value => addWord u64 p acc value.2.2) 0

theorem sumAmounts_eq_narrow (p : Profile) (values : List (OwnedValue Opout)) :
    sumAmounts p values = narrow u64 p (total OwnedValue.amount values) :=
  foldlM_addWord p OwnedValue.amount values

theorem sumAmounts_release (values : List (OwnedValue Opout)) :
    sumAmounts .release values = some (total OwnedValue.amount values % 2 ^ u64) := by
  rw [sumAmounts_eq_narrow, narrow_release]

/-- What a checked build adds up, an unchecked one adds up. -/
theorem sumAmounts_release_of {p : Profile} {values : List (OwnedValue Opout)} {t : ℕ}
    (h : sumAmounts p values = some t) : sumAmounts .release values = some t := by
  rw [sumAmounts_eq_narrow] at h ⊢
  exact narrow_release_of h

variable [LinearOrder Opout]

abbrev OwnedValues (Opout : Type*) [LinearOrder Opout] := Std.TreeMap Opout (OutPoint × ℕ)

def collectOwned (unspents : List OutPoint) (fungibles : List (FungibleOutput Opout)) :
    OwnedValues Opout :=
  fungibles.foldl
    (fun state output =>
      if output.sealOutpoint ∈ unspents then state.insert output.opout (output.sealOutpoint, output.amount)
      else state) ∅

def getAssetOwnedValues (history : History Opout) (unspents : List OutPoint) (id : ContractId) :
    Except Error (OwnedValues Opout) :=
  match history id with
  | none => .error .unknownContractId
  | some h => .ok (collectOwned unspents h.fungibles)

def getRgbTotalAmount (p : Profile) (history : History Opout) (unspents : List OutPoint)
    (id : ContractId) : Option (Except Error ℕ) :=
  match getAssetOwnedValues history unspents id with
  | .error e => some (.error e)
  | .ok owned => (sumAmounts p owned.toList).map .ok

/-- What is owned, counted without a bound. -/
def ownedTotal (history : History Opout) (unspents : List OutPoint) (id : ContractId) : Except Error ℕ :=
  (getAssetOwnedValues history unspents id).map fun owned => total OwnedValue.amount owned.toList

/-- The comparison made by every command that needs assets. -/
def checkEnough (amount : ℕ) : Except Error ℕ → Except String Unit
  | .error e => .error e.message
  | .ok total =>
    if amount > total then .error "ERROR: do not have enough RGB assets" else .ok ()

theorem checkEnough_eq_ok {amount : ℕ} {total : Except Error ℕ} {u : Unit} :
    checkEnough amount total = .ok u ↔ ∃ t, total = .ok t ∧ amount ≤ t := by
  cases total with
  | error e => simp [checkEnough]
  | ok t =>
    by_cases h : amount > t
    · simp [checkEnough, h]
    · simp [checkEnough, Nat.not_lt.mp h, Nat.not_lt.mpr]

section Total
variable {p : Profile} {history : History Opout} {unspents : List OutPoint} {id : ContractId}

theorem getRgbTotalAmount_eq_ok {t : ℕ} : getRgbTotalAmount p history unspents id = some (.ok t) ↔
    ∃ owned, getAssetOwnedValues history unspents id = .ok owned ∧
      narrow u64 p (total OwnedValue.amount owned.toList) = some t := by
  unfold getRgbTotalAmount
  cases getAssetOwnedValues history unspents id with
  | error e => simp
  | ok owned => simp [sumAmounts_eq_narrow]

theorem getRgbTotalAmount_eq : getRgbTotalAmount p history unspents id =
    match ownedTotal history unspents id with
    | .error e => some (.error e)
    | .ok t => (narrow u64 p t).map .ok := by
  unfold getRgbTotalAmount ownedTotal
  cases getAssetOwnedValues history unspents id with
  | error e => rfl
  | ok owned => exact congrArg (Option.map Except.ok) (sumAmounts_eq_narrow p owned.toList)

/-- A sum that fits the word is the same in both builds. -/
theorem getRgbTotalAmount_of_fits (h : ∀ t, ownedTotal history unspents id = .ok t → t < 2 ^ u64) :
    getRgbTotalAmount p history unspents id = some (ownedTotal history unspents id) := by
  rw [getRgbTotalAmount_eq]
  cases htotal : ownedTotal history unspents id with
  | error e => rfl
  | ok t => simp [narrow_of_lt (h t htotal)]

theorem getRgbTotalAmount_dev_overflow {t : ℕ} (htotal : ownedTotal history unspents id = .ok t)
    (hover : 2 ^ u64 ≤ t) : getRgbTotalAmount .dev history unspents id = none := by
  simp [getRgbTotalAmount_eq, htotal, narrow_dev_of_le hover]

end Total

theorem mem_collectOwned {unspents : List OutPoint} {fungibles : List (FungibleOutput Opout)}
    (hnodup : (fungibles.map FungibleOutput.opout).Nodup) {v : OwnedValue Opout} :
    v ∈ (collectOwned unspents fungibles).toList ↔
      ∃ o ∈ fungibles, o.sealOutpoint ∈ unspents ∧ o.owned = v := by
  obtain ⟨k, x⟩ := v
  rw [Std.TreeMap.mem_toList_iff_getElem?_eq_some]
  induction fungibles using List.reverseRecOn with
  | nil => simp [collectOwned]
  | append_singleton fungibles o ih =>
    rw [List.map_append, List.nodup_append] at hnodup
    have ih := ih hnodup.1
    have hfresh : ∀ o' ∈ fungibles, o'.opout ≠ o.opout := by
      intro o' ho'
      exact hnodup.2.2 _ (List.mem_map_of_mem ho') _ (by simp)
    unfold collectOwned at ih ⊢
    rw [List.foldl_append, List.foldl_cons, List.foldl_nil]
    by_cases hseal : o.sealOutpoint ∈ unspents
    · rw [if_pos hseal, Std.TreeMap.getElem?_insert]
      by_cases hk : o.opout = k
      · subst hk
        simp only [Std.ReflCmp.compare_self, if_true, Option.some.injEq]
        constructor
        · rintro rfl
          exact ⟨o, by simp, hseal, rfl⟩
        · rintro ⟨o', ho', -, heq⟩
          obtain ⟨hop, rfl⟩ := Prod.mk.inj heq
          rcases List.mem_append.mp ho' with ho' | ho'
          · exact absurd hop (hfresh o' ho')
          · rw [List.mem_singleton.mp ho']
      · rw [if_neg (by simpa using hk), ih]
        simp [or_and_right, exists_or, FungibleOutput.owned, hk]
    · rw [if_neg hseal, ih]
      simp [or_and_right, exists_or, hseal]

theorem mem_getAssetOwnedValues {history : History Opout} {unspents : List OutPoint} {id : ContractId}
    {owned : OwnedValues Opout} (h : getAssetOwnedValues history unspents id = .ok owned)
    {v : OwnedValue Opout} (hv : v ∈ owned.toList) :
    ∃ c, history id = some c ∧ ∃ o ∈ c.fungibles, o.sealOutpoint ∈ unspents ∧ o.owned = v := by
  unfold getAssetOwnedValues at h
  cases hid : history id with
  | none =>
    rw [hid] at h
    cases h
  | some c =>
    rw [hid] at h
    cases h
    exact ⟨c, rfl, (mem_collectOwned c.nodup).mp hv⟩

theorem collectOwned_nodup (unspents : List OutPoint) (fungibles : List (FungibleOutput Opout)) :
    (collectOwned unspents fungibles).toList.Nodup := by
  apply Std.TreeMap.distinct_keys_toList.imp
  intro a b hab heq
  apply hab
  rw [heq]
  exact Std.ReflCmp.compare_self

/-- The owned values are the outputs sealed on unspent outpoints, reordered. -/
theorem collectOwned_perm (unspents : List OutPoint) (h : ContractHistory Opout) :
    (collectOwned unspents h.fungibles).toList.Perm
      ((h.fungibles.filter fun o => o.sealOutpoint ∈ unspents).map FungibleOutput.owned) := by
  have hinj : ∀ x ∈ h.fungibles, ∀ y ∈ h.fungibles, x.owned = y.owned → x = y := by
    intro x hx y hy hxy
    exact List.inj_on_of_nodup_map h.nodup hx hy (congrArg Prod.fst hxy)
  have hnodup : ((h.fungibles.filter fun o => o.sealOutpoint ∈ unspents).map FungibleOutput.owned).Nodup := by
    apply List.Nodup.map_on _ (h.nodup.of_map _ |>.filter _)
    intro x hx y hy
    exact hinj x (List.mem_of_mem_filter hx) y (List.mem_of_mem_filter hy)
  rw [List.perm_ext_iff_of_nodup (collectOwned_nodup _ _) hnodup]
  intro v
  rw [mem_collectOwned h.nodup]
  simp [and_assoc]

end RgbLightning.Rgb
